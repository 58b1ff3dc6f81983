/-
The label that a node tells in a language. A label may be an edge like any other, and then it may
lead to a node, which is no text and in no language. Such a label counts among those in no language;
where it stands in front of them it is found first, and since it has no text the node tells none. So
the slot of labels in no language is blocked for good. Every other slot, once a label is set, stays
taken.
-/
import UmlOntology.Proofs.Ontology.Node

namespace UmlOntology

/-- The text of an object that is a text in the language. -/
def Object.textIn? (lang : Option String) : Object → Option String
  | .literal v l => if l = lang then some v else none
  | .node _ => none

theorem Object.textIn?_of_ne {x : Object} {lang : Option String} (h : x.lang? ≠ lang) :
    x.textIn? lang = none := by
  cases x with
  | node a => rfl
  | literal v l => exact if_neg h

namespace Node

variable {n m : Node} {text : String} {lang : Option String}

/-- The first text in the language among the labels. -/
def firstLabel? (n : Node) (lang : Option String) : Option String :=
  n.labels.findSome? (Object.textIn? lang)

/-! ## Labels that lead to a node -/

/-- The slot of labels in no language is blocked: of all labels that have no language, the first
leads to a node. -/
def Blocked (n : Node) : Prop :=
  ∃ front a back, n.labels = front ++ .node a :: back ∧ ∀ x ∈ front, x.lang? ≠ none

theorem blocked_iff : n.Blocked ↔ ∃ a, n.labels.find? (·.lang? = none) = some (.node a) := by
  unfold Blocked
  constructor
  · rintro ⟨front, a, back, hlabels, hfront⟩
    refine ⟨a, List.find?_eq_some_iff_append.2 ⟨rfl, front, back, hlabels, fun x hx => ?_⟩⟩
    simpa using hfront x hx
  · rintro ⟨a, ha⟩
    obtain ⟨-, front, back, hlabels, hfront⟩ := List.find?_eq_some_iff_append.1 ha
    exact ⟨front, a, back, hlabels, fun x hx => by simpa using hfront x hx⟩

theorem Blocked.label? (h : n.Blocked) : n.label? none = none := by
  obtain ⟨a, ha⟩ := blocked_iff.1 h
  unfold Node.label?
  rw [ha]
  rfl

theorem Blocked.mono (he : n.edges <+: m.edges) (h : n.Blocked) : m.Blocked := by
  obtain ⟨front, a, back, hlabels, hfront⟩ := h
  obtain ⟨more, hmore⟩ := labels_prefix he
  exact ⟨front, a, back ++ more, by rw [← hmore, hlabels, List.append_assoc]; rfl, hfront⟩

/-- A slot that is not blocked tells the first text. -/
theorem label?_eq_firstLabel? (h : ¬ (lang = none ∧ n.Blocked)) :
    n.label? lang = n.firstLabel? lang := by
  unfold label? firstLabel?
  cases hfind : n.labels.find? (·.lang? = lang) with
  | none =>
    symm
    refine List.findSome?_eq_none_iff.2 fun x hx => Object.textIn?_of_ne ?_
    simpa using List.find?_eq_none.1 hfind x hx
  | some x =>
    obtain ⟨hx, front, back, hlabels, hfront⟩ := List.find?_eq_some_iff_append.1 hfind
    have hlang : x.lang? = lang := by simpa using hx
    cases x with
    | node a =>
      obtain rfl : none = lang := hlang
      exact absurd ⟨rfl, blocked_iff.2 ⟨a, hfind⟩⟩ h
    | literal v l =>
      have hnone : front.findSome? (Object.textIn? lang) = none := by
        refine List.findSome?_eq_none_iff.2 fun y hy => Object.textIn?_of_ne ?_
        simpa using hfront y hy
      rw [hlabels, List.findSome?_append, hnone, List.findSome?_cons]
      simp [Object.textIn?, Object.value?, show l = lang from hlang]

theorem not_blocked_of_label? (h : (n.label? lang).isSome) : ¬ (lang = none ∧ n.Blocked) := by
  rintro ⟨rfl, hb⟩
  rw [hb.label?] at h
  cases h

/-! ## Setting a label -/

theorem blocked_of_setLabel (h : (n.setLabel text lang).Blocked) : n.Blocked := by
  change (n.add (.label text lang)).Blocked at h
  by_cases hx : n.Knows (.label text lang)
  · rwa [add_of_knows hx] at h
  · rw [add_of_not_knows hx, blocked_iff, labels_append] at h
    obtain ⟨a, ha⟩ := h
    refine blocked_iff.2 ⟨a, ?_⟩
    rw [List.find?_append] at ha
    cases hfind : n.labels.find? (·.lang? = none) with
    | some x =>
      rw [hfind] at ha
      exact ha
    | none =>
      -- the new label is a text
      rw [hfind] at ha
      have hmem := List.mem_of_find?_eq_some ha
      simp [Addition.toEdge] at hmem

/-- A slot that is not blocked has a label after one has been set. -/
theorem isSome_label?_setLabel (text : String) (h : ¬ (lang = none ∧ n.Blocked)) :
    ((n.setLabel text lang).label? lang).isSome := by
  have hknows : (n.setLabel text lang).Knows (.label text lang) := knows_add n (.label text lang)
  rcases hknows with hslot | hedge
  · exact hslot
  · rw [label?_eq_firstLabel? fun hb => h ⟨hb.1, blocked_of_setLabel hb.2⟩]
    refine List.findSome?_isSome_iff.2 ⟨.literal text lang, ?_, by simp [Object.textIn?]⟩
    exact List.mem_map.2 ⟨_, List.mem_filter.2 ⟨hedge, by simp⟩, rfl⟩

/-- The slot of a language is taken for good: the node tells a label, the first text that its labels
have in the language, and whatever is added, it goes on to tell this one, refuses every other and is
left as it is. -/
def KeepsLabel (n : Node) (lang : Option String) : Prop :=
  ∃ told, n.label? lang = some told ∧ n.firstLabel? lang = some told ∧
    ∀ xs text, (n.addAll xs).label? lang = some told ∧
      (n.addAll xs).setLabel? text lang = none ∧ (n.addAll xs).setLabel text lang = n.addAll xs

theorem keepsLabel_of_label? (h : (n.label? lang).isSome) : n.KeepsLabel lang := by
  obtain ⟨told, ht⟩ := Option.isSome_iff_exists.1 h
  refine ⟨told, ht, by rw [← label?_eq_firstLabel? (not_blocked_of_label? h), ht],
    fun xs text => ?_⟩
  have hlater : (n.addAll xs).label? lang = some told :=
    label_of_prefix (grows_addAll n xs).edges ht
  have hslot : ((n.addAll xs).label? lang).isSome := by
    rw [hlater]
    rfl
  exact ⟨hlater, if_pos hslot, add_of_knows (x := .label text lang) (Or.inl hslot)⟩

/-- A label that is set in a language settles the slot for good, unless the slot is the one of labels
in no language and is blocked. A slot that is blocked stays so: no label is ever told there, and a
label is refused only if it is there already, like an edge. -/
theorem keepsLabel_setLabel_iff (n : Node) (text : String) (lang : Option String) :
    ((n.setLabel text lang).KeepsLabel lang ↔ ¬ (lang = none ∧ n.Blocked)) ∧
    (n.Blocked → ∀ xs text', (n.addAll xs).label? none = none ∧
      (n.addAll xs).setLabel? text' none = (n.addAll xs).addEdge? .label (.literal text' none)) := by
  constructor
  · constructor
    · rintro ⟨told, ht, -⟩ ⟨rfl, hb⟩
      have hset : (n.setLabel text none).Blocked :=
        hb.mono (grows_add n (.label text none)).edges
      rw [hset.label?] at ht
      cases ht
    · exact fun h => keepsLabel_of_label? (isSome_label?_setLabel text h)
  · intro hb xs text'
    have hlater := (hb.mono (grows_addAll n xs).edges).label?
    refine ⟨hlater, if_neg ?_⟩
    rw [hlater]
    exact Bool.false_ne_true

/-- A node whose first label leads to another node. -/
def labelledByNode : Node :=
  addAll { address := ⟨"urn:a"⟩, kind := .concept } [.edge .label (.node ⟨"urn:b"⟩)]

/-- There a label in a language is kept, but a second label in no language is not refused. -/
theorem keepsLabel_labelledByNode :
    (labelledByNode.setLabel "first" (some "en")).KeepsLabel (some "en") ∧
    (labelledByNode.Blocked ∧
      (labelledByNode.addAll [.label "first" none]).setLabel? "second" none =
        (labelledByNode.addAll [.label "first" none]).addEdge? .label (.literal "second" none)) := by
  have hb : labelledByNode.Blocked := blocked_iff.2 ⟨⟨"urn:b"⟩, by decide⟩
  exact ⟨(keepsLabel_setLabel_iff labelledByNode "first" (some "en")).1.2 nofun, hb,
    ((keepsLabel_setLabel_iff labelledByNode "first" none).2 hb _ _).2⟩

/-- The text that is set there in no language is not told, and a second one is taken. -/
theorem not_keepsLabel_labelledByNode :
    let n := labelledByNode.setLabel "first" none
    (n.label? none = none ∧ n.firstLabel? none = some "first") ∧
      (n.setLabel? "second" none).isSome ∧ ¬ n.KeepsLabel none := by
  intro n
  have hnone : n.label? none = none := by decide
  refine ⟨⟨hnone, by decide⟩, by decide, ?_⟩
  rintro ⟨told, ht, -⟩
  rw [hnone] at ht
  cases ht

end Node

end UmlOntology
