/-
Labels over a run of calls. In each language a node has one label at most, and the first call that
gives one there settles it: later calls find the slot taken, and neither a kind that is settled nor
an edge that is added touches it.
-/
import UmlOntology.Proofs.Uml.Construct
import UmlOntology.Proofs.Uml.History

namespace UmlOntology

/-- The text of a label, if it is in the language. -/
def textIn? (lang : Option String) (label : String × Option String) : Option String :=
  if label.2 = lang then some label.1 else none

/-! ## The labels of a node -/

namespace Node

variable {n : Node} {xs : List Addition} {lang : Option String}

/-- In each language the node has at most one label, which is a text, and tells it. -/
def Labelled (n : Node) : Prop :=
  ∀ lang, n.labels.filter (·.lang? = lang) = ((n.label? lang).map (Object.literal · lang)).toList

theorem labelled_of_labels_nil (h : n.labels = []) : n.Labelled := by
  intro lang
  unfold label?
  rw [h]
  rfl

theorem find?_labels_of_none (hn : n.Labelled) (h : n.label? lang = none) :
    n.labels.find? (·.lang? = lang) = none := by
  have hnil := hn lang
  rw [h, Option.map_none, Option.toList_none] at hnil
  rw [← List.head?_filter, hnil]
  rfl

theorem labels_addEdge {p : Predicate} (hp : p ≠ .label) (n : Node) (x : Object) :
    (n.add (.edge p x)).labels = n.labels := by
  by_cases hx : n.Knows (.edge p x)
  · rw [add_of_knows hx]
  · rw [add_of_not_knows hx, labels_append]
    simp [Addition.toEdge, hp]

theorem labels_addLabel (text : String) (hn : n.Labelled) (h : n.label? lang = none) :
    (n.add (.label text lang)).labels = n.labels ++ [.literal text lang] := by
  have hnew : ¬ n.Knows (.label text lang) := by
    rintro (hslot | hedge)
    · rw [h] at hslot
      cases hslot
    · -- the edge would be a label that fills the slot
      have hmem : Object.literal text lang ∈ n.labels :=
        List.mem_map.2 ⟨_, List.mem_filter.2 ⟨hedge, by simp⟩, rfl⟩
      exact List.find?_eq_none.1 (find?_labels_of_none hn h) _ hmem (by simp [Object.lang?])
  rw [add_of_not_knows hnew, labels_append]
  rfl

/-- An addition gives a label where the slot of its language is free, and none where it is taken. -/
theorem labelled_add {x : Addition} (hn : n.Labelled) (hx : ∀ o, x ≠ .edge .label o) :
    (n.add x).Labelled ∧
      ∀ lang, (n.add x).label? lang = (n.label? lang).or (x.label?.bind (textIn? lang)) := by
  cases x with
  | edge p o =>
    have hp : p ≠ .label := by
      rintro rfl
      exact hx o rfl
    have hlabels := labels_addEdge hp n o
    unfold Labelled label?
    rw [hlabels]
    exact ⟨hn, fun lang => (Option.or_none).symm⟩
  | label text l =>
    cases hslot : n.label? l with
    | some t =>
      have hself : n.add (.label text l) = n := add_of_knows (Or.inl (by rw [hslot]; rfl))
      rw [hself]
      refine ⟨hn, fun lang => ?_⟩
      by_cases hl : l = lang
      · rw [← hl, hslot]
        rfl
      · simp [Addition.label?, textIn?, hl]
    | none =>
      have hlabels := labels_addLabel text hn hslot
      have hlabel : ∀ lang, (n.add (.label text l)).label? lang =
          (n.label? lang).or (textIn? lang (text, l)) := by
        intro lang
        unfold label? textIn?
        rw [hlabels, List.find?_append]
        by_cases hl : l = lang
        · rw [← hl, find?_labels_of_none hn hslot]
          simp [Object.lang?, Object.value?]
        · simp [Object.lang?, hl]
      refine ⟨fun lang => ?_, hlabel⟩
      rw [hlabels, List.filter_append, hn lang, hlabel]
      unfold textIn?
      by_cases hl : l = lang
      · rw [← hl, hslot]
        simp [Object.lang?]
      · simp [Object.lang?, hl]

theorem labelled_addAll (hn : n.Labelled) (hxs : ∀ o, .edge .label o ∉ xs) :
    (n.addAll xs).Labelled ∧
      ∀ lang, (n.addAll xs).label? lang =
        (n.label? lang).or ((xs.filterMap Addition.label?).findSome? (textIn? lang)) := by
  induction xs generalizing n with
  | nil => exact ⟨hn, fun lang => (Option.or_none).symm⟩
  | cons x xs ih =>
    obtain ⟨hx, hxl⟩ := labelled_add hn fun o ho => hxs o (ho ▸ List.mem_cons_self)
    obtain ⟨hl, hlabel⟩ := ih hx fun o ho => hxs o (List.mem_cons_of_mem _ ho)
    refine ⟨hl, fun lang => ?_⟩
    rw [addAll_cons, hlabel, hxl, Option.or_assoc, List.filterMap_cons]
    cases x.label? with
    | none => rfl
    | some l =>
      rw [List.findSome?_cons]
      cases hl : textIn? lang l with
      | none => simp [hl]
      | some t => simp [hl]

end Node

/-- To declare an identifier is to give no label. -/
theorem Request.Labels.additions {r : Request} {labels : List (String × Option String)}
    (h : r.Labels labels) (o : Options) :
    (o.additions r).filterMap Addition.label? = labels ∧ ∀ x, .edge .label x ∉ o.additions r := by
  unfold Options.additions
  constructor
  · rw [List.filterMap_append, h.labels]
    split <;> rfl
  · intro x hx
    rcases Options.mem_additions_iff.1 hx with ⟨-, hx⟩ | hx
    · cases hx
    · rcases h.edges _ _ hx with hp | hp <;> cases hp

/-! ## Calls -/

/-- The graph after constructs have been built in turn, each under its own options. -/
def Graph.buildEach (g : Graph) (cs : List (Options × Construct)) : Graph :=
  g.extend (cs.map fun c => .build c.1 c.2)

/-- The text that a call labels the node at an address with, in a language. -/
def labelAt? (a : Iri) (lang : Option String) (c : Options × Construct) : Option String :=
  if c.2.address? c.1 = some a then c.2.label?.bind (textIn? lang) else none

namespace Graph

variable {g : Graph} {a : Iri} {lang : Option String}

theorem labelled_realize {o : Options} {c : Construct} {r : Request} (hr : c.request? = some r)
    (hg : (g.nodeAt a).Labelled) :
    ((g.realize o r).nodeAt a).Labelled ∧ ∀ lang, ((g.realize o r).nodeAt a).label? lang =
      ((g.nodeAt a).label? lang).or (labelAt? a lang (o, c)) := by
  have haddr : c.address? o = some (o.address r.id) := by
    rw [Construct.address?, hr]
    rfl
  unfold labelAt?
  rw [haddr]
  by_cases ha : a = o.address r.id
  · subst ha
    obtain ⟨hlabels, hedges⟩ := (Construct.labels_of_request hr).additions o
    have hnode : (g.realize o r).nodeAt (o.address r.id) =
        ((g.nodeAt (o.address r.id)).demand r.kind).addAll (o.additions r) := by
      rw [nodeAt_realize, if_pos rfl]
    -- the demand leaves the labels alone
    have hdemand : ((g.nodeAt (o.address r.id)).demand r.kind).Labelled := hg
    obtain ⟨hl, hlabel⟩ := Node.labelled_addAll hdemand hedges
    rw [hnode]
    refine ⟨hl, fun lang => ?_⟩
    rw [hlabel, hlabels, if_pos rfl]
    cases c.label? with
    | none => rfl
    | some l => cases ht : textIn? lang l <;> simp [ht] <;> rfl
  · have hnode : (g.realize o r).nodeAt a = g.nodeAt a := by
      unfold nodeAt
      rw [get?_realize, if_neg ha]
    have ha' : ¬ some (o.address r.id) = some a := fun h => ha (Option.some.inj h).symm
    rw [hnode]
    refine ⟨hg, fun lang => ?_⟩
    rw [if_neg ha', Option.or_none]

theorem buildEach_cons (g : Graph) (c : Options × Construct) (cs : List (Options × Construct)) :
    g.buildEach (c :: cs) = (Operation.apply g (.build c.1 c.2)).buildEach cs := rfl

theorem buildEach_append (g : Graph) (cs ds : List (Options × Construct)) :
    g.buildEach (cs ++ ds) = (g.buildEach cs).buildEach ds := by
  unfold buildEach
  rw [List.map_append, extend_append]

theorem labelled_buildEach (cs : List (Options × Construct)) (hg : (g.nodeAt a).Labelled) :
    ((g.buildEach cs).nodeAt a).Labelled ∧ ∀ lang, ((g.buildEach cs).nodeAt a).label? lang =
      ((g.nodeAt a).label? lang).or (cs.findSome? (labelAt? a lang)) := by
  induction cs generalizing g with
  | nil => exact ⟨hg, fun lang => (Option.or_none).symm⟩
  | cons c cs ih =>
    obtain ⟨o, c⟩ := c
    have hstep : ((Operation.apply g (.build o c)).nodeAt a).Labelled ∧
        ∀ lang, ((Operation.apply g (.build o c)).nodeAt a).label? lang =
          ((g.nodeAt a).label? lang).or (labelAt? a lang (o, c)) := by
      cases hr : c.request? with
      | none =>
        rw [Operation.apply_build_of_none hr]
        refine ⟨hg, fun lang => ?_⟩
        simp [labelAt?, Construct.address?, hr]
      | some r =>
        rw [Operation.apply_build_of_some hr]
        exact labelled_realize hr hg
    obtain ⟨hl, hlabel⟩ := ih hstep.1
    refine ⟨hl, fun lang => ?_⟩
    rw [buildEach_cons, hlabel, hstep.2, Option.or_assoc, List.findSome?_cons]
    cases labelAt? a lang (o, c) <;> rfl

end Graph

/-- Names are labels in the language of names or in none. -/
theorem Construct.lang_of_label? {c : Construct} {text : String} {lang : Option String}
    (h : c.label? = some (text, lang)) : lang = some Vocabulary.nameLanguage ∨ lang = none := by
  have hnamed : ∀ {name? : Option String},
      name?.map inNameLanguage = some (text, lang) → lang = some Vocabulary.nameLanguage := by
    intro name? hname
    obtain ⟨name, -, hl⟩ := Option.map_eq_some_iff.1 hname
    exact (congrArg Prod.snd hl).symm
  cases c with
  | concept el | datatype el | attributeProperty el | individual el type | package el =>
    obtain ⟨d, -, hl⟩ := Option.map_eq_some_iff.1 h
    exact Or.inl (congrArg Prod.snd hl).symm
  | unclassified el =>
    obtain ⟨d, -, hl⟩ := Option.map_eq_some_iff.1 h
    exact Or.inr (congrArg Prod.snd hl).symm
  | annotationProperty el | stereotype el =>
    rw [label?] at h
    split at h
    · cases h
    · obtain ⟨d, -, hl⟩ := Option.map_eq_some_iff.1 h
      exact Or.inl (congrArg Prod.snd hl).symm
  | objectProperty el =>
    rw [label?] at h
    split at h
    · exact Or.inl (hnamed h)
    · cases h
  | associationEnd el base side =>
    rw [label?] at h
    split at h
    · cases h
    · exact Or.inl (hnamed h)
  | conceptReference el key | stereotypeReference id | association id | reference id
  | elementReference el key => cases h

/-- After calls that start from an empty graph, every label of a node is a text in the language of
names or in none, there is at most one of each, and it is the name that the first call gave which
labels the node in this way; there is none if no call did. What labels a node once labels it after
all later calls, whatever kinds and names they bring. -/
theorem labels_of_calls (cs : List (Options × Construct)) {n : Node}
    (hn : n ∈ (Graph.buildEach {} cs).nodes) :
    (∀ x ∈ n.labels, ∃ text,
      x = .literal text (some Vocabulary.nameLanguage) ∨ x = .literal text none) ∧
    (∀ lang, (n.labels.filter (·.lang? = lang)).length ≤ 1 ∧
      n.label? lang = cs.findSome? (labelAt? n.address lang)) ∧
    ∀ before after m lang, cs = before ++ after →
      (Graph.buildEach {} before).get? n.address = some m → (m.label? lang).isSome →
      n.label? lang = m.label? lang := by
  have hget : (Graph.buildEach {} cs).get? n.address = some n :=
    Graph.get?_of_mem (Graph.wf_extend Graph.wf_empty _).addresses hn
  have hempty : (Graph.nodeAt {} n.address).Labelled := Node.labelled_of_labels_nil rfl
  obtain ⟨hl, hfirst⟩ := Graph.labelled_buildEach cs hempty
  rw [Graph.nodeAt_of_get? hget] at hl hfirst
  have hlabel : ∀ lang, n.label? lang = cs.findSome? (labelAt? n.address lang) := hfirst
  refine ⟨fun x hx => ?_, fun lang => ⟨?_, hlabel lang⟩, ?_⟩
  · -- the label is the one that its language tells, and some call gave it
    have hmem : x ∈ n.labels.filter (·.lang? = x.lang?) := List.mem_filter.2 ⟨hx, by simp⟩
    rw [hl, Option.mem_toList, Option.map_eq_some_iff] at hmem
    obtain ⟨text, ht, hxt⟩ := hmem
    rw [hlabel] at ht
    obtain ⟨c, -, hc⟩ := List.exists_of_findSome?_eq_some ht
    unfold labelAt? at hc
    split at hc
    · obtain ⟨⟨text', lang⟩, hcl, htext⟩ := Option.bind_eq_some_iff.1 hc
      unfold textIn? at htext
      split at htext
      · rename_i hlang
        refine ⟨text, ?_⟩
        rw [← hxt, ← hlang]
        rcases Construct.lang_of_label? hcl with rfl | rfl
        · exact Or.inl rfl
        · exact Or.inr rfl
      · cases htext
    · cases hc
  · rw [hl]
    cases n.label? lang <;> simp
  · rintro before after m lang rfl hm hslot
    obtain ⟨text, ht⟩ := Option.isSome_iff_exists.1 hslot
    obtain ⟨n', hn', hgrows⟩ := (Graph.grows_extend (Graph.buildEach {} before)
      (after.map fun c => .build c.1 c.2)).nodes _ m hm
    rw [← Graph.buildEach, ← Graph.buildEach_append, hget] at hn'
    cases hn'
    rw [ht]
    exact Node.label_of_prefix hgrows.edges ht

/-- A declaration of no known sort, a class and a datatype under one identifier, with three names. -/
def threeNames : List (Options × Construct) :=
  let named (name : String) : Element := { attributes := [("xmi.id", "c"), ("name", name)] }
  [({}, .reference "c"), ({}, .unclassified (named "first")), ({}, .concept (named "second")),
    ({}, .datatype (named "third"))]

/-- The name that came before the kind was settled and the first that came with a kind are both
labels; the third is none. -/
theorem labels_of_threeNames : ∃ n,
    (n ∈ (Graph.buildEach {} threeNames).nodes ∧ n.address = Options.address {} "c") ∧
      n.label? none = some "first" ∧ n.label? (some "en") = some "second" ∧
      (n.labels.filter (·.lang? = some "en")).length ≤ 1 := by
  have hmem : (Graph.buildEach {} threeNames).nodes.head (by decide) ∈
      (Graph.buildEach {} threeNames).nodes := List.head_mem _
  have hlabels := (labels_of_calls threeNames hmem).2.1
  refine ⟨_, ⟨hmem, by decide⟩, ?_, ?_, (hlabels _).1⟩
  · rw [(hlabels none).2]
    decide
  · rw [(hlabels (some "en")).2]
    decide

end UmlOntology
