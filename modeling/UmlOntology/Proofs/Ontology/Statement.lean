/-
Statements as lines of text. The subject is written as it is, whatever characters it has, so a line
cannot be told apart from its beginning. But predicate and object are plain: they bring no line break,
and from the end of the line they are found one after the other, the object by its last bracket or by
the quotes that no backslash stands before. So a line has a line break exactly if its subject has one,
and different statements have different lines. A text is read back from its opening quote on, whatever
it is.
-/
import UmlOntology.Ontology.Statement
import UmlOntology.Proofs.Ontology.Literal
import UmlOntology.Proofs.Ontology.Store
import Mathlib.Data.List.Nodup
import Mathlib.Data.List.TakeWhile

namespace UmlOntology

/-! ## Plain texts -/

/-- The characters by which the parts of a line, and lines, are told apart. -/
def lineMarks : List Char := ['<', '>', '"', '\n', '\r']

/-- The text has none of the characters that count in a line. -/
def IsPlain (s : String) : Prop := ∀ c ∈ s.toList, c ∉ lineMarks

-- by the characters that the text has, and not by all that there are
instance (s : String) : Decidable (IsPlain s) := List.decidableBAll (· ∉ lineMarks) s.toList

/-- The text stays on one line. -/
def OneLine (s : String) : Prop := '\n' ∉ s.toList ∧ '\r' ∉ s.toList

instance (s : String) : Decidable (OneLine s) := inferInstanceAs (Decidable (_ ∧ _))

theorem IsPlain.not_mem {s : String} (hs : IsPlain s) {c : Char} (hc : c ∈ lineMarks) :
    c ∉ s.toList :=
  fun h => hs c h hc

theorem IsPlain.not_mem_append {s : String} (hs : IsPlain s) {back : List Char}
    (hb : '<' ∉ back) : '<' ∉ s.toList ++ back := by
  rw [List.mem_append, not_or]
  exact ⟨hs.not_mem (by decide), hb⟩

/-- The object is a node with a plain address, or a text whose language, if it has one, is plain. -/
def Object.Plain : Object → Prop
  | .node a => IsPlain a.text
  | .literal _ lang => ∀ l, lang = some l → IsPlain l

/-- Behind its subject the statement has nothing, but for the text of a literal, that counts in a
line. -/
structure Statement.Plain (s : Statement) : Prop where
  predicate : IsPlain s.predicate.text
  object : s.object.Plain

/-! ## The parts of a line -/

namespace Literal

/-- What stands behind the closing quote. -/
def suffix : Option String → List Char
  | none => []
  | some l => '@' :: l.toList

theorem toList_render (v : String) (lang : Option String) :
    (render v lang).toList = '"' :: encode v.toList ++ '"' :: suffix lang := by
  cases lang <;> simp [render, suffix]

theorem suffix_inj {lang lang' : Option String} (h : suffix lang = suffix lang') :
    lang = lang' := by
  cases lang with
  | none =>
    cases lang' with
    | none => rfl
    | some l' => cases h
  | some l =>
    cases lang' with
    | none => cases h
    | some l' => rw [String.toList_inj.1 (List.cons.inj h).2]

theorem not_mem_suffix {lang : Option String} (hl : ∀ l, lang = some l → IsPlain l) {c : Char}
    (hc : c ∈ lineMarks) : c ∉ suffix lang := by
  cases lang with
  | none => nofun
  | some l =>
    intro h
    rcases List.mem_cons.1 h with rfl | h
    · exact absurd hc (by decide)
    · exact hl l rfl c h hc

end Literal

theorem Iri.eq_of_toList {a b : Iri} (h : a.text.toList = b.text.toList) : a = b := by
  obtain ⟨a⟩ := a
  obtain ⟨b⟩ := b
  exact congrArg Iri.mk (String.toList_inj.1 h)

theorem Iri.toList_render (a : Iri) : a.render.toList = '<' :: a.text.toList ++ ['>'] := by
  simp [render]

/-- What stands in front of the object. -/
def Statement.head (s : Statement) : List Char :=
  '<' :: s.subject.text.toList ++ '>' :: ' ' :: '<' :: s.predicate.text.toList ++ ['>', ' ']

theorem Statement.toList_render (s : Statement) :
    s.render.toList = s.head ++ s.object.render.toList ++ [' ', '.'] := by
  simp [render, head, Iri.toList_render]

/-! ## Line breaks -/

theorem Object.not_mem_render {x : Object} (hx : x.Plain) {c : Char} (hc : c = '\n' ∨ c = '\r') :
    c ∉ x.render.toList := by
  have hmark : c ∈ lineMarks := by rcases hc with rfl | rfl <;> decide
  have hbracket : c ≠ '<' ∧ c ≠ '>' ∧ c ≠ '"' := by rcases hc with rfl | rfl <;> decide
  cases x with
  | node a =>
    rw [render, Iri.toList_render]
    simp [hbracket, IsPlain.not_mem hx hmark]
  | literal v lang =>
    have hencoded : c ∉ Literal.encode v.toList := by
      intro h
      obtain ⟨hfeed, hreturn⟩ := Literal.ne_break_of_mem_encode h
      exact hc.elim hfeed hreturn
    rw [render, Literal.toList_render]
    simp [hbracket, hencoded, Literal.not_mem_suffix hx hmark]

namespace Statement

variable {s t : Statement}

theorem mem_render_iff (hs : s.Plain) {c : Char} (hc : c = '\n' ∨ c = '\r') :
    c ∈ s.render.toList ↔ c ∈ s.subject.text.toList := by
  have hmark : c ∈ lineMarks := by rcases hc with rfl | rfl <;> decide
  have hother : c ≠ '<' ∧ c ≠ '>' ∧ c ≠ ' ' ∧ c ≠ '.' := by rcases hc with rfl | rfl <;> decide
  rw [toList_render, head]
  simp [hother, IsPlain.not_mem hs.predicate hmark, Object.not_mem_render hs.object hc]

/-- A plain statement has as many lines as its subject. -/
theorem oneLine_render_iff (hs : s.Plain) : OneLine s.render ↔ OneLine s.subject.text := by
  unfold OneLine
  rw [mem_render_iff hs (Or.inl rfl), mem_render_iff hs (Or.inr rfl)]

/-- Of a statement about a text the object begins with a quote. Read on from there, the first quote
that is not escaped gives the text back as it is, whatever characters it has, and leaves its language
and the end of the line. Up to that quote no character breaks the line. -/
theorem text_of_line (subject predicate : Iri) (value : String) (lang : Option String) :
    let s : Statement := ⟨subject, predicate, .literal value lang⟩
    let rest := Literal.suffix lang ++ [' ', '.']
    ∃ quoted, s.render.toList = s.head ++ '"' :: (quoted ++ '"' :: rest) ∧
      Literal.scan (quoted ++ '"' :: rest) = some (value.toList, rest) ∧
      Literal.Unclosed quoted ∧ ∀ c ∈ quoted, c ≠ '\n' ∧ c ≠ '\r' := by
  intro s rest
  refine ⟨Literal.encode value.toList, ?_, Literal.scan_encode _ _, Literal.unclosed_encode _,
    fun c hc => Literal.ne_break_of_mem_encode hc⟩
  rw [toList_render, show s.object.render = Literal.render value lang from rfl,
    Literal.toList_render]
  simp [rest]

-- a text that looks escaped already and ends with a backslash
example : (⟨⟨"urn:a"⟩, ⟨"urn:p"⟩, .literal "\\n\\" (some "en")⟩ : Statement).render =
    "<urn:a> <urn:p> \"\\\\n\\\\\"@en ." := by
  decide +kernel

/-! ## The subject, read from the front -/

/-- The subject of a line, as it is read from the front: from behind the bracket that the line begins
with up to the first one that closes. -/
def subjectField? (line : String) : Option String :=
  match line.toList with
  | '<' :: s => if '>' ∈ s then some (String.ofList (s.takeWhile (· ≠ '>'))) else none
  | _ => none

/-- The subject is read back exactly if it has no closing bracket of its own. -/
theorem subjectField?_render_iff (s : Statement) :
    subjectField? s.render = some s.subject.text ↔ '>' ∉ s.subject.text.toList := by
  obtain ⟨back, hback⟩ :
      ∃ back, s.render.toList = '<' :: (s.subject.text.toList ++ '>' :: back) := by
    rw [toList_render, head]
    simp only [List.append_assoc, List.cons_append]
    exact ⟨_, rfl⟩
  have hfield : subjectField? s.render =
      some (String.ofList ((s.subject.text.toList ++ '>' :: back).takeWhile (· ≠ '>'))) := by
    unfold subjectField?
    rw [hback]
    exact if_pos (by simp)
  rw [hfield, Option.some.injEq, ← String.toList_inj, String.toList_ofList]
  constructor
  · intro htake hmem
    rw [← htake] at hmem
    simpa using List.mem_takeWhile_imp hmem
  · intro hmem
    have hpos : ∀ c ∈ s.subject.text.toList, decide (c ≠ '>') = true :=
      fun c hc => decide_eq_true fun heq => hmem (heq ▸ hc)
    rw [List.takeWhile_append_of_pos hpos, List.takeWhile_cons_of_neg (by decide),
      List.append_nil]

/-! ## The parts, read from behind -/

/-- What stands in front of the last occurrence of something, and what stands behind it. -/
theorem split_last {c : Char} {x y i j : List Char} (hi : c ∉ i) (hj : c ∉ j)
    (h : x ++ c :: i = y ++ c :: j) : x = y ∧ i = j := by
  rcases List.append_eq_append_iff.1 h with ⟨z, hyz, hz⟩ | ⟨z, hxz, hz⟩
  · cases z with
    | nil => exact ⟨by simpa using hyz.symm, (List.cons.inj hz).2⟩
    | cons d z =>
      obtain ⟨-, rfl⟩ := List.cons.inj hz
      exact absurd (by simp) hi
  · cases z with
    | nil => exact ⟨by simpa using hxz, (List.cons.inj hz).2.symm⟩
    | cons d z =>
      obtain ⟨-, rfl⟩ := List.cons.inj hz
      exact absurd (by simp) hj

/-- A text in quotes does not end like an address. -/
theorem getLast?_literal_ne (front : List Char) (v : String) {lang : Option String}
    (hl : ∀ l, lang = some l → IsPlain l) :
    (front ++ (Literal.render v lang).toList).getLast? ≠ some '>' := by
  rw [Literal.toList_render, ← List.append_assoc, List.getLast?_append, List.getLast?_cons]
  intro h
  cases hlast : (Literal.suffix lang).getLast? with
  | none => simp [hlast] at h
  | some d =>
    obtain rfl : d = '>' := by simpa [hlast] using h
    exact Literal.not_mem_suffix hl (by decide) (List.mem_of_getLast? hlast)

theorem getLast?_node (front : List Char) (a : Iri) :
    (front ++ a.render.toList).getLast? = some '>' := by
  rw [Iri.toList_render, ← List.append_assoc, List.getLast?_concat]

/-- Behind something that does not end with a backslash, the object is read from the end. -/
theorem object_inj {x y : Object} (hx : x.Plain) (hy : y.Plain) {front back : List Char}
    (hf : front.getLast? ≠ some '\\') (hb : back.getLast? ≠ some '\\')
    (h : front ++ x.render.toList = back ++ y.render.toList) : front = back ∧ x = y := by
  have hlast := congrArg List.getLast? h
  cases x with
  | node a =>
    cases y with
    | node b =>
      simp only [Object.render, Iri.toList_render, List.cons_append] at h
      obtain ⟨hfront, htext⟩ := split_last (IsPlain.not_mem_append hx (by decide))
        (IsPlain.not_mem_append hy (by decide)) h
      rw [Iri.eq_of_toList (List.append_cancel_right htext)]
      exact ⟨hfront, rfl⟩
    | literal w lang =>
      rw [Object.render, getLast?_node] at hlast
      exact absurd hlast.symm (getLast?_literal_ne back w hy)
  | literal v lang =>
    cases y with
    | node b =>
      rw [Object.render, Object.render, getLast?_node] at hlast
      exact absurd hlast (getLast?_literal_ne front v hx)
    | literal w lang' =>
      -- the last quote closes the text, and the one that opens it is found behind it
      rw [Object.render, Object.render, Literal.toList_render, Literal.toList_render,
        ← List.append_assoc, ← List.append_assoc] at h
      obtain ⟨hquoted, hsuffix⟩ := split_last (Literal.not_mem_suffix hx (by decide))
        (Literal.not_mem_suffix hy (by decide)) h
      obtain ⟨rfl, htext⟩ := Literal.append_encode_inj hf hb hquoted
      rw [String.toList_inj.1 htext, Literal.suffix_inj hsuffix]
      exact ⟨rfl, rfl⟩

theorem getLast?_head (s : Statement) : s.head.getLast? = some ' ' := by
  rw [head, List.getLast?_append]
  rfl

/-- In front of the object the predicate is read from behind, and what is left is the subject. -/
theorem head_inj (hs : IsPlain s.predicate.text) (ht : IsPlain t.predicate.text)
    (h : s.head = t.head) : s.subject = t.subject ∧ s.predicate = t.predicate := by
  have hregroup : ∀ u : Statement, u.head =
      ('<' :: u.subject.text.toList ++ ['>', ' ']) ++ '<' :: (u.predicate.text.toList ++ ['>', ' ']) :=
    fun u => by simp [head]
  rw [hregroup s, hregroup t] at h
  obtain ⟨hsubject, hpredicate⟩ :=
    split_last (hs.not_mem_append (by decide)) (ht.not_mem_append (by decide)) h
  have htext := (List.cons.inj (List.append_cancel_right hsubject)).2
  exact ⟨Iri.eq_of_toList htext, Iri.eq_of_toList (List.append_cancel_right hpredicate)⟩

/-- Plain statements that are written alike are one, whatever their subjects. -/
theorem render_inj (hs : s.Plain) (ht : t.Plain) (h : s.render = t.render) : s = t := by
  have hchars := congrArg String.toList h
  rw [toList_render, toList_render] at hchars
  have hspace : ∀ u : Statement, u.head.getLast? ≠ some '\\' := by
    intro u
    rw [getLast?_head]
    decide
  obtain ⟨hhead, hobject⟩ := object_inj hs.object ht.object (hspace s) (hspace t)
    (List.append_cancel_right hchars)
  obtain ⟨hsubject, hpredicate⟩ := head_inj hs.predicate ht.predicate hhead
  cases s
  cases t
  cases hsubject
  cases hpredicate
  cases hobject
  rfl

end Statement

/-! ## The statements of a graph -/

theorem Predicate.iri_injective : Function.Injective Predicate.iri := by
  intro p q h
  cases p <;> cases q <;> first | rfl | exact absurd h (by decide)

namespace Node

variable {n : Node} {s : Statement}

theorem mem_statements_iff : s ∈ n.statements ↔
    (∃ t, n.kind.type? = some t ∧ s = ⟨n.address, Predicate.type.iri, .node t⟩) ∨
      ∃ e ∈ n.edges, s = ⟨n.address, e.predicate.iri, e.object⟩ := by
  unfold statements impliedType?
  simp only [List.mem_append, Option.mem_toList, Option.map_eq_some_iff, List.mem_map]
  simp only [eq_comm]

theorem subject_of_mem_statements (hs : s ∈ n.statements) : s.subject = n.address := by
  rcases mem_statements_iff.1 hs with ⟨t, -, rfl⟩ | ⟨e, -, rfl⟩ <;> rfl

/-- No edge says the type that the kind implies. -/
def SaysTypeOnce (n : Node) : Prop := ∀ t, n.kind.type? = some t → ⟨.type, .node t⟩ ∉ n.edges

theorem nodup_statements (hn : n.edges.Nodup) (ht : n.SaysTypeOnce) : n.statements.Nodup := by
  unfold statements
  refine List.nodup_append.2 ⟨?_, hn.map_on fun e _ f _ heq => ?_, ?_⟩
  · cases n.impliedType? <;> simp
  · obtain ⟨p, x⟩ := e
    obtain ⟨q, y⟩ := f
    simp only [Statement.mk.injEq, true_and] at heq
    rw [Predicate.iri_injective heq.1, heq.2]
  · intro s hs u hu
    rintro rfl
    obtain ⟨t, hkind, rfl⟩ := Option.map_eq_some_iff.1 (Option.mem_toList.1 hs)
    obtain ⟨⟨p, x⟩, he, heq⟩ := List.mem_map.1 hu
    simp only [Statement.mk.injEq, true_and] at heq
    obtain ⟨hp, rfl⟩ := heq
    exact ht t hkind (Predicate.iri_injective hp ▸ he)

end Node

namespace Graph

variable {g : Graph}

/-- A statement of one node is no statement of another, since its subject is the address. -/
theorem nodup_statements (hg : g.WF) (ht : ∀ n ∈ g.nodes, n.SaysTypeOnce) :
    g.statements.Nodup := by
  refine List.nodup_flatMap.2 ⟨fun n hn => ?_, ?_⟩
  · exact Node.nodup_statements (hg.edges _ n (get?_of_mem hg.addresses hn)) (ht n hn)
  · refine (List.pairwise_map.1 hg.addresses).imp fun hne s hs ht => hne ?_
    rw [← Node.subject_of_mem_statements hs, Node.subject_of_mem_statements ht]

end Graph

end UmlOntology
