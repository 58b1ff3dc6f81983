/-
Subjects of lines. A node of a translation stands at an identifier of its document: one that an
element declares, one that an element refers to, or one that an association end is given. In front of
it stands a namespace without any character that counts in a line, so it is the identifier that
decides whether a line stays one line and whether its subject is read back. An identifier may have
any character that a document can write, also as a reference, and nothing is done about it.
-/
import UmlOntology.Proofs.Uml.Distinct
import UmlOntology.Proofs.Uml.Output
import UmlOntology.Uml.Document

namespace UmlOntology

/-! ## References -/

namespace Construct

variable {c : Construct} {r : Request} {el : Element} {id key : String}

/-- The identifier that a construct refers to and does not declare. -/
def referredId? : Construct → Option String
  | conceptReference el key | elementReference el key => el.nonEmpty? key
  | annotationProperty el | stereotype el => el.idref?
  | stereotypeReference id | reference id => some id
  | _ => none

theorem declares_of_declared {k : Kind} {xs : String → List Addition}
    (hr : declared el k xs = some r) : r.declares = true := by
  obtain ⟨d, -, rfl⟩ := Option.map_eq_some_iff.1 hr
  rfl

theorem id_of_referred {k : Kind} {xs : List Addition} (hr : referred id k xs = some r) :
    id = r.id ∧ id ≠ "" := by
  unfold referred at hr
  split at hr
  · cases hr
  · rename_i hne
    cases hr
    exact ⟨rfl, hne⟩

/-- A request that does not declare its identifier has it from a reference. -/
theorem referredId?_of_request (hr : c.request? = some r) (hd : r.declares = false) :
    c.referredId? = some r.id := by
  have hdeclared : r.declares ≠ true := by simp [hd]
  cases c with
  | concept el | datatype el | attributeProperty el | unclassified el =>
    rw [request?] at hr
    exact absurd (declares_of_declared hr) hdeclared
  | individual el type | package el =>
    rw [request?, individualRequest?] at hr
    exact absurd (declares_of_declared hr) hdeclared
  | annotationProperty el =>
    rw [request?] at hr
    split at hr
    · rename_i id hid
      exact hid.trans (congrArg some (id_of_referred hr).1)
    · exact absurd (declares_of_declared hr) hdeclared
  | stereotype el =>
    rw [request?] at hr
    split at hr
    · rename_i id hid
      exact hid.trans (congrArg some (id_of_referred hr).1)
    · exact absurd (declares_of_declared hr) hdeclared
  | stereotypeReference id => exact congrArg some (id_of_referred hr).1
  | reference id => exact congrArg some (id_of_referred hr).1
  | conceptReference el key =>
    obtain ⟨id, hid, hr⟩ := Option.bind_eq_some_iff.1 hr
    exact hid.trans (congrArg some (id_of_referred hr).1)
  | elementReference el key =>
    obtain ⟨id, hid, hr⟩ := Option.bind_eq_some_iff.1 hr
    obtain ⟨rfl, hne⟩ := id_of_referred hr
    exact Option.filter_eq_some_iff.2 ⟨hid, by simpa using hne⟩
  | objectProperty el =>
    obtain ⟨id, -, rfl⟩ := Option.map_eq_some_iff.1 hr
    cases hd
  | association id =>
    rw [request?] at hr
    split at hr <;> cases hr
    cases hd
  | associationEnd el base side =>
    rw [request?] at hr
    split at hr <;> cases hr
    cases hd

/-- What a construct of an element refers to is what the attribute of the element refers to. -/
theorem idref?_of_referredId? (hc : c.Of el) (hid : c.referredId? = some id) :
    el.idref? = some id := by
  cases c with
  | conceptReference el' key | elementReference el' key =>
    obtain ⟨rfl, rfl⟩ := hc
    exact hid
  | annotationProperty el' | stereotype el' =>
    cases hc
    exact hid
  | stereotypeReference id' | reference id' => exact hc.elim
  | _ => cases hid

end Construct

/-! ## Identifiers of nodes -/

/-- The identifiers that nodes can stand at after events: those that the elements declare, those that
they refer to, and those that their ends are given. -/
inductive NodeId (es : List Event) : String → Prop
  | declared {el : Element} {id : String} :
      el ∈ Event.elements es → el.id? = some id → NodeId es id
  | referred {el : Element} {id : String} :
      el ∈ Event.elements es → el.idref? = some id → NodeId es id
  | given {el : Element} {base : String} (side : Side) :
      el ∈ Event.elements es → el.id? = some base → NodeId es (endId base side)

namespace Translation

variable {o : Options} {es : List Event} {r : Request} {s : Statement}

theorem Asks.nodeId (h : Asks o es r) : NodeId es r.id := by
  obtain ⟨pre, el, post, c, rfl, hread, hr⟩ := h.construct
  have hmem : el ∈ Event.elements (pre ++ .start el :: post) := by
    rw [Event.elements_append, Event.elements_start]
    exact List.mem_append_right _ List.mem_cons_self
  cases hd : r.declares with
  | false =>
    have hid := Construct.referredId?_of_request hr hd
    exact .referred hmem (Construct.idref?_of_referredId? (Reading.of_ofElement hread) hid)
  | true =>
    have hid := Construct.declaredId?_of_request hr
    rw [if_pos hd] at hid
    rcases Reading.declaredId?_cases hread hid with hown | ⟨-, -, base, side, hv, hgiven⟩
    · exact .declared hmem hown
    · -- the association around the end has started before it
      rw [scopes_run] at hv
      have hbase : base ∈ Event.ids pre :=
        List.mem_reverse.1 ((Scope.ids_run pre).subset (Scope.mem_ids_of_vacancy? hv))
      obtain ⟨el', hel', hid'⟩ := List.mem_filterMap.1 hbase
      rw [hgiven]
      refine .given side ?_ hid'
      rw [Event.elements_append]
      exact List.mem_append_left _ hel'

theorem nodeId_of_statement (hs : s ∈ (run o es).graph.statements) :
    ∃ id, NodeId es id ∧ s.subject = o.address id := by
  obtain ⟨n, hn, hs⟩ := List.mem_flatMap.1 hs
  have ha : n.address ∈ (run o es).graph := ⟨n, hn, rfl⟩
  rw [graph_run, Graph.mem_buildAll_iff] at ha
  obtain ⟨r, hr, haddr⟩ := ha
  have hasks : Asks o es r := asks_iff.2 hr
  exact ⟨r.id, hasks.nodeId, (Node.subject_of_mem_statements hs).trans haddr.symm⟩

end Translation

/-! ## Lines -/

/-- A line of N-Triples, as far as its form goes: it stays one line, and its subject is read back. -/
structure Statement.WellFormed (s : Statement) : Prop where
  oneLine : OneLine s.render
  subject : subjectField? s.render = some s.subject.text

/-- An identifier that a line takes as it is. -/
def Clean (id : String) : Prop := OneLine id ∧ '>' ∉ id.toList

instance (id : String) : Decidable (Clean id) := inferInstanceAs (Decidable (_ ∧ _))

/-- All identifiers that the elements of events declare or refer to are clean. -/
def CleanIds (es : List Event) : Prop :=
  ∀ el ∈ Event.elements es, (∀ id ∈ el.id?, Clean id) ∧ ∀ id ∈ el.idref?, Clean id

instance (es : List Event) : Decidable (CleanIds es) := List.decidableBAll _ _

theorem isPlain_xmi : IsPlain Vocabulary.xmi := by decide +kernel

/-- Behind the usual namespace only the identifier brings a character that counts in a line. -/
theorem mem_address_iff {c : Char} (hc : c ∈ lineMarks) (id : String) :
    c ∈ (Options.address {} id).text.toList ↔ c ∈ id.toList := by
  show c ∈ (Vocabulary.xmi ++ id).toList ↔ _
  rw [String.toList_append, List.mem_append]
  exact or_iff_right (isPlain_xmi.not_mem hc)

theorem oneLine_address_iff (id : String) : OneLine (Options.address {} id).text ↔ OneLine id := by
  unfold OneLine
  rw [mem_address_iff (by decide), mem_address_iff (by decide)]

theorem clean_endId {base : String} (hbase : Clean base) (side : Side) : Clean (endId base side) := by
  obtain ⟨⟨hfeed, hreturn⟩, hbracket⟩ := hbase
  have hletter : ∀ c ∈ lineMarks, c ∉ base.toList → c ∉ (endId base side).toList := by
    intro c hc hno
    have hside : IsPlain ("-" ++ side.letter) := by cases side <;> decide
    rw [endId, String.append_assoc, String.toList_append, List.mem_append, not_or]
    exact ⟨hno, hside.not_mem hc⟩
  exact ⟨⟨hletter _ (by decide) hfeed, hletter _ (by decide) hreturn⟩,
    hletter _ (by decide) hbracket⟩

/-- What a graph of these events shows in its lines, under the usual settings. -/
structure Graph.LinesOf (g : Graph) (es : List Event) : Prop where
  /-- Each statement is about a node at an identifier of the events. Its line stays one line exactly
  if the identifier does, and its subject is read back exactly if the identifier has no closing
  bracket. -/
  statement : ∀ s ∈ g.statements, ∃ id, NodeId es id ∧ s.subject = Options.address {} id ∧
    (OneLine s.render ↔ OneLine id) ∧
    (Statement.subjectField? s.render = some s.subject.text ↔ '>' ∉ id.toList)
  wellFormed : CleanIds es → ∀ s ∈ g.statements, s.WellFormed

theorem Translation.statement_of_run {es : List Event} {s : Statement}
    (hs : s ∈ (run {} es).graph.statements) :
    ∃ id, NodeId es id ∧ s.subject = Options.address {} id ∧ (OneLine s.render ↔ OneLine id) ∧
      (Statement.subjectField? s.render = some s.subject.text ↔ '>' ∉ id.toList) := by
  obtain ⟨id, hid, haddr⟩ := nodeId_of_statement hs
  refine ⟨id, hid, haddr, ?_, ?_⟩
  · rw [Statement.oneLine_render_iff (plain_statement hs), haddr, oneLine_address_iff]
  · rw [Statement.subjectField?_render_iff, haddr, mem_address_iff (by decide)]

/-- A node stands at a clean identifier if all that it can come from are clean. -/
theorem NodeId.clean {es : List Event} {id : String} (hid : NodeId es id) (h : CleanIds es) :
    Clean id := by
  cases hid with
  | declared hel hid => exact (h _ hel).1 _ hid
  | referred hel hid => exact (h _ hel).2 _ hid
  | given side hel hid => exact clean_endId ((h _ hel).1 _ hid) side

theorem Translation.linesOf_graph_run (es : List Event) : (run {} es).graph.LinesOf es where
  statement _ hs := statement_of_run hs
  wellFormed hclean s hs := by
    obtain ⟨id, hid, -, hone, hsubject⟩ := statement_of_run hs
    obtain ⟨honeId, hbracket⟩ := hid.clean hclean
    exact ⟨hone.2 honeId, hsubject.2 hbracket⟩

theorem graph_of_translate {o : Options} {document : Bytes} {decoders : Decoders} {g : Graph}
    (h : translate o document decoders = .ok g) :
    (Translation.run o (eventsOf document decoders).1).graph = g := by
  unfold translate at h
  split at h
  · cases h
  · rename_i heq
    cases h
    rw [heq]

/-- Under the usual settings the lines of a graph show what they do by the identifiers of its events
alone: for any events, and so for any document that is translated to a graph, whatever the decoders.
Names do no harm. -/
theorem lines_of_document (es : List Event) (document : Bytes) (decoders : Decoders) :
    (Translation.run {} es).graph.LinesOf es ∧
    ∀ g, translate {} document decoders = .ok g → g.LinesOf (eventsOf document decoders).1 := by
  refine ⟨Translation.linesOf_graph_run es, fun g h => ?_⟩
  rw [← graph_of_translate h]
  exact Translation.linesOf_graph_run _

/-- Decoders that know ASCII and one character of two bytes in Shift_JIS. -/
def oneKanji : Decoders where
  doubleByte d s := if d = .shiftJis ∧ s = [0x88, 0x9f] then some "亜" else Bytes.ascii? s
  kanji _ _ := none

/-- A class whose name goes over two lines, and an association with an end that is given an
identifier and has a name of two bytes. -/
def cleanDocument : Bytes :=
  Bytes.ofString ("<?xml version='1.0' encoding='Shift_JIS'?>" ++
    "<XMI><UML:Class xmi.id='c' name='a&#10;&gt;b'/>" ++
    "<UML:Association xmi.id='x'><UML:AssociationEnd name='") ++ [0x88, 0x9f] ++
  Bytes.ofString "'/></UML:Association></XMI>"

theorem lines_of_cleanDocument : ∃ g, translate {} cleanDocument oneKanji = .ok g ∧
    g.statements.length = 7 ∧ ∀ s ∈ g.statements, s.WellFormed := by
  let kept (id : String) : Edge := ⟨.sourceId, .literal id none⟩
  let named (name : String) : Edge := ⟨.label, .literal name (some "en")⟩
  let g : Graph :=
    ⟨[⟨Options.address {} "c", .concept, [kept "c", named "a\n>b"]⟩,
      ⟨Options.address {} "x", .association, [kept "x"]⟩,
      ⟨Options.address {} "x-A", .objectProperty, [kept "x-A", named "亜"]⟩]⟩
  have hg : translate {} cleanDocument oneKanji = .ok g := by decide +kernel
  have hlines := (lines_of_document [] cleanDocument oneKanji).2 g hg
  exact ⟨g, hg, by decide, hlines.wellFormed (by decide +kernel)⟩

/-- A class whose identifier goes over two lines and has a closing bracket. -/
def brokenLine : Bytes := Bytes.ofString "<XMI><UML:Class xmi.id='a&#10;b>c' name='C'/></XMI>"

/-- The document is read without a fault, but the lines about its class are not well formed in either
respect. -/
theorem not_wellFormed_brokenLine : ∃ g, translate {} brokenLine = .ok g ∧
    g.statements.length = 3 ∧ ∀ s ∈ g.statements, ¬ OneLine s.render ∧
      Statement.subjectField? s.render ≠ some s.subject.text := by
  refine ⟨⟨[⟨Options.address {} "a\nb>c", .concept,
    [⟨.sourceId, .literal "a\nb>c" none⟩, ⟨.label, .literal "C" (some "en")⟩]⟩]⟩, ?_, ?_, ?_⟩
  · decide +kernel
  · decide
  · decide +kernel

end UmlOntology
