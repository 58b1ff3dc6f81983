/-
The lines of a translated model. All that a translation says of a node by edges leads to one of
three types, to a name in the language of names, or to a text in no language; and no kind implies
one of these types. So no statement is made twice, and every statement is plain but for its subject,
whose characters are those of an identifier in the model. Lines are therefore told apart, but they
are good lines only as far as the identifiers are good.
-/
import UmlOntology.Proofs.Ontology.Statement
import UmlOntology.Proofs.Uml.Identifiers

namespace UmlOntology

/-! ## What edges lead to -/

/-- The types that translations say by edges. -/
def spokenTypes : List Iri :=
  [⟨Vocabulary.rdfsDatatype⟩, ⟨Vocabulary.umlPackage⟩, ⟨Vocabulary.umlStereotype⟩]

/-- What an edge leads to in a translation: one of the types that are said by edges, or a text, in
the language of names or in none. -/
inductive Object.Spoken : Object → Prop
  | type {a : Iri} : a ∈ spokenTypes → Spoken (.node a)
  | text {v : String} {lang : Option String} :
      lang = none ∨ lang = some Vocabulary.nameLanguage → Spoken (.literal v lang)

theorem isPlain_of_spokenType : ∀ a ∈ spokenTypes, IsPlain a.text := by decide +kernel

theorem Predicate.isPlain_iri (p : Predicate) : IsPlain p.iri.text := by
  cases p <;> decide +kernel

theorem Kind.isPlain_type {k : Kind} {t : Iri} (h : k.type? = some t) : IsPlain t.text := by
  cases k with
  | concept | objectProperty | annotationProperty | attributeProperty =>
    cases h
    decide +kernel
  | datatype | individual | association | unknown => cases h

/-- No kind implies a type that is said by edges. -/
theorem Kind.type_not_mem_spokenTypes {k : Kind} {t : Iri} (h : k.type? = some t) :
    t ∉ spokenTypes := by
  cases k with
  | concept | objectProperty | annotationProperty | attributeProperty =>
    cases h
    decide
  | datatype | individual | association | unknown => cases h

theorem Object.Spoken.plain {x : Object} (hx : x.Spoken) : x.Plain := by
  cases hx with
  | type ha => exact isPlain_of_spokenType _ ha
  | text hlang =>
    rcases hlang with rfl | rfl
    · nofun
    · intro l hl
      cases hl
      decide

namespace Node

variable {n : Node}

/-- All edges of the node lead to what translations say. -/
def Spoken (n : Node) : Prop := ∀ e ∈ n.edges, e.object.Spoken

theorem Spoken.saysTypeOnce (hn : n.Spoken) : n.SaysTypeOnce := by
  intro t ht he
  cases hn _ he with
  | type ha => exact Kind.type_not_mem_spokenTypes ht ha

theorem Spoken.plain (hn : n.Spoken) {s : Statement} (hs : s ∈ n.statements) : s.Plain := by
  rcases mem_statements_iff.1 hs with ⟨t, ht, rfl⟩ | ⟨e, he, rfl⟩
  · exact ⟨Predicate.isPlain_iri _, Kind.isPlain_type ht⟩
  · exact ⟨Predicate.isPlain_iri _, (hn e he).plain⟩

end Node

/-! ## What constructs add -/

/-- All that a request adds of its own leads to what translations say. -/
def Request.Spoken (r : Request) : Prop := ∀ x ∈ r.additions, x.toEdge.object.Spoken

/-- The identifier that is kept is a text in no language. -/
theorem Request.Spoken.additions {r : Request} (hr : r.Spoken) (o : Options) :
    ∀ x ∈ o.additions r, x.toEdge.object.Spoken := by
  intro x hx
  rcases Options.mem_additions_iff.1 hx with ⟨-, rfl⟩ | hx
  · exact .text (Or.inl rfl)
  · exact hr x hx

namespace Construct

variable {c : Construct} {r : Request} {el : Element} {k : Kind}

theorem spoken_nameLabel (name : String) : (nameLabel name).toEdge.object.Spoken :=
  .text (Or.inr rfl)

theorem spoken_typeEdge {type : Iri} (htype : type ∈ spokenTypes) :
    (typeEdge type).toEdge.object.Spoken :=
  .type htype

theorem spoken_declared {xs : String → List Addition} (hr : declared el k xs = some r)
    (hxs : ∀ name, ∀ x ∈ xs name, x.toEdge.object.Spoken) : r.Spoken := by
  obtain ⟨⟨id, name⟩, -, rfl⟩ := Option.map_eq_some_iff.1 hr
  exact hxs name

theorem spoken_referred {id : String} {xs : List Addition} (hr : referred id k xs = some r)
    (hxs : ∀ x ∈ xs, x.toEdge.object.Spoken) : r.Spoken := by
  unfold referred at hr
  split at hr
  · cases hr
  · cases hr
    exact hxs

theorem spoken_individual {type : Iri} (htype : type ∈ spokenTypes)
    (hr : individualRequest? el type = some r) : r.Spoken :=
  spoken_declared hr fun name =>
    List.forall_mem_cons.2 ⟨spoken_nameLabel name, List.forall_mem_singleton.2 (spoken_typeEdge htype)⟩

theorem spoken_stereotype {id : String} (hr : stereotypeRequest? id = some r) : r.Spoken :=
  spoken_referred hr (List.forall_mem_singleton.2 (spoken_typeEdge (by decide)))

theorem spoken_name? {name? : Option String} :
    ∀ x ∈ (name?.map nameLabel).toList, x.toEdge.object.Spoken := by
  intro x hx
  obtain ⟨name, -, rfl⟩ := Option.map_eq_some_iff.1 (Option.mem_toList.1 hx)
  exact spoken_nameLabel name

/-- A construct that an element is read as says no more than translations say. -/
theorem spoken_request (hr : c.request? = some r) (hc : c.Of el) : r.Spoken := by
  cases c with
  | individual el type => exact hc.elim
  | concept el =>
    rw [request?] at hr
    exact spoken_declared hr fun name => List.forall_mem_singleton.2 (spoken_nameLabel name)
  | unclassified el =>
    rw [request?] at hr
    exact spoken_declared hr fun name => List.forall_mem_singleton.2 (.text (Or.inl rfl))
  | datatype el =>
    rw [request?] at hr
    exact spoken_declared hr fun name =>
      List.forall_mem_cons.2
        ⟨spoken_nameLabel name, List.forall_mem_singleton.2 (spoken_typeEdge (by decide))⟩
  | attributeProperty el =>
    rw [request?] at hr
    exact spoken_declared hr fun name =>
      List.forall_mem_cons.2 ⟨.text (Or.inl rfl),
        List.forall_mem_singleton.2 (spoken_nameLabel name)⟩
  | package el => exact spoken_individual (by decide) hr
  | stereotypeReference id => exact spoken_stereotype hr
  | reference id => exact spoken_referred hr (List.forall_mem_nil _)
  | stereotype el =>
    rw [request?] at hr
    split at hr
    · exact spoken_stereotype hr
    · exact spoken_individual (by decide) hr
  | annotationProperty el =>
    rw [request?] at hr
    split at hr
    · exact spoken_referred hr (List.forall_mem_nil _)
    · exact spoken_declared hr fun name => List.forall_mem_singleton.2 (spoken_nameLabel name)
  | conceptReference el key | elementReference el key =>
    obtain ⟨id, -, hr⟩ := Option.bind_eq_some_iff.1 hr
    exact spoken_referred hr (List.forall_mem_nil _)
  | objectProperty el =>
    obtain ⟨id, -, rfl⟩ := Option.map_eq_some_iff.1 hr
    exact spoken_name?
  | association id =>
    rw [request?] at hr
    split at hr
    · cases hr
    · cases hr
      exact List.forall_mem_nil _
  | associationEnd el base side =>
    rw [request?] at hr
    split at hr
    · cases hr
    · cases hr
      exact spoken_name?

end Construct

/-! ## What a translation says -/

namespace Translation

variable {o : Options} {es : List Event} {n : Node} {s : Statement}

/-- A request comes from an element that is read as a construct. -/
theorem Asks.construct {r : Request} (h : Asks o es r) :
    ∃ pre el post c, es = pre ++ .start el :: post ∧
      Reading.ofElement (run o pre).scopes el = .construct c ∧ c.request? = some r := by
  obtain ⟨pre, el, post, hes, hr⟩ := h
  unfold reading at hr
  cases hread : Reading.ofElement (run o pre).scopes el with
  | construct c =>
    rw [hread] at hr
    exact ⟨pre, el, post, c, hes, hread, hr⟩
  | structural | incomplete | unplaced index =>
    rw [hread] at hr
    cases hr

theorem Asks.spoken {r : Request} (h : Asks o es r) : r.Spoken := by
  obtain ⟨pre, el, post, c, -, hread, hr⟩ := h.construct
  exact Construct.spoken_request hr (Reading.of_ofElement hread)

theorem wf_run (o : Options) (es : List Event) : (run o es).graph.WF := by
  rw [graph_run]
  exact Graph.wf_extend Graph.wf_empty _

/-- Whatever events a translation goes through, its nodes say what translations say. -/
theorem spoken_run (hn : n ∈ (run o es).graph.nodes) : n.Spoken := by
  intro e he
  have hget := Graph.get?_of_mem (wf_run o es).addresses hn
  rw [← Graph.edgesAt_of_get? hget, graph_run] at he
  obtain ⟨r, hr, -, x, hx, rfl⟩ := (Graph.mem_edgesAt_buildAll he).resolve_left nofun
  have hasks : Asks o es r := asks_iff.2 hr
  exact hasks.spoken.additions o x hx

theorem plain_statement (hs : s ∈ (run o es).graph.statements) : s.Plain := by
  obtain ⟨n, hn, hs⟩ := List.mem_flatMap.1 hs
  exact (spoken_run hn).plain hs

theorem nodup_statements (o : Options) (es : List Event) : (run o es).graph.statements.Nodup :=
  Graph.nodup_statements (wf_run o es) fun _ hn => (spoken_run hn).saysTypeOnce

end Translation

/-- A translation lists no statement twice and writes no two of them alike, whatever the identifiers,
the names and the namespace are made of. Nor are statements of two translations written alike, under
whatever settings, unless they are one statement. -/
theorem lines_of_run :
    (∀ o es, (Translation.run o es).graph.statements.Nodup ∧
      ((Translation.run o es).graph.statements.map Statement.render).Nodup) ∧
    ∀ o es o' es', ∀ s ∈ (Translation.run o es).graph.statements,
      ∀ t ∈ (Translation.run o' es').graph.statements, s.render = t.render → s = t := by
  have hinj : ∀ o es o' es', ∀ s ∈ (Translation.run o es).graph.statements,
      ∀ t ∈ (Translation.run o' es').graph.statements, s.render = t.render → s = t :=
    fun o es o' es' s hs t ht =>
      Statement.render_inj (Translation.plain_statement hs) (Translation.plain_statement ht)
  refine ⟨fun o es => ?_, hinj⟩
  have hnodup := Translation.nodup_statements o es
  exact ⟨hnodup, hnodup.map_on (hinj o es o es)⟩

/-- Elements that declare a class under an identifier. -/
def classNamed (id : String) : List Event :=
  [.start { tag := "UML:Class", attributes := [("xmi.id", id), ("name", "C")] }]

/-- An identifier that looks like a statement, and a part of it behind a namespace that has the rest,
give one line, so they give one statement. -/
theorem lines_of_fakeStatement :
    let o : Options := { keepIds := false, ns := ⟨"urn:"⟩ }
    let o' : Options := { keepIds := false, ns := ⟨"urn:a> <p"⟩ }
    ∃ s ∈ (Translation.run o (classNamed "a> <p> \"\\")).graph.statements,
      ∃ t ∈ (Translation.run o' (classNamed "> \"\\")).graph.statements,
        s.object = .literal "C" (some "en") ∧ s.render = t.render ∧ s = t := by
  intro o o'
  let s : Statement := ⟨⟨"urn:a> <p> \"\\"⟩, Predicate.label.iri, .literal "C" (some "en")⟩
  let t : Statement := ⟨⟨"urn:a> <p" ++ "> \"\\"⟩, Predicate.label.iri, .literal "C" (some "en")⟩
  have hs : s ∈ (Translation.run o (classNamed "a> <p> \"\\")).graph.statements := by decide +kernel
  have ht : t ∈ (Translation.run o' (classNamed "> \"\\")).graph.statements := by decide +kernel
  have hst : s.render = t.render := by decide +kernel
  exact ⟨s, hs, t, ht, rfl, hst, lines_of_run.2 o _ o' _ s hs t ht hst⟩

end UmlOntology
