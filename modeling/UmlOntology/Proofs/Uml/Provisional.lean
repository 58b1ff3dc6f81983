/-
References that come early. A reference by an element that stands for any other one leaves a node
behind of which nothing is known but its address. To a request that comes later it makes no
difference whether it finds such a node or none: there are no edges and the kind is open, so the
request leaves the same node and only its place differs. So references of this sort, however many
and wherever they are put into a document, change nothing but the places of the nodes that they name.
-/
import UmlOntology.Proofs.Uml.Reference

namespace UmlOntology

/-! ## Elements that may stand for others -/

/-- The names of the elements that stand for any other one where they refer to it. -/
def referringNames : List String := ["Classifier", "DataType", "Package", "Model", "Attribute"]

/-- The parts that these elements play. -/
def referringRoles : List Role := [.classifier, .datatype, .package, .attributeProperty]

theorem Role.ofName_of_mem {name : String} (h : name ∈ referringNames) :
    ofName name ∈ referringRoles := by
  have hall : ∀ name ∈ referringNames, ofName name ∈ referringRoles := by decide
  exact hall name h

/-- The element stands for the one with the identifier. -/
structure Element.StandsFor (el : Element) (id : String) : Prop where
  name : el.localName ∈ referringNames
  idref? : el.idref? = some id

namespace Element.StandsFor

variable {el : Element} {id : String}

theorem request? (h : el.StandsFor id) (scopes : List Scope) :
    (Reading.ofElement scopes el).request? = some { id, kind := .unknown } := by
  have href := Element.refers_of_idref? h.idref?
  have hrole : el.role ∈ referringRoles := Role.ofName_of_mem h.name
  have hread : Reading.ofElement scopes el = .construct (.elementReference el idrefAttribute) := by
    unfold Reading.ofElement
    simp only [referringRoles, List.mem_cons, List.not_mem_nil, or_false] at hrole
    rcases hrole with hrole | hrole | hrole | hrole
    · simp [hrole, href]
    · simp [hrole, href, Reading.referenceOr]
    · simp [hrole, href, Reading.referenceOr]
    · simp [hrole, href, Reading.referenceOr]
  rw [hread]
  exact Construct.request?_elementReference h.idref?

theorem enter (h : el.StandsFor id) (scopes : List Scope) : Scope.enter scopes el = scopes := by
  have hrole : el.role ∈ referringRoles := Role.ofName_of_mem h.name
  refine Scope.enter_other (fun ha => ?_) fun he => ?_
  · rw [Element.role_eq_association_iff.2 ha] at hrole
    exact absurd hrole (by decide)
  · rw [Element.role_eq_associationEnd_iff.2 he] at hrole
    exact absurd hrole (by decide)

end Element.StandsFor

theorem Scope.leave_of_mem {tag : String} (h : localName tag ∈ referringNames)
    (scopes : List Scope) : leave scopes tag = scopes := by
  refine if_neg fun ha => ?_
  have hrole := Role.ofName_of_mem h
  rw [ha] at hrole
  exact absurd hrole (by decide)

/-- The second list comes from the first by putting in elements that stand for others, anywhere and
any number of times; `ids` are the identifiers that they refer to. -/
inductive Inserted : List Event → List Event → List String → Prop
  | nil : Inserted [] [] []
  | keep {es fs : List Event} {ids : List String} (e : Event) :
      Inserted es fs ids → Inserted (e :: es) (e :: fs) ids
  | start {es fs : List Event} {ids : List String} {el : Element} {id : String} :
      el.StandsFor id → Inserted es fs ids → Inserted es (.start el :: fs) (id :: ids)
  | finish {es fs : List Event} {ids : List String} {tag : String} :
      localName tag ∈ referringNames → Inserted es fs ids → Inserted es (.finish tag :: fs) ids

/-! ## Graphs with nodes that came early -/

/-- The other graph is the same but for the nodes at some of the addresses: they may be there
already, with nothing known of them, or in other places. -/
structure Graph.Anticipated (named : List Iri) (g h : Graph) : Prop where
  nodes : ∀ a, h.nodeAt a = g.nodeAt a
  mem : ∀ a, a ∈ g → a ∈ h
  early : ∀ a, a ∈ h → a ∈ g ∨ a ∈ named
  order : h.addresses.filter (· ∉ named) = g.addresses.filter (· ∉ named)

namespace Graph.Anticipated

variable {named : List Iri} {g h : Graph} {o : Options} {r : Request}

theorem refl (named : List Iri) (g : Graph) : Anticipated named g g :=
  ⟨fun _ => rfl, fun _ => id, fun _ => Or.inl, rfl⟩

/-- A node that is there is in both graphs the same. -/
theorem get? (hgh : Anticipated named g h) {a : Iri} {n : Node} (hn : g.get? a = some n) :
    h.get? a = some n := by
  obtain ⟨m, hm⟩ := Option.isSome_iff_exists.1 (mem_iff_get?.1 (hgh.mem a (mem_of_get? hn)))
  have hnodes := hgh.nodes a
  rw [nodeAt_of_get? hm, nodeAt_of_get? hn] at hnodes
  rw [hm, hnodes]

/-- A node that came early and is not there yet is blank. -/
theorem eq_blank (hgh : Anticipated named g h) {a : Iri} {n : Node} (hn : h.get? a = some n)
    (ha : a ∉ g) : n = .blank a := by
  have hnodes := hgh.nodes a
  rw [nodeAt_of_get? hn, nodeAt, get?_eq_none_iff.2 ha, Option.getD_none] at hnodes
  exact hnodes

/-- A request finds the same node, or a blank one in place of none, and leaves the same. -/
theorem realize (hgh : Anticipated named g h) (o : Options) (r : Request) :
    Anticipated named (g.realize o r) (h.realize o r) := by
  refine ⟨fun a => ?_, fun a ha => ?_, fun a ha => ?_, ?_⟩
  · rw [nodeAt_realize, nodeAt_realize, hgh.nodes, hgh.nodes]
  · rw [mem_realize_iff] at ha ⊢
    exact ha.imp_right (hgh.mem a)
  · rw [mem_realize_iff] at ha ⊢
    rcases ha with ha | ha
    · exact Or.inl (Or.inl ha)
    · exact (hgh.early a ha).imp_left Or.inr
  · rw [addresses_realize, addresses_realize]
    by_cases hg : o.address r.id ∈ g
    · rw [if_pos hg, if_pos (hgh.mem _ hg)]
      exact hgh.order
    · rw [if_neg hg]
      by_cases hh : o.address r.id ∈ h
      · -- the new node has come early, so its address is one of those that do not count
        have hnamed : o.address r.id ∈ named := (hgh.early _ hh).resolve_left hg
        rw [if_pos hh, List.filter_append, hgh.order]
        simp [hnamed]
      · rw [if_neg hh, List.filter_append, List.filter_append, hgh.order]

/-- A request for a node of any kind, with nothing to add, lets a node come early at most. -/
theorem realize_right (hgh : Anticipated named g h) {id : String} (hid : o.address id ∈ named) :
    Anticipated named g (h.realize o { id, kind := .unknown }) := by
  refine ⟨fun a => ?_, fun a ha => ?_, fun a ha => ?_, ?_⟩
  · have hadditions : o.additions { id, kind := .unknown } = [] := by simp [Options.additions]
    rw [nodeAt_realize, hadditions, Node.addAll_nil, Node.demand_eq_self_iff.2 (Or.inr rfl)]
    split
    · rename_i ha
      rw [ha, hgh.nodes]
    · exact hgh.nodes a
  · exact mem_realize_iff.2 (Or.inr (hgh.mem a ha))
  · rcases mem_realize_iff.1 ha with rfl | ha
    · exact Or.inr hid
    · exact hgh.early a ha
  · rw [addresses_realize]
    split
    · exact hgh.order
    · rw [List.filter_append, hgh.order]
      simp [hid]

end Graph.Anticipated

/-! ## Runs with elements put in -/

namespace Totals

/-- The totals with so many more elements, all of which reached a node. -/
def more (t : Totals) (k : Nat) : Totals :=
  { t with elements := t.elements + k, resolved := t.resolved + k }

theorem count_more (t : Totals) (k : Nat) (r : Reading) :
    (t.more k).count r = (t.count r).more k := by
  unfold count more
  split
  · simp only [Nat.add_right_comm]
  · split <;> simp only [Nat.add_right_comm]

theorem count_of_request {r : Reading} {q : Request} (hr : r.request? = some q) (t : Totals) :
    t.count r = t.more 1 := by
  have hne : r ≠ .structural := by
    rintro rfl
    cases hr
  unfold count more
  rw [if_neg hne, hr, if_pos Option.isSome_some]

theorem more_more (t : Totals) (j k : Nat) : (t.more j).more k = t.more (j + k) := by
  simp only [more, Nat.add_assoc]

end Totals

namespace Translation

/-- The other state is the same but for nodes that came early and `k` more elements. -/
structure Anticipated (named : List Iri) (k : Nat) (t u : Translation) : Prop where
  graph : t.graph.Anticipated named u.graph
  scopes : u.scopes = t.scopes
  totals : u.totals = t.totals.more k

namespace Anticipated

variable {named : List Iri} {k : Nat} {t u : Translation} {o : Options}

theorem refl (named : List Iri) (t : Translation) : Anticipated named 0 t t :=
  ⟨Graph.Anticipated.refl named t.graph, rfl, rfl⟩

/-- An event does the same in both states. -/
theorem handle (h : Anticipated named k t u) (o : Options) (e : Event) :
    Anticipated named k (t.handle o e) (u.handle o e) := by
  cases e with
  | finish tag =>
    rw [handle_finish, handle_finish]
    refine ⟨?_, ?_, ?_⟩
    · rw [graph_finish, graph_finish]
      exact h.graph
    · rw [scopes_finish, scopes_finish, h.scopes]
    · rw [totals_finish, totals_finish, h.totals]
  | start el =>
    rw [handle_start, handle_start]
    refine ⟨?_, ?_, ?_⟩
    · cases hr : (Reading.ofElement t.scopes el).request? with
      | none =>
        rw [graph_start_of_none hr, graph_start_of_none (h.scopes ▸ hr)]
        exact h.graph
      | some r =>
        rw [graph_start_of_some hr, graph_start_of_some (h.scopes ▸ hr)]
        exact h.graph.realize o r
    · rw [scopes_start, scopes_start, h.scopes]
    · rw [totals_start, totals_start, h.scopes, h.totals, Totals.count_more]

/-- An element that is put in lets its node come early and counts once. -/
theorem start_right (h : Anticipated named k t u) {el : Element} {id : String}
    (hel : el.StandsFor id) (hid : o.address id ∈ named) :
    Anticipated named (k + 1) t (u.start o el) := by
  have hr := hel.request? u.scopes
  refine ⟨?_, ?_, ?_⟩
  · rw [graph_start_of_some hr]
    exact h.graph.realize_right hid
  · rw [scopes_start, hel.enter, h.scopes]
  · rw [totals_start, Totals.count_of_request hr, h.totals, Totals.more_more]

theorem finish_right (h : Anticipated named k t u) {tag : String}
    (htag : localName tag ∈ referringNames) : Anticipated named k t (u.finish tag) := by
  refine ⟨?_, ?_, ?_⟩
  · rw [graph_finish]
    exact h.graph
  · rw [scopes_finish, Scope.leave_of_mem htag, h.scopes]
  · rw [totals_finish, h.totals]

/-- A run with elements put in does what the run without them does. -/
theorem extend {es fs : List Event} {ids : List String} (hins : Inserted es fs ids)
    (h : Anticipated named k t u) (hids : ∀ id ∈ ids, o.address id ∈ named) :
    Anticipated named (k + ids.length) (t.extend o es) (u.extend o fs) := by
  induction hins generalizing k t u with
  | nil => exact h
  | keep e _ ih => exact ih (h.handle o e) hids
  | @start es fs ids el id hel _ ih =>
    obtain ⟨hid, hids⟩ := List.forall_mem_cons.1 hids
    have hstep := ih (h.start_right hel hid) hids
    rw [extend_cons, handle_start, List.length_cons, Nat.add_comm ids.length, ← Nat.add_assoc]
    exact hstep
  | finish htag _ ih =>
    rw [extend_cons, handle_finish]
    exact ih (h.finish_right htag) hids

end Anticipated

end Translation

/-- Elements that stand for others, put into a document anywhere and any number of times, leave every
node of the document as it is. Each other node is blank and at an address that they name; the nodes
at other addresses keep their order; and of the totals those of elements and of elements that reached
a node grow by as many. -/
theorem references_do_not_interfere (o : Options) {es fs : List Event} {ids : List String}
    (h : Inserted es fs ids) :
    (∀ a n, (Translation.run o es).graph.get? a = some n →
      (Translation.run o fs).graph.get? a = some n) ∧
    (∀ a n, (Translation.run o fs).graph.get? a = some n → a ∉ (Translation.run o es).graph →
      n.kind = .unknown ∧ n.edges = [] ∧ ∃ id ∈ ids, a = o.address id) ∧
    (Translation.run o fs).graph.addresses.filter (· ∉ ids.map o.address) =
      (Translation.run o es).graph.addresses.filter (· ∉ ids.map o.address) ∧
    (Translation.run o fs).totals =
      { elements := (Translation.run o es).totals.elements + ids.length
        resolved := (Translation.run o es).totals.resolved + ids.length
        skipped := (Translation.run o es).totals.skipped } := by
  have hids : ∀ id ∈ ids, o.address id ∈ ids.map o.address := fun _ => List.mem_map_of_mem
  have hrun : Translation.Anticipated (ids.map o.address) (0 + ids.length) (.run o es) (.run o fs) :=
    (Translation.Anticipated.refl (ids.map o.address) {}).extend h hids
  rw [Nat.zero_add] at hrun
  refine ⟨fun a n hn => hrun.graph.get? hn, fun a n hn ha => ?_, hrun.graph.order, hrun.totals⟩
  rw [hrun.graph.eq_blank hn ha]
  obtain ⟨id, hid, haddr⟩ :=
    List.mem_map.1 ((hrun.graph.early a (Graph.mem_of_get? hn)).resolve_left ha)
  exact ⟨rfl, rfl, id, hid, haddr.symm⟩

/-- A class, and an association with an end in it. -/
def classThenEnd : List Event :=
  [.start { tag := "UML:Class", attributes := [("xmi.id", "c"), ("name", "C")] },
    .finish "UML:Class", .start namedAssociation, .start bareEnd, .finish bareEnd.tag,
    .finish namedAssociation.tag]

/-- An element that refers to something and says nothing else. -/
def standsFor (tag id : String) : Element := { tag, attributes := [("xmi.idref", id)] }

/-- The same with references to the class, the end and something else, before and inside them. -/
def classThenEndReferred : List Event :=
  [.start (standsFor "UML:Classifier" "a-A"), .start (standsFor "UML:Package" "c"),
    .finish "UML:Package", .finish "UML:Classifier",
    .start { tag := "UML:Class", attributes := [("xmi.id", "c"), ("name", "C")] },
    .finish "UML:Class", .start namedAssociation, .start (standsFor "UML:Attribute" "x"),
    .start bareEnd, .finish bareEnd.tag, .finish "UML:Attribute", .finish namedAssociation.tag]

theorem references_do_not_interfere_with_classThenEnd :
    Inserted classThenEnd classThenEndReferred ["a-A", "c", "x"] ∧
    (∀ a n, (Translation.run {} classThenEnd).graph.get? a = some n →
      (Translation.run {} classThenEndReferred).graph.get? a = some n) ∧
    (Translation.run {} classThenEndReferred).totals =
      { elements := (Translation.run {} classThenEnd).totals.elements + 3
        resolved := (Translation.run {} classThenEnd).totals.resolved + 3
        skipped := (Translation.run {} classThenEnd).totals.skipped } := by
  have hins : Inserted classThenEnd classThenEndReferred ["a-A", "c", "x"] := by
    refine .start ⟨by decide, by decide⟩ (.start ⟨by decide, by decide⟩ ?_)
    refine .finish (by decide) (.finish (by decide) (.keep _ (.keep _ (.keep _ ?_))))
    refine .start ⟨by decide, by decide⟩ (.keep _ (.keep _ ?_))
    exact .finish (by decide) (.keep _ .nil)
  obtain ⟨hnodes, -, -, htotals⟩ := references_do_not_interfere {} hins
  exact ⟨hins, hnodes, htotals⟩

end UmlOntology
