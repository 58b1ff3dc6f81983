/-
References. What an element without an identifier says that refers to another one is settled by its
sort alone, wherever it starts: it reaches the node that it refers to and says nothing about it.
Association ends are the exception. An end is not asked whether it refers to anything, so one that
stands where an open association gives it a side declares that side; and it does no harm only where
all that it has to say has been said before.
-/
import UmlOntology.Proofs.Uml.Identifiers

namespace UmlOntology

variable {o : Options} {g : Graph} {a : Iri} {c : Construct} {r : Request} {el : Element}
  {id : String} {scopes : List Scope}

/-! ## Additions that bring nothing -/

namespace Node

variable {n : Node}

theorem knows_demand_iff (k : Kind) (x : Addition) : (n.demand k).Knows x ↔ n.Knows x := by
  cases x <;> rfl

/-- Additions that bring no edge are no news. -/
theorem knows_of_addAll {xs : List Addition} (h : ∀ e ∈ (n.addAll xs).edges, e ∈ n.edges) :
    ∀ x ∈ xs, n.Knows x := by
  induction xs with
  | nil =>
    intro x hx
    cases hx
  | cons x xs ih =>
    have hx : n.Knows x := by
      refine Classical.byContradiction fun hnews => hnews (knows_of_mem (h _ ?_))
      refine (grows_addAll (n.add x) xs).edges.subset ?_
      rw [add_of_not_knows hnews]
      exact List.mem_append_right _ List.mem_cons_self
    rw [addAll_cons, add_of_knows hx] at h
    exact List.forall_mem_cons.2 ⟨hx, ih h⟩

end Node

/-! ## Constructs that only refer -/

/-- The construct, if it reaches a node at all, reaches the one with this identifier and says
nothing about it. -/
structure Construct.RefersTo (c : Construct) (id : String) : Prop where
  declaredId? : c.declaredId? = none
  label? : c.label? = none
  id : ∀ r, c.request? = some r → r.id = id

namespace Construct

theorem refersTo_of_referred {k : Kind} {xs : List Addition} (hid : c.declaredId? = none)
    (hlabel : c.label? = none) (hc : c.request? = referred id k xs) : c.RefersTo id := by
  refine ⟨hid, hlabel, fun r hr => ?_⟩
  rw [hc, referred] at hr
  split at hr
  · cases hr
  · cases hr
    rfl

theorem request?_elementReference (hidref : el.idref? = some id) :
    (elementReference el idrefAttribute).request? = some { id, kind := .unknown } := by
  obtain ⟨hvalue, hne⟩ := Option.filter_eq_some_iff.1 hidref
  rw [request?, hvalue, Option.bind_some, referred, if_neg (by simpa using hne)]

theorem refersTo_elementReference (hidref : el.idref? = some id) :
    (elementReference el idrefAttribute).RefersTo id := by
  refine ⟨rfl, rfl, fun r hr => ?_⟩
  rw [request?_elementReference hidref] at hr
  cases hr
  rfl

theorem refersTo_conceptReference (hidref : el.idref? = some id) :
    (conceptReference el idrefAttribute).RefersTo id := by
  have hvalue : el.nonEmpty? idrefAttribute = some id := hidref
  have hrequest : (conceptReference el idrefAttribute).request? = referred id .concept [] := by
    rw [request?, hvalue, Option.bind_some]
  exact refersTo_of_referred rfl rfl hrequest

theorem refersTo_stereotype (hidref : el.idref? = some id) : (stereotype el).RefersTo id := by
  have href := Element.refers_of_idref? hidref
  have hrequest : (stereotype el).request? = stereotypeRequest? id := by rw [request?, hidref]
  exact refersTo_of_referred (if_pos href) (if_pos href) hrequest

theorem refersTo_annotationProperty (hidref : el.idref? = some id) :
    (annotationProperty el).RefersTo id := by
  have href := Element.refers_of_idref? hidref
  have hrequest : (annotationProperty el).request? = referred id .annotationProperty [] := by
    rw [request?, hidref]
  exact refersTo_of_referred (if_pos href) (if_pos href) hrequest

end Construct

/-! ## Readings of elements that only refer -/

/-- An element without an identifier that refers to something says nothing or refers only, unless it
is an association end that a side is left for. -/
theorem Reading.refersTo_of_idref? (hid : el.id? = none) (hidref : el.idref? = some id)
    (hend : el.IsEnd → Scope.vacancy? scopes = none) :
    (ofElement scopes el).request? = none ∨
      ∃ c, ofElement scopes el = .construct c ∧ c.RefersTo id := by
  have href := Element.refers_of_idref? hidref
  have hor : ∀ c, referenceOr el c = .construct (.elementReference el idrefAttribute) :=
    fun c => by rw [referenceOr, if_pos href]
  by_cases he : el.IsEnd
  · exact Or.inl (request?_end_of_no_vacancy he hid (hend he))
  · rw [← Element.role_eq_associationEnd_iff] at he
    unfold ofElement
    cases hrole : el.role with
    | concept =>
      simp only [if_pos href]
      exact Or.inr ⟨_, rfl, Construct.refersTo_conceptReference hidref⟩
    | classifier =>
      simp only [if_pos href]
      exact Or.inr ⟨_, rfl, Construct.refersTo_elementReference hidref⟩
    | datatype | package | attributeProperty =>
      simp only [hor]
      exact Or.inr ⟨_, rfl, Construct.refersTo_elementReference hidref⟩
    | stereotype => exact Or.inr ⟨_, rfl, Construct.refersTo_stereotype hidref⟩
    | tagDefinition => exact Or.inr ⟨_, rfl, Construct.refersTo_annotationProperty hidref⟩
    | association =>
      simp only [hid]
      exact Or.inl rfl
    | associationEnd => exact (he hrole).elim
    | other =>
      have hdecl : ¬ el.Declares el.tag := by simp [Element.Declares, hid]
      simp only [ofOther, if_neg hdecl]
      exact Or.inl rfl

/-! ## Graphs in which a node is only mentioned -/

/-- An edge that says under which identifier or name a node was declared. -/
def Edge.Identifies (e : Edge) : Prop := e.predicate = .label ∨ e.predicate = .sourceId

/-- The other graph comes from mentioning the node at an address: no node has a new label or
identifier, and no other node is new. -/
structure Graph.Mentions (g : Graph) (a : Iri) (h : Graph) : Prop where
  edges : ∀ b e, e ∈ h.edgesAt b → e.Identifies → e ∈ g.edgesAt b
  nodes : ∀ b, b ∈ h → b ∈ g ∨ b = a

theorem Graph.Mentions.refl (g : Graph) (a : Iri) : g.Mentions a g :=
  ⟨fun _ _ he _ => he, fun _ hb => Or.inl hb⟩

/-- A construct that gives no label adds none. -/
theorem label?_of_addition (hr : c.request? = some r) {x : Addition} (hx : x ∈ o.additions r)
    (hp : x.toEdge.predicate = .label) : c.label? ≠ none := by
  obtain ⟨text, lang, rfl, hmem⟩ := label_of_toEdge hr hx hp
  have hlabel : (text, lang) ∈ r.additions.filterMap Addition.label? :=
    List.mem_filterMap.2 ⟨_, hmem, rfl⟩
  rw [(Construct.labels_of_request hr).labels] at hlabel
  intro hnone
  rw [hnone] at hlabel
  cases hlabel

namespace Graph

/-- A construct that refers only mentions its node. -/
theorem mentions_realize_of_refersTo (hc : c.RefersTo id) (hr : c.request? = some r) :
    g.Mentions (o.address id) (g.realize o r) := by
  refine ⟨fun b e he hid => ?_, fun b hb => ?_⟩
  · rcases mem_edgesAt_realize he with he | ⟨-, x, hx, rfl⟩
    · exact he
    · rcases hid with hp | hp
      · exact (label?_of_addition hr hx hp hc.label?).elim
      · obtain ⟨-, hdecl, -⟩ := sourceId_of_addition hr hx hp
        rw [hc.declaredId?] at hdecl
        cases hdecl
  · rw [← hc.id r hr]
    exact (mem_realize_iff.1 hb).symm

/-- What is known to the node that a request reaches adds no edge. -/
theorem edgesAt_realize_of_knows
    (hk : ∀ x ∈ o.additions r, (g.nodeAt (o.address r.id)).Knows x) (b : Iri) :
    (g.realize o r).edgesAt b = g.edgesAt b := by
  unfold edgesAt
  rw [nodeAt_realize]
  by_cases hb : b = o.address r.id
  · rw [if_pos hb, Node.addAll_of_knows fun x hx => (Node.knows_demand_iff _ x).2 (hk x hx),
      Node.edges_demand, hb]
  · rw [if_neg hb]

/-- A request that is for nothing but a label and an identifier only mentions a node if that node
knows them, and is there or is the one that is meant. -/
theorem mentions_realize_iff (hxs : ∀ x ∈ o.additions r, x.toEdge.Identifies) :
    g.Mentions a (g.realize o r) ↔
      (o.address r.id ∈ g ∨ o.address r.id = a) ∧
        ∀ x ∈ o.additions r, (g.nodeAt (o.address r.id)).Knows x := by
  constructor
  · intro h
    refine ⟨h.nodes _ (mem_realize_iff.2 (Or.inl rfl)), fun x hx => ?_⟩
    have hedges := h.edges (o.address r.id)
    rw [edgesAt, nodeAt_realize, if_pos rfl] at hedges
    rw [← Node.knows_demand_iff r.kind]
    refine Node.knows_of_addAll (fun e he => ?_) x hx
    -- an edge that was not there before is one of the additions, and those have to be there
    rcases Node.mem_edges_addAll he with he' | ⟨y, hy, rfl⟩
    · exact he'
    · exact hedges _ he (hxs y hy)
  · rintro ⟨hmem, hk⟩
    refine ⟨fun b e he _ => ?_, fun b hb => ?_⟩
    · rwa [edgesAt_realize_of_knows hk] at he
    · rcases mem_realize_iff.1 hb with rfl | hb
      · exact hmem
      · exact Or.inl hb

end Graph

/-! ## Starts of elements that only refer -/

/-- What an end is declared with is all label and identifier. -/
theorem identifies_of_associationEnd {base : String} {side : Side}
    (hr : (Construct.associationEnd el base side).request? = some r) :
    ∀ x ∈ o.additions r, x.toEdge.Identifies := by
  rw [Construct.request?] at hr
  split at hr
  · cases hr
  · cases hr
    intro x hx
    rcases Options.mem_additions_iff.1 hx with ⟨-, rfl⟩ | hx
    · exact Or.inr rfl
    · obtain ⟨name, -, rfl⟩ := Option.map_eq_some_iff.1 (Option.mem_toList.1 hx)
      exact Or.inl rfl

theorem mentions_start_of_refersTo {t : Translation}
    (h : (Reading.ofElement t.scopes el).request? = none ∨
      ∃ c, Reading.ofElement t.scopes el = .construct c ∧ c.RefersTo id) :
    t.graph.Mentions (o.address id) (t.start o el).graph := by
  rcases h with hnone | ⟨c, hc, hrefers⟩
  · rw [Translation.graph_start_of_none hnone]
    exact Graph.Mentions.refl _ _
  · have hread : (Reading.ofElement t.scopes el).request? = c.request? := by
      rw [hc, Reading.request?]
    cases hr : c.request? with
    | none =>
      rw [Translation.graph_start_of_none (hread.trans hr)]
      exact Graph.Mentions.refl _ _
    | some r =>
      rw [Translation.graph_start_of_some (hread.trans hr)]
      exact Graph.mentions_realize_of_refersTo hrefers hr

/-- The start of an element that refers and has no identifier mentions the node that it refers to
and does nothing else, in whatever state it comes, unless it is an association end for which the
innermost open association has a side. Such an end is taken for a declaration of that side, and so
it must have nothing to say that is new there. -/
theorem mentions_start_iff (o : Options) (t : Translation) (hid : el.id? = none)
    (hidref : el.idref? = some id) :
    t.graph.Mentions (o.address id) (t.start o el).graph ↔
      ∀ base side r, el.IsEnd → Scope.vacancy? t.scopes = some (base, side) →
        (Construct.associationEnd el base side).request? = some r →
        (o.address r.id ∈ t.graph ∨ o.address r.id = o.address id) ∧
          ∀ x ∈ o.additions r, (t.graph.nodeAt (o.address r.id)).Knows x := by
  by_cases hend : el.IsEnd → Scope.vacancy? t.scopes = none
  · refine iff_of_true (mentions_start_of_refersTo (Reading.refersTo_of_idref? hid hidref hend)) ?_
    intro base side r he hv
    rw [hend he] at hv
    cases hv
  · obtain ⟨he, hsome⟩ := Classical.not_imp.1 hend
    obtain ⟨⟨base, side⟩, hv⟩ := Option.ne_none_iff_exists'.1 hsome
    have hread : (Reading.ofElement t.scopes el).request? =
        (Construct.associationEnd el base side).request? := by
      rw [Reading.ofElement_end_of_vacancy he hid hv, Reading.request?]
    cases hr : (Construct.associationEnd el base side).request? with
    | none =>
      rw [Translation.graph_start_of_none (hread.trans hr)]
      refine iff_of_true (Graph.Mentions.refl _ _) fun base' side' r _ hv' hr' => ?_
      rw [hv] at hv'
      cases hv'
      rw [hr] at hr'
      cases hr'
    | some r =>
      rw [Translation.graph_start_of_some (hread.trans hr),
        Graph.mentions_realize_iff (identifies_of_associationEnd hr)]
      constructor
      · intro h base' side' r' _ hv' hr'
        rw [hv] at hv'
        cases hv'
        rw [hr] at hr'
        cases hr'
        exact h
      · intro h
        exact h base side r he hv hr

/-- An association end that refers to another one, with a name of its own. -/
def referringEnd : Element :=
  { tag := "UML:AssociationEnd", attributes := [("xmi.idref", "e"), ("name", "E")] }

/-- An end that is declared, and an association in which ends can refer to it. -/
def declaredEnd : List Event :=
  [.start { tag := "UML:AssociationEnd", attributes := [("xmi.id", "e")] },
    .finish "UML:AssociationEnd", .start namedAssociation]

/-- Behind two ends there is no side left, so a third end only refers. -/
theorem mentions_thirdEnd :
    (referringEnd.id? = none ∧ referringEnd.idref? = some "e") ∧
    (Translation.run {} (declaredEnd ++ [.start bareEnd, .start bareEnd])).graph.Mentions
      (({} : Options).address "e")
      ((Translation.run {} (declaredEnd ++ [.start bareEnd, .start bareEnd])).start {}
        referringEnd).graph := by
  refine ⟨⟨by decide, by decide⟩, (mentions_start_iff {} _ (by decide) (by decide)).2 ?_⟩
  intro base side r _ hv
  have hfull : Scope.vacancy? (Translation.run {} (declaredEnd ++
      [.start bareEnd, .start bareEnd])).scopes = none := by decide
  rw [hfull] at hv
  cases hv

/-- The first end that refers to another one in an association with an identifier declares a node of
its own. -/
theorem not_mentions_firstEnd :
    (referringEnd.id? = none ∧ referringEnd.idref? = some "e") ∧
    ¬ (Translation.run {} declaredEnd).graph.Mentions (({} : Options).address "e")
      ((Translation.run {} declaredEnd).start {} referringEnd).graph := by
  refine ⟨⟨by decide, by decide⟩, fun h => ?_⟩
  have hnew : ({} : Options).address "a-A" ∈
      ((Translation.run {} declaredEnd).start {} referringEnd).graph := by decide
  have hold : ({} : Options).address "a-A" ∉ (Translation.run {} declaredEnd).graph := by decide
  have hother : ({} : Options).address "a-A" ≠ ({} : Options).address "e" := by decide
  rcases h.nodes _ hnew with hmem | heq
  · exact hold hmem
  · exact hother heq

end UmlOntology
