/-
The types of nodes. Some kinds imply a type. For the others it is the construct that says the type,
by an edge that comes with the demand for the kind; and the kind of a node is the first that a
construct demanded and that says something. So whatever else is demanded of a node, before or after,
the edge that goes with its kind is there, and the graph states a type for every node that is of a
kind with types.
-/
import UmlOntology.Ontology.Statement
import UmlOntology.Proofs.Uml.Labels
import UmlOntology.Proofs.Uml.Run

namespace UmlOntology

/-! ## Kinds that go with an edge -/

/-- If the kind goes with an edge, it is among these, given by relation and object. -/
structure Kind.ShownBy (k : Kind) (has : Predicate → Object → Prop) : Prop where
  datatype : k = .datatype → has .type (.node ⟨Vocabulary.rdfsDatatype⟩)
  individual : k = .individual → ∃ type, has .type (.node type)
  attributeProperty : k = .attributeProperty →
    has .hasStereotype (.literal Vocabulary.attributeStereotype)

namespace Kind

variable {k : Kind} {has has' : Predicate → Object → Prop}

theorem ShownBy.mono (h : k.ShownBy has) (hsub : ∀ p x, has p x → has' p x) : k.ShownBy has' :=
  ⟨fun hk => hsub _ _ (h.datatype hk), fun hk => (h.individual hk).imp fun _ => hsub _ _,
    fun hk => hsub _ _ (h.attributeProperty hk)⟩

theorem shownBy_datatype (h : has .type (.node ⟨Vocabulary.rdfsDatatype⟩)) :
    datatype.ShownBy has :=
  ⟨fun _ => h, by simp, by simp⟩

theorem shownBy_individual (type : Iri) (h : has .type (.node type)) : individual.ShownBy has :=
  ⟨by simp, fun _ => ⟨type, h⟩, by simp⟩

theorem shownBy_attributeProperty
    (h : has .hasStereotype (.literal Vocabulary.attributeStereotype)) :
    attributeProperty.ShownBy has :=
  ⟨by simp, by simp, fun _ => h⟩

/-- The other kinds go with no edge. -/
theorem shownBy_of_notMem (hk : k ∉ [datatype, individual, attributeProperty]) :
    k.ShownBy has := by
  refine ⟨?_, ?_, ?_⟩ <;>
    · rintro rfl
      exact (hk (by decide)).elim

end Kind

/-- The node has the edge that goes with its kind. -/
def Node.Shown (n : Node) : Prop := n.kind.ShownBy fun p x => ⟨p, x⟩ ∈ n.edges

/-- The request adds the edge that goes with the kind that it demands. -/
def Request.Shows (r : Request) : Prop := r.kind.ShownBy fun p x => .edge p x ∈ r.additions

/-! ## Requests of constructs -/

namespace Construct

variable {r : Request} {el : Element} {k : Kind}

theorem shows_declared {xs : String → List Addition} (hr : declared el k xs = some r)
    (hxs : ∀ name, k.ShownBy fun p x => .edge p x ∈ xs name) : r.Shows := by
  obtain ⟨⟨id, name⟩, -, rfl⟩ := Option.map_eq_some_iff.1 hr
  exact hxs name

theorem shows_referred {id : String} {xs : List Addition} (hr : referred id k xs = some r)
    (hxs : k.ShownBy fun p x => .edge p x ∈ xs) : r.Shows := by
  unfold referred at hr
  split at hr
  · cases hr
  · cases hr
    exact hxs

theorem shows_individual {type : Iri} (hr : individualRequest? el type = some r) : r.Shows :=
  shows_declared hr fun _ => Kind.shownBy_individual type (by simp [typeEdge])

theorem shows_stereotype {id : String} (hr : stereotypeRequest? id = some r) : r.Shows :=
  shows_referred hr (Kind.shownBy_individual _ (List.mem_singleton_self _))

/-- Whatever a construct demands, it adds the edge that goes with it. -/
theorem shows_request {c : Construct} (hr : c.request? = some r) : r.Shows := by
  cases c with
  | datatype el =>
    rw [request?] at hr
    exact shows_declared hr fun _ => Kind.shownBy_datatype (by simp [typeEdge])
  | attributeProperty el =>
    rw [request?] at hr
    exact shows_declared hr fun _ => Kind.shownBy_attributeProperty List.mem_cons_self
  | individual el type => exact shows_individual hr
  | package el => exact shows_individual hr
  | stereotypeReference id => exact shows_stereotype hr
  | stereotype el =>
    rw [request?] at hr
    split at hr
    · exact shows_stereotype hr
    · exact shows_individual hr
  | concept el | unclassified el =>
    rw [request?] at hr
    exact shows_declared hr fun _ => Kind.shownBy_of_notMem (by decide)
  | annotationProperty el =>
    rw [request?] at hr
    split at hr
    · exact shows_referred hr (Kind.shownBy_of_notMem (by decide))
    · exact shows_declared hr fun _ => Kind.shownBy_of_notMem (by decide)
  | conceptReference el key | elementReference el key =>
    obtain ⟨id, -, hr⟩ := Option.bind_eq_some_iff.1 hr
    exact shows_referred hr (Kind.shownBy_of_notMem (by decide))
  | reference id => exact shows_referred hr (Kind.shownBy_of_notMem (by decide))
  | objectProperty el =>
    obtain ⟨id, -, rfl⟩ := Option.map_eq_some_iff.1 hr
    exact Kind.shownBy_of_notMem (by simp)
  | association id | associationEnd el base side =>
    rw [request?] at hr
    split at hr
    · cases hr
    · cases hr
      exact Kind.shownBy_of_notMem (by simp)

end Construct

/-! ## What requests keep -/

/-- A node of a settled kind keeps the edge that it has; one of open kind gets its kind from the
request, and the edge with it. -/
theorem Node.Shown.request {n : Node} (hn : n.Shown) {r : Request} (hr : r.Shows) (o : Options) :
    ((n.demand r.kind).addAll (o.additions r)).Shown := by
  have hgrows : n.Grows ((n.demand r.kind).addAll (o.additions r)) :=
    (grows_demand n _).trans (grows_addAll _ _)
  by_cases hopen : n.kind = .unknown
  · have hkind : ((n.demand r.kind).addAll (o.additions r)).kind = r.kind := by
      rw [kind_addAll]
      exact if_pos hopen
    unfold Node.Shown
    rw [hkind]
    refine hr.mono fun p x hx => ?_
    have hadded : Addition.edge p x ∈ o.additions r := Options.mem_additions_iff.2 (Or.inr hx)
    exact knows_addAll (n.demand r.kind) _ _ hadded
  · unfold Node.Shown
    rw [hgrows.kind.resolve_right hopen]
    exact Kind.ShownBy.mono hn fun p x hx => hgrows.edges.subset hx

namespace Graph

variable {g : Graph}

/-- Every node has the edge that goes with its kind. -/
def Shown (g : Graph) : Prop := ∀ a, (g.nodeAt a).Shown

theorem shown_empty : Shown {} := fun _ => Kind.shownBy_of_notMem (k := .unknown) (by decide)

theorem Shown.build (hg : g.Shown) (o : Options) (c : Construct) :
    (Operation.apply g (.build o c)).Shown := by
  cases hr : c.request? with
  | none =>
    rw [Operation.apply_build_of_none hr]
    exact hg
  | some r =>
    rw [Operation.apply_build_of_some hr]
    intro a
    rw [nodeAt_realize]
    split
    · exact (hg _).request (Construct.shows_request hr) o
    · exact hg a

theorem Shown.buildEach (hg : g.Shown) (cs : List (Options × Construct)) :
    (g.buildEach cs).Shown := by
  induction cs generalizing g with
  | nil => exact hg
  | cons c cs ih =>
    rw [buildEach_cons]
    exact ih (hg.build c.1 c.2)

theorem buildAll_eq_buildEach (o : Options) (g : Graph) (cs : List Construct) :
    g.buildAll o cs = g.buildEach (cs.map fun c => (o, c)) := by
  unfold buildAll buildEach
  rw [List.map_map]
  rfl

end Graph

/-! ## Statements -/

/-- A node states the type that its kind implies or the one that goes with its kind. -/
theorem Node.Shown.states_type {n : Node} (hn : n.Shown) (ha : n.kind ≠ .association)
    (hu : n.kind ≠ .unknown) :
    ∃ type, ⟨n.address, ⟨Vocabulary.rdfType⟩, .node type⟩ ∈ n.statements := by
  unfold statements impliedType?
  have hedge : ∀ type, ⟨.type, .node type⟩ ∈ n.edges →
      (⟨n.address, ⟨Vocabulary.rdfType⟩, .node type⟩ : Statement) ∈
        n.edges.map fun e => ⟨n.address, e.predicate.iri, e.object⟩ :=
    fun type he => List.mem_map.2 ⟨_, he, rfl⟩
  cases hk : n.kind with
  | concept | objectProperty | annotationProperty | attributeProperty =>
    exact ⟨_, List.mem_append_left _ List.mem_cons_self⟩
  | datatype => exact ⟨_, List.mem_append_right _ (hedge _ (hn.datatype hk))⟩
  | individual =>
    obtain ⟨type, he⟩ := hn.individual hk
    exact ⟨type, List.mem_append_right _ (hedge type he)⟩
  | association => exact (ha hk).elim
  | unknown => exact (hu hk).elim

/-- Every node of the graph that is a datatype, an individual or an attribute says so by an edge,
and a type is stated for every node but those that stand for associations and those of unknown
kind. -/
structure Graph.Typed (g : Graph) : Prop where
  datatype : ∀ n ∈ g.nodes, n.kind = .datatype →
    ⟨.type, .node ⟨Vocabulary.rdfsDatatype⟩⟩ ∈ n.edges
  individual : ∀ n ∈ g.nodes, n.kind = .individual → ∃ type, ⟨.type, .node type⟩ ∈ n.edges
  attributeProperty : ∀ n ∈ g.nodes, n.kind = .attributeProperty →
    ⟨.hasStereotype, .literal Vocabulary.attributeStereotype⟩ ∈ n.edges
  stated : ∀ n ∈ g.nodes, n.kind ≠ .association → n.kind ≠ .unknown →
    ∃ type, ⟨n.address, ⟨Vocabulary.rdfType⟩, .node type⟩ ∈ g.statements

theorem Graph.Shown.typed {g : Graph} (hg : g.Shown) (hu : g.addresses.Nodup) : g.Typed := by
  have hnode : ∀ n ∈ g.nodes, n.Shown := by
    intro n hn
    have hshown := hg n.address
    rwa [nodeAt_of_get? (get?_of_mem hu hn)] at hshown
  refine ⟨fun n hn => (hnode n hn).datatype, fun n hn => (hnode n hn).individual,
    fun n hn => (hnode n hn).attributeProperty, fun n hn ha hk => ?_⟩
  obtain ⟨type, hs⟩ := (hnode n hn).states_type ha hk
  exact ⟨type, List.mem_flatMap.2 ⟨n, hn, hs⟩⟩

/-- Whatever calls build, and whatever events a translation goes through, the nodes say what they
are, and the graph states a type for each that has one. -/
theorem typed_of_calls :
    (∀ cs : List (Options × Construct), (Graph.buildEach {} cs).Typed) ∧
    ∀ o es, (Translation.run o es).graph.Typed := by
  have hcalls : ∀ cs : List (Options × Construct), (Graph.buildEach {} cs).Typed := by
    intro cs
    have hwf : (Graph.buildEach {} cs).WF := Graph.wf_extend Graph.wf_empty _
    exact (Graph.shown_empty.buildEach cs).typed hwf.addresses
  refine ⟨hcalls, fun o es => ?_⟩
  rw [Translation.graph_run, Graph.buildAll_eq_buildEach]
  exact hcalls _

end UmlOntology
