/-
The same events under different settings. What an element asks for does not depend on the settings;
they decide what stands in front of the identifiers in addresses, and whether declared nodes keep
theirs. Addresses of one namespace are told apart by their identifiers alone, and no label, edge or
kind is ever settled by the identifier that a node keeps. So two runs build the same nodes in the
same places: behind the namespaces the addresses agree, and but for the kept identifiers the edges
do.
-/
import UmlOntology.Proofs.Uml.Identifiers
import Mathlib.Data.List.Forall2

namespace UmlOntology

/-- What a construct adds of its own does not lead to an identifier. -/
theorem Construct.predicate_of_addition {c : Construct} {r : Request} (hr : c.request? = some r) :
    ∀ x ∈ r.additions, x.toEdge.predicate ≠ .sourceId := by
  intro x hx
  cases x with
  | label text lang => nofun
  | edge p y =>
    rcases (labels_of_request hr).edges p y hx with rfl | rfl <;> nofun

/-! ## Edges of some relations -/

namespace Node

variable {n m : Node} {x : Addition} {xs : List Addition}

section EdgesBy

variable {among : Predicate → Prop} [DecidablePred among]

/-- The edges of a node that are of these relations. -/
def edgesBy (n : Node) (among : Predicate → Prop) [DecidablePred among] : List Edge :=
  n.edges.filter (among ·.predicate)

theorem edgesBy_all (n : Node) : n.edgesBy (fun _ => True) = n.edges := by
  simp [edgesBy]

theorem mem_edgesBy_iff {e : Edge} (he : among e.predicate) :
    e ∈ n.edgesBy among ↔ e ∈ n.edges := by
  simp [edgesBy, he]

theorem filter_edgesBy {p : Predicate} (hp : among p) (n : Node) :
    (n.edgesBy among).filter (·.predicate = p) = n.edges.filter (·.predicate = p) := by
  unfold edgesBy
  rw [List.filter_filter]
  refine List.filter_congr fun e _ => ?_
  by_cases he : e.predicate = p
  · simp [he, hp]
  · simp [he]

theorem label?_congr (hl : among .label) (h : n.edgesBy among = m.edgesBy among)
    (lang : Option String) : n.label? lang = m.label? lang := by
  unfold label? labels objects
  rw [← filter_edgesBy hl n, ← filter_edgesBy hl m, h]

/-- Whether an addition is news depends on the labels and the edges of its own relation. -/
theorem knows_congr (hl : among .label) (hx : among x.toEdge.predicate)
    (h : n.edgesBy among = m.edgesBy among) : n.Knows x ↔ m.Knows x := by
  have hmem : x.toEdge ∈ n.edges ↔ x.toEdge ∈ m.edges := by
    rw [← mem_edgesBy_iff hx, h, mem_edgesBy_iff hx]
  cases x with
  | label text lang =>
    show (n.label? lang).isSome ∨ _ ↔ (m.label? lang).isSome ∨ _
    rw [label?_congr hl h]
    exact or_congr_right hmem
  | edge p y => exact hmem

theorem edgesBy_add_congr (hl : among .label) (hx : among x.toEdge.predicate)
    (h : n.edgesBy among = m.edgesBy among) :
    (n.add x).edgesBy among = (m.add x).edgesBy among := by
  have hknows := knows_congr hl hx h
  by_cases hn : n.Knows x
  · rw [add_of_knows hn, add_of_knows (hknows.1 hn), h]
  · rw [add_of_not_knows hn, add_of_not_knows (mt hknows.2 hn)]
    unfold edgesBy at *
    rw [List.filter_append, List.filter_append, h]

/-- What edges of these relations additions leave depends on those that were there. -/
theorem edgesBy_addAll_congr (hl : among .label) (hxs : ∀ x ∈ xs, among x.toEdge.predicate)
    (h : n.edgesBy among = m.edgesBy among) :
    (n.addAll xs).edgesBy among = (m.addAll xs).edgesBy among := by
  induction xs generalizing n m with
  | nil => exact h
  | cons x xs ih =>
    obtain ⟨hx, hxs⟩ := List.forall_mem_cons.1 hxs
    exact ih hxs (edgesBy_add_congr hl hx h)

theorem edgesBy_add_other (hx : ¬ among x.toEdge.predicate) (n : Node) :
    (n.add x).edgesBy among = n.edgesBy among := by
  by_cases hn : n.Knows x
  · rw [add_of_knows hn]
  · rw [add_of_not_knows hn]
    unfold edgesBy
    rw [List.filter_append]
    simp [hx]

end EdgesBy

/-- To keep the identifier or not makes no difference to the other edges. -/
theorem edgesBy_additions (n : Node) (o : Options) {r : Request}
    (hr : ∀ x ∈ r.additions, x.toEdge.predicate ≠ .sourceId) :
    (n.addAll (o.additions r)).edgesBy (· ≠ .sourceId) =
      (n.addAll r.additions).edgesBy (· ≠ .sourceId) := by
  unfold Options.additions
  split
  · exact edgesBy_addAll_congr nofun hr (edgesBy_add_other (fun hne => hne rfl) n)
  · rfl

/-! ## Nodes that correspond -/

/-- The nodes are the same but for the namespaces of the settings and for kept identifiers, and
altogether the same but for the namespaces if the settings keep identifiers alike. -/
structure Counterpart (o p : Options) (n m : Node) : Prop where
  address : ∃ id, n.address = ⟨o.ns.text ++ id⟩ ∧ m.address = ⟨p.ns.text ++ id⟩
  kind : n.kind = m.kind
  plainEdges : n.edges.filter (·.predicate ≠ .sourceId) = m.edges.filter (·.predicate ≠ .sourceId)
  edges : o.keepIds = p.keepIds → n.edges = m.edges

namespace Counterpart

variable {o p : Options}

theorem blank (o p : Options) (id : String) (k : Kind) :
    Counterpart o p { address := o.address id, kind := k } { address := p.address id, kind := k } :=
  ⟨⟨id, rfl, rfl⟩, rfl, rfl, fun _ => rfl⟩

/-- Both nodes are at the address of an identifier, or neither is. -/
theorem address_eq_iff (h : Counterpart o p n m) (id : String) :
    n.address = o.address id ↔ m.address = p.address id := by
  obtain ⟨id', hn, hm⟩ := h.address
  have hn' : n.address = o.address id' := hn
  have hm' : m.address = p.address id' := hm
  rw [hn', hm', o.address_injective.eq_iff, p.address_injective.eq_iff]

theorem demand (h : Counterpart o p n m) (k : Kind) :
    Counterpart o p (n.demand k) (m.demand k) := by
  refine ⟨h.address, ?_, h.plainEdges, h.edges⟩
  show n.kind.settle k = m.kind.settle k
  rw [h.kind]

theorem addAll (h : Counterpart o p n m) {r : Request}
    (hr : ∀ x ∈ r.additions, x.toEdge.predicate ≠ .sourceId) :
    Counterpart o p (n.addAll (o.additions r)) (m.addAll (p.additions r)) := by
  have hplain : n.edgesBy (· ≠ .sourceId) = m.edgesBy (· ≠ .sourceId) := h.plainEdges
  refine ⟨?_, ?_, ?_, fun hkeep => ?_⟩
  · rw [address_addAll, address_addAll]
    exact h.address
  · rw [kind_addAll, kind_addAll, h.kind]
  · exact (edgesBy_additions n o hr).trans
      ((edgesBy_addAll_congr nofun hr hplain).trans (edgesBy_additions m p hr).symm)
  · have hadditions : o.additions r = p.additions r := by
      unfold Options.additions
      rw [hkeep]
    rw [hadditions, ← edgesBy_all, ← edgesBy_all]
    refine edgesBy_addAll_congr trivial (fun _ _ => trivial) ?_
    rw [edgesBy_all, edgesBy_all, h.edges hkeep]

end Counterpart

end Node

/-! ## Graphs that correspond -/

namespace Graph

variable {o p : Options} {g h : Graph}

/-- The nodes of the two graphs correspond, each to the one in the same place. -/
def Counterparts (o p : Options) (g h : Graph) : Prop :=
  List.Forall₂ (Node.Counterpart o p) g.nodes h.nodes

namespace Counterparts

theorem mem_iff (hgh : Counterparts o p g h) (id : String) :
    o.address id ∈ g ↔ p.address id ∈ h := by
  obtain ⟨ns⟩ := g
  obtain ⟨ms⟩ := h
  change List.Forall₂ _ ns ms at hgh
  show (∃ n ∈ ns, n.address = o.address id) ↔ ∃ m ∈ ms, m.address = p.address id
  induction hgh with
  | nil => simp
  | cons hnm _ ih => simp only [List.exists_mem_cons_iff, hnm.address_eq_iff, ih]

/-- Changes at the address of one identifier that keep nodes in correspondence keep graphs so. -/
theorem change (hgh : Counterparts o p g h) (id : String) {f f' : Node → Node}
    (hf : ∀ n m, n.Counterpart o p m → (f n).Counterpart o p (f' m)) :
    Counterparts o p (g.change (o.address id) f) (h.change (p.address id) f') := by
  obtain ⟨ns⟩ := g
  obtain ⟨ms⟩ := h
  change List.Forall₂ _ ns ms at hgh
  show List.Forall₂ _ (changeAt _ f ns) (changeAt _ f' ms)
  -- the node at the address stands in the same place in both
  induction hgh with
  | nil => exact .nil
  | @cons n m ns ms hnm hrest ih =>
    unfold changeAt
    by_cases hn : n.address = o.address id
    · rw [if_pos hn, if_pos ((hnm.address_eq_iff id).1 hn)]
      exact .cons (hf n m hnm) hrest
    · rw [if_neg hn, if_neg (mt (hnm.address_eq_iff id).2 hn)]
      exact .cons hnm ih

theorem demand (hgh : Counterparts o p g h) (id : String) (k : Kind) :
    Counterparts o p (g.demand (o.address id) k) (h.demand (p.address id) k) := by
  unfold Graph.demand
  by_cases hmem : o.address id ∈ g
  · rw [if_pos hmem, if_pos ((hgh.mem_iff id).1 hmem)]
    exact hgh.change id fun _ _ hnm => hnm.demand k
  · rw [if_neg hmem, if_neg (mt (hgh.mem_iff id).2 hmem)]
    exact List.rel_append hgh (.cons (.blank o p id k) .nil)

/-- A construct builds nodes that correspond, each under its own settings. -/
theorem build (hgh : Counterparts o p g h) (c : Construct) :
    Counterparts o p (Operation.apply g (.build o c)) (Operation.apply h (.build p c)) := by
  cases hr : c.request? with
  | none =>
    rw [Operation.apply_build_of_none hr, Operation.apply_build_of_none hr]
    exact hgh
  | some r =>
    rw [Operation.apply_build_of_some hr, Operation.apply_build_of_some hr]
    exact (hgh.demand r.id r.kind).change r.id fun _ _ hnm =>
      hnm.addAll (Construct.predicate_of_addition hr)

theorem buildAll (hgh : Counterparts o p g h) (cs : List Construct) :
    Counterparts o p (g.buildAll o cs) (h.buildAll p cs) := by
  induction cs generalizing g h with
  | nil => exact hgh
  | cons c cs ih =>
    rw [buildAll_cons, buildAll_cons]
    exact ih (hgh.build c)

end Counterparts

end Graph

/-- After the same events under different settings the totals are the same, and so are the nodes in
their order: the addresses are one identifier behind the one namespace and behind the other, the
kinds are equal, and the edges are equal but for the kept identifiers, and equal altogether if both
settings keep identifiers or neither does. -/
theorem run_of_settings (o p : Options) (es : List Event) :
    (Translation.run o es).totals = (Translation.run p es).totals ∧
    (Translation.run o es).graph.nodes.length = (Translation.run p es).graph.nodes.length ∧
    List.Forall₂ (Node.Counterpart o p) (Translation.run o es).graph.nodes
      (Translation.run p es).graph.nodes := by
  have hnodes : Graph.Counterparts o p (Translation.run o es).graph (Translation.run p es).graph := by
    rw [Translation.graph_run, Translation.graph_run]
    exact Graph.Counterparts.buildAll .nil _
  refine ⟨?_, hnodes.length_eq, hnodes⟩
  rw [Translation.totals_run, Translation.totals_run]

end UmlOntology
