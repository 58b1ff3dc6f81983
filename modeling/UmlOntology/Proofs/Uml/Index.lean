/-
A graph as an index: nodes that are filed under keys. A node is found by the key that it is filed
under, whatever address it has itself, and it is the key that an operation names. But a new node is
made for the key that it is filed under, and nothing ever moves a node or gives it another address.
So every node stands under its own address, and to search the nodes for an address, as a graph does,
finds what the index has under it.
-/
import UmlOntology.Proofs.Ontology.View
import UmlOntology.Proofs.Uml.Run

namespace UmlOntology

/-- Nodes under keys, in the order in which the keys came to be. -/
structure Index where
  entries : List (Iri × Node) := []

namespace Index

/-! ## What is done to an index -/

/-- The node that is filed under a key. -/
def get? (x : Index) (key : Iri) : Option Node := (x.entries.find? (·.1 = key)).map (·.2)

/-- Changes the first node that is filed under a key. -/
def changeAt (key : Iri) (f : Node → Node) : List (Iri × Node) → List (Iri × Node)
  | [] => []
  | e :: es => if e.1 = key then (e.1, f e.2) :: es else e :: changeAt key f es

/-- The index with the node under a key changed. -/
def change (x : Index) (key : Iri) (f : Node → Node) : Index := ⟨changeAt key f x.entries⟩

/-- The index with a node under the key: a new one if there was none; the one that is there
otherwise, its kind settled if it was open. -/
def demand (x : Index) (key : Iri) (k : Kind) : Index :=
  if (x.get? key).isSome then x.change key (·.demand k)
  else ⟨x.entries ++ [(key, { address := key, kind := k })]⟩

/-- The index after a request: its node is there and has the additions. -/
def realize (x : Index) (o : Options) (r : Request) : Index :=
  (x.demand (o.address r.id) r.kind).change (o.address r.id) (·.addAll (o.additions r))

/-- The index after an operation. -/
def apply (x : Index) : Operation → Index
  | .build o c =>
    match c.request? with
    | some r => x.realize o r
    | none => x
  | .demand a k => x.demand a k
  | .setLabel a text lang => x.change a (·.setLabel text lang)
  | .addEdge a p o => x.change a (·.addEdge p o)

/-- The index after a history of operations. -/
def extend (x : Index) (history : List Operation) : Index := history.foldl apply x

/-! ## The index of a graph -/

/-- The nodes of a graph, each filed under its own address. -/
def ofGraph (g : Graph) : Index := ⟨g.nodes.map fun n => (n.address, n)⟩

theorem get?_ofGraph (g : Graph) (a : Iri) : (ofGraph g).get? a = g.get? a := by
  unfold get? ofGraph Graph.get?
  rw [List.find?_map, Option.map_map]
  exact Option.map_id'

theorem change_ofGraph {f : Node → Node} (hf : ∀ n, (f n).address = n.address) (g : Graph)
    (a : Iri) : (ofGraph g).change a f = ofGraph (g.change a f) := by
  obtain ⟨ns⟩ := g
  show (⟨changeAt a f (ns.map fun n => (n.address, n))⟩ : Index) =
    ⟨(Graph.changeAt a f ns).map fun n => (n.address, n)⟩
  refine congrArg Index.mk ?_
  induction ns with
  | nil => rfl
  | cons n ns ih =>
    rw [List.map_cons, changeAt, Graph.changeAt]
    split
    · rw [List.map_cons, hf]
    · rw [List.map_cons, ih]

theorem demand_ofGraph (g : Graph) (a : Iri) (k : Kind) :
    (ofGraph g).demand a k = ofGraph (g.demand a k) := by
  unfold demand Graph.demand
  rw [get?_ofGraph]
  by_cases ha : a ∈ g
  · rw [if_pos ha, if_pos (Graph.mem_iff_get?.1 ha)]
    exact change_ofGraph (fun n => Node.address_demand n k) g a
  · rw [if_neg ha, if_neg (mt Graph.mem_iff_get?.2 ha)]
    simp [ofGraph]

theorem realize_ofGraph (g : Graph) (o : Options) (r : Request) :
    (ofGraph g).realize o r = ofGraph (g.realize o r) := by
  unfold realize Graph.realize
  rw [demand_ofGraph, change_ofGraph fun n => Node.address_addAll n _]

/-- An operation does the same to a graph and to its index. -/
theorem apply_ofGraph (g : Graph) (op : Operation) :
    (ofGraph g).apply op = ofGraph (op.apply g) := by
  cases op with
  | build o c =>
    rw [apply]
    cases hr : c.request? with
    | none => rw [Operation.apply_build_of_none hr]
    | some r =>
      rw [Operation.apply_build_of_some hr]
      exact realize_ofGraph g o r
  | demand a k => exact demand_ofGraph g a k
  | setLabel a text lang =>
    rw [Operation.apply_setLabel]
    exact change_ofGraph (fun n => (Node.grows_add n (.label text lang)).address) g a
  | addEdge a p y =>
    rw [Operation.apply_addEdge]
    exact change_ofGraph (fun n => (Node.grows_add n (.edge p y)).address) g a

theorem extend_ofGraph (g : Graph) (history : List Operation) :
    (ofGraph g).extend history = ofGraph (g.extend history) := by
  induction history generalizing g with
  | nil => rfl
  | cons op history ih =>
    rw [Graph.extend_cons, ← ih, ← apply_ofGraph]
    rfl

end Index

/-- The operations that a translation carries out on its graph: it builds the constructs that it
reads. -/
def Translation.operations (o : Options) (es : List Event) : List Operation :=
  (Reading.constructs (Reading.ofEvents [] es)).map (.build o)

/-- Whatever a translation goes through and whatever is done to its graph then, if anything: in the
index that the same operations fill every node is filed under its own address, the nodes stand there
in the order of the graph, what it has under an address is what the graph finds there, and all views
of the graph agree with its nodes. -/
theorem consistent_of_history (o : Options) (es : List Event) (history : List Operation) :
    let g := (Translation.run o es).graph.extend history
    let x := Index.extend {} (Translation.operations o es ++ history)
    (∀ e ∈ x.entries, e.2.address = e.1) ∧ x.entries.map (·.2) = g.nodes ∧
      (∀ a, x.get? a = g.get? a) ∧ g.Consistent := by
  intro g x
  have hg : g = Graph.extend {} (Translation.operations o es ++ history) := by
    rw [Graph.extend_append]
    exact congrArg (Graph.extend · history) (Translation.graph_run o es)
  have hx : x = Index.ofGraph g := by
    rw [hg, ← Index.extend_ofGraph]
    rfl
  refine ⟨?_, ?_, fun a => ?_, ?_⟩
  · rw [hx]
    intro e he
    obtain ⟨n, -, rfl⟩ := List.mem_map.1 he
    rfl
  · rw [hx]
    simp [Index.ofGraph, Function.comp_def]
  · rw [hx, Index.get?_ofGraph]
  · rw [hg]
    exact (Graph.wf_extend Graph.wf_empty _).consistent

end UmlOntology
