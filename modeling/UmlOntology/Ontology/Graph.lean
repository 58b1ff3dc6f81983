/-
The ontology as a graph: its nodes in the order in which they came to be. No node is ever removed,
and there is one node at an address.
-/
import UmlOntology.Ontology.Node
import UmlOntology.Record

namespace UmlOntology

/-- A graph, by its nodes in order of creation. -/
structure Graph where
  nodes : List Node := []
deriving DecidableEq, Repr

namespace Graph

/-- The node at an address. -/
def get? (g : Graph) (a : Iri) : Option Node := g.nodes.find? (·.address = a)

/-- There is a node at the address. -/
instance : Membership Iri Graph := ⟨fun g a => ∃ n ∈ g.nodes, n.address = a⟩

instance (a : Iri) (g : Graph) : Decidable (a ∈ g) :=
  inferInstanceAs (Decidable (∃ n ∈ g.nodes, n.address = a))

/-- The addresses in order of creation. -/
def addresses (g : Graph) : List Iri := g.nodes.map (·.address)

/-- The nodes of a kind, in order of creation. -/
def ofKind (g : Graph) (k : Kind) : List Node := g.nodes.filter (·.kind = k)

/-- The number of edges of all nodes. -/
def edgeCount (g : Graph) : Nat := g.nodes.foldr (fun n total => n.edges.length + total) 0

/-! ## How a graph grows -/

/-- Changes the first node at an address. -/
def changeAt (a : Iri) (f : Node → Node) : List Node → List Node
  | [] => []
  | n :: ns => if n.address = a then f n :: ns else n :: changeAt a f ns

/-- The graph with the node at an address changed. -/
def change (g : Graph) (a : Iri) (f : Node → Node) : Graph := ⟨changeAt a f g.nodes⟩

/-- The graph with a node at the address: one of kind `k` at the end if there was none; the one
that is there otherwise, its kind settled if it was open. -/
def demand (g : Graph) (a : Iri) (k : Kind) : Graph :=
  if a ∈ g then g.change a (·.demand k) else ⟨g.nodes ++ [{ address := a, kind := k }]⟩

/-- What goes on record when a node of kind `k` is demanded at an address. -/
def demandRecord? (g : Graph) (a : Iri) (k : Kind) : Option Record :=
  match g.get? a with
  | none => some (.created a k)
  | some n =>
    if n.kind = k ∨ k = .unknown then none
    else if n.kind.IsOpen then some (.settled a k)
    else some (.reused a n.kind k)

/-- The graph with the label at the address, or nothing if there is no node or the slot is taken. -/
def setLabel? (g : Graph) (a : Iri) (text : String) (lang : Option String) : Option Graph :=
  ((g.get? a).bind (·.setLabel? text lang)).map fun n => g.change a fun _ => n

/-- The graph with the edge at the address, or nothing if there is no node or the edge is there. -/
def addEdge? (g : Graph) (a : Iri) (p : Predicate) (o : Object) : Option Graph :=
  ((g.get? a).bind (·.addEdge? p o)).map fun n => g.change a fun _ => n

end Graph

end UmlOntology
