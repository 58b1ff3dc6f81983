/-
Operations on a graph, and histories of them. A construct asks for its node by the options; the
other operations name the address that they are about.
-/
import UmlOntology.Uml.Construct

namespace UmlOntology

/-- Something done to a graph. -/
inductive Operation where
  | build (o : Options) (c : Construct)
  | demand (address : Iri) (kind : Kind)
  | setLabel (address : Iri) (text : String) (lang : Option String)
  | addEdge (address : Iri) (predicate : Predicate) (object : Object)
deriving DecidableEq, Repr

namespace Operation

/-- The address at which an operation wants a node, and the kind that it wants there. The others
need the node to be there before. -/
def demanded? : Operation → Option (Iri × Kind)
  | build o c => c.request?.map fun r => (o.address r.id, r.kind)
  | demand a k => some (a, k)
  | setLabel .. | addEdge .. => none

/-- The operation is carried out: a construct asks for a node, and a label or an edge finds its
node and is not refused there. -/
def Succeeds (g : Graph) : Operation → Prop
  | build _ c => c.request?.isSome
  | demand .. => True
  | setLabel a text lang => (g.setLabel? a text lang).isSome
  | addEdge a p o => (g.addEdge? a p o).isSome

instance (g : Graph) (op : Operation) : Decidable (op.Succeeds g) := by
  cases op <;> unfold Succeeds <;> infer_instance

/-- The graph after an operation; one that is refused leaves it as it is. -/
def apply (g : Graph) : Operation → Graph
  | build o c => (g.build o c).2
  | demand a k => g.demand a k
  | setLabel a text lang => (g.setLabel? a text lang).getD g
  | addEdge a p o => (g.addEdge? a p o).getD g

/-- What an operation puts on record. -/
def records (g : Graph) : Operation → List Record
  | build o c => c.records o g
  | demand a k => (g.demandRecord? a k).toList
  | setLabel .. | addEdge .. => []

end Operation

/-- The graph after a history of operations. -/
def Graph.extend (g : Graph) (history : List Operation) : Graph := history.foldl Operation.apply g

end UmlOntology
