/-
Requests to the graph: that there be a node under an identifier, of some kind, and what is to be
added to it. A node that is declared also keeps its identifier, if the options say so; a mere
reference leaves no trace but the node.
-/
import UmlOntology.Ontology.Graph
import UmlOntology.Uml.Options

namespace UmlOntology

/-- Something to be added to a node. -/
inductive Addition where
  | label (text : String) (lang : Option String)
  | edge (predicate : Predicate) (object : Object)
deriving DecidableEq, Repr

/-- A demand for a node under an identifier, with what is to be added to the node. -/
structure Request where
  id : String
  kind : Kind
  /-- The identifier is declared, and not only referred to. -/
  declares : Bool := false
  additions : List Addition := []
deriving DecidableEq, Repr

/-- The node with an addition. -/
def Node.add (n : Node) : Addition → Node
  | .label text lang => n.setLabel text lang
  | .edge p o => n.addEdge p o

/-- The node with the additions made in turn. -/
def Node.addAll (n : Node) (xs : List Addition) : Node := xs.foldl Node.add n

/-- What a request adds to its node: the identifier first, if it is declared and kept. -/
def Options.additions (o : Options) (r : Request) : List Addition :=
  (if r.declares && o.keepIds then [.edge .sourceId (.literal r.id)] else []) ++ r.additions

/-- The graph after a request: its node is there and has the additions. -/
def Graph.realize (g : Graph) (o : Options) (r : Request) : Graph :=
  (g.demand (o.address r.id) r.kind).change (o.address r.id) (·.addAll (o.additions r))

end UmlOntology
