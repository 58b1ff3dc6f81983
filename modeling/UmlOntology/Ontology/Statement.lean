/-
The statements of a graph, and a line of text for each. A node states the type that its kind
implies, and then its edges in their order.
-/
import UmlOntology.Ontology.Graph
import UmlOntology.Ontology.Literal

namespace UmlOntology

/-- One thing that a graph states: a relation of a node to a node or a text. -/
structure Statement where
  subject : Iri
  predicate : Iri
  object : Object
deriving DecidableEq, Repr

/-- An address in angle brackets. -/
def Iri.render (a : Iri) : String := "<" ++ a.text ++ ">"

/-- The object of a statement as it is written. -/
def Object.render : Object → String
  | node a => a.render
  | literal v l => Literal.render v l

/-- A statement as one line, without the line feed at its end. -/
def Statement.render (s : Statement) : String :=
  s.subject.render ++ " " ++ s.predicate.render ++ " " ++ s.object.render ++ " ."

namespace Node

/-- The statement of the type that the kind implies. -/
def impliedType? (n : Node) : Option Statement :=
  n.kind.type?.map fun t => ⟨n.address, Predicate.type.iri, .node t⟩

/-- What a node states: its implied type and then its edges. -/
def statements (n : Node) : List Statement :=
  n.impliedType?.toList ++ n.edges.map fun e => ⟨n.address, e.predicate.iri, e.object⟩

end Node

/-- What a graph states, node by node. -/
def Graph.statements (g : Graph) : List Statement := g.nodes.flatMap Node.statements

end UmlOntology
