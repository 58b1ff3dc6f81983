/-
Nodes of the ontology with their edges. A node lists its edges in the order in which they came and
lists none twice. A label slot belongs to the first label in its language.
-/
import UmlOntology.Ontology.Kind

namespace UmlOntology

/-- The relations between nodes, and from nodes to texts. -/
inductive Predicate where
  | label
  | type
  | hasStereotype
  /-- To the identifier that the node was declared under. -/
  | sourceId
deriving DecidableEq, Repr

/-- The address of a relation. -/
def Predicate.iri : Predicate → Iri
  | label => ⟨Vocabulary.rdfsLabel⟩
  | type => ⟨Vocabulary.rdfType⟩
  | hasStereotype => ⟨Vocabulary.umlHasStereotype⟩
  | sourceId => ⟨Vocabulary.umlId⟩

/-- Every relation, once. -/
def Predicate.all : List Predicate := [label, type, hasStereotype, sourceId]

/-- What an edge leads to: a node, or a text that may be in a language. -/
inductive Object where
  | node (address : Iri)
  | literal (value : String) (lang : Option String := none)
deriving DecidableEq, Repr

namespace Object

/-- The node that is meant. -/
def node? : Object → Option Iri
  | node a => some a
  | literal .. => none

/-- The text that is meant. -/
def value? : Object → Option String
  | literal v _ => some v
  | node _ => none

/-- The language of a text; a node has none. -/
def lang? : Object → Option String
  | literal _ l => l
  | node _ => none

end Object

/-- An edge that leaves a node. -/
structure Edge where
  predicate : Predicate
  object : Object
deriving DecidableEq, Repr

/-- A node with the edges that leave it. -/
structure Node where
  address : Iri
  kind : Kind
  edges : List Edge := []
deriving DecidableEq, Repr

namespace Node

/-! ## What a node tells -/

/-- Where the edges of a relation lead. -/
def objects (n : Node) (p : Predicate) : List Object :=
  (n.edges.filter (·.predicate = p)).map (·.object)

/-- The labels in the order in which they came, in whatever language. -/
def labels (n : Node) : List Object := n.objects .label

/-- The label in a language: the text of the first label that has this language, if it is a
text. -/
def label? (n : Node) (lang : Option String) : Option String :=
  (n.labels.find? (·.lang? = lang)).bind Object.value?

/-- The types that are said by edges. -/
def types (n : Node) : List Iri := (n.objects .type).filterMap Object.node?

/-- The identifier that the node was declared under. -/
def sourceId? (n : Node) : Option String := (n.objects .sourceId).findSome? Object.value?

/-- The node has the text `s` as a stereotype. -/
def HasStereotype (n : Node) (s : String) : Prop :=
  ∃ o ∈ n.objects .hasStereotype, o.value? = some s

instance (n : Node) (s : String) : Decidable (n.HasStereotype s) :=
  inferInstanceAs (Decidable (∃ o ∈ _, _))

/-! ## How a node grows -/

/-- The node with the edge at the end, or nothing if the edge is there. -/
def addEdge? (n : Node) (p : Predicate) (o : Object) : Option Node :=
  if ⟨p, o⟩ ∈ n.edges then none else some { n with edges := n.edges ++ [⟨p, o⟩] }

/-- The node with the label, or nothing if the slot of the language is taken. -/
def setLabel? (n : Node) (text : String) (lang : Option String) : Option Node :=
  if (n.label? lang).isSome then none else n.addEdge? .label (.literal text lang)

/-- The node with the edge, which is added unless it is there. -/
def addEdge (n : Node) (p : Predicate) (o : Object) : Node := (n.addEdge? p o).getD n

/-- The node with a label in the language: this one, if there was none. -/
def setLabel (n : Node) (text : String) (lang : Option String) : Node :=
  (n.setLabel? text lang).getD n

/-- The node after a demand for kind `k`. Its edges stay. -/
def demand (n : Node) (k : Kind) : Node := { n with kind := n.kind.settle k }

end Node

end UmlOntology
