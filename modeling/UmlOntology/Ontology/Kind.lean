/-
Kinds of node. The first demand for a node fixes its kind, unless it left the kind unknown.
-/
import UmlOntology.Iri

namespace UmlOntology

/-- What a node of the ontology is. -/
inductive Kind where
  | concept
  | datatype
  /-- An end of an association. -/
  | objectProperty
  | annotationProperty
  /-- A property that the model declares as an attribute. -/
  | attributeProperty
  /-- An instance with a type of its own, such as a package or a stereotype. -/
  | individual
  /-- Stands for the link between two ends while the model is read. -/
  | association
  | unknown
deriving DecidableEq, Repr

namespace Kind

/-- The name of a kind, as the journal writes it. -/
def name : Kind → String
  | concept => "Class"
  | datatype => "Datatype"
  | objectProperty => "ObjectProperty"
  | annotationProperty => "AnnotationProperty"
  | attributeProperty => "AttributeProperty"
  | individual => "Individual"
  | association => "Association"
  | unknown => "Unknown"

/-- Every kind, once. -/
def all : List Kind :=
  [concept, datatype, objectProperty, annotationProperty, attributeProperty, individual,
    association, unknown]

/-- The type that a kind implies. Datatypes and individuals say their types by edges; associations
and nodes of unknown kind have none. -/
def type? : Kind → Option Iri
  | concept => some ⟨Vocabulary.owlClass⟩
  | objectProperty => some ⟨Vocabulary.owlObjectProperty⟩
  | annotationProperty => some ⟨Vocabulary.owlAnnotationProperty⟩
  | attributeProperty => some ⟨Vocabulary.rdfProperty⟩
  | _ => none

/-- The node relates other nodes, or nodes and texts. -/
def IsProperty (k : Kind) : Prop :=
  k = objectProperty ∨ k = annotationProperty ∨ k = attributeProperty

instance (k : Kind) : Decidable k.IsProperty := inferInstanceAs (Decidable (_ ∨ _ ∨ _))

/-- A later demand may still settle what the node is. -/
def IsOpen (k : Kind) : Prop := k = unknown

instance (k : Kind) : Decidable k.IsOpen := inferInstanceAs (Decidable (_ = _))

/-- The kind of a node of kind `k` after a demand for kind `demanded`. -/
def settle (k demanded : Kind) : Kind := if k.IsOpen then demanded else k

end Kind

end UmlOntology
