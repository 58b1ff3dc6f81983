/-
The constructs of a model and the nodes they ask for. A construct asks for a node only if all it
has to say is there; otherwise it asks for nothing and the graph stays as it is.
-/
import UmlOntology.Uml.Association
import UmlOntology.Uml.Request

namespace UmlOntology

/-- A construct of a model: a declaration of something, or a reference to it. -/
inductive Construct where
  | concept (el : Element)
  /-- A reference to a class, by the attribute that holds its identifier. -/
  | conceptReference (el : Element) (key : String)
  | datatype (el : Element)
  /-- An association end with an identifier of its own. -/
  | objectProperty (el : Element)
  /-- The definition of a tag, or a reference to one. -/
  | annotationProperty (el : Element)
  | attributeProperty (el : Element)
  | individual (el : Element) (type : Iri)
  | package (el : Element)
  /-- A stereotype, or a reference to one. -/
  | stereotype (el : Element)
  | stereotypeReference (id : String)
  /-- A declaration of a sort that the ontology has no kind for. -/
  | unclassified (el : Element)
  | association (id : String)
  /-- An association end without an identifier, on a side of the association `base`. -/
  | associationEnd (el : Element) (base : String) (side : Side)
  | reference (id : String)
  /-- A reference by the attribute that holds the identifier. -/
  | elementReference (el : Element) (key : String)
deriving DecidableEq, Repr

namespace Construct

/-- A name as a label. -/
def nameLabel (name : String) : Addition := .label name (some Vocabulary.nameLanguage)

/-- The type `type`, said by an edge. -/
def typeEdge (type : Iri) : Addition := .edge .type (.node type)

/-- A request by a declaration with identifier and name. -/
def declared (el : Element) (kind : Kind) (additions : String → List Addition) : Option Request :=
  el.declaration?.map fun (id, name) =>
    { id, kind, declares := true, additions := additions name }

/-- A request by a reference; an empty identifier refers to nothing. -/
def referred (id : String) (kind : Kind) (additions : List Addition) : Option Request :=
  if id = "" then none else some { id, kind, additions }

/-- A request for an individual of the given type. -/
def individualRequest? (el : Element) (type : Iri) : Option Request :=
  declared el .individual fun name => [nameLabel name, typeEdge type]

/-- A request for the stereotype with an identifier. -/
def stereotypeRequest? (id : String) : Option Request :=
  referred id .individual [typeEdge ⟨Vocabulary.umlStereotype⟩]

/-- What a construct asks of the graph. -/
def request? : Construct → Option Request
  | concept el => declared el .concept fun name => [nameLabel name]
  | conceptReference el key => (el.nonEmpty? key).bind fun id => referred id .concept []
  | datatype el =>
    declared el .datatype fun name => [nameLabel name, typeEdge ⟨Vocabulary.rdfsDatatype⟩]
  | objectProperty el =>
    el.id?.map fun id =>
      { id, kind := .objectProperty, declares := true
        additions := (el.name?.map nameLabel).toList }
  | annotationProperty el =>
    match el.idref? with
    | some id => referred id .annotationProperty []
    | none => declared el .annotationProperty fun name => [nameLabel name]
  | attributeProperty el =>
    declared el .attributeProperty fun name =>
      [.edge .hasStereotype (.literal Vocabulary.attributeStereotype), nameLabel name]
  | individual el type => individualRequest? el type
  | package el => individualRequest? el ⟨Vocabulary.umlPackage⟩
  | stereotype el =>
    match el.idref? with
    | some id => stereotypeRequest? id
    | none => individualRequest? el ⟨Vocabulary.umlStereotype⟩
  | stereotypeReference id => stereotypeRequest? id
  | unclassified el => declared el .unknown fun name => [.label name none]
  | association id =>
    if id = "" then none else some { id, kind := .association, declares := true }
  | associationEnd el base side =>
    if base = "" then none
    else
      some
        { id := endId base side, kind := .objectProperty, declares := true
          additions := (el.name?.map nameLabel).toList }
  | reference id => referred id .unknown []
  | elementReference el key => (el.value? key).bind fun id => referred id .unknown []

/-- What a construct puts on record. -/
def records (c : Construct) (o : Options) (g : Graph) : List Record :=
  match c.request? with
  | some r => (g.demandRecord? (o.address r.id) r.kind).toList
  | none =>
    match c with
    | association _ => [.namelessAssociation]
    | _ => []

end Construct

/-- The graph after a construct, and the address of the node that it asked for. -/
def Graph.build (g : Graph) (o : Options) (c : Construct) : Option Iri × Graph :=
  match c.request? with
  | some r => (some (o.address r.id), g.realize o r)
  | none => (none, g)

end UmlOntology
