/-
The names that the ontology borrows: terms of RDF, RDF Schema, OWL and UML, the namespace of
identifiers in a model, and the language of names.
-/

namespace UmlOntology.Vocabulary

/-- Relates a node to its type. -/
def rdfType : String := "http://www.w3.org/1999/02/22-rdf-syntax-ns#type"

/-- The type of properties that the model declares as attributes. -/
def rdfProperty : String := "http://www.w3.org/1999/02/22-rdf-syntax-ns#Property"

/-- Relates a node to a label. -/
def rdfsLabel : String := "http://www.w3.org/2000/01/rdf-schema#label"

/-- The type of datatypes. -/
def rdfsDatatype : String := "http://www.w3.org/2000/01/rdf-schema#Datatype"

/-- The type of classes. -/
def owlClass : String := "http://www.w3.org/2002/07/owl#Class"

/-- The type of properties that lead to nodes. -/
def owlObjectProperty : String := "http://www.w3.org/2002/07/owl#ObjectProperty"

/-- The type of properties that annotate. -/
def owlAnnotationProperty : String := "http://www.w3.org/2002/07/owl#AnnotationProperty"

/-- The namespace of addresses that are made from identifiers in a model. -/
def xmi : String := "http://langdale.com.au/2005/xmi#"

/-- The namespace of the terms for what a model consists of. -/
def uml : String := "http://langdale.com.au/2005/UML#"

/-- Relates a node to the identifier that it was declared under. -/
def umlId : String := "http://langdale.com.au/2005/UML#id"

/-- Relates a property to its stereotype. -/
def umlHasStereotype : String := "http://langdale.com.au/2005/UML#hasStereotype"

/-- The type of packages. -/
def umlPackage : String := "http://langdale.com.au/2005/UML#Package"

/-- The type of stereotypes. -/
def umlStereotype : String := "http://langdale.com.au/2005/UML#Stereotype"

/-- The stereotype of properties that a model declares as attributes. -/
def attributeStereotype : String := "attribute"

/-- The language that names in a model are taken to be in. -/
def nameLanguage : String := "en"

/-- The extensions of files that hold a model. -/
def fileExtensions : List String := ["xmi", "xml"]

end UmlOntology.Vocabulary
