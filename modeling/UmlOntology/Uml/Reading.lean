/-
How an element is read: as a construct of the model, or as mere structure. That depends on the
local part of its tag, on its three attributes and on the associations that are open.
-/
import UmlOntology.Uml.Construct

namespace UmlOntology

/-- The part that an element plays in a model. -/
inductive Role where
  | concept
  | classifier
  | datatype
  | package
  | stereotype
  | tagDefinition
  | attributeProperty
  | association
  | associationEnd
  | other
deriving DecidableEq, Repr

/-- The role of elements with this local name. -/
def Role.ofName : String → Role
  | "Class" => concept
  | "Classifier" => classifier
  | "DataType" => datatype
  | "Package" | "Model" => package
  | "Stereotype" => stereotype
  | "TagDefinition" => tagDefinition
  | "Attribute" => attributeProperty
  | "Association" => association
  | "AssociationEnd" => associationEnd
  | _ => other

/-- The role of an element, whatever namespace its tag has. -/
def Element.role (el : Element) : Role := Role.ofName el.localName

/-- What an element is read as. -/
inductive Reading where
  /-- An element that holds others and says nothing itself. -/
  | structural
  | construct (c : Construct)
  /-- An association without an identifier. -/
  | incomplete
  /-- An association end without an identifier that no side gives it one, by the number of ends
  before it. -/
  | unplaced (index : Nat)
deriving DecidableEq, Repr

namespace Reading

/-- A reference by the element if it refers to something, and `c` otherwise. -/
def referenceOr (el : Element) (c : Construct) : Reading :=
  .construct (if el.Refers then .elementReference el idrefAttribute else c)

/-- An element of no sort that the ontology knows: still a declaration if it declares something. -/
def ofOther (el : Element) : Reading :=
  if el.Declares el.tag then .construct (.unclassified el) else .structural

/-- An association end, inside the associations that are open, innermost first. -/
def ofEnd (scopes : List Scope) (el : Element) : Reading :=
  match scopes with
  | [] => .construct (.objectProperty el)
  | scope :: _ =>
    if el.id?.isSome then .construct (.objectProperty el)
    else
      match scope.id, Side.ofIndex? scope.ends with
      | some base, some side => .construct (.associationEnd el base side)
      | _, _ => .unplaced scope.ends

/-- What an element is read as, inside the associations that are open. -/
def ofElement (scopes : List Scope) (el : Element) : Reading :=
  match el.role with
  | .concept =>
    .construct (if el.Refers then .conceptReference el idrefAttribute else .concept el)
  | .classifier =>
    if el.Refers then .construct (.elementReference el idrefAttribute) else ofOther el
  | .datatype => referenceOr el (.datatype el)
  | .package => referenceOr el (.package el)
  | .stereotype => .construct (.stereotype el)
  | .tagDefinition => .construct (.annotationProperty el)
  | .attributeProperty => referenceOr el (.attributeProperty el)
  | .association =>
    match el.id? with
    | some id => .construct (.association id)
    | none => .incomplete
  | .associationEnd => ofEnd scopes el
  | .other => ofOther el

/-- What the reading asks of the graph, if it asks for a node. -/
def request? : Reading → Option Request
  | construct c => c.request?
  | _ => none

end Reading

namespace Scope

/-- The open associations after the start of an element: one more, or one more end. -/
def enter (scopes : List Scope) (el : Element) : List Scope :=
  match el.role with
  | .association => { id := el.id? } :: scopes
  | .associationEnd =>
    match scopes with
    | [] => []
    | scope :: outer => { scope with ends := scope.ends + 1 } :: outer
  | _ => scopes

/-- The open associations after the end of an element. -/
def leave (scopes : List Scope) (tag : String) : List Scope :=
  if Role.ofName (localName tag) = .association then scopes.tail else scopes

end Scope

end UmlOntology
