/-
What can be wrong with a document: with its markup, with an attribute, with the text of a name or a
value, or with a reference in a value.
-/
import UmlOntology.Failure
import UmlOntology.Text.Encoding
import UmlOntology.Xml.Attribute
import UmlOntology.Xml.Markup
import UmlOntology.Xml.Reference

namespace UmlOntology

/-- What is wrong with a document. -/
inductive Fault where
  /-- The markup; `position` is an offset in the document, less a byte order mark. -/
  | markup (position : Nat) (error : MarkupError)
  | attributes (error : AttributeError)
  | reference (error : ReferenceError)
  | undecodableName (part : NamePart) (encoding : Encoding)
  | undecodableValue (encoding : Encoding)
deriving DecidableEq, Repr

namespace Fault

/-- The wording of a text that its encoding does not allow. -/
def undecodableText (e : Encoding) : String := "cannot decode input using " ++ e.name

/-- A fault as it is reported. -/
def failure : Fault → Failure
  | markup p e => .malformed ("XML parse error at position " ++ toString p ++ ": " ++ e.message)
  | attributes e => .malformed ("Attribute error: " ++ e.message)
  | reference e => .malformed ("Attribute value error: " ++ e.message)
  | undecodableName part e => .undecodable part (undecodableText e)
  | undecodableValue e => .malformed ("Attribute value error: " ++ undecodableText e)

end Fault

end UmlOntology
