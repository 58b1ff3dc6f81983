/-
What an element of a model says about itself: the identifier that it declares, the identifier that
it refers to, and its name. An empty value says nothing.
-/
import UmlOntology.Xml.Element

namespace UmlOntology

/-- The attribute that declares an identifier. -/
def idAttribute : String := "xmi.id"

/-- The attribute that refers to an identifier declared elsewhere. -/
def idrefAttribute : String := "xmi.idref"

/-- The attribute that holds a name. -/
def nameAttribute : String := "name"

namespace Element

/-- The identifier that the element declares. -/
def id? (el : Element) : Option String := el.nonEmpty? idAttribute

/-- The identifier that the element refers to. -/
def idref? (el : Element) : Option String := el.nonEmpty? idrefAttribute

/-- The name of the element. -/
def name? (el : Element) : Option String := el.nonEmpty? nameAttribute

/-- The identifier and the name of a declaration, which has both. -/
def declaration? (el : Element) : Option (String × String) := do
  let id ← el.id?
  let name ← el.name?
  return (id, name)

/-- The element declares a construct that goes by `tag`. -/
def Declares (el : Element) (tag : String) : Prop :=
  el.Matches tag ∧ el.id?.isSome ∧ el.name?.isSome

instance (el : Element) (tag : String) : Decidable (el.Declares tag) :=
  inferInstanceAs (Decidable (_ ∧ _ ∧ _))

/-- The element refers to a construct declared elsewhere. -/
def Refers (el : Element) : Prop := el.idref?.isSome

instance (el : Element) : Decidable el.Refers := inferInstanceAs (Decidable (_ = _))

end Element

end UmlOntology
