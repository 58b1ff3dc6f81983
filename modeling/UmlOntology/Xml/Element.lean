/-
Elements as a start tag gives them, and the events of a document. An element is its tag and its
attributes; what stands inside it arrives as later events.
-/

namespace UmlOntology

/-- The part of a qualified name after its last colon; a name without a colon as it is. -/
def localName (tag : String) : String :=
  String.ofList (tag.toList.reverse.takeWhile (· ≠ ':')).reverse

/-- A tag with its attributes, in the order in which their names first came. -/
structure Element where
  tag : String := ""
  attributes : List (String × String) := []
deriving DecidableEq, Repr

namespace Element

/-- Writes `value` under `name`: in place if the name is taken, at the end otherwise. -/
def write (name value : String) : List (String × String) → List (String × String)
  | [] => [(name, value)]
  | a :: as => if a.1 = name then (name, value) :: as else a :: write name value as

/-- The element with the attribute set. -/
def set (el : Element) (name value : String) : Element :=
  { el with attributes := write name value el.attributes }

/-- The element with the attributes set in turn. -/
def setAll (el : Element) (attributes : List (String × String)) : Element :=
  attributes.foldl (fun el a => el.set a.1 a.2) el

/-- The tag without the part that names its namespace. -/
def localName (el : Element) : String := UmlOntology.localName el.tag

/-- The element goes by `tag`, written in full or without its namespace. -/
def Matches (el : Element) (tag : String) : Prop := el.tag = tag ∨ el.localName = tag

instance (el : Element) (tag : String) : Decidable (el.Matches tag) :=
  inferInstanceAs (Decidable (_ ∨ _))

/-- The value of an attribute. -/
def value? (el : Element) (name : String) : Option String :=
  (el.attributes.find? (·.1 = name)).map (·.2)

/-- The value of an attribute, where an empty value is none. -/
def nonEmpty? (el : Element) (name : String) : Option String :=
  (el.value? name).filter (· ≠ "")

/-- The two elements have one tag and the same values under the same names, in whatever order. -/
def Agrees (a b : Element) : Prop :=
  a.tag = b.tag ∧ a.attributes.length = b.attributes.length ∧
    ∀ x ∈ a.attributes, b.value? x.1 = some x.2

instance (a b : Element) : Decidable (a.Agrees b) := inferInstanceAs (Decidable (_ ∧ _ ∧ _))

end Element

/-- What a document delivers: an element opens, or the element with this tag closes. -/
inductive Event where
  | start (element : Element)
  | finish (tag : String)
deriving DecidableEq, Repr

end UmlOntology
