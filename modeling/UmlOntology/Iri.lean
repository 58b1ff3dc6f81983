/-
Addresses of nodes. An identifier in a model becomes an address by standing behind a namespace, so
within one namespace different identifiers have different addresses.
-/
import UmlOntology.Vocabulary

namespace UmlOntology

/-- What is left of `s` behind `lead`, if `s` begins with it. -/
def rest? : List Char → List Char → Option (List Char)
  | [], s => some s
  | _ :: _, [] => none
  | c :: lead, d :: s => if c = d then rest? lead s else none

/-- The address of a node. -/
structure Iri where
  text : String
deriving DecidableEq, Repr

/-- Addresses are in the order of their texts, character by character. -/
instance : LE Iri := ⟨fun a b => a.text ≤ b.text⟩

instance (a b : Iri) : Decidable (a ≤ b) := inferInstanceAs (Decidable (a.text ≤ b.text))

/-- The part of an address behind `lead`, if the address begins with it. -/
def Iri.behind? (a : Iri) (lead : String) : Option String :=
  (rest? lead.toList a.text.toList).map String.ofList

/-- What stands in front of identifiers in addresses. -/
structure Namespace where
  text : String := Vocabulary.xmi
deriving DecidableEq, Repr

namespace Namespace

/-- The address of an identifier in this namespace. -/
def address (n : Namespace) (id : String) : Iri := ⟨n.text ++ id⟩

/-- The identifier of an address, if it is one of this namespace. -/
def id? (n : Namespace) (a : Iri) : Option String := a.behind? n.text

end Namespace

end UmlOntology
