/-
Associations while their ends are read. An end that declares no identifier gets one from the
association and the side it stands on, so the two ends of an association differ and neither takes
the identifier of the association.
-/
import UmlOntology.Uml.Declaration

namespace UmlOntology

/-- The two sides of an association. -/
inductive Side where
  | a
  | b
deriving DecidableEq, Repr

namespace Side

/-- The letter of a side, in identifiers that ends are given. -/
def letter : Side → String
  | a => "A"
  | b => "B"

/-- The side of an end, by the number of ends before it. -/
def ofIndex? : Nat → Option Side
  | 0 => some a
  | 1 => some b
  | _ => none

end Side

/-- The identifier of an end that declares none. -/
def endId (base : String) (side : Side) : String := base ++ "-" ++ side.letter

/-- An association that is open: its identifier, and how many of its ends have come. -/
structure Scope where
  id : Option String
  ends : Nat := 0
deriving DecidableEq, Repr

end UmlOntology
