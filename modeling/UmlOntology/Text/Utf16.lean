/-
UTF-16 text: two bytes a unit, in either order, and two units for a character beyond U+FFFF.
Reading is strict: an odd byte at the end or a surrogate without its partner is no text.
-/
import UmlOntology.Text.Bytes

namespace UmlOntology.Utf16

/-- The order of the two bytes of a unit. -/
inductive Order where
  | bigEndian
  | littleEndian
deriving DecidableEq, Repr

/-- The unit that two bytes in this order stand for. -/
def Order.unit : Order → UInt8 → UInt8 → Nat
  | .bigEndian, a, b => a.toNat * 256 + b.toNat
  | .littleEndian, a, b => b.toNat * 256 + a.toNat

/-- The units of a byte string, if it has no odd byte. -/
def units? (o : Order) : Bytes → Option (List Nat)
  | [] => some []
  | [_] => none
  | a :: b :: s => (units? o s).map (o.unit a b :: ·)

/-- A unit that opens a pair. -/
def IsHigh (u : Nat) : Prop := 0xd800 ≤ u ∧ u < 0xdc00

/-- A unit that closes a pair. -/
def IsLow (u : Nat) : Prop := 0xdc00 ≤ u ∧ u < 0xe000

instance (u : Nat) : Decidable (IsHigh u) := inferInstanceAs (Decidable (_ ∧ _))

instance (u : Nat) : Decidable (IsLow u) := inferInstanceAs (Decidable (_ ∧ _))

/-- The character that a pair of surrogates stands for. -/
def paired (high low : Nat) : Char :=
  Char.ofNat (0x10000 + (high - 0xd800) * 0x400 + (low - 0xdc00))

/-- The characters of a list of units, if its surrogates stand in pairs. -/
def chars? : List Nat → Option (List Char)
  | [] => some []
  | [u] => if IsHigh u ∨ IsLow u then none else some [Char.ofNat u]
  | u :: v :: s =>
    if IsHigh u then
      if IsLow v then (chars? s).map (paired u v :: ·) else none
    else if IsLow u then none
    else (chars? (v :: s)).map (Char.ofNat u :: ·)

/-- The text that the bytes stand for. -/
def decode? (o : Order) (s : Bytes) : Option String :=
  ((units? o s).bind chars?).map String.ofList

end UmlOntology.Utf16
