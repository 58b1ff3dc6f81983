/-
ISO-2022-JP: Japanese text in bytes below 128. An escape sequence of three bytes switches to a
character set, which stays in force up to the next one. Two escape sequences with no character
between them are refused. The table of the characters of two bytes is a parameter.
-/
import UmlOntology.Text.Bytes

namespace UmlOntology.Iso2022Jp

/-! ## Characters of one byte -/

/-- The character of ASCII that a byte stands for; the shifts and the escape stand for none. -/
def ascii? (b : UInt8) : Option Char :=
  if b < 0x80 ∧ b ≠ 0x0e ∧ b ≠ 0x0f ∧ b ≠ 0x1b then some (Char.ofNat b.toNat) else none

/-- ASCII with a yen sign and an overline in two places. -/
def roman? (b : UInt8) : Option Char :=
  if b = 0x5c then some '\u00a5'
  else if b = 0x7e then some '\u203e'
  else ascii? b

/-- The half-width katakana that a byte stands for. -/
def katakana? (b : UInt8) : Option Char :=
  if 0x21 ≤ b ∧ b ≤ 0x5f then some (Char.ofNat (0xff61 + (b.toNat - 0x21))) else none

/-! ## Character sets -/

/-- What an escape sequence switches to. -/
inductive CharacterSet where
  /-- A set of characters of one byte, by what a byte stands for. -/
  | single (character? : UInt8 → Option Char)
  /-- The characters of two bytes. -/
  | kanji

/-- The character set that the two bytes behind an escape name. -/
def CharacterSet.ofEscape? (a b : UInt8) : Option CharacterSet :=
  if a = 0x28 ∧ b = 0x42 then some (single ascii?)
  else if a = 0x28 ∧ b = 0x4a then some (single roman?)
  else if a = 0x28 ∧ b = 0x49 then some (single katakana?)
  else if a = 0x24 ∧ (b = 0x40 ∨ b = 0x42) then some kanji
  else none

/-- A byte that a character of two bytes can have. -/
def isHalf (b : UInt8) : Bool := 0x21 ≤ b && b ≤ 0x7e

/-! ## Text, by a table of the characters of two bytes -/

variable (table : UInt8 → UInt8 → Option Char)

/-- The characters from here on, in the set that is in force; `switched` if an escape sequence
stands directly before. -/
def chars? (set : CharacterSet) (switched : Bool) : Bytes → Option (List Char)
  | [] => some []
  | 0x1b :: a :: b :: s => do
    let set ← CharacterSet.ofEscape? a b
    if switched then none else chars? set true s
  | a :: s =>
    match set, s with
    | .single character?, s => do
      let c ← character? a
      let t ← chars? set false s
      return c :: t
    | .kanji, b :: s => do
      let c ← if isHalf a && isHalf b then table a b else none
      let t ← chars? set false s
      return c :: t
    | .kanji, [] => none

/-- The text that the bytes stand for. -/
def decode? (s : Bytes) : Option String :=
  (chars? table (.single ascii?) false s).map String.ofList

end UmlOntology.Iso2022Jp
