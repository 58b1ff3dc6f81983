/-
Values of JSON at the front of a text: what a value begins as, and how one is passed over whose
content does not count.
-/
import UmlOntology.Json.Text

namespace UmlOntology.Json

/-- What a value begins as: a value without parts is whole, of one with parts the bracket is read. -/
inductive Head where
  | null
  | boolean (b : Bool)
  | number (n : Number)
  | string (s : String)
  | sequence
  | map

/-- The beginning of the value here, behind white space. -/
def head? (s : List Char) : Option (Head × List Char) :=
  match skipBlank s with
  | 'n' :: s => (word? ['u', 'l', 'l'] s).map (.null, ·)
  | 't' :: s => (word? ['r', 'u', 'e'] s).map (.boolean true, ·)
  | 'f' :: s => (word? ['a', 'l', 's', 'e'] s).map (.boolean false, ·)
  | '"' :: s => (string? false s).map fun (t, s) => (.string t, s)
  | '[' :: s => some (.sequence, s)
  | '{' :: s => some (.map, s)
  | s => do
    let (n, s) ← numeral? s
    let v ← n.value?
    return (.number v, s)

/-! ## Passing over a value -/

/-- What follows a value without parts. -/
def skipScalar? : List Char → Option (List Char)
  | 'n' :: s => word? ['u', 'l', 'l'] s
  | 't' :: s => word? ['r', 'u', 'e'] s
  | 'f' :: s => word? ['a', 'l', 's', 'e'] s
  | '"' :: s => (string? true s).map (·.2)
  | s => (numeral? s).map (·.2)

/-- What follows the name of a member and its colon. -/
def skipName? (s : List Char) : Option (List Char) :=
  match skipBlank s with
  | '"' :: s => do
    let (_, s) ← string? true s
    word? [':'] (skipBlank s)
  | _ => none

/-- The two brackets around parts: without names, and with names. -/
inductive Bracket where
  | square
  | curly
deriving DecidableEq, Repr

/-- The sign that closes a bracket. -/
def Bracket.close : Bracket → Char
  | square => ']'
  | curly => '\x7d'

/-- What follows the name of a part, if the parts have names. -/
def Bracket.skipName? : Bracket → List Char → Option (List Char)
  | square, s => some s
  | curly, s => Json.skipName? s

mutual

/-- What follows the value here; `fuel` bounds the steps. -/
def skipWithin? : Nat → List Char → Option (List Char)
  | 0, _ => none
  | fuel + 1, s =>
    match skipBlank s with
    | '[' :: s => skipParts? fuel .square s
    | '{' :: s => skipParts? fuel .curly s
    | s => skipScalar? s

/-- What follows the bracket that is open, from behind its opening sign. -/
def skipParts? : Nat → Bracket → List Char → Option (List Char)
  | 0, _, _ => none
  | fuel + 1, b, s =>
    match word? [b.close] (skipBlank s) with
    | some s => some s
    | none => skipRest? fuel b s

/-- What follows the bracket that is open, from the beginning of a part. -/
def skipRest? : Nat → Bracket → List Char → Option (List Char)
  | 0, _, _ => none
  | fuel + 1, b, s => do
    let s ← b.skipName? s
    let s ← skipWithin? fuel s
    match skipBlank s with
    | c :: s =>
      if c = ',' then skipRest? fuel b s
      else if c = b.close then some s
      else none
    | [] => none

end

/-- What follows the value here, whatever the value is. -/
def skipValue? (s : List Char) : Option (List Char) := skipWithin? (4 * s.length + 4) s

end UmlOntology.Json
