/-
The words of JSON: white space, keywords, strings and numbers. Each reader takes its word off the
front of the text and gives what the word stands for and what follows it.
-/

namespace UmlOntology.Json

/-- What follows the white space here. -/
def skipBlank (s : List Char) : List Char :=
  s.dropWhile fun c => c = ' ' || c = '\t' || c = '\n' || c = '\r'

/-- What follows the word `word`, if the text begins with it. -/
def word? : List Char → List Char → Option (List Char)
  | [], s => some s
  | _ :: _, [] => none
  | c :: w, d :: s => if c = d then word? w s else none

/-! ## Strings -/

/-- The value of a hexadecimal digit, capitals being as good as small letters. -/
def hexDigit? (c : Char) : Option Nat :=
  if c.isDigit then some (c.toNat - '0'.toNat)
  else if 'a' ≤ c ∧ c ≤ 'f' then some (c.toNat - 'a'.toNat + 10)
  else if 'A' ≤ c ∧ c ≤ 'F' then some (c.toNat - 'A'.toNat + 10)
  else none

/-- The number of four hexadecimal digits. -/
def hex4? : List Char → Option (Nat × List Char)
  | a :: b :: c :: d :: s => do
    let a ← hexDigit? a
    let b ← hexDigit? b
    let c ← hexDigit? c
    let d ← hexDigit? d
    return (((a * 16 + b) * 16 + c) * 16 + d, s)
  | _ => none

/-- The character of an escape with one letter. -/
def letter? (c : Char) : Option Char :=
  if c = '"' then some '"'
  else if c = '\\' then some '\\'
  else if c = '/' then some '/'
  else if c = 'b' then some '\x08'
  else if c = 'f' then some '\x0c'
  else if c = 'n' then some '\n'
  else if c = 'r' then some '\r'
  else if c = 't' then some '\t'
  else none

/-- The character of an escape by code, from behind the `u`. Surrogates have to stand in pairs,
unless the string is only passed over. -/
def coded? (skimmed : Bool) (s : List Char) : Option (Char × List Char) := do
  let (n, s) ← hex4? s
  if skimmed then return (Char.ofNat n, s)
  else if 0xdc00 ≤ n ∧ n < 0xe000 then none
  else if 0xd800 ≤ n ∧ n < 0xdc00 then
    let s ← word? ['\\', 'u'] s
    let (m, s) ← hex4? s
    if 0xdc00 ≤ m ∧ m < 0xe000 then
      return (Char.ofNat (0x10000 + (n - 0xd800) * 0x400 + (m - 0xdc00)), s)
    else none
  else return (Char.ofNat n, s)

/-- One character of a string. -/
def character? (skimmed : Bool) : List Char → Option (Char × List Char)
  | '\\' :: 'u' :: s => coded? skimmed s
  | '\\' :: c :: s => (letter? c).map (·, s)
  | ['\\'] => none
  | c :: s => if c.toNat < 32 then none else some (c, s)
  | [] => none

/-- A string from behind its opening quote; `fuel` bounds its length. -/
def stringBody? (skimmed : Bool) : Nat → List Char → Option (List Char × List Char)
  | 0, _ => none
  | _ + 1, '"' :: s => some ([], s)
  | fuel + 1, s => do
    let (c, s) ← character? skimmed s
    let (t, s) ← stringBody? skimmed fuel s
    return (c :: t, s)

/-- A string from behind its opening quote. With `skimmed` it is only passed over, and its value
does not count. -/
def string? (skimmed : Bool) (s : List Char) : Option (String × List Char) :=
  (stringBody? skimmed (s.length + 1) s).map fun (t, rest) => (String.ofList t, rest)

/-! ## Numbers -/

/-- A number as it is written, by the values of its digits. -/
structure Numeral where
  negative : Bool
  whole : List Nat
  fraction : List Nat := []
  /-- The sign and the digits of the exponent; no sign is a plus. -/
  exponent : Option (Bool × List Nat) := none
deriving DecidableEq, Repr

/-- The digits here, and what follows them. -/
def digits (s : List Char) : List Nat × List Char :=
  ((s.takeWhile Char.isDigit).map fun c => c.toNat - '0'.toNat, s.dropWhile Char.isDigit)

/-- One digit at least. -/
def someDigits? (s : List Char) : Option (List Nat × List Char) :=
  match digits s with
  | ([], _) => none
  | found => some found

/-- The fraction, if there is a point. -/
def fraction? : List Char → Option (List Nat × List Char)
  | '.' :: s => someDigits? s
  | s => some ([], s)

/-- The exponent, if there is one. -/
def exponent? : List Char → Option (Option (Bool × List Nat) × List Char)
  | [] => some (none, [])
  | c :: s =>
    if c = 'e' ∨ c = 'E' then
      let (negative, s) :=
        match s with
        | '+' :: s => (false, s)
        | '-' :: s => (true, s)
        | s => (false, s)
      (someDigits? s).map fun (ds, s) => (some (negative, ds), s)
    else some (none, c :: s)

/-- A number. Its whole part has no zero in front of other digits. -/
def numeral? (s : List Char) : Option (Numeral × List Char) := do
  let (negative, s) :=
    match s with
    | '-' :: s => (true, s)
    | s => (false, s)
  let (whole, s) ← someDigits? s
  if whole.head? = some 0 ∧ 1 < whole.length then none
  else
    let (fraction, s) ← fraction? s
    let (exponent, s) ← exponent? s
    return ({ negative, whole, fraction, exponent }, s)

/-! ## What a number stands for -/

/-- A number: whole if it is written so and fits 64 bits, floating otherwise. -/
inductive Number where
  | whole (n : Int)
  | float (x : Float)

/-- The greatest significand: more digits than fit 64 bits are not looked at. -/
def maxSignificand : Nat := 0xffffffffffffffff

/-- Takes digits into a significand as long as it fits; gives the digits that are left. -/
def accumulate (n : Nat) : List Nat → Nat × List Nat
  | [] => (n, [])
  | d :: ds => if n * 10 + d ≤ maxSignificand then accumulate (n * 10 + d) ds else (n, d :: ds)

/-- The number with these decimal digits, the first being the highest. -/
def ofDigits (ds : List Nat) : Nat := ds.foldl (fun n d => n * 10 + d) 0

/-- Divides by powers of ten until the exponent is in reach; `fuel` bounds the divisions. -/
def shrink : Nat → Float → Int → Float
  | 0, x, _ => x
  | fuel + 1, x, e =>
    if x == 0.0 then x
    else if -308 ≤ e then x / Float.ofScientific 1 false e.natAbs
    else shrink fuel (x / Float.ofScientific 1 false 308) (e + 308)

/-- The number `significand * 10 ^ exponent`, rounded after each step; nothing beyond the largest
number. -/
def scaled? (significand : Nat) (exponent : Int) : Option Float :=
  let x := significand.toUInt64.toFloat
  if exponent < 0 then some (shrink 4 x exponent)
  else if significand = 0 then some x
  else if 308 < exponent then none
  else
    let y := x * Float.ofScientific 1 false exponent.toNat
    if y.isInf then none else some y

/-- What a number stands for; nothing if it is too large. -/
def Numeral.value? (n : Numeral) : Option Number :=
  let (m, left) := accumulate 0 n.whole
  let signed (x : Float) : Number := .float (if n.negative then -x else x)
  if left = [] ∧ n.fraction = [] ∧ n.exponent = none then
    if !n.negative then some (.whole m)
    else if 0 < m ∧ m ≤ 0x8000000000000000 then some (.whole (-m))
    else some (signed m.toUInt64.toFloat)
  else
    let (m, behind) := accumulate m n.fraction
    let point : Int := left.length - (n.fraction.length - behind.length : Nat)
    let exponent : Int :=
      match n.exponent with
      | none => 0
      | some (negative, ds) => if negative then -ofDigits ds else ofDigits ds
    (scaled? m (point + exponent)).map signed

end UmlOntology.Json
