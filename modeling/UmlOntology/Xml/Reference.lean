/-
References in attribute values: `&`, a name or a number, and `;`. The five names that XML defines
stand for the characters of its own syntax, a number for the character with that code.
-/

namespace UmlOntology

/-- What is wrong with the number of a character reference. -/
inductive CodeError where
  | sign
  | noDigits
  | badDigit
  | tooLarge
  | zero
  | notCharacter (code : Nat)
deriving DecidableEq, Repr

/-- What is wrong with a reference. Places are counted in bytes of the value in UTF-8. -/
inductive ReferenceError where
  | unfinished (start stop : Nat)
  | unknownName (start stop : Nat) (name : String)
  | code (error : CodeError)
deriving DecidableEq, Repr

/-- The wording of an error in a number. -/
def CodeError.message : CodeError → String
  | sign => "unexpected number sign"
  | noDigits => "cannot parse integer from empty string"
  | badDigit => "invalid digit found in string"
  | tooLarge => "number too large to fit in target type"
  | zero => "0x0 character is not permitted in XML"
  | notCharacter n => "`" ++ toString n ++ "` is not a valid codepoint"

/-- The wording of a reference error. -/
def ReferenceError.message : ReferenceError → String
  | unfinished a b =>
    "Error while escaping character at range " ++ toString a ++ ".." ++ toString b ++
      ": Cannot find ';' after '&'"
  | unknownName a b name =>
    "at " ++ toString a ++ ".." ++ toString b ++ ": unrecognized entity `" ++ name ++ "`"
  | code e => "invalid character reference: " ++ e.message

namespace Reference

/-- The number of bytes that characters take in UTF-8. -/
def width (s : List Char) : Nat := s.foldr (fun c n => c.utf8Size + n) 0

/-- The five names that XML defines. -/
def named? (name : List Char) : Option Char :=
  if name = ['l', 't'] then some '<'
  else if name = ['g', 't'] then some '>'
  else if name = ['a', 'm', 'p'] then some '&'
  else if name = ['a', 'p', 'o', 's'] then some '\''
  else if name = ['q', 'u', 'o', 't'] then some '"'
  else none

/-- The value of a digit in the base, capitals being as good as small letters. -/
def digit? (base : Nat) (c : Char) : Option Nat :=
  let d :=
    if c.isDigit then some (c.toNat - '0'.toNat)
    else if 'a' ≤ c ∧ c ≤ 'z' then some (c.toNat - 'a'.toNat + 10)
    else if 'A' ≤ c ∧ c ≤ 'Z' then some (c.toNat - 'A'.toNat + 10)
    else none
  d.filter (· < base)

/-- Reads digits on from the value `n`, below 0x100000000 throughout. -/
def digits (base n : Nat) : List Char → Except CodeError Nat
  | [] => .ok n
  | c :: s =>
    match digit? base c with
    | none => .error .badDigit
    | some d => if n * base + d < 0x100000000 then digits base (n * base + d) s else .error .tooLarge

/-- The number that digits in the base stand for; it has no sign. -/
def number (base : Nat) : List Char → Except CodeError Nat
  | [] => .error .noDigits
  | c :: s => if c = '+' ∨ c = '-' then .error .sign else digits base 0 (c :: s)

/-- The character with this code, which is not zero. -/
def ofCode (n : Nat) : Except CodeError Char :=
  if n = 0 then .error .zero
  else if n.isValidChar then .ok (Char.ofNat n)
  else .error (.notCharacter n)

/-- The character of a numeric reference: decimal, or hexadecimal behind an `x`. -/
def numbered : List Char → Except CodeError Char
  | 'x' :: s => number 16 s >>= ofCode
  | s => number 10 s >>= ofCode

/-- The character that the reference with this name stands for; `start` is the place of the
name. -/
def resolve (start : Nat) (name : List Char) : Except ReferenceError Char :=
  match name with
  | '#' :: s => (numbered s).mapError .code
  | _ =>
    match named? name with
    | some c => .ok c
    | none => .error (.unknownName start (start + width name) (String.ofList name))

/-- A character that may stand in the name of a reference. -/
def isNameChar (c : Char) : Bool := c != '&' && c != ';'

/-- The value with its references replaced, from a place on; `stop` is the end of the value. -/
def expandFrom (place stop : Nat) : List Char → Except ReferenceError (List Char)
  | [] => .ok []
  | c :: s =>
    if c = '&' then
      let name := s.takeWhile isNameChar
      match h : s.dropWhile isNameChar with
      | ';' :: rest => do
        have : rest.length < s.length + 1 := by
          have := (List.dropWhile_suffix isNameChar (l := s)).length_le
          rw [h] at this
          simp only [List.length_cons] at this; omega
        let r ← resolve (place + 1) name
        let t ← expandFrom (place + width name + 2) stop rest
        return r :: t
      | _ => .error (.unfinished place stop)
    else do
      let t ← expandFrom (place + c.utf8Size) stop s
      return c :: t
termination_by s => s.length

/-- The value with its references replaced. -/
def expand (value : String) : Except ReferenceError String :=
  (expandFrom 0 (width value.toList) value.toList).map String.ofList

end Reference

end UmlOntology
