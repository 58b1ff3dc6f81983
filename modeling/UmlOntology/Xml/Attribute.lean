/-
Attributes as they stand in a tag: a name, an equals sign and a value in quotes, still in bytes.
Reading goes from left to right and ends at the first attribute that is not well formed.
-/
import UmlOntology.Text.Bytes

namespace UmlOntology

/-- An attribute in a tag, and where in the tag's content it begins. -/
structure RawAttribute where
  position : Nat
  name : Bytes
  value : Bytes
deriving DecidableEq, Repr

/-- What is wrong with an attribute, and where in the tag's content. -/
inductive AttributeError where
  | missingEquals (position : Nat)
  | duplicate (position previous : Nat)
  | missingValue (position : Nat)
  | unquoted (position : Nat)
  | openQuote (position : Nat) (quote : Char)
deriving DecidableEq, Repr

/-- The wording of an attribute error. -/
def AttributeError.message : AttributeError → String
  | missingEquals p =>
    "position " ++ toString p ++ ": attribute key must be directly followed by `=` or space"
  | duplicate p q =>
    "position " ++ toString p ++ ": duplicated attribute, previous declaration at position " ++
      toString q
  | missingValue p =>
    "position " ++ toString p ++ ": `=` must be followed by an attribute value"
  | unquoted p =>
    "position " ++ toString p ++ ": attribute value must be enclosed in `\"` or `'`"
  | openQuote p q =>
    "position " ++ toString p ++ ": missing closing quote `" ++ q.toString ++
      "` in attribute value"

/-- A place in the content of a tag: how far in it is and what follows. -/
structure Cursor where
  position : Nat
  rest : Bytes
deriving DecidableEq, Repr

namespace Cursor

/-- The place `n` bytes further on. -/
def skip (c : Cursor) (n : Nat) : Cursor := ⟨c.position + n, c.rest.drop n⟩

/-- The place behind the white space here. -/
def skipBlank (c : Cursor) : Cursor := c.skip (c.rest.takeWhile Bytes.isBlank).length

/-- A byte that carries an attribute's name on: neither white space nor the equals sign. -/
def isNameByte (b : UInt8) : Bool := b != 0x3d && !Bytes.isBlank b

/-- The bytes of the name that stands at the front. Its first byte may be any. -/
def nameAt : Bytes → Bytes
  | [] => []
  | b :: s => b :: s.takeWhile isNameByte

/-- The name of the attribute that begins here, and the place behind its equals sign. -/
def readName (c : Cursor) : Except AttributeError (Bytes × Cursor) :=
  let name := nameAt c.rest
  let c := (c.skip name.length).skipBlank
  match c.rest with
  | 0x3d :: _ => .ok (name, c.skip 1)
  | _ => .error (.missingEquals c.position)

/-- The value in quotes that stands here, and the place behind it. -/
def readValue (c : Cursor) : Except AttributeError (Bytes × Cursor) :=
  let c := c.skipBlank
  match c.rest with
  | [] => .error (.missingValue c.position)
  | q :: s =>
    if q = 0x22 ∨ q = 0x27 then
      match Bytes.cut? [q] s with
      | some (v, _) => .ok (v, c.skip (v.length + 2))
      | none => .error (.openQuote (c.position + c.rest.length) (Char.ofNat q.toNat))
    else .error (.unquoted c.position)

/-- The attribute that begins here, and the place behind it. A name that is among `taken` is
refused. -/
def readAttribute (taken : List RawAttribute) (c : Cursor) :
    Except AttributeError (RawAttribute × Cursor) := do
  let (name, c') ← c.readName
  match taken.find? (·.name = name) with
  | some a => .error (.duplicate c.position a.position)
  | none => pure ()
  let (value, c') ← c'.readValue
  return (⟨c.position, name, value⟩, c')

/-! ## Each attribute takes a byte -/

theorem length_rest_skip (c : Cursor) (n : Nat) : (c.skip n).rest.length = c.rest.length - n := by
  simp [skip]

theorem length_rest_skipBlank_le (c : Cursor) : c.skipBlank.rest.length ≤ c.rest.length := by
  rw [skipBlank, length_rest_skip]; omega

theorem length_rest_of_readName {c c' : Cursor} {n : Bytes} (h : c.readName = .ok (n, c')) :
    c'.rest.length < c.rest.length := by
  unfold readName at h
  simp only at h
  split at h
  · next b s hs =>
    cases h
    have h1 := length_rest_skipBlank_le (c.skip (nameAt c.rest).length)
    rw [length_rest_skip] at h1
    rw [length_rest_skip, hs]
    rw [hs] at h1
    simp only [List.length_cons] at h1 ⊢; omega
  · cases h

theorem length_rest_of_readValue {c c' : Cursor} {v : Bytes} (h : c.readValue = .ok (v, c')) :
    c'.rest.length ≤ c.rest.length := by
  unfold readValue at h
  simp only at h
  split at h
  · cases h
  · split at h
    · split at h
      · cases h
        rw [length_rest_skip]
        have := length_rest_skipBlank_le c
        omega
      · cases h
    · cases h

theorem length_rest_of_readAttribute {taken : List RawAttribute} {c c' : Cursor} {a : RawAttribute}
    (h : c.readAttribute taken = .ok (a, c')) : c'.rest.length < c.rest.length := by
  unfold readAttribute at h
  cases hn : c.readName with
  | error e => rw [hn] at h; cases h
  | ok p =>
    obtain ⟨n, c1⟩ := p
    rw [hn] at h
    have h1 := length_rest_of_readName hn
    simp only [bind, Except.bind] at h
    split at h
    · cases h
    · cases hv : c1.readValue with
      | error e => rw [hv] at h; cases h
      | ok p =>
        obtain ⟨v, c2⟩ := p
        rw [hv] at h
        cases h
        exact Nat.lt_of_le_of_lt (length_rest_of_readValue hv) h1

/-! ## All attributes of a tag -/

/-- The attributes from here on, up to the first that is not well formed. With `unique`, a name
that came before is not well formed; `taken` are the attributes that came before. -/
def attributes (unique : Bool) (taken : List RawAttribute) (c : Cursor) :
    List RawAttribute × Option AttributeError :=
  let here := c.skipBlank
  if here.rest = [] then ([], none)
  else
    match h : here.readAttribute (if unique then taken else []) with
    | .error e => ([], some e)
    | .ok (a, next) =>
      have : next.rest.length < c.rest.length :=
        Nat.lt_of_lt_of_le (length_rest_of_readAttribute h) (length_rest_skipBlank_le c)
      let (as, e) := attributes unique (taken ++ [a]) next
      (a :: as, e)
termination_by c.rest.length

end Cursor

end UmlOntology
