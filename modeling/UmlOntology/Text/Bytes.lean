/-
Documents as bytes. Markup is found byte by byte, whatever the encoding of the text between it is,
so a document is a list of bytes until a name or a value is decoded.
-/

namespace UmlOntology

/-- A byte string. -/
abbrev Bytes := List UInt8

namespace Bytes

/-- The bytes of a text in UTF-8. -/
def ofString (s : String) : Bytes := s.toUTF8.data.toList

/-- White space of markup: space, tab, carriage return and line feed. -/
def isBlank (b : UInt8) : Bool := b == 0x20 || b == 0x09 || b == 0x0d || b == 0x0a

/-- Splits a byte string around the first occurrence of `mark`: what stands before it and what
stands after it. -/
def cut? (mark : Bytes) : Bytes → Option (Bytes × Bytes)
  | [] => if mark = [] then some ([], []) else none
  | b :: s =>
    if mark.isPrefixOf (b :: s) then some ([], (b :: s).drop mark.length)
    else (cut? mark s).map fun (before, after) => (b :: before, after)

/-- Drops white space at the end; a string of nothing but white space is kept. -/
def trimEnd (s : Bytes) : Bytes :=
  let kept := (s.reverse.dropWhile isBlank).reverse
  if kept = [] then s else kept

/-- An ASCII capital as the small letter, every other byte as it is. -/
def toLower (b : UInt8) : UInt8 := if 0x41 ≤ b && b ≤ 0x5a then b + 0x20 else b

/-! ## The rest after a cut -/

theorem length_cut?_le {mark : Bytes} : ∀ {s x y : Bytes}, cut? mark s = some (x, y) →
    y.length + mark.length ≤ s.length
  | [], x, y, h => by
    unfold cut? at h
    split at h
    · next hm => cases h; simp [hm]
    · cases h
  | b :: s, x, y, h => by
    unfold cut? at h
    split at h
    · next hm =>
      cases h
      have := (List.isPrefixOf_iff_prefix.1 hm).length_le
      simp only [List.length_drop]; omega
    · obtain ⟨⟨x', y'⟩, hc, he⟩ := Option.map_eq_some_iff.1 h
      cases he
      have := length_cut?_le hc
      simp only [List.length_cons]; omega

end Bytes

end UmlOntology
