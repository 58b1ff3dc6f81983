/-
Values as they are written between double quotes: a character of the markup's own syntax as one of
the names that XML defines, a tab, a line feed or a carriage return by its number, and every other
character as it is. Expanding the references of a written value gives the value.
-/
import UmlOntology.Xml.Reference

namespace UmlOntology.Reference

/-! ## Written values -/

/-- The characters that a value is not written with, and the names of references to them. -/
def escapes : List (Char × List Char) := [
    ('&', ['a', 'm', 'p']), ('<', ['l', 't']), ('>', ['g', 't']), ('"', ['q', 'u', 'o', 't']),
    ('\t', ['#', '9']), ('\t', ['#', 'x', '9']),
    ('\n', ['#', '1', '0']), ('\n', ['#', 'x', 'A']), ('\n', ['#', 'x', 'a']),
    ('\r', ['#', '1', '3']), ('\r', ['#', 'x', 'D']), ('\r', ['#', 'x', 'd'])]

/-- The second text is a way to write the first. -/
inductive Escaped : List Char → List Char → Prop
  | nil : Escaped [] []
  | plain {c : Char} {s t : List Char} : c ∉ escapes.map (·.1) → Escaped s t →
      Escaped (c :: s) (c :: t)
  | named {c : Char} {name s t : List Char} : (c, name) ∈ escapes → Escaped s t →
      Escaped (c :: s) ('&' :: (name ++ ';' :: t))

/-- A written form: of the names of references to a character, the first. -/
def escape (s : List Char) : List Char :=
  s.flatMap fun c =>
    match escapes.find? (·.1 = c) with
    | some row => '&' :: (row.2 ++ [';'])
    | none => [c]

theorem escaped_escape (s : List Char) : Escaped s (escape s) := by
  induction s with
  | nil => exact .nil
  | cons c s ih =>
    rw [escape, List.flatMap_cons]
    cases h : escapes.find? (·.1 = c) with
    | some row =>
      obtain rfl : row.1 = c := by simpa using List.find?_some h
      have hnamed := Escaped.named (List.mem_of_find?_eq_some h) ih
      simpa [escape] using hnamed
    | none =>
      refine .plain (fun hc => ?_) ih
      obtain ⟨row, hrow, hsame⟩ := List.mem_map.1 hc
      simpa [hsame] using List.find?_eq_none.1 h row hrow

example : escape "a < b\n".toList = "a &lt; b&#10;".toList := by decide

/-- No written value has a double quote. -/
theorem quote_not_mem_of_escaped {s t : List Char} (h : Escaped s t) : '"' ∉ t := by
  have hnames : (escapes.all fun row => '"' ∉ row.2) = true := by decide
  induction h with
  | nil => nofun
  | plain hc _ ih =>
    rw [List.mem_cons, not_or]
    refine ⟨?_, ih⟩
    rintro rfl
    exact hc (by decide)
  | named hrow _ ih =>
    simp only [List.mem_cons, List.mem_append, not_or]
    exact ⟨by decide, of_decide_eq_true (List.all_eq_true.1 hnames _ hrow), by decide, ih⟩

/-! ## Expanding -/

theorem isNameChar_of_escapes {c : Char} {name : List Char} (h : (c, name) ∈ escapes) :
    ∀ d ∈ name, isNameChar d = true := by
  have hall : (escapes.all fun row => row.2.all isNameChar) = true := by decide
  exact List.all_eq_true.1 (List.all_eq_true.1 hall _ h)

/-- The reference with such a name stands for its character, wherever it is. -/
theorem resolve_of_escapes {c : Char} {name : List Char} (h : (c, name) ∈ escapes) (start : Nat) :
    resolve start name = .ok c := by
  simp only [escapes, List.mem_cons, List.not_mem_nil, or_false, Prod.mk.injEq] at h
  rcases h with ⟨rfl, rfl⟩ | ⟨rfl, rfl⟩ | ⟨rfl, rfl⟩ | ⟨rfl, rfl⟩ | ⟨rfl, rfl⟩ | ⟨rfl, rfl⟩ |
    ⟨rfl, rfl⟩ | ⟨rfl, rfl⟩ | ⟨rfl, rfl⟩ | ⟨rfl, rfl⟩ | ⟨rfl, rfl⟩ | ⟨rfl, rfl⟩ <;> rfl

/-- A reference ends at its semicolon. -/
theorem expandFrom_named {name s t : List Char} {c : Char} {place stop : Nat}
    (hname : ∀ d ∈ name, isNameChar d = true) (hc : resolve (place + 1) name = .ok c)
    (ht : expandFrom (place + width name + 2) stop t = .ok s) :
    expandFrom place stop ('&' :: (name ++ ';' :: t)) = .ok (c :: s) := by
  have htake : (name ++ ';' :: t).takeWhile isNameChar = name := by
    rw [List.takeWhile_append_of_pos hname, List.takeWhile_cons_of_neg (by decide),
      List.append_nil]
  have hdrop : (name ++ ';' :: t).dropWhile isNameChar = ';' :: t := by
    rw [List.dropWhile_append_of_pos hname, List.dropWhile_cons_of_neg (by decide)]
  rw [expandFrom, if_pos rfl, htake]
  split
  · rename_i rest hrest
    rw [hdrop] at hrest
    cases hrest
    show (resolve _ _ >>= fun r => expandFrom _ _ _ >>= fun t => pure (r :: t)) = _
    rw [hc, ht]
    rfl
  · rename_i hno
    exact (hno t hdrop).elim

theorem expandFrom_of_escaped {s t : List Char} (h : Escaped s t) (place stop : Nat) :
    expandFrom place stop t = .ok s := by
  -- places are counted in the written value, so they are any in what follows a character
  induction h generalizing place with
  | nil => rw [expandFrom]
  | @plain c s t hc _ ih =>
    have hamp : c ≠ '&' := by
      rintro rfl
      exact hc (by decide)
    rw [expandFrom, if_neg hamp, ih]
    rfl
  | named hrow _ ih =>
    exact expandFrom_named (isNameChar_of_escapes hrow) (resolve_of_escapes hrow _) (ih _)

/-- A value is what its written form expands to. -/
theorem expand_of_escaped {value text : String} (h : Escaped value.toList text.toList) :
    expand text = .ok value := by
  rw [expand, expandFrom_of_escaped h, Except.map, String.ofList_toList]

end UmlOntology.Reference
