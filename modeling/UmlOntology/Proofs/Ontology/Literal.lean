/-
Texts between quotes. Reading undoes writing, so different texts are written differently. It stops at
the first quote that is not escaped, so every quote in a written text is; a written text stays on its
line; and a quote in it follows a backslash, so that the quote in front of it is found from behind as
well.
-/
import UmlOntology.Ontology.Literal
import Mathlib.Data.List.Basic

namespace UmlOntology.Literal

variable {c l : Char} {s t rest front back : List Char}

/-! ## Letters -/

theorem character?_of_letter? (h : letter? c = some l) : character? l = some c := by
  unfold letter? at h
  split_ifs at h with hquote hslash hfeed hreturn
  all_goals
    cases h
    subst c
    rfl

/-- A character that has no letter is none of the four that need one. -/
theorem ne_of_letter?_eq_none (h : letter? c = none) :
    c ≠ '"' ∧ c ≠ '\\' ∧ c ≠ '\n' ∧ c ≠ '\r' := by
  unfold letter? at h
  split_ifs at h with hquote hslash hfeed hreturn
  exact ⟨hquote, hslash, hfeed, hreturn⟩

/-- The letters are characters that may stand on a line. -/
theorem letter_ne_break (h : letter? c = some l) : l ≠ '\n' ∧ l ≠ '\r' := by
  unfold letter? at h
  split_ifs at h
  all_goals
    cases h
    decide

/-! ## Writing and reading -/

theorem encode_cons_of_some (h : letter? c = some l) (s : List Char) :
    encode (c :: s) = '\\' :: l :: encode s := by
  rw [encode, h]

theorem encode_cons_of_none (h : letter? c = none) (s : List Char) :
    encode (c :: s) = c :: encode s := by
  rw [encode, h]

theorem scan_escaped (h : letter? c = some l) (s : List Char) :
    scan ('\\' :: l :: s) = (scan s).map fun read => (c :: read.1, read.2) := by
  rw [scan, character?_of_letter? h]
  cases scan s <;> rfl

theorem scan_plain (h : letter? c = none) (s : List Char) :
    scan (c :: s) = (scan s).map fun read => (c :: read.1, read.2) := by
  obtain ⟨hquote, hslash, -, -⟩ := ne_of_letter?_eq_none h
  rw [scan]
  · cases scan s <;> rfl
  · exact hquote
  · exact fun hc _ => hslash hc
  · exact fun _ _ hc _ => hslash hc

/-- From behind the opening quote the text is read back up to the closing one. -/
theorem scan_encode (s rest : List Char) : scan (encode s ++ '"' :: rest) = some (s, rest) := by
  induction s with
  | nil => simp [encode, scan]
  | cons c s ih =>
    cases h : letter? c with
    | some l =>
      rw [encode_cons_of_some h, List.cons_append, List.cons_append, scan_escaped h, ih]
      rfl
    | none =>
      rw [encode_cons_of_none h, List.cons_append, scan_plain h, ih]
      rfl

theorem encode_injective : Function.Injective encode := by
  intro s t h
  have hs := scan_encode s []
  rw [h, scan_encode t []] at hs
  exact (congrArg Prod.fst (Option.some.inj hs)).symm

/-! ## The quote that closes -/

/-- What comes behind the text is escaped: the text ends with a backslash that is not escaped
itself. -/
def escapesNext (s : List Char) : Bool := s.foldl (fun escaped c => !escaped && c = '\\') false

theorem escapesNext_escape (l : Char) (s : List Char) :
    escapesNext ('\\' :: l :: s) = escapesNext s := by
  simp [escapesNext]

theorem escapesNext_cons (hc : c ≠ '\\') (s : List Char) : escapesNext (c :: s) = escapesNext s := by
  simp [escapesNext, hc]

theorem getLast?_of_escapesNext (h : escapesNext s = true) : s.getLast? = some '\\' := by
  rcases List.eq_nil_or_concat' s with rfl | ⟨s', c, rfl⟩
  · cases h
  · unfold escapesNext at h
    rw [List.foldl_append, List.foldl_cons, List.foldl_nil, Bool.and_eq_true, decide_eq_true_eq] at h
    rw [List.getLast?_concat, h.2]

/-- A quote behind the text closes it: that quote is not escaped, and every quote in the text is. -/
structure Unclosed (s : List Char) : Prop where
  closing : escapesNext s = false
  inner : ∀ front back, s = front ++ '"' :: back → escapesNext front = true

theorem Unclosed.nil : Unclosed [] := ⟨rfl, by simp⟩

theorem Unclosed.escape (l : Char) (h : Unclosed s) : Unclosed ('\\' :: l :: s) := by
  refine ⟨by rw [escapesNext_escape, h.closing], fun front back hs => ?_⟩
  match front with
  | [] => simp at hs
  | [d] =>
    obtain ⟨rfl, -⟩ := List.cons.inj hs
    rfl
  | d :: e :: front =>
    simp only [List.cons_append, List.cons.injEq] at hs
    obtain ⟨rfl, rfl, hs⟩ := hs
    rw [escapesNext_escape, h.inner front back hs]

theorem Unclosed.cons (hquote : c ≠ '"') (hslash : c ≠ '\\') (h : Unclosed s) :
    Unclosed (c :: s) := by
  refine ⟨by rw [escapesNext_cons hslash, h.closing], fun front back hs => ?_⟩
  match front with
  | [] => exact absurd (List.cons.inj hs).1 hquote
  | d :: front =>
    obtain ⟨rfl, hback⟩ := List.cons.inj hs
    rw [escapesNext_cons hslash, h.inner front back hback]

/-- Whatever is read, reading stops at the first quote that is not escaped. -/
theorem unclosed_of_scan (h : scan s = some (t, rest)) :
    ∃ quoted, s = quoted ++ '"' :: rest ∧ Unclosed quoted := by
  fun_induction scan s generalizing t rest with
  | case1 => cases h
  | case2 s =>
    cases h
    exact ⟨[], rfl, .nil⟩
  | case3 => cases h
  | case4 l s ih =>
    simp only [Option.bind_eq_bind, Option.bind_eq_some_iff] at h
    obtain ⟨c, -, ⟨text, rest'⟩, hread, h⟩ := h
    cases h
    obtain ⟨quoted, rfl, hq⟩ := ih hread
    exact ⟨'\\' :: l :: quoted, rfl, hq.escape l⟩
  | case5 c s hquote hslash hescape ih =>
    simp only [Option.bind_eq_bind, Option.bind_eq_some_iff] at h
    obtain ⟨⟨text, rest'⟩, hread, h⟩ := h
    cases h
    obtain ⟨quoted, rfl, hq⟩ := ih hread
    -- a backslash would have taken what stands behind it
    refine ⟨c :: quoted, rfl, hq.cons hquote fun hc => ?_⟩
    cases quoted with
    | nil => exact hescape _ _ hc rfl
    | cons l s => exact hescape _ _ hc rfl

theorem unclosed_encode (s : List Char) : Unclosed (encode s) := by
  obtain ⟨quoted, heq, hq⟩ := unclosed_of_scan (scan_encode s [])
  rwa [List.append_cancel_right heq]

/-! ## What stands in a written text -/

theorem ne_break_of_mem_encode (h : c ∈ encode s) : c ≠ '\n' ∧ c ≠ '\r' := by
  induction s with
  | nil => cases h
  | cons d s ih =>
    cases hd : letter? d with
    | some l =>
      rw [encode_cons_of_some hd] at h
      rcases List.mem_cons.1 h with rfl | h
      · decide
      · rcases List.mem_cons.1 h with rfl | h
        · exact letter_ne_break hd
        · exact ih h
    | none =>
      rw [encode_cons_of_none hd] at h
      rcases List.mem_cons.1 h with rfl | h
      · exact (ne_of_letter?_eq_none hd).2.2
      · exact ih h

/-- A quote in a written text follows a backslash. -/
theorem getLast?_of_encode (h : encode s = front ++ '"' :: back) :
    front.getLast? = some '\\' :=
  getLast?_of_escapesNext ((unclosed_encode s).inner front back h)

/-- The quote in front of a written text is found from behind: no backslash stands before it, and
one stands before every quote in the text. -/
theorem append_encode_inj {x y : List Char} (hx : x.getLast? ≠ some '\\')
    (hy : y.getLast? ≠ some '\\') (h : x ++ '"' :: encode s = y ++ '"' :: encode t) :
    x = y ∧ s = t := by
  have hlater : ∀ {x y : List Char} {s t : List Char} {z : List Char},
      y.getLast? ≠ some '\\' → y = x ++ z → '"' :: encode s = z ++ '"' :: encode t → z = [] := by
    intro x y s t z hy hyz hz
    cases z with
    | nil => rfl
    | cons d z =>
      -- then `z` begins with the quote before `s`, and the one before `t` is inside `s`
      obtain ⟨-, hz⟩ := List.cons.inj hz
      refine absurd ?_ hy
      rw [hyz, List.getLast?_append, List.getLast?_cons, getLast?_of_encode hz]
      rfl
  rcases List.append_eq_append_iff.1 h with ⟨z, hyz, hz⟩ | ⟨z, hxz, hz⟩
  · obtain rfl := hlater hy hyz hz
    rw [List.append_nil] at hyz
    exact ⟨hyz.symm, encode_injective (List.cons.inj hz).2⟩
  · obtain rfl := hlater hx hxz hz
    rw [List.append_nil] at hxz
    exact ⟨hxz, encode_injective (List.cons.inj hz).2.symm⟩

end UmlOntology.Literal
