/-
Cuts in a document. A cut and a run of bytes are found from the front, and what reading markup
leaves of a document is what follows the piece, and nothing else.
-/
import UmlOntology.Xml.Markup

namespace UmlOntology

variable {mark s x y : Bytes}

/-! ## Cuts and runs -/

/-- A cut leaves out the mark and nothing else. -/
theorem Bytes.eq_append_of_cut? (h : cut? mark s = some (x, y)) : s = x ++ (mark ++ y) := by
  induction s generalizing x with
  | nil =>
    unfold cut? at h
    split at h
    · rename_i hmark
      cases h
      rw [hmark]
      rfl
    · cases h
  | cons b s ih =>
    unfold cut? at h
    split at h
    · rename_i hpre
      cases h
      obtain ⟨t, ht⟩ := List.isPrefixOf_iff_prefix.1 hpre
      rw [← ht, List.drop_left]
      rfl
    · obtain ⟨⟨x', y'⟩, hc, he⟩ := Option.map_eq_some_iff.1 h
      cases he
      rw [ih hc]
      rfl

theorem Bytes.suffix_of_cut? (h : cut? mark s = some (x, y)) : y <:+ s :=
  ⟨x ++ mark, by rw [eq_append_of_cut? h, List.append_assoc]⟩

/-- A cut looks for its mark behind bytes that have none. -/
theorem Bytes.cut?_append {m : UInt8} (hs : m ∉ s) (k : Bytes) :
    cut? [m] (s ++ k) = (cut? [m] k).map fun p => (s ++ p.1, p.2) := by
  induction s with
  | nil =>
    rw [List.nil_append]
    cases cut? [m] k <;> rfl
  | cons b s ih =>
    rw [List.mem_cons, not_or] at hs
    have hpre : ¬ [m].isPrefixOf (b :: (s ++ k)) = true := by
      simp [List.isPrefixOf, hs.1]
    rw [List.cons_append, cut?, if_neg hpre, ih hs.2, Option.map_map]
    rfl

theorem Bytes.cut?_cons (m : UInt8) (k : Bytes) : cut? [m] (m :: k) = some ([], k) := by
  simp [cut?, List.isPrefixOf]

/-- A run of bytes ends where the first byte comes that does not belong to it. -/
theorem Bytes.takeWhile_append {p : UInt8 → Bool} {s k : Bytes} (hs : ∀ b ∈ s, p b = true)
    (hk : ∀ b ∈ k.head?, p b = false) : (s ++ k).takeWhile p = s := by
  rw [List.takeWhile_append_of_pos hs]
  cases k with
  | nil => rw [List.takeWhile_nil, List.append_nil]
  | cons b k =>
    rw [List.takeWhile_cons_of_neg (by rw [hk b rfl]; decide), List.append_nil]

/-! ## What is left behind a piece of markup -/

/-- A piece of markup at the front of `s` leaves `y`: all that follows a part with a `>` in it. -/
def Bytes.Leaves (s y : Bytes) : Prop := ∃ x, x ++ y = s ∧ 0x3e ∈ x

theorem Bytes.Leaves.suffix (h : Leaves s y) : y <:+ s := by
  obtain ⟨x, hs, -⟩ := h
  exact ⟨x, hs⟩

theorem Bytes.Leaves.mem (h : Leaves s y) : 0x3e ∈ s := by
  obtain ⟨x, rfl, hx⟩ := h
  exact List.mem_append_left y hx

theorem Bytes.Leaves.append (h : Leaves s y) (x : Bytes) : Leaves (x ++ s) y := by
  obtain ⟨x', rfl, hx⟩ := h
  exact ⟨x ++ x', List.append_assoc .., List.mem_append_right x hx⟩

theorem Bytes.Leaves.cons (h : Leaves s y) (b : UInt8) : Leaves (b :: s) y := h.append [b]

theorem Bytes.leaves_cons (s : Bytes) : Leaves (0x3e :: s) s := ⟨[0x3e], rfl, List.mem_cons_self⟩

theorem Bytes.leaves_of_cut? (hmark : 0x3e ∈ mark) (h : cut? mark s = some (x, y)) :
    Leaves s y := by
  rw [Bytes.eq_append_of_cut? h]
  exact Leaves.append ⟨mark, rfl, hmark⟩ x

namespace Markup

theorem leaves_of_cutTag? {quote : Option UInt8} (h : cutTag? quote s = some (x, y)) :
    Bytes.Leaves s y := by
  induction s generalizing x quote with
  | nil => cases h
  | cons b s ih =>
    unfold cutTag? at h
    split at h
    · split at h
      · rename_i hb
        cases h
        rw [hb]
        exact Bytes.leaves_cons y
      · obtain ⟨⟨x', y'⟩, hc, he⟩ := Option.map_eq_some_iff.1 h
        cases he
        exact (ih hc).cons b
    · obtain ⟨⟨x', y'⟩, hc, he⟩ := Option.map_eq_some_iff.1 h
      cases he
      exact (ih hc).cons b

theorem leaves_of_cutDoctype? {depth : Nat} (h : cutDoctype? depth s = some (x, y)) :
    Bytes.Leaves s y := by
  induction s generalizing x depth with
  | nil => cases h
  | cons b s ih =>
    unfold cutDoctype? at h
    split at h
    · rename_i hb
      cases h
      rw [hb.1]
      exact Bytes.leaves_cons y
    · obtain ⟨⟨x', y'⟩, hc, he⟩ := Option.map_eq_some_iff.1 h
      cases he
      exact (ih hc).cons b

variable {m : Markup}

theorem leaves_of_readDoctype (h : readDoctype s = .ok (m, y)) : Bytes.Leaves s y := by
  unfold readDoctype at h
  split at h
  · cases h
  · rename_i hc
    split at h
    · split at h
      · cases h
      · cases h
        exact leaves_of_cutDoctype? hc
    · cases h

theorem leaves_of_passOver {e : MarkupError} {n : Nat} (hmark : 0x3e ∈ mark)
    (h : passOver e (Bytes.cut? mark (s.drop n)) = .ok (m, y)) : Bytes.Leaves s y := by
  obtain ⟨-, x, hc⟩ := passOver_ok h
  rw [← List.take_append_drop n s]
  exact (Bytes.leaves_of_cut? hmark hc).append _

theorem leaves_of_readBang (h : readBang s = .ok (m, y)) : Bytes.Leaves s y := by
  unfold readBang at h
  split at h
  · split at h
    · exact leaves_of_passOver (by decide) h
    · cases h
  · split at h
    · exact leaves_of_passOver (by decide) h
    · cases h
  · exact leaves_of_readDoctype h
  · exact leaves_of_readDoctype h
  · cases h

theorem leaves_of_readInstruction (h : readInstruction s = .ok (m, y)) : Bytes.Leaves s y := by
  unfold readInstruction at h
  split at h
  · cases h
  · split at h
    · rename_i hc
      cases h
      exact Bytes.leaves_of_cut? (by decide) hc
    · cases h

/-- The rest behind a piece of markup is the end of the document from there on, and the piece has
its `>`. -/
theorem leaves_of_read (h : read s = .ok (m, y)) : Bytes.Leaves s y := by
  unfold read at h
  split at h
  · exact (leaves_of_readBang h).cons _
  · exact (leaves_of_readInstruction h).cons _
  · split at h
    · rename_i hc
      cases h
      exact (leaves_of_cutTag? hc).cons _
    · cases h
  · split at h
    · rename_i hc
      cases h
      exact leaves_of_cutTag? hc
    · cases h

end Markup

end UmlOntology
