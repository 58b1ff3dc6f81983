/-
Documents that break off. What a scan finds in the front of a document it finds there whatever
comes behind, so a reader that sees less of a document takes the same pieces of markup as one that
sees more, up to a place where it comes to the end or a fault. From this follows the main statement:
the events of the front of a document are the first events of the whole.

The encoding is guessed from the first bytes, and the guess may change when more of them are seen;
but it no longer changes when a tag could have ended.
-/
import UmlOntology.Proofs.Xml.Stream

namespace UmlOntology

variable {mark s x y : Bytes}

/-! ## Scans with more behind them -/

theorem Bytes.isPrefixOf_append (h : mark.isPrefixOf s = true) (t : Bytes) :
    mark.isPrefixOf (s ++ t) = true := by
  rw [List.isPrefixOf_iff_prefix] at h ⊢
  exact h.trans (List.prefix_append s t)

/-- A cut that finds its mark finds it whatever comes behind. -/
theorem Bytes.cut?_append_of_some (h : cut? mark s = some (x, y)) (t : Bytes) :
    cut? mark (s ++ t) = some (x, y ++ t) := by
  induction s generalizing x with
  | nil =>
    unfold cut? at h
    split at h
    · rename_i hmark
      cases h
      subst hmark
      cases t <;> simp [cut?]
    · cases h
  | cons b s ih =>
    rw [List.cons_append]
    unfold cut? at h ⊢
    split at h
    · rename_i hpre
      have hlen : mark.length ≤ (b :: s).length := (List.isPrefixOf_iff_prefix.1 hpre).length_le
      have hpre' : mark.isPrefixOf (b :: (s ++ t)) = true := isPrefixOf_append hpre t
      cases h
      rw [if_pos hpre', ← List.drop_append_of_le_length hlen, List.cons_append]
    · rename_i hpre
      obtain ⟨⟨x', y'⟩, hc, he⟩ := Option.map_eq_some_iff.1 h
      cases he
      -- the mark stands further on, so it is too short to reach beyond the front
      have hlen : mark.length ≤ (b :: s).length := by
        have := length_cut?_le hc
        rw [List.length_cons]
        omega
      have hmore : ¬ mark.isPrefixOf (b :: (s ++ t)) = true := by
        intro hp
        refine hpre (List.isPrefixOf_iff_prefix.2 ?_)
        exact List.prefix_of_prefix_length_le (List.isPrefixOf_iff_prefix.1 hp)
          (List.prefix_append (b :: s) t) hlen
      rw [if_neg hmore, ih hc]
      rfl

namespace Markup

variable {m : Markup}

theorem cutTag?_append_of_some {quote : Option UInt8} (h : cutTag? quote s = some (x, y))
    (t : Bytes) : cutTag? quote (s ++ t) = some (x, y ++ t) := by
  induction s generalizing x quote with
  | nil => cases h
  | cons b s ih =>
    rw [List.cons_append]
    unfold cutTag? at h ⊢
    split at h
    · split at h
      · rename_i hb
        cases h
        rw [if_pos hb]
      · rename_i hb
        obtain ⟨⟨x', y'⟩, hc, he⟩ := Option.map_eq_some_iff.1 h
        cases he
        rw [if_neg hb, ih hc]
        rfl
    · obtain ⟨⟨x', y'⟩, hc, he⟩ := Option.map_eq_some_iff.1 h
      cases he
      rw [ih hc]
      rfl

theorem cutDoctype?_append_of_some {depth : Nat} (h : cutDoctype? depth s = some (x, y))
    (t : Bytes) : cutDoctype? depth (s ++ t) = some (x, y ++ t) := by
  induction s generalizing x depth with
  | nil => cases h
  | cons b s ih =>
    rw [List.cons_append]
    unfold cutDoctype? at h ⊢
    split at h
    · rename_i hb
      cases h
      rw [if_pos hb]
    · rename_i hb
      obtain ⟨⟨x', y'⟩, hc, he⟩ := Option.map_eq_some_iff.1 h
      cases he
      rw [if_neg hb, ih hc]
      rfl

theorem readDoctype_append_of_ok (h : readDoctype s = .ok (m, y)) (t : Bytes) :
    readDoctype (s ++ t) = .ok (m, y ++ t) := by
  unfold readDoctype at h
  split at h
  · cases h
  · rename_i content rest hc
    unfold readDoctype
    rw [cutDoctype?_append_of_some hc t]
    simp only
    split at h
    · rename_i hkey
      split at h
      · cases h
      · rename_i hname
        cases h
        rw [if_pos hkey, if_neg hname]
    · cases h

/-- Markup that is passed over behind its opening is passed over whatever comes behind. -/
theorem passOver_append_of_ok {opening : Bytes} {e : MarkupError} {flaw : Flaw}
    (h : (if opening.isPrefixOf s then passOver e (Bytes.cut? mark (s.drop opening.length))
      else .error flaw) = .ok (m, y)) (t : Bytes) :
    (if opening.isPrefixOf (s ++ t) then
        passOver e (Bytes.cut? mark ((s ++ t).drop opening.length))
      else .error flaw) = .ok (m, y ++ t) := by
  split at h
  · rename_i hopening
    obtain ⟨rfl, x, hc⟩ := passOver_ok h
    have hlen : opening.length ≤ s.length := (List.isPrefixOf_iff_prefix.1 hopening).length_le
    rw [if_pos (Bytes.isPrefixOf_append hopening t), List.drop_append_of_le_length hlen,
      Bytes.cut?_append_of_some hc t, passOver]
  · cases h

theorem readBang_append_of_ok (h : readBang s = .ok (m, y)) (t : Bytes) :
    readBang (s ++ t) = .ok (m, y ++ t) := by
  unfold readBang at h
  split at h
  · exact passOver_append_of_ok h t
  · exact passOver_append_of_ok h t
  · exact readDoctype_append_of_ok h t
  · exact readDoctype_append_of_ok h t
  · cases h

theorem readInstruction_append_of_ok (h : readInstruction s = .ok (m, y)) (t : Bytes) :
    readInstruction (s ++ t) = .ok (m, y ++ t) := by
  unfold readInstruction at h
  split at h
  · cases h
  · rename_i hhead
    split at h
    · rename_i content rest hc
      cases h
      cases s with
      | nil => cases hc
      | cons b s =>
        have hhead' : ¬ (b :: s ++ t).head? = some 0x3e := hhead
        unfold readInstruction
        rw [if_neg hhead', Bytes.cut?_append_of_some hc t]
    · cases h

/-- A piece of markup that is complete is read whatever comes behind. -/
theorem read_append_of_ok (h : read s = .ok (m, y)) (t : Bytes) :
    read (s ++ t) = .ok (m, y ++ t) := by
  unfold read at h
  split at h
  · exact readBang_append_of_ok h t
  · exact readInstruction_append_of_ok h t
  · split at h
    · rename_i hc
      cases h
      rw [List.cons_append, read, cutTag?_append_of_some hc t]
    · cases h
  · rename_i hbang hinst hslash
    split at h
    · rename_i hc
      cases h
      -- the first byte is there, so it is the same sign that decides
      cases s with
      | nil => cases hc
      | cons b s =>
        have hcut := cutTag?_append_of_some hc t
        rw [List.cons_append] at hcut ⊢
        unfold read
        split
        · rename_i heq
          cases heq
          exact (hbang _ rfl).elim
        · rename_i heq
          cases heq
          exact (hinst _ rfl).elim
        · rename_i heq
          cases heq
          exact (hslash _ rfl).elim
        · rw [hcut]
    · cases h

end Markup

/-! ## Readers that see more -/

/-- The reader at the same place of a document that goes on with `t`. -/
def Reader.more (r : Reader) (t : Bytes) (size : Nat) : Reader :=
  { r with rest := r.rest ++ t, size }

/-- What a step brings, with the reader that it leaves at the same place of a document that goes on
with `t`. -/
def Advance.more (t : Bytes) (size : Nat) : Advance → Advance
  | .passed r => .passed (r.more t size)
  | .gave e r => .gave e (r.more t size)
  | a => a

namespace Reader

variable {r : Reader} {m : Markup}

theorem Ready.more (hr : r.Ready) (t : Bytes) (size : Nat) : (r.more t size).Ready :=
  ⟨hr.owed, hr.finished⟩

theorem declare_more (r : Reader) (t : Bytes) (size : Nat) (content : Bytes) :
    (r.more t size).declare content = (r.declare content).more t size := by
  unfold declare
  rw [show (r.more t size).declared = r.declared from rfl]
  split
  · rfl
  · split <;> rfl

/-- What a piece of markup brings does not depend on what comes behind it, but for the place that a
fault names. -/
theorem take_more {after : Bytes} (h : ∀ fault, r.take after m ≠ .failed fault)
    (t after' : Bytes) (size : Nat) :
    (r.more t size).take after' m = (r.take after m).more t size := by
  have helement : (r.more t size).element = r.element := rfl
  have hdecode : (r.more t size).decode? = r.decode? := rfl
  have hnames : (r.more t size).names = r.names := rfl
  cases m with
  | start content =>
    rw [take, openTag] at h ⊢
    rw [helement, take, openTag]
    split
    · rfl
    · rfl
  | empty content =>
    rw [take, emptyTag] at h ⊢
    rw [helement, take, emptyTag]
    split
    · rfl
    · rfl
  | finish content =>
    rw [take, closeTag] at h ⊢
    rw [hdecode, hnames, take, closeTag]
    cases ho : r.names with
    | nil =>
      rw [ho] at h
      exact (h _ rfl).elim
    | cons top names =>
      rw [ho] at h
      simp only at h ⊢
      by_cases htop : Bytes.trimEnd content = top
      · rw [if_pos htop, if_pos htop]
        split
        · rfl
        · rfl
      · rw [if_neg htop] at h
        exact (h _ rfl).elim
  | declaration content =>
    rw [take, take, declare_more]
    rfl
  | silent => rfl

/-- A step that comes to no end and no fault brings the same when more is seen. -/
theorem advance_more (hended : r.advance ≠ .ended) (hfailed : ∀ fault, r.advance ≠ .failed fault)
    (t : Bytes) (size : Nat) : (r.more t size).advance = r.advance.more t size := by
  cases hp : r.piece? with
  | none =>
    rcases advance_of_piece?_eq_none hp with ha | ⟨fault, ha⟩
    · exact (hended ha).elim
    · exact (hfailed fault ha).elim
  | some p =>
    obtain ⟨before, after, hc, hread⟩ := piece?_eq_some_iff.1 hp
    have hmore := advance_of_read (r := r.more t size) (Bytes.cut?_append_of_some hc t)
      (Markup.read_append_of_ok hread t)
    rw [advance_of_read hc hread] at hfailed ⊢
    rw [hmore, ← take_more hfailed t (after ++ t) size]
    rfl

/-- The events that are read while less is seen come first when more is seen. -/
theorem toEvents_more (r : Reader) (hr : r.Ready) (t : Bytes) (size : Nat) :
    r.toEvents.1 <+: (r.more t size).toEvents.1 := by
  induction r, hr using induction_pieces with
  | ended r hr h =>
    rw [toEvents_of_ended hr h]
    exact List.nil_prefix
  | failed r hr fault h =>
    rw [toEvents_of_failed hr h]
    exact List.nil_prefix
  | passed r hr r' m rest hp h ht ih =>
    have hmore := advance_more (by rw [h]; nofun) (by rw [h]; nofun) t size
    rw [h] at hmore
    rw [toEvents_of_passed hr h, toEvents_of_passed (hr.more t size) hmore]
    exact ih
  | gave r hr e r' m rest hp h ht ih =>
    have hmore := advance_more (by rw [h]; nofun) (by rw [h]; nofun) t size
    rw [h] at hmore
    rw [toEvents_of_gave_owed hr h, toEvents_of_gave_owed (hr.more t size) hmore]
    exact List.cons_prefix_cons.2 ⟨rfl, (List.prefix_append_right_inj _).2 ih⟩

/-- A document without `>` gives no event. -/
theorem toEvents_of_not_mem (hr : r.Ready) (h : 0x3e ∉ r.rest) : r.toEvents.1 = [] := by
  have hpiece : r.piece? = none := by
    rw [Option.eq_none_iff_forall_ne_some]
    rintro ⟨m, rest⟩ hp
    obtain ⟨before, after, hc, hread⟩ := piece?_eq_some_iff.1 hp
    exact h ((Bytes.suffix_of_cut? hc).mem (Markup.leaves_of_read hread).mem)
  rcases advance_of_piece?_eq_none hpiece with ha | ⟨fault, ha⟩
  · rw [toEvents_of_ended hr ha]
  · rw [toEvents_of_failed hr ha]

end Reader

/-! ## Documents that break off -/

/-- A mark without `>` that stands in front of a document stands in front of every part of it where
a tag could have ended. -/
theorem Bytes.front_of_mem {p t : Bytes} (hp : 0x3e ∈ p) (hmark : 0x3e ∉ mark)
    (h : p ++ t = mark ++ y) : ∃ x, p = mark ++ x := by
  have hfront : mark <+: p ++ t := ⟨y, h.symm⟩
  rcases List.prefix_or_prefix_of_prefix hfront (List.prefix_append p t) with hpre | hpre
  · obtain ⟨x, hx⟩ := hpre
    exact ⟨x, hx.symm⟩
  · exact (hmark (hpre.subset hp)).elim

/-- Once a tag could have ended, the guess of the encoding stays, and the mark is behind. -/
theorem Encoding.detect_append {p : Bytes} (hp : 0x3e ∈ p) (t : Bytes) :
    detect (p ++ t) = detect p ∧ (detect p).2 ≤ p.length := by
  fun_cases detect p with
  | case1 => exact ⟨rfl, by simp⟩
  | case2 => exact ⟨rfl, by simp⟩
  | case3 => exact ⟨rfl, by simp⟩
  | case4 => exact ⟨rfl, by simp⟩
  | case5 => exact ⟨rfl, by simp⟩
  | case6 _ h1 h2 h3 h4 h5 =>
    refine ⟨?_, Nat.zero_le _⟩
    -- a sign that `p` does not show would have to stand in front of it as a whole
    have hfront : ∀ mark y, 0x3e ∉ mark → p ++ t = mark ++ y → ∃ x, p = mark ++ x :=
      fun mark y hmark => Bytes.front_of_mem hp hmark
    generalize p ++ t = d at hfront
    unfold detect
    split
    · obtain ⟨x, hx⟩ := hfront [0xef, 0xbb, 0xbf] _ (by decide) rfl
      exact (h1 x hx).elim
    · obtain ⟨x, hx⟩ := hfront [0xfe, 0xff] _ (by decide) rfl
      exact (h2 x hx).elim
    · obtain ⟨x, hx⟩ := hfront [0xff, 0xfe] _ (by decide) rfl
      exact (h3 x hx).elim
    · obtain ⟨x, hx⟩ := hfront [0x00, 0x3c, 0x00, 0x3f] _ (by decide) rfl
      exact (h4 x hx).elim
    · obtain ⟨x, hx⟩ := hfront [0x3c, 0x00, 0x3f, 0x00] _ (by decide) rfl
      exact (h5 x hx).elim
    · rfl

theorem Reader.ofDocument_append {p : Bytes} (hp : 0x3e ∈ p) (t : Bytes) (decoders : Decoders) :
    ofDocument (p ++ t) decoders =
      (ofDocument p decoders).more t (ofDocument (p ++ t) decoders).size := by
  obtain ⟨hdetect, hmark⟩ := Encoding.detect_append hp t
  unfold ofDocument more
  simp only [hdetect, List.drop_append_of_le_length hmark]

/-- The events of the front of a document are the first events of the document. -/
theorem eventsOf_prefix (decoders : Decoders) {p d : Bytes} (h : p <+: d) :
    (eventsOf p decoders).1 <+: (eventsOf d decoders).1 := by
  obtain ⟨t, rfl⟩ := h
  have hready := Reader.ready_ofDocument p decoders
  unfold eventsOf
  by_cases hp : 0x3e ∈ p
  · rw [Reader.ofDocument_append hp t decoders]
    exact Reader.toEvents_more _ hready t _
  · have hrest : 0x3e ∉ (Reader.ofDocument p decoders).rest := fun hmem => hp (List.mem_of_mem_drop hmem)
    rw [Reader.toEvents_of_not_mem hready hrest]
    exact List.nil_prefix

end UmlOntology
