/-
The bytes of a text in UTF-8. They read back as the text; a character of ASCII stands for itself in
one byte, and no byte of another character looks like one.
-/
import UmlOntology.Text.Encoding

namespace UmlOntology

namespace Bytes

/-! ## The bytes of a text -/

@[simp] theorem ofString_append (s t : String) : ofString (s ++ t) = ofString s ++ ofString t := by
  unfold ofString
  rw [String.toUTF8_eq_toByteArray, String.toByteArray_append, ByteArray.data_append,
    Array.toList_append]
  rfl

/-- A text is written character by character. -/
theorem ofString_eq_flatMap (s : String) : ofString s = s.toList.flatMap String.utf8EncodeChar := by
  unfold ofString
  conv => lhs; rw [← String.ofList_toList (s := s)]
  rw [String.toUTF8_eq_toByteArray, String.toByteArray_ofList, List.utf8Encode,
    List.toList_data_toByteArray]

theorem ofString_eq_nil {s : String} : ofString s = [] ↔ s = "" := by
  rw [ofString_eq_flatMap, List.flatMap_eq_nil_iff]
  constructor
  · intro h
    cases hs : s.toList with
    | nil => exact String.toList_eq_nil_iff.1 hs
    | cons c cs => exact (String.utf8EncodeChar_ne_nil (h c (hs ▸ List.mem_cons_self))).elim
  · rintro rfl
    nofun

/-! ## Bytes and characters -/

/-- A character of ASCII has the byte of its code, and any other has bytes from 0x80 up to 0xf7. -/
theorem mem_utf8EncodeChar {c : Char} {b : UInt8} (h : b ∈ String.utf8EncodeChar c) :
    b.toNat = c.toNat ∧ b.toNat < 0x80 ∨ 0x80 ≤ b.toNat ∧ b.toNat ≤ 0xf7 := by
  have hcode : c.toNat = c.val.toNat := rfl
  unfold String.utf8EncodeChar at h
  simp only at h
  split at h
  · left
    rw [List.mem_singleton.1 h, UInt8.toNat_ofNat']
    omega
  · -- the first byte of several and those that go on
    right
    split at h
    · simp only [List.mem_cons, List.not_mem_nil, or_false] at h
      rcases h with rfl | rfl <;> rw [UInt8.toNat_ofNat'] <;> omega
    · split at h <;> simp only [List.mem_cons, List.not_mem_nil, or_false] at h
      · rcases h with rfl | rfl | rfl <;> rw [UInt8.toNat_ofNat'] <;> omega
      · rcases h with rfl | rfl | rfl | rfl <;> rw [UInt8.toNat_ofNat'] <;> omega

theorem le_of_mem_ofString {s : String} {b : UInt8} (h : b ∈ ofString s) : b.toNat ≤ 0xf7 := by
  rw [ofString_eq_flatMap] at h
  obtain ⟨c, -, hb⟩ := List.mem_flatMap.1 h
  rcases mem_utf8EncodeChar hb with ⟨-, hlt⟩ | ⟨-, hle⟩
  · omega
  · exact hle

/-- A text has the byte of a character of ASCII only where it has the character. -/
theorem mem_toList_of_mem_ofString {s : String} {b : UInt8} (hb : b.toNat < 0x80)
    (h : b ∈ ofString s) : Char.ofNat b.toNat ∈ s.toList := by
  rw [ofString_eq_flatMap] at h
  obtain ⟨c, hc, hbc⟩ := List.mem_flatMap.1 h
  rcases mem_utf8EncodeChar hbc with ⟨hcode, -⟩ | ⟨hle, -⟩
  · rwa [hcode, Char.ofNat_toNat]
  · omega

end Bytes

/-! ## Reading back -/

theorem Encoding.decode?_ofString (decoders : Decoders) (s : String) :
    decode? decoders .utf8 (Bytes.ofString s) = some s := by
  have hbytes : ByteArray.mk (Bytes.ofString s).toArray = s.toByteArray := by
    rfl
  rw [decode?, hbytes, String.fromUTF8?, dif_pos s.isValidUTF8]
  rfl

theorem Bytes.ofString_inj {s t : String} : ofString s = ofString t ↔ s = t := by
  refine ⟨fun h => Option.some.inj ?_, congrArg ofString⟩
  rw [← Encoding.decode?_ofString .ascii s, h, Encoding.decode?_ofString]

end UmlOntology
