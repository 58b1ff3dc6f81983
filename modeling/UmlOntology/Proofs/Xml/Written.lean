/-
The written form of a forest: start tags and end tags, the attributes in order and in double
quotes, and any text without a `<` around them. White space in a tag is free, an element with
nothing inside may be written as one tag, and a value has as many forms as its references allow, so
the written form is a relation. Every forest has one.
-/
import UmlOntology.Proofs.Text.Utf8
import UmlOntology.Proofs.Xml.Escape
import UmlOntology.Proofs.Xml.Tree

namespace UmlOntology

/-! ## Names and white space -/

/-- Characters that markup is made of. -/
def markupChars : List Char :=
  [' ', '\t', '\r', '\n', '<', '>', '/', '=', '"', '\'', '&', '!', '?']

/-- A name of a tag or an attribute: some characters, none of them of markup. -/
def IsName (s : String) : Prop := s ≠ "" ∧ ∀ c ∈ s.toList, c ∉ markupChars

instance (s : String) : Decidable (IsName s) :=
  have : Decidable (∀ c ∈ s.toList, c ∉ markupChars) := List.decidableBAll _ _
  inferInstanceAs (Decidable (_ ∧ _))

/-- White space of markup, or nothing. -/
def IsSpace (s : String) : Prop := ∀ c ∈ s.toList, c ∈ [' ', '\t', '\r', '\n']

instance (s : String) : Decidable (IsSpace s) :=
  List.decidableBAll _ _

/-- The element can be written: its names are names, and those of its attributes are different. -/
structure Element.WellNamed (el : Element) : Prop where
  tag : IsName el.tag
  names : ∀ a ∈ el.attributes, IsName a.1
  distinct : (el.attributes.map (·.1)).Nodup

/-! ## Written forms -/

/-- What may stand between the name and the end of a start tag with these attributes. -/
inductive AttributesWritten : List (String × String) → String → Prop
  | nil {space : String} : IsSpace space → AttributesWritten [] space
  | cons {space name value text s : String} {as : List (String × String)} :
      IsSpace space → space ≠ "" → Reference.Escaped value.toList text.toList →
      AttributesWritten as s →
      AttributesWritten ((name, value) :: as) (space ++ name ++ "=\"" ++ text ++ "\"" ++ s)

mutual

/-- The written forms of a tree: one tag if nothing is inside, or else two with the forest between
them. -/
inductive Tree.Written : Tree → String → Prop
  | empty {el : Element} {s : String} : AttributesWritten el.attributes s →
      Tree.Written (.node el []) ("<" ++ el.tag ++ s ++ "/>")
  | pair {el : Element} {inside : Forest} {s t space : String} :
      AttributesWritten el.attributes s → Forest.Written inside t → IsSpace space →
      Tree.Written (.node el inside)
        ("<" ++ el.tag ++ s ++ ">" ++ t ++ "</" ++ el.tag ++ space ++ ">")

/-- The written forms of a forest: those of its trees, with text before and behind them. -/
inductive Forest.Written : Forest → String → Prop
  | nil {text : String} : '<' ∉ text.toList → Forest.Written [] text
  | cons {t : Tree} {ts : Forest} {text s u : String} : '<' ∉ text.toList → Tree.Written t s →
      Forest.Written ts u → Forest.Written (t :: ts) (text ++ s ++ u)

end

/-! ## Everything can be written -/

theorem isSpace_empty : IsSpace "" := nofun

theorem exists_attributesWritten (as : List (String × String)) : ∃ s, AttributesWritten as s := by
  induction as with
  | nil => exact ⟨_, .nil isSpace_empty⟩
  | cons a as ih =>
    obtain ⟨s, hs⟩ := ih
    have hspace : IsSpace " " := by decide
    have htext : Reference.Escaped a.2.toList
        (String.ofList (Reference.escape a.2.toList)).toList := by
      rw [String.toList_ofList]
      exact Reference.escaped_escape _
    exact ⟨_, .cons hspace (by decide) htext hs⟩

mutual

theorem Tree.exists_written : ∀ t : Tree, ∃ s, t.Written s
  | .node el inside => by
    obtain ⟨s, hs⟩ := exists_attributesWritten el.attributes
    obtain ⟨t, ht⟩ := Forest.exists_written inside
    exact ⟨_, .pair hs ht isSpace_empty⟩

theorem Forest.exists_written : ∀ f : Forest, ∃ s, Forest.Written f s
  | [] => ⟨"", .nil nofun⟩
  | t :: ts => by
    obtain ⟨s, hs⟩ := Tree.exists_written t
    obtain ⟨u, hu⟩ := Forest.exists_written ts
    have htext : '<' ∉ "".toList := nofun
    exact ⟨_, .cons htext hs hu⟩

end

/-! ## Their bytes -/

/-- The bytes of `markupChars`. -/
def markupBytes : List UInt8 := markupChars.map Char.toUInt8

theorem mem_markupChars {b : UInt8} (h : b ∈ markupBytes) :
    b.toNat < 0x80 ∧ Char.ofNat b.toNat ∈ markupChars := by
  have hall : (markupBytes.all fun b => b.toNat < 0x80 ∧ Char.ofNat b.toNat ∈ markupChars) = true :=
    by decide
  exact of_decide_eq_true (List.all_eq_true.1 hall b h)

theorem IsName.bytes {s : String} (hs : IsName s) : ∀ b ∈ Bytes.ofString s, b ∉ markupBytes := by
  intro b hb hm
  obtain ⟨hlt, hc⟩ := mem_markupChars hm
  exact hs.2 _ (Bytes.mem_toList_of_mem_ofString hlt hb) hc

theorem IsName.ofString_ne_nil {s : String} (hs : IsName s) : Bytes.ofString s ≠ [] :=
  fun h => hs.1 (Bytes.ofString_eq_nil.1 h)

theorem IsSpace.bytes {s : String} (hs : IsSpace s) :
    ∀ b ∈ Bytes.ofString s, Bytes.isBlank b = true := by
  intro b hb
  rw [Bytes.ofString_eq_flatMap] at hb
  obtain ⟨c, hc, hbc⟩ := List.mem_flatMap.1 hb
  have hall : ([' ', '\t', '\r', '\n'].all fun c =>
      (String.utf8EncodeChar c).all Bytes.isBlank) = true := by decide
  exact List.all_eq_true.1 (List.all_eq_true.1 hall c (hs c hc)) b hbc

/-- White space is of markup. -/
theorem isBlank_eq_false {b : UInt8} (h : b ∉ markupBytes) : Bytes.isBlank b = false := by
  cases hb : Bytes.isBlank b with
  | false => rfl
  | true =>
    simp only [Bytes.isBlank, Bool.or_eq_true, beq_iff_eq] at hb
    rcases hb with ((rfl | rfl) | rfl) | rfl <;> exact (h (by decide)).elim

theorem IsName.isBlank_head {s : String} (hs : IsName s) (k : Bytes) :
    ∀ b ∈ (Bytes.ofString s ++ k).head?, Bytes.isBlank b = false := by
  intro b hb
  rw [List.head?_append_of_ne_nil _ hs.ofString_ne_nil] at hb
  exact isBlank_eq_false (hs.bytes b (List.mem_of_mem_head? hb))

namespace AttributesWritten

variable {as : List (String × String)} {s : String}

theorem ofString_cons (space name text s : String) :
    Bytes.ofString (space ++ name ++ "=\"" ++ text ++ "\"" ++ s) =
      Bytes.ofString space ++ (Bytes.ofString name ++
        0x3d :: 0x22 :: (Bytes.ofString text ++ 0x22 :: Bytes.ofString s)) := by
  have hequals : Bytes.ofString "=\"" = [0x3d, 0x22] := by decide
  have hquote : Bytes.ofString "\"" = [0x22] := by decide
  simp [hequals, hquote]

/-- A written value has no double quote among its bytes. -/
theorem quote_not_mem {value text : String} (h : Reference.Escaped value.toList text.toList) :
    0x22 ∉ Bytes.ofString text := fun hb =>
  Reference.quote_not_mem_of_escaped h (Bytes.mem_toList_of_mem_ofString (by decide) hb)

/-- White space divides the attributes from what stands before. -/
theorem isBlank_head (h : AttributesWritten as s) :
    ∀ b ∈ (Bytes.ofString s).head?, Bytes.isBlank b = true := by
  intro b hb
  cases h with
  | nil hspace => exact hspace.bytes b (List.mem_of_mem_head? hb)
  | cons hspace hne htext hs =>
    have hnil : Bytes.ofString _ ≠ [] := fun h => hne (Bytes.ofString_eq_nil.1 h)
    rw [ofString_cons, List.head?_append_of_ne_nil _ hnil] at hb
    exact hspace.bytes b (List.mem_of_mem_head? hb)

/-- No slash stands at the end. -/
theorem getLast?_ne_slash (h : AttributesWritten as s) :
    (Bytes.ofString s).getLast? ≠ some 0x2f := by
  induction h with
  | nil hspace =>
    intro hl
    have := hspace.bytes 0x2f (List.mem_of_getLast? hl)
    revert this
    decide
  | cons hspace hne htext hs ih =>
    rw [Bytes.ofString_append, List.getLast?_append]
    cases hl : (Bytes.ofString _).getLast? with
    | some b => rwa [hl] at ih
    | none =>
      have hquote : Bytes.ofString "\"" = [0x22] := by decide
      rw [Bytes.ofString_append, hquote, List.getLast?_append]
      exact fun h => absurd (Option.some.inj h) (by decide)

end AttributesWritten

end UmlOntology
