/-
Markup as it stands between `<` and `>`. A comment, a section of character data, a document type
and an instruction have each their own end; a tag ends at the first `>` outside quotes.
-/
import UmlOntology.Text.Bytes

namespace UmlOntology

/-- A piece of markup, without the signs that enclose it. -/
inductive Markup where
  /-- A start tag. -/
  | start (content : Bytes)
  /-- The tag of an element without content, less the slash at its end. -/
  | empty (content : Bytes)
  /-- An end tag, less the slash before its name. -/
  | finish (content : Bytes)
  /-- An XML declaration, less its target. -/
  | declaration (content : Bytes)
  /-- Markup that opens and closes nothing. -/
  | silent
deriving DecidableEq, Repr

/-- What is wrong with a piece of markup. -/
inductive MarkupError where
  | openTag
  | openComment
  | openSection
  | openDoctype
  | openInstruction
  | unknownMarkup
  | namelessDoctype
  /-- An end tag with another name than the element that is open. -/
  | wrongEnd (expected found : String)
  /-- An end tag where no element is open. -/
  | strayEnd (name : String)
deriving DecidableEq, Repr

namespace MarkupError

/-- The wording of a markup error. -/
def message : MarkupError → String
  | openTag => "syntax error: tag not closed: `>` not found before end of input"
  | openComment => "syntax error: comment not closed: `-->` not found before end of input"
  | openSection => "syntax error: CDATA not closed: `]]>` not found before end of input"
  | openDoctype => "syntax error: DOCTYPE not closed: `>` not found before end of input"
  | openInstruction =>
    "syntax error: processing instruction or xml declaration not closed: `?>` not found before end of input"
  | unknownMarkup => "syntax error: unknown or missed symbol in markup"
  | namelessDoctype =>
    "ill-formed document: `<!DOCTYPE>` declaration does not contain a name of a document type"
  | wrongEnd expected found =>
    "ill-formed document: expected `</" ++ expected ++ ">`, but `</" ++ found ++ ">` was found"
  | strayEnd name =>
    "ill-formed document: close tag `</" ++ name ++ ">` does not match any open tag"

end MarkupError

/-- A markup error and how far behind the `<` it shows. -/
structure Flaw where
  error : MarkupError
  offset : Nat := 0
deriving DecidableEq, Repr

namespace Markup

/-! ## Ends -/

/-- Splits a tag at the first `>` outside quotes; `quote` is the quote that is open. -/
def cutTag? (quote : Option UInt8) : Bytes → Option (Bytes × Bytes)
  | [] => none
  | b :: s =>
    match quote with
    | none =>
      if b = 0x3e then some ([], s)
      else
        (cutTag? (if b = 0x22 ∨ b = 0x27 then some b else none) s).map fun (x, y) => (b :: x, y)
    | some q => (cutTag? (if b = q then none else some q) s).map fun (x, y) => (b :: x, y)

/-- Splits a document type at the `>` that closes it; `depth` is the number of `<` within it that
still are open. -/
def cutDoctype? (depth : Nat) : Bytes → Option (Bytes × Bytes)
  | [] => none
  | b :: s =>
    if b = 0x3e ∧ depth = 0 then some ([], s)
    else
      (cutDoctype? (if b = 0x3c then depth + 1 else if b = 0x3e then depth - 1 else depth) s).map
        fun (x, y) => (b :: x, y)

/-! ## Pieces -/

/-- Markup whose end was found at a piece that is not to be reported. -/
def passOver (error : MarkupError) : Option (Bytes × Bytes) → Except Flaw (Markup × Bytes)
  | some (_, rest) => .ok (.silent, rest)
  | none => .error { error }

/-- A document type from its keyword on. -/
def readDoctype (s : Bytes) : Except Flaw (Markup × Bytes) :=
  match cutDoctype? 0 s with
  | none => .error { error := .openDoctype }
  | some (content, rest) =>
    if (Bytes.ofString "doctype").isPrefixOf (content.map Bytes.toLower) then
      if (content.drop 7).all Bytes.isBlank then
        .error { error := .namelessDoctype, offset := content.length + 2 }
      else .ok (.silent, rest)
    else .error { error := .openDoctype }

/-- What follows `<!`. -/
def readBang (s : Bytes) : Except Flaw (Markup × Bytes) :=
  match s with
  | 0x5b :: _ =>
    if (Bytes.ofString "[CDATA[").isPrefixOf s then
      passOver .openSection (Bytes.cut? (Bytes.ofString "]]>") (s.drop 7))
    else .error { error := .openSection }
  | 0x2d :: _ =>
    if (Bytes.ofString "--").isPrefixOf s then
      passOver .openComment (Bytes.cut? (Bytes.ofString "-->") (s.drop 2))
    else .error { error := .openComment }
  | 0x44 :: _ => readDoctype s
  | 0x64 :: _ => readDoctype s
  | _ => .error { error := .unknownMarkup }

/-- What an instruction is: a declaration if its target is `xml`. -/
def ofInstruction (content : Bytes) : Markup :=
  if (Bytes.ofString "xml").isPrefixOf content ∧ (content.drop 3).head?.all Bytes.isBlank then
    .declaration (content.drop 3)
  else .silent

/-- What follows `<?`. -/
def readInstruction (s : Bytes) : Except Flaw (Markup × Bytes) :=
  if s.head? = some 0x3e then .error { error := .openInstruction }
  else
    match Bytes.cut? (Bytes.ofString "?>") s with
    | some (content, rest) => .ok (ofInstruction content, rest)
    | none => .error { error := .openInstruction }

/-- What the content of a tag that is no end tag stands for. -/
def ofTag (content : Bytes) : Markup :=
  if content.getLast? = some 0x2f then .empty content.dropLast else .start content

/-- What follows `<`. -/
def read (s : Bytes) : Except Flaw (Markup × Bytes) :=
  match s with
  | 0x21 :: s => readBang s
  | 0x3f :: s => readInstruction s
  | 0x2f :: s =>
    match cutTag? none s with
    | some (content, rest) => .ok (.finish content, rest)
    | none => .error { error := .openTag }
  | s =>
    match cutTag? none s with
    | some (content, rest) => .ok (ofTag content, rest)
    | none => .error { error := .openTag }

/-! ## The rest is shorter -/

theorem length_cutTag?_lt : ∀ {s x y : Bytes} {q : Option UInt8}, cutTag? q s = some (x, y) →
    y.length < s.length
  | [], _, _, _, h => by simp [cutTag?] at h
  | b :: s, x, y, q, h => by
    unfold cutTag? at h
    split at h
    · split at h
      · cases h; simp
      · obtain ⟨⟨x', y'⟩, hc, he⟩ := Option.map_eq_some_iff.1 h
        cases he
        have := length_cutTag?_lt hc
        simp only [List.length_cons]; omega
    · obtain ⟨⟨x', y'⟩, hc, he⟩ := Option.map_eq_some_iff.1 h
      cases he
      have := length_cutTag?_lt hc
      simp only [List.length_cons]; omega

theorem length_cutDoctype?_lt : ∀ {s x y : Bytes} {d : Nat}, cutDoctype? d s = some (x, y) →
    y.length < s.length
  | [], _, _, _, h => by simp [cutDoctype?] at h
  | b :: s, x, y, d, h => by
    unfold cutDoctype? at h
    split at h
    · cases h; simp
    · obtain ⟨⟨x', y'⟩, hc, he⟩ := Option.map_eq_some_iff.1 h
      cases he
      have := length_cutDoctype?_lt hc
      simp only [List.length_cons]; omega

theorem passOver_ok {e : MarkupError} {c : Option (Bytes × Bytes)} {m : Markup} {y : Bytes}
    (h : passOver e c = .ok (m, y)) : m = .silent ∧ ∃ x, c = some (x, y) := by
  unfold passOver at h
  split at h
  · cases h; exact ⟨rfl, _, rfl⟩
  · cases h

theorem length_readDoctype_lt {s y : Bytes} {m : Markup} (h : readDoctype s = .ok (m, y)) :
    y.length < s.length := by
  unfold readDoctype at h
  split at h
  · cases h
  · next hc =>
    split at h
    · split at h
      · cases h
      · cases h; exact length_cutDoctype?_lt hc
    · cases h

theorem length_cut?_drop_lt {mark s x y : Bytes} {n : Nat} (hm : 0 < mark.length)
    (h : Bytes.cut? mark (s.drop n) = some (x, y)) : y.length < s.length := by
  have := Bytes.length_cut?_le h
  simp only [List.length_drop] at this; omega

theorem length_readBang_lt {s y : Bytes} {m : Markup} (h : readBang s = .ok (m, y)) :
    y.length < s.length := by
  unfold readBang at h
  split at h
  · split at h
    · obtain ⟨-, x, hc⟩ := passOver_ok h
      exact length_cut?_drop_lt (by decide) hc
    · cases h
  · split at h
    · obtain ⟨-, x, hc⟩ := passOver_ok h
      exact length_cut?_drop_lt (by decide) hc
    · cases h
  · exact length_readDoctype_lt h
  · exact length_readDoctype_lt h
  · cases h

theorem length_readInstruction_lt {s y : Bytes} {m : Markup}
    (h : readInstruction s = .ok (m, y)) : y.length < s.length := by
  unfold readInstruction at h
  split at h
  · cases h
  · split at h
    · next hc =>
      cases h
      have := Bytes.length_cut?_le hc
      have : 0 < (Bytes.ofString "?>").length := by decide
      omega
    · cases h

/-- A piece of markup takes at least one byte. -/
theorem length_read_lt {s y : Bytes} {m : Markup} (h : read s = .ok (m, y)) :
    y.length < s.length := by
  unfold read at h
  split at h
  · have := length_readBang_lt h
    simp only [List.length_cons]; omega
  · have := length_readInstruction_lt h
    simp only [List.length_cons]; omega
  · split at h
    · next hc =>
      cases h
      have := length_cutTag?_lt hc
      simp only [List.length_cons]; omega
    · cases h
  · split at h
    · next hc => cases h; exact length_cutTag?_lt hc
    · cases h

end Markup

end UmlOntology
