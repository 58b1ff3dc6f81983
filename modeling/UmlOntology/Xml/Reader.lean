/-
The reader of a document: it takes one piece of markup after the other and gives the events of the
elements it meets. An element without content gives two events, the second of which the reader
still owes when it has given the first. After the end or a fault it gives nothing more.
-/
import UmlOntology.Xml.Element
import UmlOntology.Xml.Fault

namespace UmlOntology

/-! ## Start tags -/

namespace Element

/-- The bytes of the name that a start tag begins with. -/
def rawTag (content : Bytes) : Bytes := content.takeWhile fun b => !Bytes.isBlank b

section

variable (decoders : Decoders)

/-- The text of bytes, or the fault if they are no text. -/
def text (encoding : Encoding) (fault : Fault) (s : Bytes) : Except Fault String :=
  match encoding.decode? decoders s with
  | some t => .ok t
  | none => .error fault

/-- The name and the value of an attribute. -/
def decodeAttribute (encoding : Encoding) (a : RawAttribute) : Except Fault (String × String) := do
  let name ← text decoders encoding (.undecodableName .attributeName encoding) a.name
  let value ← text decoders encoding (.undecodableValue encoding) a.value
  let value ← (Reference.expand value).mapError .reference
  return (name, value)

/-- The element of a start tag. Of several faults the leftmost counts: an attribute is taken into
the element before the next one is looked at. -/
def ofContent (encoding : Encoding) (content : Bytes) : Except Fault Element := do
  let tag ← text decoders encoding (.undecodableName .tag encoding) (rawTag content)
  let start := (Cursor.mk 0 content).skip (rawTag content).length
  let (raw, error) := start.attributes true []
  let attributes ← raw.mapM (decodeAttribute decoders encoding)
  match error with
  | some e => .error (.attributes e)
  | none => return ({ tag : Element }).setAll attributes

end

end Element

/-- The encoding that an XML declaration names. -/
def declaredEncoding? (content : Bytes) : Option Encoding :=
  (((Cursor.mk 0 content).attributes false []).1.find?
    (·.name = Bytes.ofString "encoding")).bind fun a => Encoding.ofLabel? a.value

/-! ## The reader -/

/-- A reader at a place in a document. -/
structure Reader where
  rest : Bytes
  /-- Length of the document, less a byte order mark. -/
  size : Nat := rest.length
  decoders : Decoders := .ascii
  encoding : Encoding := .utf8
  /-- A declaration has settled the encoding. -/
  declared : Bool := false
  /-- Names of the open elements, innermost first, in bytes. -/
  names : List Bytes := []
  /-- Tag of an element without content whose end is still to be given. -/
  owed : Option String := none
  finished : Bool := false

/-- What the next piece of markup brings. -/
inductive Advance where
  | ended
  | failed (fault : Fault)
  | passed (reader : Reader)
  | gave (event : Event) (reader : Reader)

namespace Reader

/-- The reader at the start of a document. -/
def ofDocument (document : Bytes) (decoders : Decoders := .ascii) : Reader :=
  let (encoding, mark) := Encoding.detect document
  { rest := document.drop mark, decoders, encoding }

/-- The place of the `<` that `after` follows. -/
def place (r : Reader) (after : Bytes) : Nat := r.size - after.length - 1

/-- Takes note of an XML declaration: the first that names a known encoding settles it. -/
def declare (r : Reader) (content : Bytes) : Reader :=
  if r.declared then r
  else
    match declaredEncoding? content with
    | some encoding => { r with encoding, declared := true }
    | none => r

/-- The text that bytes of the document stand for. -/
def decode? (r : Reader) (s : Bytes) : Option String := r.encoding.decode? r.decoders s

/-- The element of a start tag of the document. -/
def element (r : Reader) (content : Bytes) : Except Fault Element :=
  Element.ofContent r.decoders r.encoding content

/-- A name as it is quoted in a fault; bytes that are no text are left out. -/
def quoted (r : Reader) (name : Bytes) : String := (r.decode? name).getD ""

/-- What a start tag brings. -/
def openTag (r : Reader) (content : Bytes) : Advance :=
  match r.element content with
  | .ok el => .gave (.start el) { r with names := Element.rawTag content :: r.names }
  | .error fault => .failed fault

/-- What the tag of an element without content brings. -/
def emptyTag (r : Reader) (content : Bytes) : Advance :=
  match r.element content with
  | .ok el => .gave (.start el) { r with owed := some el.tag }
  | .error fault => .failed fault

/-- What an end tag brings: it has to name the innermost open element. -/
def closeTag (r : Reader) (after content : Bytes) : Advance :=
  let name := Bytes.trimEnd content
  match r.names with
  | [] => .failed (.markup (r.place after) (.strayEnd (r.quoted name)))
  | top :: names =>
    if name = top then
      match r.decode? name with
      | some tag => .gave (.finish tag) { r with names }
      | none => .failed (.undecodableName .tag r.encoding)
    else .failed (.markup (r.place after) (.wrongEnd (r.quoted top) (r.quoted name)))

/-- What a piece of markup brings; `after` is the document from behind its `<`. -/
def take (r : Reader) (after : Bytes) : Markup → Advance
  | .start content => r.openTag content
  | .empty content => r.emptyTag content
  | .finish content => r.closeTag after content
  | .declaration content => .passed (r.declare content)
  | .silent => .passed r

/-- Takes the next piece of markup; the text before it is passed over. -/
def advance (r : Reader) : Advance :=
  match Bytes.cut? [0x3c] r.rest with
  | none => .ended
  | some (_, after) =>
    match Markup.read after with
    | .error flaw => .failed (.markup (r.place after + flaw.offset) flaw.error)
    | .ok (markup, rest) => { r with rest }.take after markup

/-! ## Progress -/

theorem rest_declare (r : Reader) (content : Bytes) : (r.declare content).rest = r.rest := by
  unfold declare
  split
  · rfl
  · split <;> rfl

theorem rest_of_take_passed {r r' : Reader} {after : Bytes} {m : Markup}
    (h : r.take after m = .passed r') : r'.rest = r.rest := by
  cases m with
  | start c => simp only [take, openTag] at h; split at h <;> cases h
  | empty c => simp only [take, emptyTag] at h; split at h <;> cases h
  | finish c =>
    simp only [take, closeTag] at h
    split at h
    · cases h
    · split at h
      · split at h <;> cases h
      · cases h
  | declaration c => simp only [take] at h; cases h; exact rest_declare r c
  | silent => simp only [take] at h; cases h; rfl

theorem rest_of_take_gave {r r' : Reader} {after : Bytes} {m : Markup} {e : Event}
    (h : r.take after m = .gave e r') : r'.rest = r.rest := by
  cases m with
  | start c =>
    simp only [take, openTag] at h
    split at h
    · cases h; rfl
    · cases h
  | empty c =>
    simp only [take, emptyTag] at h
    split at h
    · cases h; rfl
    · cases h
  | finish c =>
    simp only [take, closeTag] at h
    split at h
    · cases h
    · split at h
      · split at h
        · cases h; rfl
        · cases h
      · cases h
  | declaration c => simp only [take] at h; cases h
  | silent => simp only [take] at h; cases h

/-- What `advance` leaves is what `take` leaves behind a shorter rest. -/
theorem advance_cases (r : Reader) : r.advance = .ended ∨ (∃ f, r.advance = .failed f) ∨
    ∃ (s : Reader) (after : Bytes) (m : Markup), r.advance = s.take after m ∧
      s.rest.length < r.rest.length := by
  unfold advance
  split
  · exact .inl rfl
  · next before after hc =>
    split
    · exact .inr (.inl ⟨_, rfl⟩)
    · next m rest hm =>
      refine .inr (.inr ⟨_, _, m, rfl, ?_⟩)
      have h1 := Bytes.length_cut?_le hc
      have h2 := Markup.length_read_lt hm
      simp only at h1 h2 ⊢
      omega

theorem length_rest_of_passed {r r' : Reader} (h : r.advance = .passed r') :
    r'.rest.length < r.rest.length := by
  rcases advance_cases r with h1 | ⟨f, h1⟩ | ⟨s, after, m, h1, h2⟩
  · rw [h1] at h; cases h
  · rw [h1] at h; cases h
  · rw [h1] at h; rw [rest_of_take_passed h]; exact h2

theorem length_rest_of_gave {r r' : Reader} {e : Event} (h : r.advance = .gave e r') :
    r'.rest.length < r.rest.length := by
  rcases advance_cases r with h1 | ⟨f, h1⟩ | ⟨s, after, m, h1, h2⟩
  · rw [h1] at h; cases h
  · rw [h1] at h; cases h
  · rw [h1] at h; rw [rest_of_take_gave h]; exact h2

/-! ## Events one by one -/

/-- Takes pieces of markup until one brings an event, a fault or the end. -/
def seek (r : Reader) : Option (Except Fault Event) × Reader :=
  match h : r.advance with
  | .ended => (none, { r with finished := true })
  | .failed fault => (some (.error fault), { r with finished := true })
  | .passed r' =>
    have := length_rest_of_passed h
    r'.seek
  | .gave event r' => (some (.ok event), r')
termination_by r.rest.length

/-- The next event, or the fault in its place; nothing after the end or a fault. An event that is
owed comes first. -/
def next (r : Reader) : Option (Except Fault Event) × Reader :=
  match r.owed with
  | some tag => (some (.ok (.finish tag)), { r with owed := none })
  | none => if r.finished then (none, r) else r.seek

/-- Bounds the events that are still to come. -/
def measure (r : Reader) : Nat := 2 * r.rest.length + if r.owed.isSome then 1 else 0

theorem measure_of_seek {r r' : Reader} {e : Event} (h : r.seek = (some (.ok e), r')) :
    r'.measure < 2 * r.rest.length := by
  unfold seek at h
  split at h
  · cases h
  · cases h
  · next r1 h1 =>
    have := length_rest_of_passed h1
    have := measure_of_seek h
    omega
  · next e1 r1 h1 =>
    cases h
    have := length_rest_of_gave h1
    unfold measure
    split <;> omega
termination_by r.rest.length

theorem measure_of_next {r r' : Reader} {e : Event} (h : r.next = (some (.ok e), r')) :
    r'.measure < r.measure := by
  unfold next at h
  split at h
  · next tag ht => cases h; simp [measure, ht]
  · split at h
    · cases h
    · have := measure_of_seek h
      unfold measure at this ⊢
      omega

/-- All events up to the end or the first fault, and the fault. -/
def toEvents (r : Reader) : List Event × Option Fault :=
  match h : r.next with
  | (none, _) => ([], none)
  | (some (.error fault), _) => ([], some fault)
  | (some (.ok event), r') =>
    have := measure_of_next h
    let (events, fault) := r'.toEvents
    (event :: events, fault)
termination_by r.measure

end Reader

/-- The events of a document up to its end or its first fault, and the fault. -/
def eventsOf (document : Bytes) (decoders : Decoders := .ascii) : List Event × Option Fault :=
  (Reader.ofDocument document decoders).toEvents

end UmlOntology
