/-
The reader step by step. A step takes the next piece of markup off the document, and what a piece
brings is an event, nothing, or a fault; from this follow the equations of the events that a reader
gives from a place on.
-/
import UmlOntology.Xml.Reader
import UmlOntology.Proofs.Xml.Markup

namespace UmlOntology.Reader

variable {r r' : Reader} {m : Markup} {rest : Bytes} {e : Event}

/-! ## Pieces of markup -/

/-- The piece of markup that stands next, and what follows it. -/
def piece? (r : Reader) : Option (Markup × Bytes) :=
  (Bytes.cut? [0x3c] r.rest).bind fun c => (Markup.read c.2).toOption

/-- What a piece of markup can bring to a reader that stands behind it. -/
inductive Takes (r : Reader) : Markup → Advance → Prop
  | failed (m : Markup) (fault : Fault) : Takes r m (.failed fault)
  | start {content : Bytes} {el : Element} : r.element content = .ok el →
      Takes r (.start content)
        (.gave (.start el) { r with names := Element.rawTag content :: r.names })
  | empty {content : Bytes} {el : Element} : r.element content = .ok el →
      Takes r (.empty content) (.gave (.start el) { r with owed := some el.tag })
  | finish {content name : Bytes} {names : List Bytes} {tag : String} : r.names = name :: names →
      Bytes.trimEnd content = name → r.decode? name = some tag →
      Takes r (.finish content) (.gave (.finish tag) { r with names })
  | declaration (content : Bytes) : Takes r (.declaration content) (.passed (r.declare content))
  | silent : Takes r .silent (.passed r)

theorem takes_take (r : Reader) (after : Bytes) (m : Markup) : r.Takes m (r.take after m) := by
  cases m with
  | start content =>
    rw [take, openTag]
    split
    · rename_i el hel
      exact .start hel
    · exact .failed _ _
  | empty content =>
    rw [take, emptyTag]
    split
    · rename_i el hel
      exact .empty hel
    · exact .failed _ _
  | finish content =>
    rw [take, closeTag]
    split
    · exact .failed _ _
    · rename_i top names hnames
      split
      · rename_i hname
        split
        · rename_i tag htag
          exact .finish hnames hname (hname ▸ htag)
        · exact .failed _ _
      · exact .failed _ _
  | declaration content => exact .declaration content
  | silent => exact .silent

theorem piece?_eq_some_iff : r.piece? = some (m, rest) ↔
    ∃ before after, Bytes.cut? [0x3c] r.rest = some (before, after) ∧
      Markup.read after = .ok (m, rest) := by
  unfold piece?
  rw [Option.bind_eq_some_iff]
  constructor
  · rintro ⟨⟨before, after⟩, hc, hm⟩
    cases hread : Markup.read after with
    | error flaw =>
      rw [hread] at hm
      cases hm
    | ok p =>
      rw [hread] at hm
      cases hm
      exact ⟨before, after, hc, hread⟩
  · rintro ⟨before, after, hc, hread⟩
    exact ⟨(before, after), hc, by rw [hread]; rfl⟩

theorem advance_of_read {before after : Bytes}
    (hc : Bytes.cut? [0x3c] r.rest = some (before, after)) (hread : Markup.read after = .ok (m, rest)) :
    r.advance = { r with rest }.take after m := by
  unfold advance
  rw [hc]
  simp only
  rw [hread]

/-- A step takes the piece that stands next. -/
theorem takes_advance (h : r.piece? = some (m, rest)) : { r with rest }.Takes m r.advance := by
  obtain ⟨before, after, hc, hread⟩ := piece?_eq_some_iff.1 h
  rw [advance_of_read hc hread]
  exact takes_take _ after m

/-- With no piece of markup to take, there is the end or a fault. -/
theorem advance_of_piece?_eq_none (h : r.piece? = none) :
    r.advance = .ended ∨ ∃ fault, r.advance = .failed fault := by
  unfold advance
  cases hc : Bytes.cut? [0x3c] r.rest with
  | none => exact Or.inl rfl
  | some c =>
    right
    simp only
    cases hread : Markup.read c.2 with
    | error flaw => exact ⟨_, rfl⟩
    | ok p =>
      simp only [piece?, hc, Option.bind_some, hread, Except.toOption] at h
      cases h

/-- A piece of markup takes one `<` at least. -/
theorem count_of_piece? (h : r.piece? = some (m, rest)) : rest.count 0x3c < r.rest.count 0x3c := by
  obtain ⟨before, after, hc, hread⟩ := piece?_eq_some_iff.1 h
  have hle := (Markup.leaves_of_read hread).suffix.sublist.count_le 0x3c
  rw [Bytes.eq_append_of_cut? hc]
  simp only [List.count_append, List.count_cons_self, List.singleton_append]
  omega

/-! ## Events from a place on -/

/-- The reader owes no event and has not come to the end or a fault. -/
structure Ready (r : Reader) : Prop where
  owed : r.owed = none
  finished : r.finished = false

theorem ready_ofDocument (d : Bytes) (decoders : Decoders) : (ofDocument d decoders).Ready :=
  ⟨rfl, rfl⟩

theorem Ready.with_rest (hr : r.Ready) (rest : Bytes) : { r with rest }.Ready :=
  ⟨hr.owed, hr.finished⟩

theorem ready_declare (hr : r.Ready) (content : Bytes) : (r.declare content).Ready := by
  unfold declare
  split
  · exact hr
  · split
    · exact ⟨hr.owed, hr.finished⟩
    · exact hr

theorem Takes.rest_of_passed (h : r.Takes m (.passed r')) : r'.rest = r.rest := by
  cases h with
  | declaration content => exact rest_declare r content
  | silent => rfl

theorem Takes.names_of_passed (h : r.Takes m (.passed r')) : r'.names = r.names := by
  cases h with
  | declaration content =>
    unfold declare
    split
    · rfl
    · split <;> rfl
  | silent => rfl

theorem Takes.rest_of_gave (h : r.Takes m (.gave e r')) : r'.rest = r.rest := by
  cases h <;> rfl

theorem Takes.ready_of_passed (hr : r.Ready) (h : r.Takes m (.passed r')) : r'.Ready := by
  cases h with
  | declaration content => exact ready_declare hr content
  | silent => exact hr

theorem Takes.finished_of_gave (hr : r.Ready) (h : r.Takes m (.gave e r')) :
    r'.finished = false := by
  cases h <;> exact hr.finished

/-- A step that is no end and no fault takes a piece of markup. -/
theorem takes_of_passed (h : r.advance = .passed r') :
    ∃ m rest, r.piece? = some (m, rest) ∧ { r with rest }.Takes m (.passed r') := by
  cases hp : r.piece? with
  | none => rcases advance_of_piece?_eq_none hp with ha | ⟨f, ha⟩ <;> rw [h] at ha <;> cases ha
  | some p => exact ⟨p.1, p.2, rfl, h ▸ takes_advance hp⟩

theorem takes_of_gave (h : r.advance = .gave e r') :
    ∃ m rest, r.piece? = some (m, rest) ∧ { r with rest }.Takes m (.gave e r') := by
  cases hp : r.piece? with
  | none => rcases advance_of_piece?_eq_none hp with ha | ⟨f, ha⟩ <;> rw [h] at ha <;> cases ha
  | some p => exact ⟨p.1, p.2, rfl, h ▸ takes_advance hp⟩

theorem ready_of_passed (hr : r.Ready) (h : r.advance = .passed r') : r'.Ready := by
  obtain ⟨m, rest, -, ht⟩ := takes_of_passed h
  exact ht.ready_of_passed (hr.with_rest rest)

/-- Once the event is given that a step leaves owed, the reader is ready for the next step. -/
theorem ready_of_gave (hr : r.Ready) (h : r.advance = .gave e r') :
    { r' with owed := none }.Ready := by
  obtain ⟨m, rest, -, ht⟩ := takes_of_gave h
  have hf : r'.finished = false := ht.finished_of_gave (hr.with_rest rest)
  exact ⟨rfl, hf⟩

theorem next_of_ready (hr : r.Ready) : r.next = r.seek := by
  unfold next
  rw [hr.owed, hr.finished]
  rfl

theorem next_of_owed {tag : String} (h : r.owed = some tag) :
    r.next = (some (.ok (.finish tag)), { r with owed := none }) := by
  unfold next
  rw [h]

theorem seek_eq (r : Reader) :
    r.seek =
      match r.advance with
      | .ended => (none, { r with finished := true })
      | .failed fault => (some (.error fault), { r with finished := true })
      | .passed r' => r'.seek
      | .gave event r' => (some (.ok event), r') := by
  rw [seek]
  split <;> rename_i h <;> simp only [h]

theorem toEvents_eq (r : Reader) :
    r.toEvents =
      match r.next with
      | (none, _) => ([], none)
      | (some (.error fault), _) => ([], some fault)
      | (some (.ok event), r') => (event :: r'.toEvents.1, r'.toEvents.2) := by
  rw [toEvents]
  split <;> rename_i h <;> simp only [h]

theorem toEvents_of_owed {tag : String} (h : r.owed = some tag) :
    r.toEvents = (.finish tag :: { r with owed := none }.toEvents.1,
      { r with owed := none }.toEvents.2) := by
  rw [toEvents_eq, next_of_owed h]

theorem toEvents_of_ended (hr : r.Ready) (h : r.advance = .ended) : r.toEvents = ([], none) := by
  rw [toEvents_eq, next_of_ready hr, seek_eq, h]

theorem toEvents_of_failed {fault : Fault} (hr : r.Ready) (h : r.advance = .failed fault) :
    r.toEvents = ([], some fault) := by
  rw [toEvents_eq, next_of_ready hr, seek_eq, h]

theorem toEvents_of_gave (hr : r.Ready) (h : r.advance = .gave e r') :
    r.toEvents = (e :: r'.toEvents.1, r'.toEvents.2) := by
  rw [toEvents_eq, next_of_ready hr, seek_eq, h]

theorem toEvents_of_passed (hr : r.Ready) (h : r.advance = .passed r') :
    r.toEvents = r'.toEvents := by
  rw [toEvents_eq, next_of_ready hr, seek_eq, h, toEvents_eq r',
    next_of_ready (ready_of_passed hr h)]

end UmlOntology.Reader
