/-
The events of a document as a stream. The pieces of markup that a reader takes, each with the
events that it brings, are all there is to the stream: a piece has one `<` at least and brings two
events at most, and an element without content has its start and its end in one piece. Names are
compared in bytes and decoded twice, so ends have the tags of their starts as long as the encoding
stays, and in any case there are never more ends than starts.
-/
import UmlOntology.Proofs.Xml.Step

namespace UmlOntology

/-! ## Starts and ends -/

namespace Event

/-- The event is the start of an element. -/
def isStart : Event → Bool
  | start _ => true
  | finish _ => false

/-- The event is the end of an element. -/
def isFinish : Event → Bool
  | start _ => false
  | finish _ => true

/-- From the front on, ends never outnumber starts and the `n` elements that are open before. -/
def Balanced (n : Nat) (es : List Event) : Prop :=
  ∀ fs, fs <+: es → fs.countP isFinish ≤ n + fs.countP isStart

/-- Each end has the tag of the last start that is not closed yet; `tags` are those of the elements
that are open before, innermost first. -/
def Nested (tags : List String) : List Event → Prop
  | [] => True
  | start el :: es => Nested (el.tag :: tags) es
  | finish tag :: es => ∃ outer, tags = tag :: outer ∧ Nested outer es

variable {n : Nat} {es : List Event}

theorem balanced_nil (n : Nat) : Balanced n [] := by
  intro fs hfs
  rw [List.prefix_nil.1 hfs]
  exact Nat.zero_le _

theorem balanced_start (el : Element) (h : Balanced (n + 1) es) : Balanced n (start el :: es) := by
  intro fs hfs
  cases fs with
  | nil => exact Nat.zero_le _
  | cons f fs =>
    obtain ⟨rfl, hrest⟩ := List.cons_prefix_cons.1 hfs
    have hle := h fs hrest
    simp only [List.countP_cons, isStart, isFinish, if_true, Bool.false_eq_true, if_false]
    omega

theorem balanced_finish (tag : String) (h : Balanced n es) :
    Balanced (n + 1) (finish tag :: es) := by
  intro fs hfs
  cases fs with
  | nil => exact Nat.zero_le _
  | cons f fs =>
    obtain ⟨rfl, hrest⟩ := List.cons_prefix_cons.1 hfs
    have hle := h fs hrest
    simp only [List.countP_cons, isStart, isFinish, if_true, Bool.false_eq_true, if_false]
    omega

end Event

/-! ## The pieces of a document -/

/-- A piece of markup that has been taken, and the events that it brings. -/
structure Piece where
  markup : Markup
  events : List Event := []
deriving DecidableEq, Repr

namespace Piece

/-- The piece starts an element. -/
def Starts (p : Piece) : Prop := ∃ el, .start el ∈ p.events

/-- The piece is an XML declaration. -/
def IsDeclaration (p : Piece) : Prop := ∃ content, p.markup = .declaration content

end Piece

namespace Element

theorem tag_setAll (el : Element) (attributes : List (String × String)) :
    (el.setAll attributes).tag = el.tag := by
  unfold setAll
  induction attributes generalizing el with
  | nil => rfl
  | cons a attributes ih =>
    rw [List.foldl_cons, ih]
    rfl

/-- The tag of an element is the text of the name that its start tag begins with. -/
theorem decode_rawTag {decoders : Decoders} {encoding : Encoding} {content : Bytes}
    {el : Element} (h : ofContent decoders encoding content = .ok el) :
    encoding.decode? decoders (rawTag content) = some el.tag := by
  unfold ofContent text at h
  cases htag : encoding.decode? decoders (rawTag content) with
  | none =>
    rw [htag] at h
    cases h
  | some tag =>
    rw [htag] at h
    simp only [bind, Except.bind] at h
    split at h
    · cases h
    · split at h
      · cases h
      · cases h
        rw [tag_setAll]

end Element

namespace Reader

/-- The pieces of markup that a reader takes up to the end or the first fault. What it owes after a
piece belongs to that piece. -/
def pieces (r : Reader) : List Piece :=
  match r.piece?, h : r.advance with
  | some (m, _), .passed r' =>
    have := length_rest_of_passed h
    { markup := m } :: r'.pieces
  | some (m, _), .gave e r' =>
    have := length_rest_of_gave h
    { markup := m, events := e :: (r'.owed.map Event.finish).toList } ::
      { r' with owed := none }.pieces
  | _, _ => []
termination_by r.rest.length

variable {r r' : Reader} {m : Markup} {rest : Bytes} {e : Event}

theorem pieces_of_ended (h : r.advance = .ended) : r.pieces = [] := by
  rw [pieces]
  split <;> simp_all

theorem pieces_of_failed {fault : Fault} (h : r.advance = .failed fault) : r.pieces = [] := by
  rw [pieces]
  split <;> simp_all

theorem pieces_of_passed (hp : r.piece? = some (m, rest)) (h : r.advance = .passed r') :
    r.pieces = { markup := m } :: r'.pieces := by
  rw [pieces]
  split <;> simp_all

theorem pieces_of_gave (hp : r.piece? = some (m, rest)) (h : r.advance = .gave e r') :
    r.pieces = { markup := m, events := e :: (r'.owed.map Event.finish).toList } ::
      { r' with owed := none }.pieces := by
  rw [pieces]
  split
  · simp_all
  · simp_all
  · rename_i hno
    exact (hno m rest e r' hp h).elim

/-- Induction over the pieces that a reader takes. -/
theorem induction_pieces {motive : ∀ r : Reader, r.Ready → Prop}
    (ended : ∀ r hr, r.advance = .ended → motive r hr)
    (failed : ∀ r hr fault, r.advance = .failed fault → motive r hr)
    (passed : ∀ r hr r' m rest, r.piece? = some (m, rest) → (h : r.advance = .passed r') →
      { r with rest }.Takes m (.passed r') → motive r' (ready_of_passed hr h) → motive r hr)
    (gave : ∀ r hr e r' m rest, r.piece? = some (m, rest) → (h : r.advance = .gave e r') →
      { r with rest }.Takes m (.gave e r') →
      motive { r' with owed := none } (ready_of_gave hr h) → motive r hr)
    (r : Reader) (hr : r.Ready) : motive r hr := by
  cases h : r.advance with
  | ended => exact ended r hr h
  | failed fault => exact failed r hr fault h
  | passed r' =>
    obtain ⟨m, rest, hp, ht⟩ := takes_of_passed h
    have := length_rest_of_passed h
    exact passed r hr r' m rest hp h ht (induction_pieces ended failed passed gave r' _)
  | gave e r' =>
    obtain ⟨m, rest, hp, ht⟩ := takes_of_gave h
    have := length_rest_of_gave h
    exact gave r hr e r' m rest hp h ht (induction_pieces ended failed passed gave _ _)
termination_by r.rest.length

/-! ## The stream and its pieces -/

theorem toEvents_of_gave_owed (hr : r.Ready) (h : r.advance = .gave e r') :
    r.toEvents.1 = e :: ((r'.owed.map Event.finish).toList ++ { r' with owed := none }.toEvents.1) := by
  rw [toEvents_of_gave hr h]
  cases ho : r'.owed with
  | none =>
    have hself : { r' with owed := none } = r' := by rw [← ho]
    rw [hself]
    rfl
  | some tag =>
    rw [toEvents_of_owed ho]
    rfl

/-- The stream is what the pieces bring, one after the other. -/
theorem toEvents_eq_pieces (r : Reader) (hr : r.Ready) :
    r.toEvents.1 = r.pieces.flatMap (·.events) := by
  induction r, hr using induction_pieces with
  | ended r hr h => rw [toEvents_of_ended hr h, pieces_of_ended h]; rfl
  | failed r hr fault h => rw [toEvents_of_failed hr h, pieces_of_failed h]; rfl
  | passed r hr r' m rest hp h ht ih =>
    rw [toEvents_of_passed hr h, pieces_of_passed hp h, List.flatMap_cons, ih]
    rfl
  | gave r hr e r' m rest hp h ht ih =>
    rw [toEvents_of_gave_owed hr h, pieces_of_gave hp h, List.flatMap_cons, ih]
    rfl

/-- A step that gives an event takes one `<` at least, and owes one more event at most. -/
theorem length_toEvents_le (r : Reader) (hr : r.Ready) :
    r.toEvents.1.length ≤ 2 * r.rest.count 0x3c := by
  induction r, hr using induction_pieces with
  | ended r hr h => rw [toEvents_of_ended hr h]; exact Nat.zero_le _
  | failed r hr fault h => rw [toEvents_of_failed hr h]; exact Nat.zero_le _
  | passed r hr r' m rest hp h ht ih =>
    have hrest : r'.rest = rest := ht.rest_of_passed
    have hcount : r'.rest.count 0x3c < r.rest.count 0x3c := hrest ▸ count_of_piece? hp
    rw [toEvents_of_passed hr h]
    omega
  | gave r hr e r' m rest hp h ht ih =>
    have hrest : r'.rest = rest := ht.rest_of_gave
    have hcount : r'.rest.count 0x3c < r.rest.count 0x3c := hrest ▸ count_of_piece? hp
    have htail : { r' with owed := none }.toEvents.1.length ≤ 2 * r'.rest.count 0x3c := ih
    have howed : (r'.owed.map Event.finish).toList.length ≤ 1 := by
      cases r'.owed <;> simp
    rw [toEvents_of_gave_owed hr h, List.length_cons, List.length_append]
    omega

/-- An element without content starts and ends in its one piece of markup. -/
theorem events_of_empty (r : Reader) (hr : r.Ready) : ∀ p ∈ r.pieces, ∀ content,
    p.markup = .empty content → ∃ el, p.events = [.start el, .finish el.tag] := by
  induction r, hr using induction_pieces with
  | ended r hr h => rw [pieces_of_ended h]; nofun
  | failed r hr fault h => rw [pieces_of_failed h]; nofun
  | passed r hr r' m rest hp h ht ih =>
    rw [pieces_of_passed hp h]
    refine List.forall_mem_cons.2 ⟨?_, ih⟩
    rintro content rfl
    cases ht
  | gave r hr e r' m rest hp h ht ih =>
    rw [pieces_of_gave hp h]
    refine List.forall_mem_cons.2 ⟨?_, ih⟩
    rintro content rfl
    cases ht with
    | empty hel => exact ⟨_, rfl⟩

/-- Ends close elements that are open. -/
theorem balanced_toEvents (r : Reader) (hr : r.Ready) :
    Event.Balanced r.names.length r.toEvents.1 := by
  induction r, hr using induction_pieces with
  | ended r hr h => rw [toEvents_of_ended hr h]; exact Event.balanced_nil _
  | failed r hr fault h => rw [toEvents_of_failed hr h]; exact Event.balanced_nil _
  | passed r hr r' m rest hp h ht ih =>
    have hnames : r'.names = r.names := ht.names_of_passed
    rw [toEvents_of_passed hr h, ← hnames]
    exact ih
  | gave r hr e r' m rest hp h ht ih =>
    rw [toEvents_of_gave_owed hr h]
    cases ht with
    | start hel =>
      rw [hr.owed]
      exact Event.balanced_start _ ih
    | empty hel => exact Event.balanced_start _ (Event.balanced_finish _ ih)
    | finish hnames hname htag =>
      rw [show r.names = _ from hnames, hr.owed]
      exact Event.balanced_finish _ ih

/-- The names of the open elements are those of these tags. -/
def NamesOf (r : Reader) (tags : List String) : Prop :=
  r.names.map r.decode? = tags.map some

/-- While elements are open the encoding stays, so an end has the tag of the start that it closes. -/
theorem nested_toEvents (r : Reader) (hr : r.Ready) : ∀ tags, r.NamesOf tags →
    (r.names ≠ [] → ∀ p ∈ r.pieces, ¬ p.IsDeclaration) →
    (r.pieces.Pairwise fun p q => p.Starts → ¬ q.IsDeclaration) →
    Event.Nested tags r.toEvents.1 := by
  induction r, hr using induction_pieces with
  | ended r hr h => intro tags _ _ _; rw [toEvents_of_ended hr h]; trivial
  | failed r hr fault h => intro tags _ _ _; rw [toEvents_of_failed hr h]; trivial
  | passed r hr r' m rest hp h ht ih =>
    intro tags hnames hdecl hlate
    rw [pieces_of_passed hp h] at hdecl hlate
    rw [toEvents_of_passed hr h]
    have hopen : r'.names = r.names := ht.names_of_passed
    have hnames' : r'.NamesOf tags := by
      cases ht with
      | silent => exact hnames
      | declaration content =>
        -- a declaration comes where no element is open, so no name is decoded anew
        have hnil : r.names = [] := by
          refine Classical.byContradiction fun hne => ?_
          exact (List.forall_mem_cons.1 (hdecl hne)).1 ⟨content, rfl⟩
        unfold NamesOf at hnames ⊢
        rw [hopen, hnil]
        rw [hnil] at hnames
        exact hnames
    refine ih tags hnames' (fun hne => ?_) (List.pairwise_cons.1 hlate).2
    exact (List.forall_mem_cons.1 (hdecl (hopen ▸ hne))).2
  | gave r hr e r' m rest hp h ht ih =>
    intro tags hnames hdecl hlate
    rw [pieces_of_gave hp h] at hdecl hlate
    obtain ⟨hfirst, htail⟩ := List.pairwise_cons.1 hlate
    rw [toEvents_of_gave_owed hr h]
    unfold NamesOf at hnames ih
    cases ht with
    | start hel =>
      rw [hr.owed]
      refine ih _ ?_ (fun _ q hq => hfirst q hq ⟨_, List.mem_cons_self⟩) htail
      have htag : r.decode? _ = some _ := Element.decode_rawTag hel
      show r.decode? _ :: r.names.map r.decode? = some _ :: tags.map some
      rw [htag, hnames]
    | empty hel =>
      refine ⟨tags, rfl, ih tags hnames (fun _ q hq => ?_) htail⟩
      exact hfirst q hq ⟨_, List.mem_cons_self⟩
    | finish hopen hname htag =>
      rename_i content name names tag
      have hopen' : r.names = name :: names := hopen
      have hname' : r.decode? name = some tag := htag
      rw [hopen', List.map_cons, hname'] at hnames
      rw [hr.owed]
      cases tags with
      | nil => cases hnames
      | cons top outer =>
        rw [List.map_cons] at hnames
        obtain ⟨htop, houter⟩ := List.cons.inj hnames
        rw [← Option.some.inj htop]
        refine ⟨outer, rfl, ih outer houter (fun _ q hq => ?_) htail⟩
        exact (List.forall_mem_cons.1 (hdecl (by rw [hopen']; nofun))).2 q hq

/-! ## Calls -/

/-- What the call number `n` gives, counted from the next one. -/
def call (r : Reader) : Nat → Option (Except Fault Event)
  | 0 => r.next.1
  | n + 1 => r.next.2.call n

/-- The events and then the fault, if there is one. -/
def items (r : Reader) : List (Except Fault Event) :=
  r.toEvents.1.map .ok ++ r.toEvents.2.toList.map .error

/-- The reader owes no event and has come to the end or a fault. -/
structure Spent (r : Reader) : Prop where
  owed : r.owed = none
  finished : r.finished = true

theorem Spent.next (h : r.Spent) : r.next = (none, r) := by
  unfold Reader.next
  rw [h.owed, h.finished]
  rfl

theorem Spent.call (h : r.Spent) (n : Nat) : r.call n = none := by
  induction n with
  | zero => rw [Reader.call, h.next]
  | succ n ih => rw [Reader.call, h.next, ih]

theorem spent_of_seek (r : Reader) (hr : r.Ready) (h : ∀ e, r.seek.1 ≠ some (.ok e)) :
    r.seek.2.Spent := by
  induction r, hr using induction_pieces with
  | ended r hr ha => rw [seek_eq, ha]; exact ⟨hr.owed, rfl⟩
  | failed r hr fault ha => rw [seek_eq, ha]; exact ⟨hr.owed, rfl⟩
  | passed r hr r' m rest hp ha ht ih =>
    have hseek : r.seek = r'.seek := by rw [seek_eq, ha]
    rw [hseek] at h ⊢
    exact ih h
  | gave r hr e r' m rest hp ha ht ih => exact (h e (by rw [seek_eq, ha])).elim

/-- A call that gives no event is the last that gives anything. -/
theorem spent_of_next (h : ∀ e, r.next.1 ≠ some (.ok e)) : r.next.2.Spent := by
  cases ho : r.owed with
  | some tag => exact (h (.finish tag) (by rw [next_of_owed ho])).elim
  | none =>
    cases hf : r.finished with
    | true =>
      have hs : r.Spent := ⟨ho, hf⟩
      rw [hs.next]
      exact hs
    | false =>
      have hr : r.Ready := ⟨ho, hf⟩
      rw [next_of_ready hr] at h ⊢
      exact spent_of_seek r hr h

theorem call_succ_of_next (h : ∀ e, r.next.1 ≠ some (.ok e)) (n : Nat) : r.call (n + 1) = none :=
  (spent_of_next h).call n

/-- The calls give the events one by one, then the fault, and then nothing. -/
theorem call_eq (r : Reader) (n : Nat) : r.call n = r.items[n]? := by
  unfold items
  rw [toEvents_eq]
  cases h : r.next with
  | mk item r' =>
    match item with
    | none =>
      cases n with
      | zero => rw [call, h]; rfl
      | succ n => exact call_succ_of_next (by rw [h]; nofun) n
    | some (.error fault) =>
      cases n with
      | zero => rw [call, h]; rfl
      | succ n => exact call_succ_of_next (by rw [h]; nofun) n
    | some (.ok e) =>
      have := measure_of_next h
      cases n with
      | zero => rw [call, h]; rfl
      | succ n => rw [call, h]; exact call_eq r' n
termination_by r.measure

end Reader

/-- The events of any document, read with any decoders. Call by call they come before the fault, if
there is one, and after that nothing comes. There are two for a `<` at most. From the front on, ends
never outnumber starts. They are what the pieces of markup bring, and the piece of an element without
content brings its start and its end, whatever follows it. With no declaration behind the first start,
each end has the tag of the last start that is not closed yet. -/
theorem stream_of_document (d : Bytes) (decoders : Decoders) :
    (∀ n, (Reader.ofDocument d decoders).call n =
      ((eventsOf d decoders).1.map .ok ++ (eventsOf d decoders).2.toList.map .error)[n]?) ∧
    (eventsOf d decoders).1.length ≤ 2 * d.count 0x3c ∧
    (∀ es, es <+: (eventsOf d decoders).1 →
      es.countP Event.isFinish ≤ es.countP Event.isStart) ∧
    ((eventsOf d decoders).1 = (Reader.ofDocument d decoders).pieces.flatMap (·.events) ∧
      ∀ p ∈ (Reader.ofDocument d decoders).pieces, ∀ content, p.markup = .empty content →
        ∃ el, p.events = [.start el, .finish el.tag]) ∧
    (((Reader.ofDocument d decoders).pieces.Pairwise fun p q => p.Starts → ¬ q.IsDeclaration) →
      Event.Nested [] (eventsOf d decoders).1) := by
  have hr := Reader.ready_ofDocument d decoders
  refine ⟨Reader.call_eq _, ?_, fun es hes => ?_, ⟨Reader.toEvents_eq_pieces _ hr,
    Reader.events_of_empty _ hr⟩, Reader.nested_toEvents _ hr [] rfl fun h => (h rfl).elim⟩
  · have hcount : (Reader.ofDocument d decoders).rest.count 0x3c ≤ d.count 0x3c :=
      (List.drop_sublist _ d).count_le 0x3c
    have := Reader.length_toEvents_le _ hr
    unfold eventsOf
    omega
  · have hle := Reader.balanced_toEvents _ hr es hes
    rwa [show (Reader.ofDocument d decoders).names.length = 0 from rfl, Nat.zero_add] at hle

end UmlOntology
