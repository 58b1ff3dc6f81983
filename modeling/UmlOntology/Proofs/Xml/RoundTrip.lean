/-
The reader undoes writing. Each tag of a written form brings its event and leaves the reader before
what follows, text brings nothing, so a written forest brings its events, element by element.
-/
import UmlOntology.Proofs.Xml.Stream
import UmlOntology.Proofs.Xml.Tag

namespace UmlOntology

namespace Reader

variable {r r' r'' : Reader} {es fs : List Event} {c t : Bytes} {el : Element} {s space : String}

/-! ## Readers before a stretch of a document -/

/-- The reader with these bytes before what is left to read. -/
def before (r : Reader) (c : Bytes) : Reader := { r with rest := c ++ r.rest }

theorem before_append (r : Reader) (c d : Bytes) : r.before (c ++ d) = (r.before d).before c :=
  congrArg (fun rest => { r with rest }) (List.append_assoc c d r.rest)

theorem Ready.before (hr : r.Ready) (c : Bytes) : (r.before c).Ready := ⟨hr.owed, hr.finished⟩

/-- The reader in an element with this tag. -/
def inside (r : Reader) (tag : String) : Reader :=
  { r with names := Bytes.ofString tag :: r.names }

theorem names_inside (r : Reader) (tag : String) :
    (r.inside tag).names = Bytes.ofString tag :: r.names := rfl

theorem decode?_inside (r : Reader) (tag : String) : (r.inside tag).decode? = r.decode? := rfl

theorem Ready.inside (hr : r.Ready) (tag : String) : (r.inside tag).Ready :=
  ⟨hr.owed, hr.finished⟩

/-- The reader gives these events and then what the other one gives. -/
def Gives (r : Reader) (es : List Event) (r' : Reader) : Prop :=
  r.toEvents = (es ++ r'.toEvents.1, r'.toEvents.2)

theorem Gives.trans (h : r.Gives es r') (h' : r'.Gives fs r'') : r.Gives (es ++ fs) r'' := by
  unfold Gives at *
  rw [h, h', List.append_assoc]

/-! ## What a stretch brings -/

/-- Text is passed over. -/
theorem gives_text (hr : r.Ready) (ht : 0x3c ∉ t) : (r.before t).Gives [] r := by
  -- a step looks only behind the next `<`
  have hadvance : (r.before t).advance = r.advance := by
    unfold advance before
    rw [Bytes.cut?_append ht]
    cases Bytes.cut? [0x3c] r.rest <;> rfl
  have hready := hr.before t
  unfold Gives
  cases h : r.advance with
  | ended => rw [toEvents_of_ended hready (hadvance.trans h), toEvents_of_ended hr h]; rfl
  | failed f => rw [toEvents_of_failed hready (hadvance.trans h), toEvents_of_failed hr h]; rfl
  | passed r' => rw [toEvents_of_passed hready (hadvance.trans h), toEvents_of_passed hr h]; rfl
  | gave e r' => rw [toEvents_of_gave hready (hadvance.trans h), toEvents_of_gave hr h]; rfl

/-- A piece of markup is taken off what is left to read. -/
theorem advance_before {m : Markup} (h : Markup.read (c ++ r.rest) = .ok (m, r.rest)) :
    (r.before (0x3c :: c)).advance = r.take (c ++ r.rest) m :=
  advance_of_read (r := r.before (0x3c :: c)) (Bytes.cut?_cons 0x3c (c ++ r.rest)) h

/-- In UTF-8 a written start tag is read as its element, whatever the decoders. -/
theorem element_of_written (hutf8 : r.encoding = .utf8) (hel : el.WellNamed)
    (h : AttributesWritten el.attributes s) : r.element (Bytes.ofString (el.tag ++ s)) = .ok el := by
  rw [element, hutf8, Element.ofContent_of_written hel h]

theorem gives_start (hr : r.Ready) (hutf8 : r.encoding = .utf8) (hel : el.WellNamed)
    (h : AttributesWritten el.attributes s) :
    (r.before (0x3c :: (Bytes.ofString (el.tag ++ s) ++ [0x3e]))).Gives [.start el]
      (r.inside el.tag) := by
  have hread : Markup.read (Bytes.ofString (el.tag ++ s) ++ [0x3e] ++ r.rest) =
      .ok (.start (Bytes.ofString (el.tag ++ s)), r.rest) := by
    rw [List.append_assoc]
    exact Markup.read_start hel h r.rest
  have hcontent := element_of_written hutf8 hel h
  have hadvance := advance_before hread
  simp only [take, openTag, hcontent, Element.rawTag_of_written hel.tag h] at hadvance
  exact toEvents_of_gave (hr.before _) hadvance

theorem gives_empty (hr : r.Ready) (hutf8 : r.encoding = .utf8) (hel : el.WellNamed)
    (h : AttributesWritten el.attributes s) :
    (r.before (0x3c :: (Bytes.ofString (el.tag ++ s) ++ [0x2f, 0x3e]))).Gives
      [.start el, .finish el.tag] r := by
  have hread : Markup.read (Bytes.ofString (el.tag ++ s) ++ [0x2f, 0x3e] ++ r.rest) =
      .ok (.empty (Bytes.ofString (el.tag ++ s)), r.rest) := by
    rw [List.append_assoc]
    exact Markup.read_empty hel h r.rest
  have hcontent := element_of_written hutf8 hel h
  have hadvance := advance_before hread
  simp only [take, emptyTag, hcontent] at hadvance
  -- once the end that is owed is given, the reader is where it was
  have hself : { r with owed := none } = r := by rw [← hr.owed]
  unfold Gives
  rw [toEvents_of_gave (hr.before _) hadvance, toEvents_of_owed rfl]
  simp only [hself]
  rfl

theorem gives_finish (hr : r.Ready) (hutf8 : r.encoding = .utf8) (hel : el.WellNamed)
    (hspace : IsSpace space) :
    ((r.inside el.tag).before (0x3c :: 0x2f :: (Bytes.ofString (el.tag ++ space) ++ [0x3e]))).Gives
      [.finish el.tag] r := by
  have hread : Markup.read (0x2f :: (Bytes.ofString (el.tag ++ space) ++ [0x3e]) ++ r.rest) =
      .ok (.finish (Bytes.ofString (el.tag ++ space)), r.rest) := by
    rw [List.cons_append, List.append_assoc]
    exact Markup.read_finish hel hspace r.rest
  have htag : r.decode? (Bytes.ofString el.tag) = some el.tag := by
    rw [decode?, hutf8, Encoding.decode?_ofString]
  have hadvance := advance_before (r := r.inside el.tag) hread
  simp only [take, closeTag, names_inside, decode?_inside,
    Markup.trimEnd_of_written hel hspace, if_true, htag] at hadvance
  exact toEvents_of_gave ((hr.inside el.tag).before _) hadvance

end Reader

/-! ## Bytes of written trees -/

theorem Tree.ofString_empty (tag s : String) : Bytes.ofString ("<" ++ tag ++ s ++ "/>") =
    0x3c :: (Bytes.ofString (tag ++ s) ++ [0x2f, 0x3e]) := by
  have hopen : Bytes.ofString "<" = [0x3c] := by decide
  have hclose : Bytes.ofString "/>" = [0x2f, 0x3e] := by decide
  simp [hopen, hclose]

theorem Tree.ofString_pair (tag s t space : String) :
    Bytes.ofString ("<" ++ tag ++ s ++ ">" ++ t ++ "</" ++ tag ++ space ++ ">") =
      0x3c :: (Bytes.ofString (tag ++ s) ++ [0x3e]) ++ (Bytes.ofString t ++
        0x3c :: 0x2f :: (Bytes.ofString (tag ++ space) ++ [0x3e])) := by
  have hopen : Bytes.ofString "<" = [0x3c] := by decide
  have hend : Bytes.ofString "</" = [0x3c, 0x2f] := by decide
  have hclose : Bytes.ofString ">" = [0x3e] := by decide
  simp [hopen, hend, hclose]

theorem not_mem_ofString_text {text : String} (h : '<' ∉ text.toList) :
    0x3c ∉ Bytes.ofString text :=
  fun hb => h (Bytes.mem_toList_of_mem_ofString (by decide) hb)

/-! ## Trees and forests -/

open Reader in
mutual

/-- A written tree brings its events. -/
theorem Tree.gives_written : ∀ (t : Tree) {s : String}, t.Written s →
    (∀ el ∈ Event.elements t.events, el.WellNamed) → ∀ {r : Reader}, r.Ready →
    r.encoding = .utf8 → (r.before (Bytes.ofString s)).Gives t.events r
  | .node el inside, _, h, hnames, r, hr, hutf8 => by
    rw [Tree.events] at hnames ⊢
    rw [Event.elements_start, Event.elements_append] at hnames
    obtain ⟨hel, hinside⟩ := List.forall_mem_cons.1 hnames
    cases h with
    | empty has =>
      rw [Tree.ofString_empty]
      exact gives_empty hr hutf8 hel has
    | @pair _ _ s t space has ht hspace =>
      rw [Tree.ofString_pair, before_append, before_append]
      -- what is inside is read by the reader in the element, which the end tag leaves
      have hfinish := gives_finish hr hutf8 hel hspace
      have hforest := Forest.gives_written inside ht
        (fun e he => hinside e (List.mem_append_left _ he)) ((hr.inside el.tag).before
          (0x3c :: 0x2f :: (Bytes.ofString (el.tag ++ space) ++ [0x3e]))) hutf8
      exact (gives_start ((hr.before _).before _) hutf8 hel has).trans (hforest.trans hfinish)

/-- A written forest brings its events. -/
theorem Forest.gives_written : ∀ (f : Forest) {s : String}, Forest.Written f s →
    (∀ el ∈ Event.elements f.events, el.WellNamed) → ∀ {r : Reader}, r.Ready →
    r.encoding = .utf8 → (r.before (Bytes.ofString s)).Gives f.events r
  | [], _, h, _, r, hr, _ => by
    cases h with
    | nil htext => exact gives_text hr (not_mem_ofString_text htext)
  | t :: ts, _, h, hnames, r, hr, hutf8 => by
    rw [Forest.events] at hnames ⊢
    rw [Event.elements_append] at hnames
    cases h with
    | @cons _ _ text s u htext ht hts =>
      rw [Bytes.ofString_append, Bytes.ofString_append, before_append, before_append]
      have hforest := Forest.gives_written ts hts
        (fun e he => hnames e (List.mem_append_right _ he)) hr hutf8
      have htree := Tree.gives_written t ht (fun e he => hnames e (List.mem_append_left _ he))
        (hr.before (Bytes.ofString u)) hutf8
      exact (gives_text ((hr.before _).before _) (not_mem_ofString_text htext)).trans
        (htree.trans hforest)

end

/-! ## Whole documents -/

/-- The second byte of a tag is of its name, white space, or the sign that ends it. -/
theorem Element.WellNamed.second_ne {el : Element} {s : String} (hel : el.WellNamed)
    (has : AttributesWritten el.attributes s) {b : UInt8} (hb : b ≠ 0x3f) (k : Bytes) :
    (Bytes.ofString (el.tag ++ s) ++ b :: k)[1]? ≠ some 0x3f := by
  rw [Bytes.ofString_append, List.append_assoc]
  cases htag : Bytes.ofString el.tag with
  | nil => exact (hel.tag.ofString_ne_nil htag).elim
  | cons a as =>
    rw [List.cons_append, List.getElem?_cons_succ]
    intro hsecond
    cases as with
    | cons c cs =>
      cases hsecond
      exact hel.tag.bytes 0x3f (by rw [htag]; simp) (by decide)
    | nil =>
      cases hs : Bytes.ofString s with
      | nil =>
        rw [hs] at hsecond
        exact hb (Option.some.inj hsecond)
      | cons c cs =>
        have hblank := has.isBlank_head c (by rw [hs]; rfl)
        rw [hs] at hsecond
        cases hsecond
        revert hblank
        decide

/-- A written tree begins with a `<` that no declaration in two bytes a character begins with. -/
theorem Tree.ofString_written : ∀ (t : Tree) {s : String}, t.Written s →
    (∀ el ∈ Event.elements t.events, el.WellNamed) →
    ∃ k, Bytes.ofString s = 0x3c :: k ∧ ∀ rest, (k ++ rest)[1]? ≠ some 0x3f
  | .node el inside, _, h, hnames => by
    have hel : el.WellNamed := hnames el (by rw [Tree.events]; exact List.mem_cons_self)
    cases h with
    | empty has =>
      refine ⟨_, Tree.ofString_empty _ _, fun rest => ?_⟩
      rw [List.append_assoc]
      exact hel.second_ne has (by decide) _
    | pair has ht hspace =>
      refine ⟨_, (Tree.ofString_pair _ _ _ _).trans List.cons_append, fun rest => ?_⟩
      rw [List.append_assoc, List.append_assoc]
      exact hel.second_ne has (by decide) _

theorem Forest.second_ne {f : Forest} {s : String} {x k : Bytes} (h : Forest.Written f s)
    (hnames : ∀ el ∈ Event.elements f.events, el.WellNamed)
    (hs : Bytes.ofString s = x ++ 0x3c :: k) (hx : 0x3c ∉ x) : k[1]? ≠ some 0x3f := by
  cases h with
  | nil htext => exact (not_mem_ofString_text htext (by rw [hs]; simp)).elim
  | @cons t ts text s u htext ht hts =>
    rw [Forest.events, Event.elements_append] at hnames
    obtain ⟨k', hk, hsecond⟩ := Tree.ofString_written t ht fun e he =>
      hnames e (List.mem_append_left _ he)
    -- both are the place of the first `<`
    have hcut := congrArg (Bytes.cut? [0x3c]) hs
    rw [Bytes.ofString_append, Bytes.ofString_append, hk, List.append_assoc, List.cons_append,
      Bytes.cut?_append (not_mem_ofString_text htext), Bytes.cut?_append hx, Bytes.cut?_cons,
      Bytes.cut?_cons] at hcut
    obtain ⟨-, rfl⟩ := Prod.mk.inj (Option.some.inj hcut)
    exact hsecond _

/-- A written forest is taken for UTF-8, and its byte order mark, if it has one, is in the text
before the first tag. -/
theorem Forest.detect_written {f : Forest} {s : String} (h : Forest.Written f s)
    (hnames : ∀ el ∈ Event.elements f.events, el.WellNamed) :
    ∃ mark, Encoding.detect (Bytes.ofString s) = (.utf8, mark) ∧
      0x3c ∉ (Bytes.ofString s).take mark := by
  have hhigh : ∀ b ∈ Bytes.ofString s, b.toNat ≤ 0xf7 := fun b => Bytes.le_of_mem_ofString
  have hsecond := @Forest.second_ne f s
  generalize Bytes.ofString s = d at *
  unfold Encoding.detect
  -- the two marks of UTF-16 have bytes that no text has, its declarations a `<?` in two bytes each
  split
  · exact ⟨3, rfl, by simp⟩
  · exact absurd (hhigh 0xfe List.mem_cons_self) (by decide)
  · exact absurd (hhigh 0xff List.mem_cons_self) (by decide)
  · rename_i rest
    exact (hsecond (x := [0x00]) (k := 0x00 :: 0x3f :: rest) h hnames rfl (by decide) rfl).elim
  · rename_i rest
    exact (hsecond (x := []) (k := 0x00 :: 0x3f :: 0x00 :: rest) h hnames rfl nofun rfl).elim
  · exact ⟨0, rfl, nofun⟩

/-- Every forest whose names are names has a written form, and from each of its written forms the
reader gives the events of the forest, in document order and with all attributes, and no fault,
whatever decoders it has. -/
theorem events_of_written (f : Forest) (decoders : Decoders)
    (hnames : ∀ el ∈ Event.elements f.events, el.WellNamed) :
    (∃ s, f.Written s) ∧
      ∀ s, f.Written s → eventsOf (Bytes.ofString s) decoders = (f.events, none) := by
  refine ⟨f.exists_written, fun s hs => ?_⟩
  obtain ⟨mark, hdetect, hmark⟩ := f.detect_written hs hnames
  -- the reader at the end of the document
  let last : Reader := { rest := [], size := ((Bytes.ofString s).drop mark).length, decoders }
  have hlast : last.Ready := ⟨rfl, rfl⟩
  have hend : last.toEvents = ([], none) := Reader.toEvents_of_ended hlast rfl
  have hfrom : Reader.ofDocument (Bytes.ofString s) decoders =
      last.before ((Bytes.ofString s).drop mark) := by
    unfold Reader.ofDocument
    rw [hdetect]
    simp [Reader.before, last]
  have hforest := f.gives_written hs hnames hlast rfl
  have htext := Reader.gives_text (hlast.before ((Bytes.ofString s).drop mark)) hmark
  rw [← Reader.before_append, List.take_append_drop] at htext
  unfold Reader.Gives at hforest htext
  calc eventsOf (Bytes.ofString s) decoders
      = (last.before ((Bytes.ofString s).drop mark)).toEvents := by rw [eventsOf, hfrom]
    _ = (last.before (Bytes.ofString s)).toEvents := by rw [htext]; rfl
    _ = (f.events, none) := by rw [hforest, hend, List.append_nil]

/-- An element with text and another element inside, the value of which has a sign of markup. -/
def comparison : Forest :=
  [.node { tag := "XMI" } [.node { tag := "UML:Class", attributes := [("name", "a<b")] } []]]

theorem comparison_written :
    comparison.Written "<XMI>π <UML:Class name=\"a&lt;b\"/>\n</XMI >" := by
  have hvalue : Reference.Escaped "a<b".toList "a&lt;b".toList := Reference.escaped_escape _
  have hname : AttributesWritten [("name", "a<b")] (" " ++ "name" ++ "=\"" ++ "a&lt;b" ++ "\"" ++ "") :=
    .cons (by decide) (by decide) hvalue (.nil isSpace_empty)
  have hinside := Forest.Written.cons (by decide : '<' ∉ "π ".toList)
    (@Tree.Written.empty { tag := "UML:Class", attributes := [("name", "a<b")] } _ hname)
    (.nil (by decide : '<' ∉ "\n".toList))
  have hwritten := Forest.Written.cons (by decide : '<' ∉ "".toList)
    (@Tree.Written.pair { tag := "XMI" } _ _ _ " " (.nil isSpace_empty) hinside (by decide))
    (.nil (by decide : '<' ∉ "".toList))
  refine Eq.mp (congrArg (Forest.Written comparison) ?_) hwritten
  decide

/-- What is read from one of its written forms. -/
theorem events_of_comparison :
    eventsOf (Bytes.ofString "<XMI>π <UML:Class name=\"a&lt;b\"/>\n</XMI >") =
      ([.start { tag := "XMI" }, .start { tag := "UML:Class", attributes := [("name", "a<b")] },
        .finish "UML:Class", .finish "XMI"], none) := by
  have hnames : ∀ el ∈ Event.elements comparison.events, el.WellNamed := by
    refine List.forall_mem_cons.2 ⟨⟨by decide, nofun, by decide⟩,
      List.forall_mem_cons.2 ⟨⟨by decide, ?_, by decide⟩, nofun⟩⟩
    exact List.forall_mem_cons.2 ⟨by decide, nofun⟩
  exact (events_of_written comparison .ascii hnames).2 _ comparison_written

end UmlOntology
