/-
Reading written tags. A `>` in a value is in quotes, so a tag ends where it is closed; its
attributes come back one after the other, and a start tag gives the element that it was written for.
Of the bytes below, 0x22 and 0x27 are the quotes, 0x2f is the slash, 0x3d the equals sign, and 0x3c
and 0x3e are the signs that enclose a tag.
-/
import UmlOntology.Proofs.Xml.Markup
import UmlOntology.Proofs.Xml.Written
import UmlOntology.Xml.Reader

namespace UmlOntology

/-! ## Where a tag ends -/

namespace Markup

/-- A tag does not end within these bytes, and no quote is open behind them. -/
def Inside (c : Bytes) : Prop :=
  ∀ k, cutTag? none (c ++ k) = (cutTag? none k).map fun p => (c ++ p.1, p.2)

theorem inside_nil : Inside [] := by
  intro k
  rw [List.nil_append]
  cases cutTag? none k <;> rfl

theorem Inside.append {c d : Bytes} (hc : Inside c) (hd : Inside d) : Inside (c ++ d) := by
  intro k
  rw [List.append_assoc, hc, hd, Option.map_map]
  simp only [Function.comp_def, List.append_assoc]

theorem Inside.cons {b : UInt8} {c : Bytes} (hb : b ∉ [0x3e, 0x22, 0x27]) (hc : Inside c) :
    Inside (b :: c) := by
  intro k
  simp only [List.mem_cons, List.not_mem_nil, or_false, not_or] at hb
  obtain ⟨hclose, hdouble, hsingle⟩ := hb
  rw [List.cons_append, cutTag?]
  simp only [if_neg hclose, hdouble, hsingle, or_self, if_false]
  rw [hc, Option.map_map]
  rfl

/-- Bytes that are neither quotes nor `>` are inside a tag. -/
theorem inside_of_forall {c : Bytes} (h : ∀ b ∈ c, b ∉ [0x3e, 0x22, 0x27]) : Inside c := by
  induction c with
  | nil => exact inside_nil
  | cons b c ih =>
    obtain ⟨hb, hc⟩ := List.forall_mem_cons.1 h
    exact (ih hc).cons hb

/-- An open quote is closed by the next one. -/
theorem cutTag?_quoted {v : Bytes} (hv : 0x22 ∉ v) (k : Bytes) :
    cutTag? (some 0x22) (v ++ 0x22 :: k) =
      (cutTag? none k).map fun p => (v ++ 0x22 :: p.1, p.2) := by
  induction v with
  | nil => rfl
  | cons b v ih =>
    rw [List.mem_cons, not_or] at hv
    rw [List.cons_append, cutTag?]
    simp only [if_neg (Ne.symm hv.1)]
    rw [ih hv.2, Option.map_map]
    rfl

/-- A value in quotes is inside a tag, whatever it is. -/
theorem inside_quoted {v : Bytes} (hv : 0x22 ∉ v) : Inside (0x22 :: v ++ [0x22]) := by
  intro k
  rw [List.append_assoc, List.cons_append, cutTag?]
  simp only [List.singleton_append]
  rw [if_neg (by decide), if_pos (by decide), cutTag?_quoted hv, Option.map_map]
  simp only [Function.comp_def, List.cons_append, List.append_assoc, List.nil_append]

theorem cutTag?_of_inside {c : Bytes} (h : Inside c) (k : Bytes) :
    cutTag? none (c ++ 0x3e :: k) = some (c, k) := by
  rw [h]
  simp [cutTag?]

theorem inside_of_name {name : String} (h : IsName name) : Inside (Bytes.ofString name) := by
  have hall : [0x3e, 0x22, 0x27].all (· ∈ markupBytes) = true := by decide
  exact inside_of_forall fun b hb hm =>
    h.bytes b hb (of_decide_eq_true (List.all_eq_true.1 hall b hm))

theorem inside_of_space {space : String} (h : IsSpace space) : Inside (Bytes.ofString space) := by
  have hall : [0x3e, 0x22, 0x27].all (! Bytes.isBlank ·) = true := by decide
  refine inside_of_forall fun b hb hm => ?_
  have hnot := List.all_eq_true.1 hall b hm
  rw [h.bytes b hb] at hnot
  cases hnot

theorem inside_of_attributes {as : List (String × String)} {s : String}
    (h : AttributesWritten as s) (hnames : ∀ a ∈ as, IsName a.1) :
    Inside (Bytes.ofString s) := by
  induction h with
  | nil hspace => exact inside_of_space hspace
  | @cons space name value text s as hspace hne htext hs ih =>
    obtain ⟨hname, hnames'⟩ := List.forall_mem_cons.1 hnames
    -- the name and the white space have no quotes, the value is between two
    have hquoted := inside_quoted (AttributesWritten.quote_not_mem htext)
    have hrest := (hquoted.append (ih hnames')).cons (b := 0x3d) (by decide)
    rw [List.append_assoc] at hrest
    rw [AttributesWritten.ofString_cons]
    exact (inside_of_space hspace).append ((inside_of_name hname).append hrest)

end Markup

/-! ## The attributes of a tag -/

namespace Cursor

variable {n v k : Bytes} {p : Nat} {taken : List RawAttribute}

theorem skipBlank_append {w : Bytes} (hw : ∀ b ∈ w, Bytes.isBlank b = true)
    (hk : ∀ b ∈ k.head?, Bytes.isBlank b = false) :
    (Cursor.mk p (w ++ k)).skipBlank = ⟨p + w.length, k⟩ := by
  rw [skipBlank, Bytes.takeWhile_append hw hk, skip, List.drop_left]

/-- A name ends at the equals sign, which the place behind leaves out. -/
theorem readName_append (hne : n ≠ []) (hn : ∀ b ∈ n, b ∉ markupBytes) :
    (Cursor.mk p (n ++ 0x3d :: k)).readName = .ok (n, ⟨p + n.length + 1, k⟩) := by
  have hname : nameAt (n ++ 0x3d :: k) = n := by
    cases n with
    | nil => exact (hne rfl).elim
    | cons b n =>
      refine congrArg (b :: ·) (Bytes.takeWhile_append (fun c hc => ?_) fun c hc => ?_)
      · have hm := hn c (List.mem_cons_of_mem b hc)
        rw [isNameByte, isBlank_eq_false hm]
        have hequals : c ≠ 0x3d := by
          rintro rfl
          exact hm (by decide)
        simpa using hequals
      · cases hc
        decide
  have hblank : ((Cursor.mk p (n ++ 0x3d :: k)).skip n.length).skipBlank =
      ⟨p + n.length, 0x3d :: k⟩ := by
    rw [skip, List.drop_left]
    exact skipBlank_append (w := []) (fun b hb => by cases hb) fun b hb => by cases hb; decide
  rw [readName]
  simp only [hname, hblank]
  rfl

/-- A value ends at the quote that it began with. -/
theorem readValue_append (hv : 0x22 ∉ v) :
    (Cursor.mk p (0x22 :: (v ++ 0x22 :: k))).readValue =
      .ok (v, ⟨p + (v.length + 2), k⟩) := by
  have hblank : (Cursor.mk p (0x22 :: (v ++ 0x22 :: k))).skipBlank =
      ⟨p, 0x22 :: (v ++ 0x22 :: k)⟩ :=
    skipBlank_append (w := []) nofun fun b hb => by cases hb; decide
  have hcut : Bytes.cut? [0x22] (v ++ 0x22 :: k) = some (v, k) := by
    rw [Bytes.cut?_append hv, Bytes.cut?_cons, Option.map_some, List.append_nil]
  rw [readValue]
  simp only [hblank, hcut]
  simp [skip]

theorem readAttribute_append (hne : n ≠ []) (hn : ∀ b ∈ n, b ∉ markupBytes) (hv : 0x22 ∉ v)
    (htaken : ∀ a ∈ taken, a.name ≠ n) :
    (Cursor.mk p (n ++ 0x3d :: 0x22 :: (v ++ 0x22 :: k))).readAttribute taken =
      .ok (⟨p, n, v⟩, ⟨p + n.length + 1 + (v.length + 2), k⟩) := by
  have hfree : taken.find? (·.name = n) = none := by
    refine List.find?_eq_none.2 fun a ha => ?_
    simpa using htaken a ha
  rw [readAttribute, readName_append hne hn]
  simp only [bind, Except.bind, hfree, readValue_append hv]
  rfl

theorem attributes_of_blank (h : ∀ b ∈ k, Bytes.isBlank b = true) :
    (Cursor.mk p k).attributes true taken = ([], none) := by
  have hblank : (Cursor.mk p k).skipBlank = ⟨p + k.length, []⟩ := by
    have := skipBlank_append (p := p) (k := []) h nofun
    rwa [List.append_nil] at this
  rw [attributes]
  exact if_pos (congrArg rest hblank)

theorem attributes_of_readAttribute {c here next : Cursor} {a : RawAttribute}
    (hhere : c.skipBlank = here) (hne : here.rest ≠ [])
    (ha : here.readAttribute taken = .ok (a, next)) :
    c.attributes true taken =
      (a :: (next.attributes true (taken ++ [a])).1, (next.attributes true (taken ++ [a])).2) := by
  subst hhere
  rw [attributes]
  simp only [if_neg hne]
  split
  · rename_i h
    cases ha.symm.trans h
  · rename_i h
    cases ha.symm.trans h
    rfl

theorem decodeAttribute_of_escaped (decoders : Decoders) {name value text : String}
    (h : Reference.Escaped value.toList text.toList) :
    Element.decodeAttribute decoders .utf8 ⟨p, Bytes.ofString name, Bytes.ofString text⟩ =
      .ok (name, value) := by
  simp only [Element.decodeAttribute, Element.text, Encoding.decode?_ofString, bind, Except.bind,
    Reference.expand_of_escaped h]
  rfl

/-- The attributes that were written are read back, in order, up to the end of the tag. -/
theorem attributes_of_written (decoders : Decoders) {as : List (String × String)} {s : String}
    (h : AttributesWritten as s) (hnames : ∀ a ∈ as, IsName a.1) (hdistinct : (as.map (·.1)).Nodup)
    (htaken : ∀ t ∈ taken, ∀ a ∈ as, t.name ≠ Bytes.ofString a.1) :
    ∃ raw, (Cursor.mk p (Bytes.ofString s)).attributes true taken = (raw, none) ∧
      raw.mapM (Element.decodeAttribute decoders .utf8) = .ok as := by
  induction h generalizing p taken with
  | nil hspace => exact ⟨[], attributes_of_blank hspace.bytes, rfl⟩
  | @cons space name value text s as hspace hne htext hs ih =>
    obtain ⟨hname, hnames'⟩ := List.forall_mem_cons.1 hnames
    rw [List.map_cons, List.nodup_cons] at hdistinct
    have hread := readAttribute_append (p := p + (Bytes.ofString space).length)
      (k := Bytes.ofString s) hname.ofString_ne_nil hname.bytes
      (AttributesWritten.quote_not_mem htext)
      fun t ht => htaken t ht (name, value) List.mem_cons_self
    have hne : Bytes.ofString name ++
        0x3d :: 0x22 :: (Bytes.ofString text ++ 0x22 :: Bytes.ofString s) ≠ [] := by simp
    -- the name that was read is taken for those that come
    have htaken' : ∀ q, ∀ t ∈ taken ++ [⟨q, Bytes.ofString name, Bytes.ofString text⟩],
        ∀ a ∈ as, t.name ≠ Bytes.ofString a.1 := by
      intro q t ht a ha
      rcases List.mem_append.1 ht with ht | ht
      · exact htaken t ht a (List.mem_cons_of_mem _ ha)
      · rw [List.mem_singleton.1 ht]
        intro hsame
        exact hdistinct.1 (List.mem_map.2 ⟨a, ha, (Bytes.ofString_inj.1 hsame).symm⟩)
    obtain ⟨raw, hraw, hmap⟩ := ih hnames' hdistinct.2 (htaken' _)
    rw [AttributesWritten.ofString_cons, attributes_of_readAttribute
      (skipBlank_append hspace.bytes (hname.isBlank_head _)) hne hread, hraw]
    refine ⟨_, rfl, ?_⟩
    rw [List.mapM_cons, decodeAttribute_of_escaped decoders htext, hmap]
    rfl

end Cursor

/-! ## The element of a start tag -/

namespace Element

variable {el : Element} {s : String} {decoders : Decoders}

theorem rawTag_of_written (htag : IsName el.tag) (h : AttributesWritten el.attributes s) :
    rawTag (Bytes.ofString (el.tag ++ s)) = Bytes.ofString el.tag := by
  rw [rawTag, Bytes.ofString_append]
  refine Bytes.takeWhile_append (fun b hb => ?_) fun b hb => ?_
  · rw [isBlank_eq_false (htag.bytes b hb)]
    rfl
  · rw [h.isBlank_head b hb]
    rfl

theorem write_of_not_mem {name value : String} {as : List (String × String)}
    (h : name ∉ as.map (·.1)) : write name value as = as ++ [(name, value)] := by
  induction as with
  | nil => rfl
  | cons a as ih =>
    rw [List.map_cons, List.mem_cons, not_or] at h
    rw [write, if_neg (Ne.symm h.1), ih h.2, List.cons_append]

/-- Attributes with different names are all kept, in order. -/
theorem setAll_of_nodup {as : List (String × String)}
    (h : ((el.attributes ++ as).map (·.1)).Nodup) :
    el.setAll as = { el with attributes := el.attributes ++ as } := by
  unfold setAll
  induction as generalizing el with
  | nil => rw [List.foldl_nil, List.append_nil]
  | cons a as ih =>
    have hfresh : a.1 ∉ el.attributes.map (·.1) := by
      rw [List.map_append, List.map_cons, List.nodup_append] at h
      intro hmem
      exact h.2.2 _ hmem _ List.mem_cons_self rfl
    have hset : (el.set a.1 a.2).attributes = el.attributes ++ [a] := write_of_not_mem hfresh
    have hrest : (((el.set a.1 a.2).attributes ++ as).map (·.1)).Nodup := by
      rwa [hset, List.append_assoc]
    rw [List.foldl_cons, ih hrest, hset, List.append_assoc]
    rfl

/-- A written start tag gives its element. -/
theorem ofContent_of_written (hel : el.WellNamed) (h : AttributesWritten el.attributes s) :
    ofContent decoders .utf8 (Bytes.ofString (el.tag ++ s)) = .ok el := by
  have hstart : (Cursor.mk 0 (Bytes.ofString (el.tag ++ s))).skip (Bytes.ofString el.tag).length =
      ⟨0 + (Bytes.ofString el.tag).length, Bytes.ofString s⟩ := by
    rw [Cursor.skip, Bytes.ofString_append, List.drop_left]
  have hfree : ∀ t ∈ ([] : List RawAttribute), ∀ a ∈ el.attributes,
      t.name ≠ Bytes.ofString a.1 := fun _ ht => (List.not_mem_nil ht).elim
  obtain ⟨raw, hraw, hmap⟩ := Cursor.attributes_of_written
    (p := 0 + (Bytes.ofString el.tag).length) decoders h hel.names hel.distinct hfree
  have hset : ({ tag := el.tag } : Element).setAll el.attributes = el := setAll_of_nodup hel.distinct
  simp only [ofContent, rawTag_of_written hel.tag h, text, Encoding.decode?_ofString, hstart, hraw,
    hmap, bind, Except.bind, hset]
  rfl

end Element

/-! ## Written tags as pieces of markup -/

namespace Markup

variable {el : Element} {s space : String} {c : Bytes}

/-- A tag that does not begin with a sign of markup opens an element. -/
theorem read_of_inside (hc : Inside c) (hne : c ≠ []) (hhead : ∀ b ∈ c.head?, b ∉ markupBytes)
    (k : Bytes) :
    read (c ++ 0x3e :: k) = .ok (ofTag c, k) := by
  cases c with
  | nil => exact (hne rfl).elim
  | cons b c =>
    have hb := hhead b rfl
    have hcut := cutTag?_of_inside hc k
    rw [List.cons_append] at hcut ⊢
    unfold read
    split
    · rename_i heq
      cases heq
      exact (hb (by decide)).elim
    · rename_i heq
      cases heq
      exact (hb (by decide)).elim
    · rename_i heq
      cases heq
      exact (hb (by decide)).elim
    · rw [hcut]

theorem inside_of_written (hel : el.WellNamed) (h : AttributesWritten el.attributes s) :
    Inside (Bytes.ofString (el.tag ++ s)) := by
  rw [Bytes.ofString_append]
  exact (inside_of_name hel.tag).append (inside_of_attributes h hel.names)

theorem head_of_written (hel : el.WellNamed) :
    ∀ b ∈ (Bytes.ofString (el.tag ++ s)).head?, b ∉ markupBytes := by
  intro b hb
  rw [Bytes.ofString_append, List.head?_append_of_ne_nil _ hel.tag.ofString_ne_nil] at hb
  exact hel.tag.bytes b (List.mem_of_mem_head? hb)

theorem getLast?_ne_slash_of_written (hel : el.WellNamed) (h : AttributesWritten el.attributes s) :
    (Bytes.ofString (el.tag ++ s)).getLast? ≠ some 0x2f := by
  rw [Bytes.ofString_append, List.getLast?_append]
  cases hs : (Bytes.ofString s).getLast? with
  | some b =>
    have hb := h.getLast?_ne_slash
    rwa [hs] at hb
  | none =>
    intro hl
    exact hel.tag.bytes 0x2f (List.mem_of_getLast? hl) (by decide)

theorem written_ne_nil (hel : el.WellNamed) : Bytes.ofString (el.tag ++ s) ≠ [] := by
  rw [Bytes.ofString_append]
  exact List.append_ne_nil_of_left_ne_nil hel.tag.ofString_ne_nil _

theorem read_start (hel : el.WellNamed) (h : AttributesWritten el.attributes s) (k : Bytes) :
    read (Bytes.ofString (el.tag ++ s) ++ 0x3e :: k) =
      .ok (.start (Bytes.ofString (el.tag ++ s)), k) := by
  rw [read_of_inside (inside_of_written hel h) (written_ne_nil hel) (head_of_written hel), ofTag,
    if_neg (getLast?_ne_slash_of_written hel h)]

theorem read_empty (hel : el.WellNamed) (h : AttributesWritten el.attributes s) (k : Bytes) :
    read (Bytes.ofString (el.tag ++ s) ++ 0x2f :: 0x3e :: k) =
      .ok (.empty (Bytes.ofString (el.tag ++ s)), k) := by
  have hinside : Inside (Bytes.ofString (el.tag ++ s) ++ [0x2f]) :=
    (inside_of_written hel h).append (inside_nil.cons (by decide))
  have hne : Bytes.ofString (el.tag ++ s) ++ [0x2f] ≠ [] := by simp
  have hhead : ∀ b ∈ (Bytes.ofString (el.tag ++ s) ++ [0x2f]).head?, b ∉ markupBytes := by
    rw [List.head?_append_of_ne_nil _ (written_ne_nil hel)]
    exact head_of_written hel
  have hread := read_of_inside hinside hne hhead k
  rw [List.append_assoc, List.singleton_append] at hread
  rw [hread, ofTag, if_pos List.getLast?_concat, List.dropLast_concat]

theorem read_finish (hel : el.WellNamed) (hspace : IsSpace space) (k : Bytes) :
    read (0x2f :: (Bytes.ofString (el.tag ++ space) ++ 0x3e :: k)) =
      .ok (.finish (Bytes.ofString (el.tag ++ space)), k) := by
  have hinside : Inside (Bytes.ofString (el.tag ++ space)) := by
    rw [Bytes.ofString_append]
    exact (inside_of_name hel.tag).append (inside_of_space hspace)
  unfold read
  simp only [cutTag?_of_inside hinside]

/-- The white space behind the name of an end tag is dropped. -/
theorem trimEnd_of_written (hel : el.WellNamed) (hspace : IsSpace space) :
    Bytes.trimEnd (Bytes.ofString (el.tag ++ space)) = Bytes.ofString el.tag := by
  have hblank : ∀ b ∈ (Bytes.ofString space).reverse, Bytes.isBlank b = true := fun b hb =>
    hspace.bytes b (List.mem_reverse.1 hb)
  have hkept : (Bytes.ofString el.tag).reverse.dropWhile Bytes.isBlank =
      (Bytes.ofString el.tag).reverse := by
    cases htag : (Bytes.ofString el.tag).reverse with
    | nil => rfl
    | cons b bs =>
      have hb : b ∈ Bytes.ofString el.tag := List.mem_reverse.1 (htag ▸ List.mem_cons_self)
      have hnot := isBlank_eq_false (hel.tag.bytes b hb)
      rw [List.dropWhile_cons_of_neg (by rw [hnot]; decide)]
  rw [Bytes.trimEnd, Bytes.ofString_append, List.reverse_append,
    List.dropWhile_append_of_pos hblank, hkept, List.reverse_reverse]
  exact if_neg hel.tag.ofString_ne_nil

end Markup

end UmlOntology
