/-
Declared nodes and the elements that declare them. An element declares its own identifier, or it is
an association end that gets one from the association around it. Where no two elements of a document
have one identifier, no two associations that are open together have one, and each side of an
association is given once; so two elements declare one node only if one of them has as its own the
identifier that the other one, an end, is given.
-/
import UmlOntology.Proofs.Uml.Identifiers

namespace UmlOntology

/-! ## Identifiers of ends -/

theorem Side.ofIndex?_inj {m n : Nat} {side : Side} (hm : ofIndex? m = some side)
    (hn : ofIndex? n = some side) : m = n := by
  match m, n with
  | 0, 0 => rfl
  | 1, 1 => rfl
  | 0, 1 => cases hm; cases hn
  | 1, 0 => cases hm; cases hn
  | m + 2, _ => cases hm
  | _, n + 2 => cases hn

theorem Side.letter_inj {side side' : Side} (h : side.letter = side'.letter) : side = side' := by
  cases side with
  | a => cases side' with
    | a => rfl
    | b => exact absurd h (by decide)
  | b => cases side' with
    | a => exact absurd h (by decide)
    | b => rfl

theorem Side.length_letter (side : Side) : side.letter.toList.length = 1 := by
  cases side <;> simp [letter]

/-- The identifier that an end is given tells the association and the side. -/
theorem endId_inj {base base' : String} {side side' : Side}
    (h : endId base side = endId base' side') : base = base' ∧ side = side' := by
  have hchars := congrArg String.toList h
  unfold endId at hchars
  simp only [String.toList_append] at hchars
  have hlen : side.letter.toList.length = side'.letter.toList.length :=
    side.length_letter.trans side'.length_letter.symm
  obtain ⟨hbase, hletter⟩ := List.append_inj' hchars hlen
  exact ⟨String.toList_inj.1 (List.append_cancel_right hbase),
    Side.letter_inj (String.toList_inj.1 hletter)⟩

namespace Event

/-- The identifier that the element of an event declares. -/
def id? : Event → Option String
  | start el => el.id?
  | finish _ => none

/-- The identifiers that the elements of events declare, in turn. -/
def ids (es : List Event) : List String := (elements es).filterMap Element.id?

theorem ids_append (es fs : List Event) : ids (es ++ fs) = ids es ++ ids fs := by
  unfold ids
  rw [elements_append, List.filterMap_append]

theorem ids_cons (e : Event) (es : List Event) : ids (e :: es) = e.id?.toList ++ ids es := by
  unfold ids
  cases e with
  | start el =>
    rw [elements_start, List.filterMap_cons, id?]
    cases el.id? <;> rfl
  | finish tag => rw [elements_finish, id?, Option.toList_none, List.nil_append]

end Event

/-! ## Open associations -/

namespace Scope

variable {scopes : List Scope} {base : String} {side : Side} {n : Nat} {el : Element}

/-- The identifiers of the open associations, innermost first. -/
def ids (scopes : List Scope) : List String := scopes.filterMap (·.id)

theorem ids_cons (scope : Scope) (outer : List Scope) :
    ids (scope :: outer) = scope.id.toList ++ ids outer := by
  unfold ids
  rw [List.filterMap_cons]
  cases scope.id <;> rfl

theorem ids_grow (scopes : List Scope) (n : Nat) : ids (grow scopes n) = ids scopes := by
  cases scopes with
  | nil => rfl
  | cons scope outer => rw [grow, ids_cons, ids_cons]

/-- An event opens no association but that of its own element. -/
theorem ids_pass (scopes : List Scope) (e : Event) :
    (ids (pass scopes e)).Sublist (e.id?.toList ++ ids scopes) := by
  cases e with
  | start el =>
    rw [pass_start, Event.id?]
    by_cases ha : el.IsAssociation
    · rw [enter_association ha, ids_cons]
    · by_cases he : el.IsEnd
      · rw [enter_end he, ids_grow]
        exact List.sublist_append_right _ _
      · rw [enter_other ha he]
        exact List.sublist_append_right _ _
  | finish tag =>
    rw [pass_finish, Event.id?, Option.toList_none, List.nil_append]
    unfold leave
    split
    · exact (List.tail_sublist scopes).filterMap _
    · exact List.Sublist.refl _

/-- The associations that are open come from different elements, the innermost from the last. -/
theorem ids_passAll (scopes : List Scope) (es : List Event) :
    (ids (passAll scopes es)).Sublist ((Event.ids es).reverse ++ ids scopes) := by
  induction es generalizing scopes with
  | nil => exact List.Sublist.refl _
  | cons e es ih =>
    have hone : e.id?.toList.reverse = e.id?.toList := by cases e.id? <;> rfl
    rw [passAll_cons, Event.ids_cons, List.reverse_append, List.append_assoc, hone]
    exact (ih (pass scopes e)).trans ((List.Sublist.refl _).append (ids_pass scopes e))

theorem ids_run (es : List Event) : (ids (passAll [] es)).Sublist (Event.ids es).reverse := by
  have h := ids_passAll [] es
  rwa [show ids [] = [] from rfl, List.append_nil] at h

theorem mem_ids_of_vacancy? (h : vacancy? scopes = some (base, side)) : base ∈ ids scopes := by
  obtain ⟨n, hscope, -⟩ := vacancy?_eq_some_iff.1 h
  exact List.mem_filterMap.2 ⟨_, List.mem_of_head? hscope, rfl⟩

/-- In every open association with this identifier more than `n` ends have come. -/
def Past (base : String) (n : Nat) (scopes : List Scope) : Prop :=
  ∀ scope ∈ scopes, scope.id = some base → n < scope.ends

/-- Once the end on a side has come, that side is past, if the association is the only open one with
its identifier. -/
theorem past_enter_end (hids : (ids scopes).Nodup)
    (hscope : scopes.head? = some { id := some base, ends := n }) (he : el.IsEnd) :
    Past base n (enter scopes el) := by
  obtain ⟨outer, rfl⟩ := List.head?_eq_some_iff.1 hscope
  rw [ids_cons] at hids
  rw [enter_end he, grow]
  refine List.forall_mem_cons.2 ⟨fun _ => Nat.lt_succ_self n, fun scope hmem hid => ?_⟩
  have houter : base ∈ ids outer := List.mem_filterMap.2 ⟨scope, hmem, hid⟩
  exact ((List.nodup_cons.1 hids).1 houter).elim

/-- What is past stays past unless an association with the same identifier opens. -/
theorem Past.pass (h : Past base n scopes) {e : Event} (he : e.id? ≠ some base) :
    Past base n (pass scopes e) := by
  cases e with
  | start el =>
    rw [pass_start]
    by_cases ha : el.IsAssociation
    · rw [enter_association ha]
      exact List.forall_mem_cons.2 ⟨fun hid => (he hid).elim, h⟩
    · by_cases hend : el.IsEnd
      · rw [enter_end hend]
        cases scopes with
        | nil => exact h
        | cons scope outer =>
          obtain ⟨hfirst, houter⟩ := List.forall_mem_cons.1 h
          exact List.forall_mem_cons.2 ⟨fun hid => Nat.lt_succ_of_lt (hfirst hid), houter⟩
      · rw [enter_other ha hend]
        exact h
  | finish tag =>
    rw [pass_finish]
    unfold leave
    split
    · exact fun scope hmem => h scope (List.mem_of_mem_tail hmem)
    · exact h

theorem Past.passAll (h : Past base n scopes) {es : List Event} (hes : base ∉ Event.ids es) :
    Past base n (passAll scopes es) := by
  induction es generalizing scopes with
  | nil => exact h
  | cons e es ih =>
    rw [Event.ids_cons, List.mem_append, not_or, Option.mem_toList] at hes
    exact ih (h.pass hes.1) hes.2

/-- A side that is past is not given again. -/
theorem Past.vacancy?_ne (h : Past base n scopes) (hside : Side.ofIndex? n = some side) :
    vacancy? scopes ≠ some (base, side) := by
  intro hv
  obtain ⟨m, hscope, hm⟩ := vacancy?_eq_some_iff.1 hv
  have hlt : n < m := h _ (List.mem_of_head? hscope) rfl
  exact Nat.ne_of_lt hlt (Side.ofIndex?_inj hside hm)

end Scope

/-! ## What an element declares -/

theorem Element.id?_of_declaration? {el : Element} {id : String}
    (h : el.declaration?.map (·.1) = some id) : el.id? = some id := by
  obtain ⟨⟨id', name⟩, hd, rfl⟩ := Option.map_eq_some_iff.1 h
  obtain ⟨id'', hid, hd⟩ := Option.bind_eq_some_iff.1 hd
  obtain ⟨name', -, hd⟩ := Option.bind_eq_some_iff.1 hd
  cases hd
  exact hid

/-- What a construct declares is what its request declares. -/
theorem Construct.request_of_declaredId? {c : Construct} {id : String}
    (hid : c.declaredId? = some id) : ∃ r, c.request? = some r ∧ r.id = id := by
  have hsays := c.says_request
  rw [hid] at hsays
  cases hr : c.request? with
  | none =>
    rw [hr] at hsays
    cases hsays
  | some r =>
    rw [hr] at hsays
    cases hsays with
    | declaration => exact ⟨r, rfl, rfl⟩

namespace Reading

variable {scopes : List Scope} {el : Element} {c : Construct} {id : String}

/-- An association end with an identifier declares it, and one without declares what it is given. -/
theorem declaredId?_of_end (he : el.IsEnd) (hc : ofElement scopes el = .construct c)
    (hid : c.declaredId? = some id) :
    el.id? = some id ∨ el.id? = none ∧
      ∃ base side, Scope.vacancy? scopes = some (base, side) ∧ id = endId base side := by
  cases hown : el.id? with
  | some own =>
    have hproperty : ofElement scopes el = .construct (.objectProperty el) := by
      unfold ofElement
      rw [Element.role_eq_associationEnd_iff.2 he]
      cases scopes <;> simp [ofEnd, hown]
    rw [hproperty] at hc
    cases hc
    exact Or.inl (hown.symm.trans hid)
  | none =>
    refine Or.inr ⟨rfl, ?_⟩
    cases hv : Scope.vacancy? scopes with
    | none =>
      have hnone := request?_end_of_no_vacancy he hown hv
      obtain ⟨r, hr, -⟩ := Construct.request_of_declaredId? hid
      rw [hc, request?, hr] at hnone
      cases hnone
    | some v =>
      rw [ofElement_end_of_vacancy he hown hv] at hc
      cases hc
      rw [Construct.declaredId?] at hid
      split at hid
      · cases hid
      · cases hid
        exact ⟨v.1, v.2, rfl, rfl⟩

theorem id?_of_refers (hid : (if el.Refers then none else el.declaration?.map (·.1)) = some id) :
    el.id? = some id := by
  split at hid
  · cases hid
  · exact Element.id?_of_declaration? hid

/-- An element declares its own identifier, or it is an end and declares one that it is given. -/
theorem declaredId?_cases (hc : ofElement scopes el = .construct c)
    (hid : c.declaredId? = some id) :
    el.id? = some id ∨ el.IsEnd ∧ el.id? = none ∧
      ∃ base side, Scope.vacancy? scopes = some (base, side) ∧ id = endId base side := by
  by_cases he : el.IsEnd
  · exact (declaredId?_of_end he hc hid).imp_right fun h => ⟨he, h⟩
  · left
    have hof := of_ofElement hc
    cases c with
    | concept el' | datatype el' | attributeProperty el' | package el' | unclassified el' =>
      cases hof
      exact Element.id?_of_declaration? hid
    | annotationProperty el' | stereotype el' =>
      cases hof
      exact id?_of_refers hid
    | objectProperty el' =>
      cases hof
      exact hid
    | association own =>
      have hown : el.id? = some own := hof
      rw [Construct.declaredId?] at hid
      split at hid
      · cases hid
      · rw [hown, hid]
    | associationEnd el' base side => exact (he (Element.role_eq_associationEnd_iff.1 hof.2)).elim
    | individual el' type => exact hof.elim
    | conceptReference | stereotypeReference | reference | elementReference => cases hid

end Reading

/-! ## Elements that declare one node -/

namespace Translation

variable {o : Options} {t : Translation} {el el' : Element} {a b : Iri}

/-- The start of the element declares a node at the address. -/
def Declares (o : Options) (t : Translation) (el : Element) (a : Iri) : Prop :=
  ∃ c, t.reading el = .construct c ∧ c.declaredId?.isSome ∧
    t.graph.build o c = (some a, (t.start o el).graph)

/-- The start of the element gives the address to an association end without an identifier. -/
def Gives (o : Options) (t : Translation) (el : Element) (a : Iri) : Prop :=
  el.IsEnd ∧ el.id? = none ∧
    ∃ base side, Scope.vacancy? t.scopes = some (base, side) ∧ a = o.address (endId base side)

theorem Declares.cases (h : Declares o t el a) :
    (∃ id, el.id? = some id ∧ a = o.address id) ∨ Gives o t el a := by
  obtain ⟨c, hc, hsome, hbuild⟩ := h
  obtain ⟨id, hid⟩ := Option.isSome_iff_exists.1 hsome
  have ha : o.address id = a := by
    refine Construct.address_of_declaredId? hid ?_
    rw [← Construct.fst_build t.graph, hbuild]
  rcases Reading.declaredId?_cases hc hid with hown | ⟨he, hnone, base, side, hv, rfl⟩
  · exact Or.inl ⟨id, hown, ha.symm⟩
  · exact Or.inr ⟨he, hnone, base, side, hv, ha.symm⟩

theorem Declares.eq_address (h : Declares o t el a) {id : String} (hid : el.id? = some id) :
    a = o.address id := by
  rcases h.cases with ⟨id', hid', ha⟩ | ⟨-, hnone, -⟩
  · rw [hid] at hid'
    cases hid'
    exact ha
  · rw [hid] at hnone
    cases hnone

section Two

variable {pre mid post : List Event}

/-- Two ends are not given one identifier. -/
theorem ne_of_gives
    (hnodup : (Event.ids (pre ++ .start el :: (mid ++ .start el' :: post))).Nodup)
    (ha : Gives o (run o pre) el a) (hb : Gives o (run o (pre ++ .start el :: mid)) el' b) :
    a ≠ b := by
  obtain ⟨he, -, base, side, hv, rfl⟩ := ha
  obtain ⟨-, -, base', side', hv', rfl⟩ := hb
  intro heq
  obtain ⟨rfl, rfl⟩ := endId_inj (o.address_injective heq)
  rw [scopes_run] at hv hv'
  rw [Scope.passAll_append, Scope.passAll_cons, Scope.pass_start] at hv'
  rw [Event.ids_append, Event.ids_cons, Event.ids_append] at hnodup
  obtain ⟨hpre, -, hlater⟩ := List.nodup_append.1 hnodup
  have hopen := Scope.ids_run pre
  have hbase : base ∈ Event.ids pre :=
    List.mem_reverse.1 (hopen.subset (Scope.mem_ids_of_vacancy? hv))
  have hmid : base ∉ Event.ids mid := fun hmem =>
    hlater _ hbase _ (List.mem_append_right _ (List.mem_append_left _ hmem)) rfl
  -- the association of the first end is the only one with its identifier, then and later
  obtain ⟨n, hscope, hside⟩ := Scope.vacancy?_eq_some_iff.1 hv
  have hpast := Scope.past_enter_end (hopen.nodup (List.nodup_reverse.2 hpre)) hscope he
  exact (hpast.passAll hmid).vacancy?_ne hside hv'

/-- Two elements do not have one identifier of their own. -/
theorem ne_of_ids {id id' : String}
    (hnodup : (Event.ids (pre ++ .start el :: (mid ++ .start el' :: post))).Nodup)
    (hid : el.id? = some id) (hid' : el'.id? = some id') : id ≠ id' := by
  rw [Event.ids_append, Event.ids_cons, Event.ids_append, Event.ids_cons, Event.id?, Event.id?, hid,
    hid', Option.toList_some, Option.toList_some, List.singleton_append,
    List.singleton_append] at hnodup
  obtain ⟨-, htail, -⟩ := List.nodup_append.1 hnodup
  rintro rfl
  exact (List.nodup_cons.1 htail).1 (List.mem_append_right _ List.mem_cons_self)

/-- Where no two elements have one identifier, two elements declare one node only if one of them is
an association end that is given the identifier that the other one has. The second element starts
somewhere behind the first. -/
theorem declares_same_iff (o : Options)
    (hnodup : (Event.ids (pre ++ .start el :: (mid ++ .start el' :: post))).Nodup)
    (ha : Declares o (run o pre) el a) (hb : Declares o (run o (pre ++ .start el :: mid)) el' b) :
    a = b ↔
      Gives o (run o pre) el a ∧ (∃ id, el'.id? = some id ∧ a = o.address id) ∨
      Gives o (run o (pre ++ .start el :: mid)) el' b ∧
        ∃ id, el.id? = some id ∧ b = o.address id := by
  constructor
  · rintro rfl
    rcases ha.cases with ⟨id, hid, haddr⟩ | hgives
    · rcases hb.cases with ⟨id', hid', haddr'⟩ | hgives'
      · have heq := o.address_injective (haddr.symm.trans haddr')
        exact (ne_of_ids hnodup hid hid' heq).elim
      · exact Or.inr ⟨hgives', id, hid, haddr⟩
    · rcases hb.cases with ⟨id', hid', haddr'⟩ | hgives'
      · exact Or.inl ⟨hgives, id', hid', haddr'⟩
      · exact (ne_of_gives hnodup hgives hgives' rfl).elim
  · rintro (⟨-, id, hid, haddr⟩ | ⟨-, id, hid, haddr⟩)
    · rw [haddr, hb.eq_address hid]
    · rw [haddr, ha.eq_address hid]

end Two

/-- The two ends of an association get an identifier each. -/
theorem declares_bothEnds :
    ((Event.ids ([.start namedAssociation] ++ .start bareEnd ::
        ([.finish bareEnd.tag] ++ .start bareEnd :: []))).Nodup ∧
      Declares {} (run {} [.start namedAssociation]) bareEnd (({} : Options).address "a-A") ∧
      Declares {} (run {} ([.start namedAssociation] ++ .start bareEnd :: [.finish bareEnd.tag]))
        bareEnd (({} : Options).address "a-B")) ∧
    ({} : Options).address "a-A" ≠ ({} : Options).address "a-B" := by
  have hnodup : (Event.ids ([.start namedAssociation] ++ .start bareEnd ::
      ([.finish bareEnd.tag] ++ .start bareEnd :: []))).Nodup := by decide
  have ha : Declares {} (run {} [.start namedAssociation]) bareEnd
      (({} : Options).address "a-A") :=
    ⟨.associationEnd bareEnd "a" .a, by decide, by decide, by decide⟩
  have hb : Declares {} (run {} ([.start namedAssociation] ++ .start bareEnd ::
      [.finish bareEnd.tag])) bareEnd (({} : Options).address "a-B") :=
    ⟨.associationEnd bareEnd "a" .b, by decide, by decide, by decide⟩
  refine ⟨⟨hnodup, ha, hb⟩, fun heq => ?_⟩
  have hbare : bareEnd.id? = none := by decide
  rcases (declares_same_iff {} hnodup ha hb).1 heq with ⟨-, id, hid, -⟩ | ⟨-, id, hid, -⟩
  · rw [hbare] at hid
    cases hid
  · rw [hbare] at hid
    cases hid

/-- A class with the identifier that the end of an association is given. -/
def namedLikeEnd : Element :=
  { tag := "UML:Class", attributes := [("xmi.id", "a-A"), ("name", "C")] }

/-- The class, and the association with the end. -/
def classAndEnd : Forest :=
  [.node { tag := "XMI" } [.node namedLikeEnd [], .node namedAssociation [.node bareEnd []]]]

/-- The class and the end declare one node, though each identifier is the own one of one element. -/
theorem declares_same_of_classAndEnd :
    (Event.ids classAndEnd.events).Nodup ∧ ∃ pre el mid el' post a,
      classAndEnd.events = pre ++ .start el :: (mid ++ .start el' :: post) ∧
      Declares {} (run {} pre) el a ∧ Declares {} (run {} (pre ++ .start el :: mid)) el' a := by
  refine ⟨by decide, [.start { tag := "XMI" }], namedLikeEnd,
    [.finish "UML:Class", .start namedAssociation], bareEnd, classAndEnd.events.drop 5,
    ({} : Options).address "a-A", by decide, ?_, ?_⟩
  · exact ⟨.concept namedLikeEnd, by decide, by decide, by decide⟩
  · exact ⟨.associationEnd bareEnd "a" .a, by decide, by decide, by decide⟩

end Translation

end UmlOntology
