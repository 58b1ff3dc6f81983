/-
The open associations of a run and the tree that the run goes through. A complete element leaves the
associations as it found them, but for the number of ends that have come; and where an element
starts, the innermost open association is the nearest one around the element in the tree, with the
number of ends that stand in it so far. From this follows what an association end without an
identifier gets.

An end stands in the nearest association around it and in no other: the ends of an association
inside another are none of the outer one.
-/
import UmlOntology.Proofs.Uml.Construct
import UmlOntology.Proofs.Uml.Run
import UmlOntology.Proofs.Xml.Tree

namespace UmlOntology

/-! ## Associations and ends by name -/

namespace Element

variable {el : Element}

/-- The element is an association, by its local name. -/
def IsAssociation (el : Element) : Prop := el.localName = "Association"

instance (el : Element) : Decidable el.IsAssociation := inferInstanceAs (Decidable (_ = _))

/-- The element is an association end, by its local name. -/
def IsEnd (el : Element) : Prop := el.localName = "AssociationEnd"

instance (el : Element) : Decidable el.IsEnd := inferInstanceAs (Decidable (_ = _))

theorem role_eq_association_iff : el.role = .association ↔ el.IsAssociation := by
  unfold role IsAssociation Role.ofName
  split <;> simp_all

theorem role_eq_associationEnd_iff : el.role = .associationEnd ↔ el.IsEnd := by
  unfold role IsEnd Role.ofName
  split <;> simp_all

theorem not_isEnd_of_isAssociation (ha : el.IsAssociation) : ¬ el.IsEnd := by
  unfold IsAssociation at ha
  unfold IsEnd
  rw [ha]
  decide

end Element

namespace Scope

variable {el : Element} {scopes : List Scope}

/-- The open associations when so many more ends have come in the innermost of them. -/
def grow : List Scope → Nat → List Scope
  | [], _ => []
  | scope :: outer, n => { scope with ends := scope.ends + n } :: outer

@[simp] theorem grow_zero (scopes : List Scope) : grow scopes 0 = scopes := by
  cases scopes <;> rfl

theorem grow_grow (scopes : List Scope) (m n : Nat) :
    grow (grow scopes m) n = grow scopes (m + n) := by
  cases scopes with
  | nil => rfl
  | cons scope outer => simp [grow, Nat.add_assoc]

theorem head?_grow (scopes : List Scope) (n : Nat) :
    (grow scopes n).head? = scopes.head?.map fun s => { s with ends := s.ends + n } := by
  cases scopes <;> rfl

theorem enter_association (ha : el.IsAssociation) :
    enter scopes el = { id := el.id? } :: scopes := by
  unfold enter
  rw [Element.role_eq_association_iff.2 ha]

theorem enter_end (he : el.IsEnd) : enter scopes el = grow scopes 1 := by
  unfold enter
  rw [Element.role_eq_associationEnd_iff.2 he]
  cases scopes <;> rfl

theorem enter_other (ha : ¬ el.IsAssociation) (he : ¬ el.IsEnd) : enter scopes el = scopes := by
  rw [← Element.role_eq_association_iff] at ha
  rw [← Element.role_eq_associationEnd_iff] at he
  unfold enter
  split
  · contradiction
  · contradiction
  · rfl

theorem leave_association (ha : el.IsAssociation) : leave scopes el.tag = scopes.tail :=
  if_pos (Element.role_eq_association_iff.2 ha)

theorem leave_other (ha : ¬ el.IsAssociation) : leave scopes el.tag = scopes :=
  if_neg fun h => ha (Element.role_eq_association_iff.1 h)

end Scope

/-! ## Ends in the tree -/

/-- The nearest association among elements that are around another one, with its number. -/
def nearest (around : List (Nat × Element)) : Option (Nat × Element) :=
  around.find? (·.2.IsAssociation)

/-- The association that an element stands in: the nearest one around it. -/
def Place.association? (p : Place) : Option (Nat × Element) := nearest p.around

/-- How many of the places are ends that stand in the association, or in none. -/
def endsIn (association : Option (Nat × Element)) (ps : List Place) : Nat :=
  ps.countP fun p => p.element.IsEnd ∧ p.association? = association

mutual

/-- The number of ends of a tree that stand in no association of the tree. -/
def Tree.ends : Tree → Nat
  | .node el inside =>
    if el.IsAssociation then 0 else (if el.IsEnd then 1 else 0) + Forest.ends inside

/-- The number of ends of a forest that stand in no association of the forest. -/
def Forest.ends : Forest → Nat
  | [] => 0
  | t :: ts => t.ends + Forest.ends ts

end

theorem nearest_cons_association {el : Element} (ha : el.IsAssociation) (n : Nat)
    (around : List (Nat × Element)) : nearest ((n, el) :: around) = some (n, el) :=
  List.find?_cons_of_pos (by simpa using ha)

theorem nearest_cons_other {el : Element} (ha : ¬ el.IsAssociation) (n : Nat)
    (around : List (Nat × Element)) : nearest ((n, el) :: around) = nearest around :=
  List.find?_cons_of_neg (by simpa using ha)

theorem endsIn_append (a : Option (Nat × Element)) (ps qs : List Place) :
    endsIn a (ps ++ qs) = endsIn a ps + endsIn a qs := List.countP_append

theorem endsIn_cons (a : Option (Nat × Element)) (p : Place) (ps : List Place) :
    endsIn a (p :: ps) =
      endsIn a ps + if p.element.IsEnd ∧ p.association? = a then 1 else 0 := by
  unfold endsIn
  rw [List.countP_cons]
  simp

/-- No end stands in an association whose number is free. -/
theorem endsIn_fresh {ps : List Place} {n : Nat} (hps : ∀ p ∈ ps, Below n p.around)
    (el : Element) : endsIn (some (n, el)) ps = 0 := by
  unfold endsIn
  rw [List.countP_eq_zero]
  intro p hp
  simp only [decide_eq_true_eq, not_and]
  intro _ ha
  exact absurd (hps p hp _ (List.mem_of_find?_eq_some ha)) (Nat.lt_irrefl n)

/-- The ends inside an association stand in none of those around it. -/
theorem endsIn_inside {el : Element} (ha : el.IsAssociation) {n : Nat}
    {around : List (Nat × Element)} (hn : Below n around) (f : Forest) :
    endsIn (nearest around) (f.places ((n, el) :: around) (n + 1)) = 0 := by
  unfold endsIn
  rw [List.countP_eq_zero]
  intro p hp
  obtain ⟨inner, hi, hnum⟩ := Forest.around_of_mem f hp
  simp only [decide_eq_true_eq, not_and]
  intro _ hnear
  -- the nearest association of `p` is this one or one further in, so its number is not below `n`
  unfold Place.association? nearest at hnear
  rw [hi, List.find?_append, ← nearest, ← nearest, nearest_cons_association ha] at hnear
  cases hin : nearest inner with
  | none =>
    rw [hin] at hnear
    exact absurd (hn _ (List.mem_of_find?_eq_some hnear.symm)) (Nat.lt_irrefl n)
  | some x =>
    rw [hin] at hnear
    have h1 := hn x (List.mem_of_find?_eq_some hnear.symm)
    have h2 := hnum x (List.mem_of_find?_eq_some hin)
    omega

mutual

/-- The ends of a tree that stand in the nearest association around it are those that stand in no
association of the tree. -/
theorem Tree.endsIn_places {around : List (Nat × Element)} {n : Nat} (hn : Below n around) :
    ∀ t : Tree, endsIn (nearest around) (t.places around n) = t.ends
  | .node el inside => by
    rw [Tree.places, endsIn_cons, Tree.ends]
    by_cases ha : el.IsAssociation
    · rw [if_pos ha, endsIn_inside ha hn, if_neg]
      exact fun h => Element.not_isEnd_of_isAssociation ha h.1
    · have ih := Forest.endsIn_places (hn.cons el) inside
      rw [nearest_cons_other ha] at ih
      rw [if_neg ha, ih, Nat.add_comm]
      simp [Place.association?]

theorem Forest.endsIn_places {around : List (Nat × Element)} {n : Nat} (hn : Below n around) :
    ∀ f : Forest, endsIn (nearest around) (f.places around n) = f.ends
  | [] => rfl
  | t :: ts => by
    have hn' : Below (n + t.size) around := hn.mono (Nat.le_add_right _ _)
    rw [Forest.places, endsIn_append, Tree.endsIn_places hn t, Forest.endsIn_places hn' ts,
      Forest.ends]

end

/-! ## Open associations along a tree -/

namespace Scope

mutual

/-- A complete element leaves the open associations as they were, but for the ends that have come in
the innermost of them. -/
theorem passAll_tree (scopes : List Scope) :
    ∀ t : Tree, passAll scopes t.events = grow scopes t.ends
  | .node el inside => by
    rw [Tree.events, passAll_cons, passAll_append, pass_start, passAll_forest _ inside,
      passAll_cons, passAll_nil, pass_finish, Tree.ends]
    by_cases ha : el.IsAssociation
    · -- what has come in the association goes with it
      rw [leave_association ha, enter_association ha, if_pos ha, grow_zero]
      rfl
    · rw [leave_other ha, if_neg ha]
      by_cases he : el.IsEnd
      · rw [enter_end he, grow_grow, if_pos he]
      · rw [enter_other ha he, if_neg he, Nat.zero_add]

theorem passAll_forest (scopes : List Scope) :
    ∀ f : Forest, passAll scopes f.events = grow scopes f.ends
  | [] => (grow_zero scopes).symm
  | t :: ts => by
    rw [Forest.events, passAll_append, passAll_tree scopes t, passAll_forest _ ts, grow_grow,
      Forest.ends]

end

/-- The innermost open association is the nearest one of the tree, with the number of ends that
stand in it so far; there is none if there is none in the tree. -/
def Innermost (scopes : List Scope) (earlier : List Place) (around : List (Nat × Element)) : Prop :=
  scopes.head? =
    (nearest around).map fun a => { id := a.2.id?, ends := endsIn (some a) earlier }

/-- The open associations follow the tree inside `around`, behind the places `earlier`; the next
element is number `n`. -/
structure Follows (n : Nat) (scopes : List Scope) (earlier : List Place)
    (around : List (Nat × Element)) : Prop where
  earlierBelow : ∀ p ∈ earlier, Below n p.around
  aroundBelow : Below n around
  innermost : Innermost scopes earlier around

theorem follows_start : Follows 0 [] [] [] := ⟨nofun, Below.nil 0, rfl⟩

section Along

variable {n : Nat} {scopes : List Scope} {earlier : List Place} {around : List (Nat × Element)}

theorem Innermost.enter_end (h : Innermost scopes earlier around) {el : Element} (he : el.IsEnd) :
    Innermost (grow scopes 1) (earlier ++ [⟨el, around⟩]) around := by
  unfold Innermost
  rw [head?_grow, h]
  cases hnear : nearest around with
  | none => rfl
  | some a => simp [endsIn, Place.association?, hnear, he]

theorem Innermost.enter_other (h : Innermost scopes earlier around) {el : Element}
    (he : ¬ el.IsEnd) : Innermost scopes (earlier ++ [⟨el, around⟩]) around := by
  unfold Innermost
  rw [h]
  cases hnear : nearest around with
  | none => rfl
  | some a => simp [endsIn, Place.association?, hnear, he]

/-- The start of an element leads inside it. -/
theorem Follows.enter (h : Follows n scopes earlier around) (el : Element) :
    Follows (n + 1) (Scope.enter scopes el) (earlier ++ [⟨el, around⟩]) ((n, el) :: around) := by
  have hbelow : ∀ p ∈ earlier ++ [⟨el, around⟩], Below n p.around := by
    intro p hp
    rcases List.mem_append.1 hp with hp | hp
    · exact h.earlierBelow p hp
    · rw [List.mem_singleton] at hp
      subst hp
      exact h.aroundBelow
  refine ⟨fun p hp => (hbelow p hp).mono (Nat.le_succ n), h.aroundBelow.cons el, ?_⟩
  by_cases ha : el.IsAssociation
  · -- a new association: its number is free, so no end stands in it yet
    unfold Innermost
    rw [enter_association ha, nearest_cons_association ha, Option.map_some, endsIn_fresh hbelow]
    rfl
  · unfold Innermost
    rw [nearest_cons_other ha]
    by_cases he : el.IsEnd
    · rw [Scope.enter_end he]
      exact h.innermost.enter_end he
    · rw [Scope.enter_other ha he]
      exact h.innermost.enter_other he

/-- A complete element counts in the association that it stands in. -/
theorem Follows.tree (h : Follows n scopes earlier around) (t : Tree) :
    Follows (n + t.size) (passAll scopes t.events) (earlier ++ t.places around n) around := by
  have hle : n ≤ n + t.size := Nat.le_add_right _ _
  refine ⟨fun p hp => ?_, h.aroundBelow.mono hle, ?_⟩
  · rcases List.mem_append.1 hp with hp | hp
    · exact (h.earlierBelow p hp).mono hle
    · exact h.aroundBelow.place hp
  · unfold Innermost
    rw [passAll_tree, head?_grow, h.innermost]
    cases hnear : nearest around with
    | none => rfl
    | some a =>
      have hends := Tree.endsIn_places h.aroundBelow t
      rw [hnear] at hends
      simp [endsIn_append, hends]

end Along

mutual

/-- Where an element of a tree starts, the open associations follow the tree. -/
theorem innermost_tree {n : Nat} {scopes : List Scope} {earlier : List Place}
    {around : List (Nat × Element)} (h : Follows n scopes earlier around)
    {pre post : List Event} {el : Element} :
    ∀ t : Tree, t.events = pre ++ .start el :: post →
      ∃ before p after, t.places around n = before ++ p :: after ∧
        before.map (·.element) = Event.elements pre ∧ p.element = el ∧
        Innermost (passAll scopes pre) (earlier ++ before) p.around
  | .node outer inside, hsplit => by
    rw [Tree.events] at hsplit
    cases pre with
    | nil =>
      obtain ⟨hel, -⟩ := List.cons.inj hsplit
      cases hel
      exact ⟨[], _, _, rfl, rfl, rfl, by rw [List.append_nil]; exact h.innermost⟩
    | cons e pre =>
      obtain ⟨rfl, htail⟩ := List.cons.inj hsplit
      rcases Event.start_mem_append htail with ⟨rest, hin⟩ | ⟨pre', -, hend⟩
      · obtain ⟨before, p, after, hps, hbefore, hp, hinner⟩ :=
          innermost_forest (h.enter outer) inside hin
        refine ⟨⟨outer, around⟩ :: before, p, after, ?_, ?_, hp, ?_⟩
        · rw [Tree.places, hps, List.cons_append]
        · rw [List.map_cons, hbefore, Event.elements_start]
        · rw [List.append_assoc] at hinner
          exact hinner
      · -- the end of the element is no start
        cases pre' with
        | nil => cases hend
        | cons e pre' =>
          obtain ⟨-, hend⟩ := List.cons.inj hend
          simp at hend

theorem innermost_forest {n : Nat} {scopes : List Scope} {earlier : List Place}
    {around : List (Nat × Element)} (h : Follows n scopes earlier around)
    {pre post : List Event} {el : Element} :
    ∀ f : Forest, f.events = pre ++ .start el :: post →
      ∃ before p after, f.places around n = before ++ p :: after ∧
        before.map (·.element) = Event.elements pre ∧ p.element = el ∧
        Innermost (passAll scopes pre) (earlier ++ before) p.around
  | [], hsplit => by simp [Forest.events] at hsplit
  | t :: ts, hsplit => by
    rw [Forest.events] at hsplit
    rcases Event.start_mem_append hsplit with ⟨rest, hin⟩ | ⟨pre, rfl, hrest⟩
    · obtain ⟨before, p, after, hps, hbefore, hp, hinner⟩ := innermost_tree h t hin
      refine ⟨before, p, after ++ Forest.places around (n + t.size) ts, ?_, hbefore, hp, hinner⟩
      rw [Forest.places, hps, List.append_assoc, List.cons_append]
    · -- the start is behind this tree, which is complete by then
      obtain ⟨before, p, after, hps, hbefore, hp, hinner⟩ := innermost_forest (h.tree t) ts hrest
      refine ⟨t.places around n ++ before, p, after, ?_, ?_, hp, ?_⟩
      · rw [Forest.places, hps, List.append_assoc]
      · rw [List.map_append, Tree.elements_places, hbefore, Event.elements_append]
      · rw [passAll_append, ← List.append_assoc]
        exact hinner

end

end Scope

/-! ## Ends without an identifier -/

namespace Scope

variable {scopes : List Scope}

/-- The innermost open association and the side that is next in it, if it has an identifier and a
side is left. An end without an identifier gets one from them. -/
def vacancy? (scopes : List Scope) : Option (String × Side) := do
  let scope ← scopes.head?
  let base ← scope.id
  let side ← Side.ofIndex? scope.ends
  return (base, side)

theorem vacancy?_eq_some_iff {base : String} {side : Side} :
    vacancy? scopes = some (base, side) ↔
      ∃ n, scopes.head? = some { id := some base, ends := n } ∧ Side.ofIndex? n = some side := by
  cases scopes with
  | nil => simp [vacancy?]
  | cons scope outer =>
    obtain ⟨id, ends⟩ := scope
    cases id with
    | none => simp [vacancy?]
    | some base' => cases hside : Side.ofIndex? ends <;> simp [vacancy?, hside]

theorem of_vacancy?_eq_none (h : vacancy? scopes = none) {scope : Scope}
    (hscope : scopes.head? = some scope) : scope.id = none ∨ Side.ofIndex? scope.ends = none := by
  obtain ⟨outer, rfl⟩ := List.head?_eq_some_iff.1 hscope
  obtain ⟨id, ends⟩ := scope
  cases id with
  | none => exact Or.inl rfl
  | some base => cases hside : Side.ofIndex? ends <;> simp_all [vacancy?]

end Scope

namespace Reading

variable {el : Element} {scopes : List Scope}

/-- An end on a side of an association with an identifier gets one from it. -/
theorem ofElement_end_of_side (he : el.IsEnd) (hid : el.id? = none) {base : String} {n : Nat}
    {side : Side} (hscope : scopes.head? = some { id := some base, ends := n })
    (hside : Side.ofIndex? n = some side) :
    ofElement scopes el = .construct (.associationEnd el base side) := by
  obtain ⟨outer, rfl⟩ := List.head?_eq_some_iff.1 hscope
  unfold ofElement
  rw [Element.role_eq_associationEnd_iff.2 he]
  unfold ofEnd
  simp [hid, hside]

/-- An end that no association gives an identifier is passed over. -/
theorem skips_end (he : el.IsEnd) (hid : el.id? = none)
    (hscope : ∀ scope, scopes.head? = some scope →
      scope.id = none ∨ Side.ofIndex? scope.ends = none) : (ofElement scopes el).Skips := by
  unfold ofElement
  rw [Element.role_eq_associationEnd_iff.2 he]
  cases scopes with
  | nil => exact ⟨nofun, by simp [ofEnd, request?, Construct.request?, hid]⟩
  | cons scope outer =>
    have hunplaced : ofEnd (scope :: outer) el = .unplaced scope.ends := by
      unfold ofEnd
      rcases hscope scope rfl with h | h
      · simp [hid, h]
      · simp [hid, h]
    exact ⟨by simp [hunplaced], by simp [hunplaced, request?]⟩

theorem ofElement_end_of_vacancy {base : String} {side : Side} (he : el.IsEnd)
    (hid : el.id? = none) (h : Scope.vacancy? scopes = some (base, side)) :
    ofElement scopes el = .construct (.associationEnd el base side) := by
  obtain ⟨n, hscope, hside⟩ := Scope.vacancy?_eq_some_iff.1 h
  exact ofElement_end_of_side he hid hscope hside

theorem request?_end_of_no_vacancy (he : el.IsEnd) (hid : el.id? = none)
    (h : Scope.vacancy? scopes = none) : (ofElement scopes el).request? = none :=
  (skips_end he hid fun _ hscope => Scope.of_vacancy?_eq_none h hscope).2

end Reading

theorem Side.ofIndex?_of_two_le {n : Nat} (hn : 2 ≤ n) : ofIndex? n = none := by
  match n, hn with
  | n + 2, _ => rfl

namespace Translation

variable {o : Options} {t : Translation} {el : Element}

theorem resolved_end (he : el.IsEnd) (hid : el.id? = none) {base : String} (hbase : base ≠ "")
    {n : Nat} {side : Side} (hscope : t.scopes.head? = some { id := some base, ends := n })
    (hside : Side.ofIndex? n = some side) :
    Resolved o t (.associationEnd el base side) (o.address (endId base side)) (t.start o el) := by
  obtain ⟨r, hr, hrid⟩ : ∃ r, (Construct.associationEnd el base side).request? = some r ∧
      r.id = endId base side := ⟨_, if_neg hbase, rfl⟩
  rw [← hrid]
  exact resolved_start (Reading.ofElement_end_of_side he hid hscope hside) hr

end Translation

theorem Element.id?_ne_empty {el : Element} {id : String} (h : el.id? = some id) : id ≠ "" :=
  ne_empty_of_nonEmpty? h

/-- An association end without an identifier, wherever it starts in a document, reaches the node of
the first or the second side of the nearest association around it, by the number of ends before it
that stand in the same association. It reaches none and leaves the graph alone if it stands in no
association, if that has no identifier, or if two ends have come before. A complete element leaves
the open associations as they were, but for the ends of the innermost one that stand in it. -/
theorem ends_of_forest (o : Options) (f : Forest) :
    (∀ pre el post, f.events = pre ++ .start el :: post → el.IsEnd → el.id? = none →
      ∃ earlier p later, f.places [] 0 = earlier ++ p :: later ∧
        earlier.map (·.element) = Event.elements pre ∧ p.element = el ∧
        (∀ n a base, p.association? = some (n, a) → a.id? = some base →
          (endsIn (some (n, a)) earlier = 0 →
            Translation.Resolved o (.run o pre) (.associationEnd el base .a)
              (o.address (base ++ "-A")) (.run o (pre ++ [.start el]))) ∧
          (endsIn (some (n, a)) earlier = 1 →
            Translation.Resolved o (.run o pre) (.associationEnd el base .b)
              (o.address (base ++ "-B")) (.run o (pre ++ [.start el])))) ∧
        (p.association? = none ∨
            (∃ n a, p.association? = some (n, a) ∧
              (a.id? = none ∨ 2 ≤ endsIn (some (n, a)) earlier)) →
          Translation.Skipped (.run o pre) (.run o (pre ++ [.start el])))) ∧
    ∀ pre (t : Tree), (Translation.run o (pre ++ t.events)).scopes =
      Scope.grow (Translation.run o pre).scopes (endsIn none (t.places [] 0)) := by
  constructor
  · intro pre el post hsplit he hid
    obtain ⟨earlier, p, later, hps, hearlier, hp, hinner⟩ :=
      Scope.innermost_forest Scope.follows_start f hsplit
    refine ⟨earlier, p, later, hps, hearlier, hp, ?_⟩
    have hscope : (Translation.run o pre).scopes.head? =
        p.association?.map fun a => { id := a.2.id?, ends := endsIn (some a) earlier } := by
      rw [Translation.scopes_run]
      exact hinner
    have hstart : Translation.run o (pre ++ [.start el]) = (Translation.run o pre).start o el := by
      rw [Translation.run_append, Translation.extend_cons, Translation.extend_nil,
        Translation.handle_start]
    rw [hstart]
    refine ⟨fun n a base ha hbase => ?_, fun hnone => ?_⟩
    · rw [ha, Option.map_some, hbase] at hscope
      have hne := Element.id?_ne_empty hbase
      refine ⟨fun hzero => ?_, fun hone => ?_⟩
      · rw [hzero] at hscope
        have hside : Side.ofIndex? 0 = some .a := rfl
        have hr : Translation.Resolved o _ _ _ _ :=
          Translation.resolved_end he hid hne hscope hside
        rwa [endId, String.append_assoc] at hr
      · rw [hone] at hscope
        have hside : Side.ofIndex? 1 = some .b := rfl
        have hr : Translation.Resolved o _ _ _ _ :=
          Translation.resolved_end he hid hne hscope hside
        rwa [endId, String.append_assoc] at hr
    · refine Translation.skipped_start (Reading.skips_end he hid fun scope hs => ?_)
      rw [hscope] at hs
      rcases hnone with hnone | ⟨n, a, ha, hcase⟩
      · rw [hnone] at hs
        cases hs
      · rw [ha] at hs
        cases hs
        exact hcase.imp id Side.ofIndex?_of_two_le
  · intro pre t
    have hends := Tree.endsIn_places (Below.nil 0) t
    rw [Translation.run_append, Translation.scopes_extend, Scope.passAll_tree, ← hends]
    rfl

/-- An association end that says nothing about itself. -/
def bareEnd : Element := { tag := "UML:AssociationEnd" }

/-- An association with an identifier. -/
def namedAssociation : Element := { tag := "UML:Association", attributes := [("xmi.id", "a")] }

/-- An association with two ends, and between them an association without an identifier. -/
def nestedEnds : Forest :=
  [.node namedAssociation
    [.node bareEnd [], .node { tag := "UML:Association" } [.node bareEnd []], .node bareEnd []]]

/-- The last end is the second one of the outer association. -/
theorem resolved_last_of_nestedEnds :
    (nestedEnds.events =
        nestedEnds.events.take 7 ++ .start bareEnd :: nestedEnds.events.drop 8 ∧
      bareEnd.IsEnd ∧ bareEnd.id? = none) ∧
    Translation.Resolved {} (.run {} (nestedEnds.events.take 7)) (.associationEnd bareEnd "a" .b)
      (({} : Options).address "a-B") (.run {} (nestedEnds.events.take 7 ++ [.start bareEnd])) := by
  refine ⟨⟨by decide, by decide, by decide⟩, ?_⟩
  obtain ⟨earlier, p, later, hps, hearlier, -, hsides, -⟩ :=
    (ends_of_forest {} nestedEnds).1 (nestedEnds.events.take 7) bareEnd
      (nestedEnds.events.drop 8) (by decide) (by decide) (by decide)
  have hlen : earlier.length = 4 := by
    rw [← List.length_map, hearlier]
    decide
  have htake : earlier = (nestedEnds.places [] 0).take 4 := by
    rw [hps, List.take_left' hlen]
  have hget : (nestedEnds.places [] 0)[4]? = some p := by
    rw [hps, List.getElem?_append_right (by omega), hlen]
    rfl
  have hp : p = ⟨bareEnd, [(0, namedAssociation)]⟩ := Option.some.inj (hget.symm.trans (by decide))
  subst hp
  exact (hsides 0 namedAssociation "a" (by decide) (by decide)).2 (by rw [htake]; decide)

end UmlOntology
