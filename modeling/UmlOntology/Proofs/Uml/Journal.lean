/-
The journal of a run against the graph and the totals that it leaves. Where a node comes to be, or
gets the kind that was left open, or is demanded in vain, this goes on record, and nothing else of a
demand does. So the journal tells the addresses of the nodes in their order and the kind of each; and
it has a record for each element that was passed over.
-/
import UmlOntology.Proofs.Uml.Kinds
import UmlOntology.Proofs.Uml.Scopes

namespace UmlOntology

/-! ## Records -/

namespace Record

/-- The address at which a node came to be. -/
def creation? : Record → Option Iri
  | created a _ => some a
  | _ => none

/-- The address at which a kind was settled. -/
def settlement? : Record → Option Iri
  | settled a _ => some a
  | _ => none

/-- The record is about a node. -/
def OfNode : Record → Prop
  | created .. | settled .. | reused .. => True
  | _ => False

/-- The record is about an element that was passed over. -/
def IsSkip : Record → Prop
  | skipped _ => True
  | _ => False

instance : DecidablePred IsSkip := fun r => by
  cases r <;> unfold IsSkip <;> infer_instance

variable {rs before : List Record} {x y : Record} {a : Iri}

theorem not_isSkip_of_ofNode (hx : x.OfNode) : ¬ x.IsSkip := by
  cases x <;> first | exact id | exact hx.elim

theorem mem_creations_iff : a ∈ rs.filterMap creation? ↔ ∃ k, .created a k ∈ rs := by
  rw [List.mem_filterMap]
  constructor
  · rintro ⟨x, hx, ha⟩
    cases x with
    | created b k =>
      cases ha
      exact ⟨k, hx⟩
    | _ => cases ha
  · rintro ⟨k, hk⟩
    exact ⟨_, hk, rfl⟩

theorem mem_settlements_iff : a ∈ rs.filterMap settlement? ↔ ∃ k, .settled a k ∈ rs := by
  rw [List.mem_filterMap]
  constructor
  · rintro ⟨x, hx, ha⟩
    cases x with
    | settled b k =>
      cases ha
      exact ⟨k, hx⟩
    | _ => cases ha
  · rintro ⟨k, hk⟩
    exact ⟨_, hk, rfl⟩

/-! A journal that goes on with one record has the others in front of it. -/

theorem filterMap_snoc_none {f : Record → Option Iri} (h : f x = none) :
    (rs ++ [x]).filterMap f = rs.filterMap f := by
  rw [List.filterMap_append, List.filterMap_cons_none h, List.filterMap_nil, List.append_nil]

theorem mem_of_ne (h : y ∈ rs ++ [x]) (hne : y ≠ x) : y ∈ rs :=
  (List.mem_append.1 h).resolve_right fun hy => hne (List.mem_singleton.1 hy)

theorem prefix_of_ne (h : before ++ [y] <+: rs ++ [x]) (hne : y ≠ x) : before ++ [y] <+: rs := by
  refine (List.prefix_concat_iff.1 h).resolve_left fun heq => hne ?_
  exact List.singleton_inj.1 (List.append_inj' heq rfl).2

end Record

namespace Graph

variable {g h : Graph} {a : Iri} {k l : Kind} {rs xs : List Record}

/-! ## What a demand changes and what it puts on record -/

/-- The kind of the node at an address. -/
def kind? (g : Graph) (a : Iri) : Option Kind := (g.get? a).map (·.kind)

theorem kind?_eq_none (ha : a ∉ g) : g.kind? a = none := by
  unfold kind?
  rw [get?_eq_none_iff.2 ha]
  rfl

theorem kind?_realize (g : Graph) (o : Options) (r : Request) :
    (g.realize o r).kind? =
      Function.update g.kind? (o.address r.id)
        (some ((g.kindAt (o.address r.id)).settle r.kind)) := by
  funext b
  unfold kind?
  rw [get?_realize]
  by_cases hb : b = o.address r.id
  · subst hb
    rw [if_pos rfl, Function.update_self, Option.map_some, Node.kind_addAll]
    rfl
  · rw [if_neg hb, Function.update_of_ne hb]

/-- The records tell how the addresses and the kinds of the other graph differ. -/
inductive Notes (g h : Graph) : List Record → Prop
  | created {a : Iri} {k : Kind} : a ∉ g → h.addresses = g.addresses ++ [a] →
      h.kind? = Function.update g.kind? a (some k) → Notes g h [.created a k]
  | settled {a : Iri} {k : Kind} : g.kind? a = some .unknown → k ≠ .unknown →
      h.addresses = g.addresses → h.kind? = Function.update g.kind? a (some k) →
      Notes g h [.settled a k]
  | reused {a : Iri} {k l : Kind} : g.kind? a = some k → k ≠ .unknown → l ≠ k → l ≠ .unknown →
      h.addresses = g.addresses → h.kind? = g.kind? → Notes g h [.reused a k l]
  | silent {xs : List Record} : (∀ x ∈ xs, ¬ x.OfNode) → h.addresses = g.addresses →
      h.kind? = g.kind? → Notes g h xs

theorem notes_realize (g : Graph) (o : Options) (r : Request) :
    g.Notes (g.realize o r) (g.demandRecord? (o.address r.id) r.kind).toList := by
  have hkind := kind?_realize g o r
  have haddr := addresses_realize g o r
  generalize o.address r.id = a at hkind haddr
  unfold demandRecord?
  cases hn : g.get? a with
  | none =>
    have ha : a ∉ g := get?_eq_none_iff.1 hn
    have hopen : g.kindAt a = .unknown := by rw [kindAt, nodeAt, hn]; rfl
    rw [hopen, Kind.unknown_settle] at hkind
    rw [if_neg ha] at haddr
    exact .created ha haddr hkind
  | some n =>
    have hold : g.kind? a = some n.kind := by rw [kind?, hn]; rfl
    rw [if_pos (mem_of_get? hn)] at haddr
    rw [kindAt_of_get? hn] at hkind
    -- where the kind is settled already, the demand changes none
    have hsame : n.kind.settle r.kind = n.kind → (g.realize o r).kind? = g.kind? := by
      intro hsettle
      rw [hkind, hsettle, ← hold, Function.update_eq_self]
    by_cases hmet : n.kind = r.kind ∨ r.kind = .unknown
    · simp only [if_pos hmet]
      refine .silent (List.forall_mem_nil _) haddr (hsame ?_)
      rcases hmet with hmet | hmet
      · rw [← hmet]
        unfold Kind.settle
        split <;> rfl
      · rw [hmet, Kind.settle_unknown]
    · obtain ⟨hother, hknown⟩ := not_or.1 hmet
      simp only [if_neg hmet]
      by_cases hopen : n.kind = .unknown
      · have hsome : n.kind.IsOpen := hopen
        simp only [if_pos hsome]
        rw [hopen, Kind.unknown_settle] at hkind
        exact .settled (hopen ▸ hold) hknown haddr hkind
      · have hsome : ¬ n.kind.IsOpen := hopen
        simp only [if_neg hsome]
        exact .reused hold hopen (Ne.symm hother) hknown haddr
          (hsame (Kind.settle_of_known hopen _))

/-! ## What a journal tells -/

/-- The journal tells the addresses of the graph in their order, each once, and the kind of every
node: the one that was settled, after the node came to be with its kind open, or else the one that
the node came to be with. What it says of a demand in vain is true of the node. -/
structure Told (g : Graph) (rs : List Record) : Prop where
  created : rs.filterMap Record.creation? = g.addresses
  once : g.addresses.Nodup
  settledOnce : (rs.filterMap Record.settlement?).Nodup
  settledLater : ∀ before a k, before ++ [.settled a k] <+: rs → .created a .unknown ∈ before
  settled : ∀ a k, .settled a k ∈ rs → g.kind? a = some k ∧ k ≠ .unknown
  unsettled : ∀ a k, .created a k ∈ rs → (∀ l, .settled a l ∉ rs) → g.kind? a = some k
  reused : ∀ a k l, .reused a k l ∈ rs → g.kind? a = some k ∧ k ≠ .unknown ∧ l ≠ k ∧ l ≠ .unknown

namespace Told

theorem empty : Told {} [] where
  created := rfl
  once := List.nodup_nil
  settledOnce := List.nodup_nil
  settledLater before a k h := by simp at h
  settled := nofun
  unsettled := nofun
  reused := nofun

/-- A node whose kind is open came to be with its kind open, and no kind was settled since. -/
theorem of_open (ht : g.Told rs) (ha : g.kind? a = some .unknown) :
    .created a .unknown ∈ rs ∧ ∀ k, .settled a k ∉ rs := by
  have hnone : ∀ k, .settled a k ∉ rs := by
    intro k hk
    obtain ⟨hkind, hknown⟩ := ht.settled a k hk
    rw [ha] at hkind
    exact hknown (Option.some.inj hkind).symm
  refine ⟨?_, hnone⟩
  have hmem : a ∈ g := by
    by_contra hmissing
    rw [kind?_eq_none hmissing] at ha
    cases ha
  rw [mem_iff_addresses, ← ht.created] at hmem
  obtain ⟨k, hk⟩ := Record.mem_creations_iff.1 hmem
  have hkind := ht.unsettled a k hk hnone
  rw [ha] at hkind
  rwa [← Option.some.inj hkind] at hk

theorem snoc_created (ht : g.Told rs) (ha : a ∉ g) (haddr : h.addresses = g.addresses ++ [a])
    (hkind : h.kind? = Function.update g.kind? a (some k)) : h.Told (rs ++ [.created a k]) := by
  -- the nodes that were there keep their kinds
  have hkeep : ∀ b l, g.kind? b = some l → h.kind? b = some l := by
    intro b l hb
    have hne : b ≠ a := by
      rintro rfl
      rw [kind?_eq_none ha] at hb
      cases hb
    rw [hkind, Function.update_of_ne hne, hb]
  refine ⟨?_, ?_, ?_, fun before b l hpre => ?_, fun b l hb => ?_, fun b l hb hno => ?_,
    fun b l m hb => ?_⟩
  · rw [List.filterMap_append, ht.created, haddr]
    rfl
  · rw [haddr]
    rw [mem_iff_addresses] at ha
    exact List.nodup_append.2 ⟨ht.once, List.nodup_singleton a, by
      rintro b hb c hc rfl
      exact ha (List.mem_singleton.1 hc ▸ hb)⟩
  · rw [Record.filterMap_snoc_none rfl]
    exact ht.settledOnce
  · exact ht.settledLater before b l (Record.prefix_of_ne hpre nofun)
  · obtain ⟨hb, hknown⟩ := ht.settled b l (Record.mem_of_ne hb nofun)
    exact ⟨hkeep b l hb, hknown⟩
  · rcases List.mem_append.1 hb with hb | hb
    · exact hkeep b l (ht.unsettled b l hb fun m hm => hno m (List.mem_append_left _ hm))
    · cases List.mem_singleton.1 hb
      rw [hkind, Function.update_self]
  · obtain ⟨hb, hrest⟩ := ht.reused b l m (Record.mem_of_ne hb nofun)
    exact ⟨hkeep b l hb, hrest⟩

theorem snoc_settled (ht : g.Told rs) (ha : g.kind? a = some .unknown) (hk : k ≠ .unknown)
    (haddr : h.addresses = g.addresses) (hkind : h.kind? = Function.update g.kind? a (some k)) :
    h.Told (rs ++ [.settled a k]) := by
  obtain ⟨hborn, hfirst⟩ := ht.of_open ha
  -- the kinds that were settled before stay
  have hkeep : ∀ b l, g.kind? b = some l → l ≠ .unknown → h.kind? b = some l := by
    intro b l hb hl
    have hne : b ≠ a := by
      rintro rfl
      rw [ha] at hb
      exact hl (Option.some.inj hb).symm
    rw [hkind, Function.update_of_ne hne, hb]
  refine ⟨?_, ?_, ?_, fun before b l hpre => ?_, fun b l hb => ?_, fun b l hb hno => ?_,
    fun b l m hb => ?_⟩
  · rw [Record.filterMap_snoc_none rfl, haddr]
    exact ht.created
  · rw [haddr]
    exact ht.once
  · rw [List.filterMap_append]
    refine List.nodup_append.2 ⟨ht.settledOnce, List.nodup_singleton a, ?_⟩
    rintro b hb c hc rfl
    rw [List.mem_singleton.1 hc] at hb
    obtain ⟨l, hl⟩ := Record.mem_settlements_iff.1 hb
    exact hfirst l hl
  · rcases List.prefix_concat_iff.1 hpre with heq | hpre
    · obtain ⟨rfl, hlast⟩ := List.append_inj' heq rfl
      cases hlast
      exact hborn
    · exact ht.settledLater before b l hpre
  · rcases List.mem_append.1 hb with hb | hb
    · obtain ⟨hb, hl⟩ := ht.settled b l hb
      exact ⟨hkeep b l hb hl, hl⟩
    · cases List.mem_singleton.1 hb
      exact ⟨by rw [hkind, Function.update_self], hk⟩
  · have hne : b ≠ a := by
      rintro rfl
      exact hno k (List.mem_append_right _ (List.mem_singleton_self _))
    rw [hkind, Function.update_of_ne hne]
    exact ht.unsettled b l (Record.mem_of_ne hb nofun)
      fun m hm => hno m (List.mem_append_left _ hm)
  · obtain ⟨hb, hl, hrest⟩ := ht.reused b l m (Record.mem_of_ne hb nofun)
    exact ⟨hkeep b l hb hl, hl, hrest⟩

theorem snoc_reused (ht : g.Told rs) (ha : g.kind? a = some k) (hk : k ≠ .unknown) (hl : l ≠ k)
    (hl' : l ≠ .unknown) : g.Told (rs ++ [.reused a k l]) := by
  refine ⟨?_, ht.once, ?_, fun before b m hpre => ?_, fun b m hb => ?_, fun b m hb hno => ?_,
    fun b m m' hb => ?_⟩
  · rw [Record.filterMap_snoc_none rfl]
    exact ht.created
  · rw [Record.filterMap_snoc_none rfl]
    exact ht.settledOnce
  · exact ht.settledLater before b m (Record.prefix_of_ne hpre nofun)
  · exact ht.settled b m (Record.mem_of_ne hb nofun)
  · exact ht.unsettled b m (Record.mem_of_ne hb nofun)
      fun m hm => hno m (List.mem_append_left _ hm)
  · rcases List.mem_append.1 hb with hb | hb
    · exact ht.reused b m m' hb
    · cases List.mem_singleton.1 hb
      exact ⟨ha, hk, hl, hl'⟩

theorem snoc_silent (ht : g.Told rs) {x : Record} (hx : ¬ x.OfNode) : g.Told (rs ++ [x]) := by
  have hcreation : x.creation? = none := by cases x <;> first | rfl | exact (hx trivial).elim
  have hsettlement : x.settlement? = none := by cases x <;> first | rfl | exact (hx trivial).elim
  have hne : ∀ y : Record, y.OfNode → y ≠ x := by
    rintro y hy rfl
    exact hx hy
  refine ⟨?_, ht.once, ?_, fun before a k hpre => ?_, fun a k ha => ?_, fun a k ha hno => ?_,
    fun a k l ha => ?_⟩
  · rw [Record.filterMap_snoc_none hcreation]
    exact ht.created
  · rw [Record.filterMap_snoc_none hsettlement]
    exact ht.settledOnce
  · exact ht.settledLater before a k (Record.prefix_of_ne hpre (hne _ trivial))
  · exact ht.settled a k (Record.mem_of_ne ha (hne _ trivial))
  · exact ht.unsettled a k (Record.mem_of_ne ha (hne _ trivial))
      fun l hl => hno l (List.mem_append_left _ hl)
  · exact ht.reused a k l (Record.mem_of_ne ha (hne _ trivial))

theorem append_silent (ht : g.Told rs) (hxs : ∀ x ∈ xs, ¬ x.OfNode) : g.Told (rs ++ xs) := by
  induction xs generalizing rs with
  | nil => rwa [List.append_nil]
  | cons x xs ih =>
    obtain ⟨hx, hxs⟩ := List.forall_mem_cons.1 hxs
    rw [List.append_cons]
    exact ih (ht.snoc_silent hx) hxs

/-- Only addresses and kinds are told. -/
theorem congr (ht : g.Told rs) (haddr : h.addresses = g.addresses) (hkind : h.kind? = g.kind?) :
    h.Told rs where
  created := ht.created.trans haddr.symm
  once := haddr ▸ ht.once
  settledOnce := ht.settledOnce
  settledLater := ht.settledLater
  settled := hkind ▸ ht.settled
  unsettled := hkind ▸ ht.unsettled
  reused := hkind ▸ ht.reused

/-- A journal that goes on by what tells a difference tells the other graph. -/
theorem append (ht : g.Told rs) (hxs : g.Notes h xs) : h.Told (rs ++ xs) := by
  cases hxs with
  | created ha haddr hkind => exact ht.snoc_created ha haddr hkind
  | settled ha hk haddr hkind => exact ht.snoc_settled ha hk haddr hkind
  | reused ha hk hl hl' haddr hkind => exact (ht.snoc_reused ha hk hl hl').congr haddr hkind
  | silent hxs haddr hkind => exact (ht.append_silent hxs).congr haddr hkind

/-- Graphs that one journal tells have the same addresses and kinds. -/
theorem unique (hg : g.Told rs) (hh : h.Told rs) : g.addresses = h.addresses ∧ g.kind? = h.kind? := by
  have haddr : g.addresses = h.addresses := hg.created.symm.trans hh.created
  refine ⟨haddr, funext fun a => ?_⟩
  by_cases ha : a ∈ g
  · rw [mem_iff_addresses, ← hg.created] at ha
    obtain ⟨k, hk⟩ := Record.mem_creations_iff.1 ha
    by_cases hno : ∀ l, .settled a l ∉ rs
    · rw [hg.unsettled a k hk hno, hh.unsettled a k hk hno]
    · obtain ⟨l, hl⟩ := not_forall_not.1 hno
      rw [(hg.settled a l hl).1, (hh.settled a l hl).1]
  · have ha' : a ∉ h := by
      rw [mem_iff_addresses] at ha ⊢
      rwa [← haddr]
    rw [kind?_eq_none ha, kind?_eq_none ha']

end Told

theorem ofNode_of_demandRecord? {x : Record} (hx : g.demandRecord? a k = some x) : x.OfNode := by
  unfold demandRecord? at hx
  split at hx
  · cases hx
    trivial
  · split at hx
    · cases hx
    · split at hx <;> cases hx <;> trivial

end Graph

/-! ## What an element puts on record -/

namespace Reading

variable {scopes : List Scope} {el : Element}

/-- What is read as a construct and asks for nothing says nothing of its own on record. -/
theorem records_of_none {c : Construct} (hc : ofElement scopes el = .construct c)
    (hr : c.request? = none) (o : Options) (g : Graph) : c.records o g = [] := by
  unfold Construct.records
  rw [hr]
  cases c with
  | association id =>
    have hid : el.id? = some id := of_ofElement hc
    rw [Construct.request?, if_neg (Element.id?_ne_empty hid)] at hr
    cases hr
  | _ => rfl

end Reading

namespace Translation

variable {o : Options} {t : Translation} {el : Element} {rs : List Record}

/-- A start puts on record what the demand does, or nothing, or that the element is passed over. -/
theorem startRecords_cases (o : Options) (t : Translation) (el : Element) :
    (∃ r, (t.reading el).request? = some r ∧
      t.startRecords o el = (t.graph.demandRecord? (o.address r.id) r.kind).toList) ∨
    (t.reading el = .structural ∧ t.startRecords o el = []) ∨
    (t.reading el).Skips ∧ (t.startRecords o el = [.skipped el.tag] ∨
      ∃ i, t.startRecords o el = [.unplacedEnd i, .skipped el.tag]) := by
  unfold startRecords
  cases hread : t.reading el with
  | structural => exact Or.inr (Or.inl ⟨rfl, rfl⟩)
  | incomplete => exact Or.inr (Or.inr ⟨⟨nofun, rfl⟩, Or.inl rfl⟩)
  | unplaced i => exact Or.inr (Or.inr ⟨⟨nofun, rfl⟩, Or.inr ⟨i, rfl⟩⟩)
  | construct c =>
    cases hr : c.request? with
    | some r =>
      refine Or.inl ⟨r, hr, ?_⟩
      simp [Construct.records, hr]
    | none =>
      refine Or.inr (Or.inr ⟨⟨nofun, hr⟩, Or.inl ?_⟩)
      simp [Reading.records_of_none hread hr, hr]

theorem notes_handle (o : Options) (t : Translation) (e : Event) :
    t.graph.Notes (t.handle o e).graph (t.records o e) := by
  cases e with
  | finish tag =>
    rw [handle_finish, graph_finish]
    exact .silent (List.forall_mem_nil _) rfl rfl
  | start el =>
    rw [handle_start, records]
    rcases startRecords_cases o t el with ⟨r, hr, hrec⟩ | ⟨hs, hrec⟩ | ⟨⟨-, hr⟩, hrec⟩
    · rw [hrec, graph_start_of_some hr]
      exact Graph.notes_realize t.graph o r
    · rw [reading] at hs
      rw [hrec, graph_start_of_none (by rw [hs]; rfl)]
      exact .silent (List.forall_mem_nil _) rfl rfl
    · rw [graph_start_of_none hr]
      refine .silent (fun x hx => ?_) rfl rfl
      rcases hrec with hrec | ⟨i, hrec⟩ <;> rw [hrec] at hx
      · cases List.mem_singleton.1 hx
        exact id
      · rcases List.mem_cons.1 hx with rfl | hx
        · exact id
        · cases List.mem_singleton.1 hx
          exact id

end Translation

/-! ## Elements that are passed over -/

/-- The total of elements that were passed over counts the readings that skip. -/
theorem Totals.skipped_count (t : Totals) (r : Reading) :
    (t.count r).skipped = t.skipped + if r.Skips then 1 else 0 := by
  have hcount := foldl_count t [r]
  rw [List.foldl_cons, List.foldl_nil] at hcount
  rw [hcount, List.countP_singleton]
  simp

/-- Every end without a place is passed over at once, and no association is without a name. -/
structure Orderly (rs : List Record) : Prop where
  unplaced : ∀ before i after, rs = before ++ .unplacedEnd i :: after →
    ∃ tag rest, after = .skipped tag :: rest
  named : .namelessAssociation ∉ rs

namespace Orderly

variable {rs xs : List Record}

theorem append (hrs : Orderly rs) (hxs : Orderly xs) : Orderly (rs ++ xs) := by
  refine ⟨fun before i after heq => ?_, fun hmem => ?_⟩
  · rcases List.append_eq_append_iff.1 heq with ⟨back, -, hback⟩ | ⟨front, hfront, hafter⟩
    · exact hxs.unplaced back i after hback
    · cases front with
      | nil => exact hxs.unplaced [] i after hafter.symm
      | cons x front =>
        obtain ⟨rfl, rfl⟩ := List.cons.inj hafter
        obtain ⟨tag, rest, rfl⟩ := hrs.unplaced before i front hfront
        exact ⟨tag, rest ++ xs, rfl⟩
  · exact (List.mem_append.1 hmem).elim hrs.named hxs.named

theorem of_ofNode (h : ∀ x ∈ xs, x.OfNode) : Orderly xs where
  unplaced before i after heq := (h (.unplacedEnd i) (by simp [heq])).elim
  named hmem := h _ hmem

theorem skip (tag : String) : Orderly [.skipped tag] where
  unplaced before i after heq := by
    have hmem : Record.unplacedEnd i ∈ [Record.skipped tag] := by simp [heq]
    cases List.mem_singleton.1 hmem
  named := by simp

theorem unplacedSkip (i : Nat) (tag : String) : Orderly [.unplacedEnd i, .skipped tag] where
  unplaced before j after heq := by
    cases before with
    | nil => exact ⟨tag, [], (List.cons.inj heq).2.symm⟩
    | cons x before => exact ((skip tag).unplaced before j after (List.cons.inj heq).2)
  named := by simp

end Orderly

namespace Translation

variable {o : Options} {t : Translation}

theorem orderly_records (o : Options) (t : Translation) (e : Event) : Orderly (t.records o e) := by
  cases e with
  | finish tag => exact .of_ofNode (List.forall_mem_nil _)
  | start el =>
    rw [records]
    rcases startRecords_cases o t el with ⟨r, -, hrec⟩ | ⟨-, hrec⟩ | ⟨-, hrec | ⟨i, hrec⟩⟩
    · rw [hrec]
      exact .of_ofNode fun x hx => Graph.ofNode_of_demandRecord? (Option.mem_toList.1 hx)
    · rw [hrec]
      exact .of_ofNode (List.forall_mem_nil _)
    · rw [hrec]
      exact .skip el.tag
    · rw [hrec]
      exact .unplacedSkip i el.tag

/-- An event adds as many to the total of elements passed over as it puts on record. -/
theorem skipped_handle (o : Options) (t : Translation) (e : Event) :
    (t.handle o e).totals.skipped =
      t.totals.skipped + (t.records o e).countP fun x => x.IsSkip := by
  cases e with
  | finish tag => rfl
  | start el =>
    rw [handle_start, totals_start, Totals.skipped_count, records]
    refine congrArg (t.totals.skipped + ·) ?_
    show (if (t.reading el).Skips then 1 else 0) = _
    rcases startRecords_cases o t el with ⟨r, hr, hrec⟩ | ⟨hs, hrec⟩ | ⟨hskips, hrec | ⟨i, hrec⟩⟩
    · have hno : ¬ (t.reading el).Skips := fun h => by
        rw [h.2] at hr
        cases hr
      rw [if_neg hno, hrec, eq_comm, List.countP_eq_zero]
      intro x hx
      have hnode := Graph.ofNode_of_demandRecord? (Option.mem_toList.1 hx)
      simpa using Record.not_isSkip_of_ofNode hnode
    · have hno : ¬ (t.reading el).Skips := fun h => h.1 hs
      rw [if_neg hno, hrec]
      rfl
    · rw [if_pos hskips, hrec]
      rfl
    · rw [if_pos hskips, hrec]
      rfl

/-! ## Runs -/

/-- The journal tells the graph and accounts for the elements that were passed over. -/
structure Told (t : Translation) (rs : List Record) : Prop where
  graph : t.graph.Told rs
  skipped : (rs.countP fun x => x.IsSkip) = t.totals.skipped
  orderly : Orderly rs

variable {rs : List Record}

theorem told_handle (ht : t.Told rs) (e : Event) : (t.handle o e).Told (rs ++ t.records o e) where
  graph := ht.graph.append (notes_handle o t e)
  skipped := by rw [List.countP_append, ht.skipped, skipped_handle]
  orderly := ht.orderly.append (orderly_records o t e)

theorem told_extend (ht : t.Told rs) (es : List Event) :
    (extend o t es).Told (rs ++ journal o t es) := by
  induction es generalizing t rs with
  | nil =>
    rw [journal, List.append_nil]
    exact ht
  | cons e es ih =>
    rw [journal, ← List.append_assoc]
    exact ih (told_handle ht e)

theorem told_run (o : Options) (es : List Event) : (run o es).Told (journal o {} es) := by
  have hempty : Told {} [] := ⟨.empty, rfl, .of_ofNode (List.forall_mem_nil _)⟩
  exact told_extend hempty es

end Translation

/-- Under whatever settings and through whatever events, the journal of a translation tells the nodes
of its graph in their order with their kinds, and accounts for the elements that were passed over. So
translations with one journal have the same nodes of the same kinds. -/
theorem journal_of_run :
    (∀ o es, (Translation.run o es).Told (Translation.journal o {} es)) ∧
    ∀ o es o' es', Translation.journal o {} es = Translation.journal o' {} es' →
      (Translation.run o es).graph.addresses = (Translation.run o' es').graph.addresses ∧
        (Translation.run o es).graph.kind? = (Translation.run o' es').graph.kind? := by
  refine ⟨Translation.told_run, fun o es o' es' heq => ?_⟩
  have htold := (Translation.told_run o es).graph
  rw [heq] at htold
  exact htold.unique (Translation.told_run o' es').graph

/-- A class that is referred to before and declared as a datatype after, and an end of an association
without an identifier. -/
def everyRecord (name : String) : List Event :=
  [.start { tag := "Package", attributes := [("xmi.idref", "c")] },
    .start { tag := "Class", attributes := [("xmi.id", "c"), ("name", name)] },
    .start { tag := "DataType", attributes := [("xmi.id", "c"), ("name", name)] },
    .start { tag := "Association" }, .start { tag := "AssociationEnd" }]

/-- Neither the name nor the identifier that is kept is in the journal. -/
theorem journal_of_everyRecord :
    let a := Options.address {} "c"
    Translation.journal {} {} (everyRecord "C") =
      [.created a .unknown, .settled a .concept, .reused a .concept .datatype,
        .skipped "Association", .unplacedEnd 0, .skipped "AssociationEnd"] ∧
    Translation.journal {} {} (everyRecord "C") =
      Translation.journal { keepIds := false } {} (everyRecord "D") ∧
    (Translation.run {} (everyRecord "C")).graph.kind? a = some .concept ∧
    (Translation.run {} (everyRecord "C")).graph.kind? =
      (Translation.run { keepIds := false } (everyRecord "D")).graph.kind? := by
  intro a
  have hrecords : Translation.journal {} {} (everyRecord "C") =
      [.created a .unknown, .settled a .concept, .reused a .concept .datatype,
        .skipped "Association", .unplacedEnd 0, .skipped "AssociationEnd"] := by decide
  have hsame : Translation.journal {} {} (everyRecord "C") =
      Translation.journal { keepIds := false } {} (everyRecord "D") := by decide
  have htold := journal_of_run.1 {} (everyRecord "C")
  refine ⟨hrecords, hsame, ?_, (journal_of_run.2 {} _ { keepIds := false } _ hsame).2⟩
  exact (htold.graph.settled a .concept (by rw [hrecords]; simp)).1

end UmlOntology
