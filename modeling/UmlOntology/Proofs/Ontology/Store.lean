/-
The graph as a store of nodes by address. The main statements say what a change and a demand do to
the look-up at every address and to the list of addresses: one address is concerned, and every
other look-up stays. From them follow growth (no node is lost, moved or shortened) and the
uniqueness of addresses and edges.
-/
import UmlOntology.Proofs.Ontology.Node
import Mathlib.Data.List.Nodup

namespace UmlOntology

/-- A node of which nothing is known but its address. -/
def Node.blank (a : Iri) : Node := { address := a, kind := .unknown }

@[simp] theorem Node.demand_blank (a : Iri) (k : Kind) :
    (blank a).demand k = { address := a, kind := k } := rfl

namespace Graph

variable {g h : Graph} {a b : Iri} {n : Node} {k : Kind}

/-! ## Look-up -/

theorem mem_iff_addresses : a ∈ g ↔ a ∈ g.addresses := by
  show (∃ n ∈ g.nodes, n.address = a) ↔ _
  simp only [addresses, List.mem_map]

theorem mem_iff_get? : a ∈ g ↔ (g.get? a).isSome := by
  show (∃ n ∈ g.nodes, n.address = a) ↔ _
  simp [get?, List.find?_isSome]

theorem get?_eq_none_iff : g.get? a = none ↔ a ∉ g := by
  rw [mem_iff_get?, Option.not_isSome_iff_eq_none]

theorem mem_of_get? (hn : g.get? a = some n) : a ∈ g := by
  rw [mem_iff_get?, hn]
  rfl

theorem address_of_get? (hn : g.get? a = some n) : n.address = a := by
  simpa using List.find?_some hn

theorem get?_cons (n : Node) (ns : List Node) (b : Iri) :
    get? ⟨n :: ns⟩ b = if n.address = b then some n else get? ⟨ns⟩ b := by
  unfold get?
  by_cases hb : n.address = b
  · simp [hb]
  · simp [hb]

/-- With one node at an address, every node is the one that is found at its address. -/
theorem get?_of_mem (hu : g.addresses.Nodup) (hn : n ∈ g.nodes) : g.get? n.address = some n := by
  cases hf : g.get? n.address with
  | none => exact absurd ⟨n, hn, rfl⟩ (get?_eq_none_iff.1 hf)
  | some m =>
    have hm : m ∈ g.nodes := List.mem_of_find?_eq_some hf
    rw [List.inj_on_of_nodup_map hu hm hn (address_of_get? hf)]

/-! ## Changes -/

section Change

variable {f : Node → Node}

theorem addresses_changeAt (hf : ∀ n, (f n).address = n.address) (a : Iri) (ns : List Node) :
    (changeAt a f ns).map (·.address) = ns.map (·.address) := by
  induction ns with
  | nil => rfl
  | cons n ns ih =>
    unfold changeAt
    split
    · simp [hf]
    · simp [ih]

theorem addresses_change (hf : ∀ n, (f n).address = n.address) (g : Graph) (a : Iri) :
    (g.change a f).addresses = g.addresses :=
  addresses_changeAt hf a g.nodes

/-- A change concerns one address. -/
theorem get?_change (hf : ∀ n, (f n).address = n.address) (g : Graph) (a b : Iri) :
    (g.change a f).get? b = if b = a then (g.get? a).map f else g.get? b := by
  obtain ⟨ns⟩ := g
  show get? ⟨changeAt a f ns⟩ b = _
  -- the change stops at the first node at `a`, which is the one that the look-up finds
  induction ns with
  | nil => split <;> rfl
  | cons n ns ih =>
    unfold changeAt
    by_cases hn : n.address = a
    · rw [if_pos hn, get?_cons, hf, hn]
      by_cases hb : b = a
      · rw [if_pos hb, if_pos hb.symm, get?_cons, if_pos hn]
        rfl
      · rw [if_neg hb, if_neg (Ne.symm hb), get?_cons, hn, if_neg (Ne.symm hb)]
    · rw [if_neg hn, get?_cons, ih, get?_cons n ns a, if_neg hn, get?_cons n ns b]
      by_cases hb : b = a
      · rw [if_pos hb, if_pos hb, if_neg (fun h => hn (h.trans hb))]
      · rw [if_neg hb, if_neg hb]

theorem mem_change_iff (hf : ∀ n, (f n).address = n.address) : b ∈ g.change a f ↔ b ∈ g := by
  rw [mem_iff_addresses, addresses_change hf, mem_iff_addresses]

/-- A change is what it does to the node that is found. -/
theorem change_congr {f' : Node → Node} (hf : ∀ n, g.get? a = some n → f n = f' n) :
    g.change a f = g.change a f' := by
  obtain ⟨ns⟩ := g
  suffices changeAt a f ns = changeAt a f' ns by
    unfold change
    rw [this]
  induction ns with
  | nil => rfl
  | cons n ns ih =>
    unfold changeAt
    by_cases hn : n.address = a
    · rw [if_pos hn, if_pos hn, hf n (by rw [get?_cons, if_pos hn])]
    · rw [if_neg hn, if_neg hn, ih]
      intro m hm
      exact hf m (by rw [get?_cons, if_neg hn]; exact hm)

theorem change_id (g : Graph) (a : Iri) : (g.change a fun n => n) = g := by
  obtain ⟨ns⟩ := g
  suffices changeAt a (fun n => n) ns = ns by
    unfold change
    rw [this]
  induction ns with
  | nil => rfl
  | cons n ns ih =>
    unfold changeAt
    rw [ih]
    split <;> rfl

/-- A change that finds nothing to do leaves the graph as it is. -/
theorem change_eq_self (hf : ∀ n, g.get? a = some n → f n = n) : g.change a f = g :=
  (change_congr hf).trans (change_id g a)

theorem change_of_not_mem (ha : a ∉ g) (f : Node → Node) : g.change a f = g :=
  change_eq_self fun _ hn => absurd (mem_of_get? hn) ha

theorem change_congr_of_get? {f' : Node → Node} (hn : g.get? a = some n) (hf : f n = f' n) :
    g.change a f = g.change a f' := by
  refine change_congr fun m hm => ?_
  rw [hn] at hm
  cases hm
  exact hf

theorem change_eq_self_of_get? (hn : g.get? a = some n) (hf : f n = n) : g.change a f = g :=
  (change_congr_of_get? hn hf).trans (change_id g a)

/-- A change is made in the place of the node that is found. -/
theorem change_of_get? (hn : g.get? a = some n) :
    ∃ front back, g.nodes = front ++ n :: back ∧ ∀ f, g.change a f = ⟨front ++ f n :: back⟩ := by
  obtain ⟨ns⟩ := g
  suffices ∃ front back, ns = front ++ n :: back ∧ ∀ f, changeAt a f ns = front ++ f n :: back by
    obtain ⟨front, back, hold, hnew⟩ := this
    exact ⟨front, back, hold, fun f => congrArg Graph.mk (hnew f)⟩
  induction ns with
  | nil => cases hn
  | cons m ns ih =>
    rw [get?_cons] at hn
    by_cases hm : m.address = a
    · rw [if_pos hm] at hn
      cases hn
      exact ⟨[], ns, rfl, fun f => if_pos hm⟩
    · rw [if_neg hm] at hn
      obtain ⟨front, back, hold, hnew⟩ := ih hn
      refine ⟨m :: front, back, by rw [hold]; rfl, fun f => ?_⟩
      rw [changeAt, if_neg hm, hnew]
      rfl

theorem change_change {f' : Node → Node} (hf : ∀ n, (f n).address = n.address) (g : Graph)
    (a : Iri) : (g.change a f).change a f' = g.change a fun n => f' (f n) := by
  obtain ⟨ns⟩ := g
  suffices changeAt a f' (changeAt a f ns) = changeAt a (fun n => f' (f n)) ns by
    unfold change
    rw [this]
  induction ns with
  | nil => rfl
  | cons n ns ih =>
    by_cases hn : n.address = a
    · simp [changeAt, hn, hf]
    · simp [changeAt, hn, ih]

/-- A change at the address of the last node, if no other is there, changes that node. -/
theorem change_concat {m : Node} (ha : a ∉ g) (hm : m.address = a) (f : Node → Node) :
    change ⟨g.nodes ++ [m]⟩ a f = ⟨g.nodes ++ [f m]⟩ := by
  obtain ⟨ns⟩ := g
  suffices changeAt a f (ns ++ [m]) = ns ++ [f m] by
    unfold change
    rw [this]
  have hothers : ∀ n ∈ ns, n.address ≠ a := fun n hmem heq => ha ⟨n, hmem, heq⟩
  clear ha
  induction ns with
  | nil => exact if_pos hm
  | cons n ns ih =>
    obtain ⟨hne, hrest⟩ := List.forall_mem_cons.1 hothers
    rw [List.cons_append, changeAt, if_neg hne, ih hrest]
    rfl

end Change

/-! ## Demands -/

/-- The node that a demand at an address finds, or starts from. -/
def nodeAt (g : Graph) (a : Iri) : Node := (g.get? a).getD (.blank a)

@[simp] theorem address_nodeAt (g : Graph) (a : Iri) : (g.nodeAt a).address = a := by
  unfold nodeAt
  cases hn : g.get? a with
  | none => rfl
  | some n => exact address_of_get? hn

theorem nodeAt_of_get? (hn : g.get? a = some n) : g.nodeAt a = n := by
  unfold nodeAt
  rw [hn]
  rfl

theorem get?_demand (g : Graph) (a b : Iri) (k : Kind) :
    (g.demand a k).get? b = if b = a then some ((g.nodeAt a).demand k) else g.get? b := by
  unfold demand nodeAt
  by_cases ha : a ∈ g
  · obtain ⟨n, hn⟩ := Option.isSome_iff_exists.1 (mem_iff_get?.1 ha)
    rw [if_pos ha, get?_change (fun n => Node.address_demand n k), hn]
    rfl
  · -- the new node stands behind all others, none of which is at `a`
    have hnone : g.get? a = none := get?_eq_none_iff.2 ha
    rw [if_neg ha, hnone]
    by_cases hb : b = a
    · subst hb
      show List.find? _ (g.nodes ++ _) = _
      rw [List.find?_append, show g.nodes.find? (·.address = b) = none from hnone]
      simp
    · rw [if_neg hb]
      show List.find? _ (g.nodes ++ _) = g.nodes.find? _
      rw [List.find?_append]
      simp [Ne.symm hb]

theorem mem_demand_iff : b ∈ g.demand a k ↔ b = a ∨ b ∈ g := by
  rw [mem_iff_get?, get?_demand, mem_iff_get?]
  by_cases hb : b = a
  · simp [hb]
  · simp [hb]

theorem addresses_demand (g : Graph) (a : Iri) (k : Kind) :
    (g.demand a k).addresses = if a ∈ g then g.addresses else g.addresses ++ [a] := by
  unfold demand
  split
  · exact addresses_change (fun n => Node.address_demand n k) g a
  · simp [addresses]

theorem demand_eq_self (hn : g.get? a = some n) (hk : n.demand k = n) : g.demand a k = g := by
  unfold demand
  rw [if_pos (mem_of_get? hn)]
  exact change_eq_self_of_get? hn hk

/-! ## Growth -/

/-- A graph may become the other: its addresses stay in front, and each node grows in its place. -/
structure Grows (g h : Graph) : Prop where
  addresses : g.addresses <+: h.addresses
  nodes : ∀ a n, g.get? a = some n → ∃ m, h.get? a = some m ∧ n.Grows m

theorem Grows.refl (g : Graph) : g.Grows g :=
  ⟨List.prefix_refl _, fun _ n hn => ⟨n, hn, Node.Grows.refl n⟩⟩

theorem Grows.trans {a b c : Graph} (h1 : a.Grows b) (h2 : b.Grows c) : a.Grows c := by
  refine ⟨h1.addresses.trans h2.addresses, fun i n hn => ?_⟩
  obtain ⟨m, hm, hnm⟩ := h1.nodes i n hn
  obtain ⟨l, hl, hml⟩ := h2.nodes i m hm
  exact ⟨l, hl, hnm.trans hml⟩

theorem grows_change {f : Node → Node} (hf : ∀ n : Node, n.Grows (f n)) (g : Graph) (a : Iri) :
    g.Grows (g.change a f) := by
  have ha : ∀ n : Node, (f n).address = n.address := fun n => (hf n).address
  refine ⟨⟨[], by rw [List.append_nil, addresses_change ha]⟩, fun b n hn => ?_⟩
  rw [get?_change ha]
  by_cases hb : b = a
  · subst hb
    rw [if_pos rfl, hn]
    exact ⟨f n, rfl, hf n⟩
  · rw [if_neg hb]
    exact ⟨n, hn, Node.Grows.refl n⟩

theorem grows_demand (g : Graph) (a : Iri) (k : Kind) : g.Grows (g.demand a k) := by
  refine ⟨?_, fun b n hn => ?_⟩
  · rw [addresses_demand]
    split
    · exact List.prefix_refl _
    · exact List.prefix_append _ _
  · rw [get?_demand]
    by_cases hb : b = a
    · subst hb
      rw [if_pos rfl, nodeAt_of_get? hn]
      exact ⟨_, rfl, Node.grows_demand n k⟩
    · rw [if_neg hb]
      exact ⟨n, hn, Node.Grows.refl n⟩

/-! ## Uniqueness -/

/-- No two nodes have one address, and no node has an edge twice. -/
structure WF (g : Graph) : Prop where
  addresses : g.addresses.Nodup
  edges : ∀ a n, g.get? a = some n → n.edges.Nodup

theorem wf_empty : WF {} := ⟨List.nodup_nil, fun _ _ hn => by cases hn⟩

theorem wf_change {f : Node → Node} (hf : ∀ n : Node, (f n).address = n.address)
    (he : ∀ n : Node, n.edges.Nodup → (f n).edges.Nodup) (hg : g.WF) (a : Iri) : (g.change a f).WF := by
  refine ⟨by rw [addresses_change hf]; exact hg.addresses, fun b n hn => ?_⟩
  rw [get?_change hf] at hn
  split at hn
  · obtain ⟨m, hm, rfl⟩ := Option.map_eq_some_iff.1 hn
    exact he m (hg.edges a m hm)
  · exact hg.edges b n hn

theorem wf_demand (hg : g.WF) (a : Iri) (k : Kind) : (g.demand a k).WF := by
  refine ⟨?_, fun b n hn => ?_⟩
  · rw [addresses_demand]
    split
    · exact hg.addresses
    · rename_i ha
      rw [mem_iff_addresses] at ha
      refine List.nodup_append.2 ⟨hg.addresses, List.nodup_singleton a, fun x hx y hy => ?_⟩
      rw [List.mem_singleton] at hy
      subst hy
      rintro rfl
      exact ha hx
  · rw [get?_demand] at hn
    split at hn
    · cases hn
      rw [Node.edges_demand]
      unfold nodeAt
      cases hm : g.get? a with
      | none => exact List.nodup_nil
      | some m => exact hg.edges a m hm
    · exact hg.edges b n hn

end Graph

end UmlOntology
