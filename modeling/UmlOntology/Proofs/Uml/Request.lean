/-
Requests to a graph. A request reaches one address: there is a node after it, a new one stands
behind the others, and no other node is touched. A graph that meets a request is left as it is by
it; the request brings this about, and no growth undoes it.
-/
import UmlOntology.Proofs.Ontology.Store

namespace UmlOntology

/-- A request adds the identifier of the node, if it is declared and kept, and its own additions. -/
theorem Options.mem_additions_iff {o : Options} {r : Request} {x : Addition} :
    x ∈ o.additions r ↔
      (r.declares = true ∧ o.keepIds = true) ∧ x = .edge .sourceId (.literal r.id) ∨
        x ∈ r.additions := by
  unfold additions
  rw [List.mem_append]
  split <;> simp_all

namespace Graph

variable {g h : Graph} {o : Options} {r : Request} {a b : Iri}

/-- The other graph comes from reaching for the node at an address: it is there, the addresses are
the same but for a new one at the end, and no other node is touched. -/
structure Reaches (g : Graph) (a : Iri) (h : Graph) : Prop where
  mem : a ∈ h
  addresses : h.addresses = if a ∈ g then g.addresses else g.addresses ++ [a]
  others : ∀ b, b ≠ a → h.get? b = g.get? b

/-! ## One request -/

/-- The node that a request leaves at its address. -/
theorem get?_realize (g : Graph) (o : Options) (r : Request) (b : Iri) :
    (g.realize o r).get? b =
      if b = o.address r.id then
        some (((g.nodeAt (o.address r.id)).demand r.kind).addAll (o.additions r))
      else g.get? b := by
  unfold realize
  rw [get?_change fun n => Node.address_addAll n _]
  by_cases hb : b = o.address r.id
  · rw [if_pos hb, if_pos hb, get?_demand, if_pos rfl]
    rfl
  · rw [if_neg hb, if_neg hb, get?_demand, if_neg hb]

theorem nodeAt_realize (g : Graph) (o : Options) (r : Request) (b : Iri) :
    (g.realize o r).nodeAt b =
      if b = o.address r.id then
        ((g.nodeAt (o.address r.id)).demand r.kind).addAll (o.additions r)
      else g.nodeAt b := by
  have hget := get?_realize g o r b
  split
  · rename_i hb
    rw [if_pos hb] at hget
    exact nodeAt_of_get? hget
  · rename_i hb
    rw [if_neg hb] at hget
    rw [nodeAt, hget, ← nodeAt]

theorem addresses_realize (g : Graph) (o : Options) (r : Request) :
    (g.realize o r).addresses =
      if o.address r.id ∈ g then g.addresses else g.addresses ++ [o.address r.id] := by
  unfold realize
  rw [addresses_change fun n => Node.address_addAll n _, addresses_demand]

theorem mem_realize_iff : a ∈ g.realize o r ↔ a = o.address r.id ∨ a ∈ g := by
  unfold realize
  rw [mem_change_iff fun n => Node.address_addAll n _, mem_demand_iff]

theorem reaches_realize (g : Graph) (o : Options) (r : Request) :
    g.Reaches (o.address r.id) (g.realize o r) := by
  refine ⟨mem_realize_iff.2 (Or.inl rfl), addresses_realize g o r, fun b hb => ?_⟩
  rw [get?_realize, if_neg hb]

theorem grows_realize (g : Graph) (o : Options) (r : Request) : g.Grows (g.realize o r) :=
  (grows_demand g _ _).trans (grows_change (fun n => Node.grows_addAll n _) _ _)

/-! ## Requests that are met -/

/-- The graph is as the request wants it: the node is there, it has a kind that the demand does not
change, and it knows all that the request adds. -/
def Meets (g : Graph) (o : Options) (r : Request) : Prop :=
  ∃ n, g.get? (o.address r.id) = some n ∧ n.demand r.kind = n ∧ ∀ x ∈ o.additions r, n.Knows x

theorem meets_realize (g : Graph) (o : Options) (r : Request) : (g.realize o r).Meets o r := by
  refine ⟨_, by rw [get?_realize, if_pos rfl], ?_, Node.knows_addAll _ _⟩
  -- after the demand the kind is settled, unless the demand itself left it open
  rw [Node.demand_eq_self_iff, Node.kind_addAll]
  by_cases hk : r.kind = .unknown
  · exact Or.inr hk
  · left
    show Kind.settle _ _ ≠ _
    unfold Kind.settle
    split
    · exact hk
    · rename_i hopen
      exact hopen

/-- What is met stays met. -/
theorem Meets.mono (hg : g.Grows h) (hr : g.Meets o r) : h.Meets o r := by
  obtain ⟨n, hn, hk, hx⟩ := hr
  obtain ⟨m, hm, hnm⟩ := hg.nodes _ n hn
  refine ⟨m, hm, ?_, fun x h => (hx x h).mono hnm⟩
  rw [Node.demand_eq_self_iff] at hk ⊢
  rcases hk with hk | hk
  · rcases hnm.kind with e | e
    · exact Or.inl (e ▸ hk)
    · exact absurd e hk
  · exact Or.inr hk

/-- A request that is met changes nothing. -/
theorem realize_of_meets (hr : g.Meets o r) : g.realize o r = g := by
  obtain ⟨n, hn, hk, hx⟩ := hr
  unfold realize
  rw [demand_eq_self hn hk]
  exact change_eq_self_of_get? hn (Node.addAll_of_knows hx)

/-! ## Uniqueness -/

theorem wf_realize (hg : g.WF) (o : Options) (r : Request) : (g.realize o r).WF :=
  wf_change (fun n => Node.address_addAll n _) (fun _ hn => Node.nodup_addAll _ hn)
    (wf_demand hg _ _) _

end Graph

end UmlOntology
