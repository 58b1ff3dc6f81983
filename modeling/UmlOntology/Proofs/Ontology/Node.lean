/-
What demands and additions do to one node. A demand settles an open kind and nothing else. An
addition is either no news to the node, which then stays as it is, or puts one edge behind the
others. So a node only grows, and what was no news to it once is none ever after.
-/
import UmlOntology.Uml.Request
import Mathlib.Data.List.Nodup

namespace UmlOntology

/-- The edge that an addition is for. -/
def Addition.toEdge : Addition → Edge
  | .label text lang => ⟨.label, .literal text lang⟩
  | .edge p o => ⟨p, o⟩

namespace Node

variable {n m : Node}

/-! ## Labels -/

theorem labels_append (n : Node) (es : List Edge) :
    { n with edges := n.edges ++ es }.labels =
      n.labels ++ (es.filter (·.predicate = .label)).map (·.object) := by
  simp [labels, objects]

/-- The label that a node tells is on one of its edges. -/
theorem label_mem {text : String} {lang : Option String} (h : n.label? lang = some text) :
    ⟨.label, .literal text lang⟩ ∈ n.edges := by
  obtain ⟨o, ho, hv⟩ := Option.bind_eq_some_iff.1 h
  have hl : o.lang? = lang := by simpa using List.find?_some ho
  have hm := List.mem_of_find?_eq_some ho
  cases o with
  | node a => cases hv
  | literal v l =>
    cases hv
    cases hl
    simp only [labels, objects, List.mem_map, List.mem_filter, decide_eq_true_eq] at hm
    obtain ⟨⟨p, o⟩, ⟨he, rfl⟩, rfl⟩ := hm
    exact he

theorem labels_prefix (he : n.edges <+: m.edges) : n.labels <+: m.labels := (he.filter _).map _

/-- A label that is told stays the one that is told, whatever edges come behind. -/
theorem label_of_prefix {text : String} {lang : Option String} (he : n.edges <+: m.edges)
    (h : n.label? lang = some text) : m.label? lang = some text := by
  obtain ⟨o, ho, hv⟩ := Option.bind_eq_some_iff.1 h
  -- the labels of `n` stand in front of those of `m`, so the search finds the same one first
  obtain ⟨more, hm⟩ := labels_prefix he
  unfold label?
  rw [← hm, List.find?_append, ho]
  exact hv

/-! ## Additions -/

/-- The addition is no news to the node: the slot of the label is taken, or the edge is there. -/
def Knows (n : Node) : Addition → Prop
  | .label text lang => (n.label? lang).isSome ∨ ⟨.label, .literal text lang⟩ ∈ n.edges
  | .edge p o => ⟨p, o⟩ ∈ n.edges

theorem knows_of_mem {x : Addition} (h : x.toEdge ∈ n.edges) : n.Knows x := by
  cases x with
  | label text lang => exact Or.inr h
  | edge p o => exact h

theorem addEdge_of_mem {p : Predicate} {o : Object} (h : ⟨p, o⟩ ∈ n.edges) : n.addEdge p o = n := by
  unfold addEdge addEdge?
  rw [if_pos h]
  rfl

theorem addEdge_of_not_mem {p : Predicate} {o : Object} (h : ⟨p, o⟩ ∉ n.edges) :
    n.addEdge p o = { n with edges := n.edges ++ [⟨p, o⟩] } := by
  unfold addEdge addEdge?
  rw [if_neg h]
  rfl

/-- The slot of a language is taken, or the label is added as an edge like any other. -/
theorem setLabel_eq (n : Node) (text : String) (lang : Option String) :
    n.setLabel text lang =
      if (n.label? lang).isSome then n else n.addEdge .label (.literal text lang) := by
  unfold setLabel setLabel? addEdge
  split <;> rfl

theorem add_of_knows {x : Addition} (h : n.Knows x) : n.add x = n := by
  cases x with
  | edge p o => exact addEdge_of_mem h
  | label text lang =>
    show n.setLabel text lang = n
    rw [setLabel_eq]
    split
    · rfl
    · rename_i hslot
      exact addEdge_of_mem (h.resolve_left hslot)

theorem add_of_not_knows {x : Addition} (h : ¬ n.Knows x) :
    n.add x = { n with edges := n.edges ++ [x.toEdge] } := by
  cases x with
  | edge p o => exact addEdge_of_not_mem h
  | label text lang =>
    obtain ⟨hslot, hedge⟩ := not_or.1 h
    show n.setLabel text lang = _
    rw [setLabel_eq, if_neg hslot]
    exact addEdge_of_not_mem hedge

theorem knows_add (n : Node) (x : Addition) : (n.add x).Knows x := by
  by_cases h : n.Knows x
  · rw [add_of_knows h]
    exact h
  · rw [add_of_not_knows h]
    exact knows_of_mem (by simp)

/-! ## Growth -/

/-- A node may become the other by demands and additions: the address stays, the edges stay in
front, and the kind stays unless it was open. -/
structure Grows (n m : Node) : Prop where
  address : m.address = n.address
  edges : n.edges <+: m.edges
  kind : m.kind = n.kind ∨ n.kind = .unknown

theorem Grows.refl (n : Node) : n.Grows n := ⟨rfl, List.prefix_refl _, Or.inl rfl⟩

theorem Grows.trans {a b c : Node} (h1 : a.Grows b) (h2 : b.Grows c) : a.Grows c := by
  refine ⟨h2.address.trans h1.address, h1.edges.trans h2.edges, ?_⟩
  rcases h1.kind with k1 | k1
  · rcases h2.kind with k2 | k2
    · exact Or.inl (k2.trans k1)
    · exact Or.inr (k1 ▸ k2)
  · exact Or.inr k1

theorem Knows.mono {x : Addition} (hg : n.Grows m) (h : n.Knows x) : m.Knows x := by
  cases x with
  | edge p o => exact hg.edges.subset h
  | label text lang =>
    rcases h with h | h
    · obtain ⟨t, ht⟩ := Option.isSome_iff_exists.1 h
      exact Or.inl (Option.isSome_iff_exists.2 ⟨t, label_of_prefix hg.edges ht⟩)
    · exact Or.inr (hg.edges.subset h)

theorem grows_add (n : Node) (x : Addition) : n.Grows (n.add x) := by
  by_cases h : n.Knows x
  · rw [add_of_knows h]
    exact Grows.refl n
  · rw [add_of_not_knows h]
    exact ⟨rfl, List.prefix_append _ _, Or.inl rfl⟩

@[simp] theorem addAll_nil (n : Node) : n.addAll [] = n := rfl

@[simp] theorem addAll_cons (n : Node) (x : Addition) (xs : List Addition) :
    n.addAll (x :: xs) = (n.add x).addAll xs := rfl

theorem grows_addAll (n : Node) (xs : List Addition) : n.Grows (n.addAll xs) := by
  induction xs generalizing n with
  | nil => exact Grows.refl n
  | cons x xs ih => exact (grows_add n x).trans (ih (n.add x))

theorem addAll_of_knows {xs : List Addition} (h : ∀ x ∈ xs, n.Knows x) : n.addAll xs = n := by
  induction xs with
  | nil => rfl
  | cons x xs ih =>
    rw [addAll_cons, add_of_knows (h x (List.mem_cons_self ..))]
    exact ih fun y hy => h y (List.mem_cons_of_mem _ hy)

theorem knows_addAll (n : Node) (xs : List Addition) : ∀ x ∈ xs, (n.addAll xs).Knows x := by
  induction xs generalizing n with
  | nil => intro x hx; cases hx
  | cons y ys ih =>
    intro x hx
    rcases List.mem_cons.1 hx with rfl | hx
    · exact (knows_add n x).mono (grows_addAll _ ys)
    · exact ih _ x hx

theorem mem_edges_add {x : Addition} {e : Edge} (he : e ∈ (n.add x).edges) :
    e ∈ n.edges ∨ e = x.toEdge := by
  by_cases hx : n.Knows x
  · rw [add_of_knows hx] at he
    exact Or.inl he
  · rw [add_of_not_knows hx] at he
    exact (List.mem_append.1 he).imp_right List.mem_singleton.1

/-- Additions bring their own edges and no others. -/
theorem mem_edges_addAll {xs : List Addition} {e : Edge} (he : e ∈ (n.addAll xs).edges) :
    e ∈ n.edges ∨ ∃ x ∈ xs, e = x.toEdge := by
  induction xs generalizing n with
  | nil => exact Or.inl he
  | cons x xs ih =>
    rcases ih he with he | ⟨y, hy, rfl⟩
    · rcases mem_edges_add he with he | rfl
      · exact Or.inl he
      · exact Or.inr ⟨x, List.mem_cons_self .., rfl⟩
    · exact Or.inr ⟨y, List.mem_cons_of_mem _ hy, rfl⟩

/-! ## No edge twice -/

theorem nodup_add (x : Addition) (hn : n.edges.Nodup) : (n.add x).edges.Nodup := by
  by_cases hx : n.Knows x
  · rw [add_of_knows hx]
    exact hn
  · rw [add_of_not_knows hx]
    -- an edge that is there is known, and this one is not
    refine List.nodup_append.2 ⟨hn, List.nodup_singleton _, fun e he f hf => ?_⟩
    rw [List.mem_singleton] at hf
    subst hf
    rintro rfl
    exact hx (knows_of_mem he)

theorem nodup_addAll (xs : List Addition) (hn : n.edges.Nodup) : (n.addAll xs).edges.Nodup := by
  induction xs generalizing n with
  | nil => exact hn
  | cons x xs ih => exact ih (nodup_add x hn)

/-! ## Kinds -/

@[simp] theorem kind_add (n : Node) (x : Addition) : (n.add x).kind = n.kind := by
  by_cases h : n.Knows x
  · rw [add_of_knows h]
  · rw [add_of_not_knows h]

@[simp] theorem kind_addAll (n : Node) (xs : List Addition) : (n.addAll xs).kind = n.kind := by
  induction xs generalizing n with
  | nil => rfl
  | cons x xs ih => rw [addAll_cons, ih, kind_add]

@[simp] theorem address_addAll (n : Node) (xs : List Addition) :
    (n.addAll xs).address = n.address := (grows_addAll n xs).address

@[simp] theorem address_demand (n : Node) (k : Kind) : (n.demand k).address = n.address := rfl

@[simp] theorem edges_demand (n : Node) (k : Kind) : (n.demand k).edges = n.edges := rfl

theorem grows_demand (n : Node) (k : Kind) : n.Grows (n.demand k) := by
  refine ⟨rfl, List.prefix_refl _, ?_⟩
  by_cases h : n.kind = .unknown
  · exact Or.inr h
  · exact Or.inl (if_neg h)

/-- A demand leaves a node as it is if the kind is settled, or is left open by the demand too. -/
theorem demand_eq_self_iff {k : Kind} : n.demand k = n ↔ n.kind ≠ .unknown ∨ k = .unknown := by
  obtain ⟨a, kind, es⟩ := n
  simp only [demand, Kind.settle, Kind.IsOpen, Node.mk.injEq, true_and, and_true]
  by_cases h : kind = .unknown
  · simp [h]
  · simp [h]

end Node

end UmlOntology
