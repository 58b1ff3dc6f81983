/-
Which nodes a history leaves in an empty graph, and of what kinds. There is a node exactly where an
operation demanded one, and its kind is the first that was demanded there and said something; a
demand that leaves the kind open counts for existence only.
-/
import UmlOntology.Proofs.Uml.History

namespace UmlOntology

variable {g : Graph} {a : Iri} {k : Kind}

/-! ## Settling -/

namespace Kind

/-- The first kind of a list that is not open. -/
def first (ks : List Kind) : Kind := (ks.find? (· ≠ .unknown)).getD .unknown

theorem settle_of_known (hk : k ≠ .unknown) (l : Kind) : k.settle l = k := if_neg hk

@[simp] theorem unknown_settle (l : Kind) : unknown.settle l = l := if_pos rfl

@[simp] theorem settle_unknown (k : Kind) : k.settle .unknown = k := by
  by_cases hk : k = .unknown
  · rw [hk, unknown_settle]
  · exact settle_of_known hk _

theorem settle_assoc (k l m : Kind) : (k.settle l).settle m = k.settle (l.settle m) := by
  by_cases hk : k = .unknown
  · simp [hk]
  · simp [settle_of_known hk]

theorem first_cons (k : Kind) (ks : List Kind) : first (k :: ks) = k.settle (first ks) := by
  unfold first
  by_cases hk : k = .unknown
  · subst hk
    rfl
  · rw [settle_of_known hk, List.find?_cons_of_pos (by simpa using hk)]
    rfl

/-- No two kinds of the list settle a node differently. -/
def Agree (ks : List Kind) : Prop :=
  ∀ k ∈ ks, ∀ l ∈ ks, k ≠ .unknown → l ≠ .unknown → k = l

theorem first_of_mem {ks : List Kind} (hag : Agree ks) (hk : k ∈ ks) (hne : k ≠ .unknown) :
    first ks = k := by
  unfold first
  cases hf : ks.find? (· ≠ .unknown) with
  | none => exact absurd hne (by simpa using List.find?_eq_none.1 hf k hk)
  | some l =>
    have hl : l ≠ .unknown := by simpa using List.find?_some hf
    exact hag l (List.mem_of_find?_eq_some hf) k hk hl hne

theorem first_of_unknown {ks : List Kind} (h : ∀ k ∈ ks, k = .unknown) : first ks = .unknown := by
  unfold first
  rw [List.find?_eq_none.2 fun k hk => by simpa using h k hk]
  rfl

/-- Of kinds that agree, the first that is not open does not depend on the order. -/
theorem first_congr {ks ls : List Kind} (hag : Agree ks) (hmem : ∀ k, k ∈ ks ↔ k ∈ ls) :
    first ks = first ls := by
  -- either one kind settles it, and all that are not open agree with it, or none does
  have hag' : Agree ls := fun k hk l hl => hag k ((hmem k).2 hk) l ((hmem l).2 hl)
  by_cases hex : ∃ k ∈ ks, k ≠ .unknown
  · obtain ⟨k, hk, hne⟩ := hex
    rw [first_of_mem hag hk hne, first_of_mem hag' ((hmem k).1 hk) hne]
  · have hks : ∀ k ∈ ks, k = .unknown := fun k hk => by_contra fun hne => hex ⟨k, hk, hne⟩
    rw [first_of_unknown hks, first_of_unknown fun k hk => hks k ((hmem k).2 hk)]

end Kind

/-! ## What one operation demands -/

/-- The kind that an operation demands at an address. -/
def Operation.demandedAt? (a : Iri) (op : Operation) : Option Kind :=
  op.demanded?.bind fun d => if d.1 = a then some d.2 else none

/-- The kinds that a history demands at an address, in turn. -/
def demandedAt (a : Iri) (history : List Operation) : List Kind :=
  history.filterMap (Operation.demandedAt? a)

/-- The kind of the node at an address, open if there is none. -/
def Graph.kindAt (g : Graph) (a : Iri) : Kind := (g.nodeAt a).kind

namespace Operation

variable {op : Operation}

theorem demandedAt?_eq_some_iff : op.demandedAt? a = some k ↔ op.demanded? = some (a, k) := by
  unfold demandedAt?
  cases hd : op.demanded? with
  | none => simp
  | some d =>
    obtain ⟨b, l⟩ := d
    rw [Option.bind_some]
    by_cases hb : b = a
    · simp [hb]
    · simp [hb]

/-- An operation that demands a node is carried out in every graph. -/
theorem succeeds_of_demanded {d : Iri × Kind} (hd : op.demanded? = some d) (g : Graph) :
    op.Succeeds g := by
  cases op with
  | build o c =>
    obtain ⟨r, hr, -⟩ := Option.map_eq_some_iff.1 hd
    show c.request?.isSome
    rw [hr]
    rfl
  | demand b l => trivial
  | setLabel b text lang => cases hd
  | addEdge b p x => cases hd

end Operation

/-! ## What one operation does -/

namespace Graph

theorem kindAt_of_get? {n : Node} (hn : g.get? a = some n) : g.kindAt a = n.kind := by
  unfold kindAt
  rw [nodeAt_of_get? hn]

theorem kindAt_change {f : Node → Node} (hf : ∀ n : Node, (f n).address = n.address)
    (hk : ∀ n : Node, (f n).kind = n.kind) (g : Graph) (a b : Iri) :
    (g.change a f).kindAt b = g.kindAt b := by
  unfold kindAt nodeAt
  rw [get?_change hf]
  by_cases hb : b = a
  · subst hb
    rw [if_pos rfl]
    cases g.get? b with
    | none => rfl
    | some n => exact hk n
  · rw [if_neg hb]

theorem kindAt_demand (g : Graph) (a b : Iri) (k : Kind) :
    (g.demand a k).kindAt b = if a = b then (g.kindAt b).settle k else g.kindAt b := by
  unfold kindAt
  by_cases hb : a = b
  · subst hb
    rw [if_pos rfl, nodeAt, get?_demand, if_pos rfl]
    rfl
  · rw [if_neg hb, nodeAt, get?_demand, if_neg (Ne.symm hb), ← nodeAt]

theorem kindAt_realize (g : Graph) (o : Options) (r : Request) (b : Iri) :
    (g.realize o r).kindAt b =
      if o.address r.id = b then (g.kindAt b).settle r.kind else g.kindAt b := by
  unfold realize
  rw [kindAt_change (fun n => Node.address_addAll n _) fun n => Node.kind_addAll n _, kindAt_demand]

/-- An operation settles the kind that it demands, where it demands it. -/
theorem kindAt_apply (g : Graph) (op : Operation) (a : Iri) :
    (op.apply g).kindAt a = (g.kindAt a).settle ((op.demandedAt? a).getD .unknown) := by
  rcases op.apply_cases g with ⟨o, r, hd, e⟩ | ⟨b, k, hd, e⟩ | ⟨b, x, hd, e⟩ | ⟨hd, e⟩ <;>
    unfold Operation.demandedAt?
  · rw [e, hd, kindAt_realize, Option.bind_some]
    by_cases ha : o.address r.id = a
    · simp [ha]
    · simp [ha]
  · rw [e, hd, kindAt_demand, Option.bind_some]
    by_cases ha : b = a
    · simp [ha]
    · simp [ha]
  · rw [e, hd, kindAt_change (fun n => (Node.grows_add n x).address) fun n => Node.kind_add n x]
    simp
  · rw [e, hd]
    simp

theorem mem_apply_iff (g : Graph) (op : Operation) (a : Iri) :
    a ∈ op.apply g ↔ a ∈ g ∨ ∃ k, op.demanded? = some (a, k) := by
  rcases op.apply_cases g with ⟨o, r, hd, e⟩ | ⟨b, k, hd, e⟩ | ⟨b, x, hd, e⟩ | ⟨hd, e⟩
  · rw [e, hd, mem_realize_iff, or_comm]
    simp [eq_comm]
  · rw [e, hd, mem_demand_iff, or_comm]
    simp [eq_comm]
  · rw [e, hd, mem_change_iff fun n => (Node.grows_add n x).address]
    simp
  · rw [e, hd]
    simp

/-! ## What a history does -/

/-- A history settles each kind by the first that it demands there and that says something. -/
theorem kindAt_extend (g : Graph) (history : List Operation) (a : Iri) :
    (g.extend history).kindAt a = (g.kindAt a).settle (Kind.first (demandedAt a history)) := by
  induction history generalizing g with
  | nil => exact (Kind.settle_unknown _).symm
  | cons op history ih =>
    -- settling is associative: the first demand can be settled into the rest
    rw [extend_cons, ih, kindAt_apply, Kind.settle_assoc]
    unfold demandedAt
    rw [List.filterMap_cons]
    cases op.demandedAt? a with
    | none => rfl
    | some k => rw [Kind.first_cons]; rfl

theorem mem_extend_iff (g : Graph) (history : List Operation) (a : Iri) :
    a ∈ g.extend history ↔ a ∈ g ∨ ∃ op ∈ history, ∃ k, op.demanded? = some (a, k) := by
  induction history generalizing g with
  | nil => simp
  | cons op history ih =>
    rw [extend_cons, ih, mem_apply_iff, or_assoc]
    simp

end Graph

theorem Graph.map_kind_get? (g : Graph) (a : Iri) :
    (g.get? a).map (·.kind) = if a ∈ g then some (g.kindAt a) else none := by
  cases hn : g.get? a with
  | none => rw [if_neg (get?_eq_none_iff.1 hn)]; rfl
  | some n => rw [if_pos (mem_of_get? hn), kindAt_of_get? hn]; rfl

/-- There is a node at an address exactly if an operation that was carried out demanded one, and its
kind is the first other than `unknown` that was demanded there, and `unknown` if there is none. An
operation with no demand at the address leaves the node or its absence and the kind alone, and a
kind that is settled stays through everything that follows. -/
theorem node_of_history (history : List Operation) (a : Iri) :
    (a ∈ Graph.extend {} history ↔
      ∃ before op after k, history = before ++ op :: after ∧
        op.Succeeds (Graph.extend {} before) ∧ op.demanded? = some (a, k)) ∧
    (∀ n, (Graph.extend {} history).get? a = some n →
      n.kind = ((demandedAt a history).find? (· ≠ .unknown)).getD .unknown) ∧
    (∀ before op after, history = before ++ op :: after → (∀ k, op.demanded? ≠ some (a, k)) →
      ((Graph.extend {} (before ++ [op])).get? a).map (·.kind) =
        ((Graph.extend {} before).get? a).map (·.kind)) ∧
    ∀ before after n, history = before ++ after → (Graph.extend {} before).get? a = some n →
      n.kind ≠ .unknown → ((Graph.extend {} history).get? a).map (·.kind) = some n.kind := by
  refine ⟨?_, ?_, ?_, ?_⟩
  · rw [Graph.mem_extend_iff]
    constructor
    · rintro (ha | ⟨op, hop, k, hk⟩)
      · rw [Graph.mem_iff_addresses] at ha
        cases ha
      · obtain ⟨before, after, rfl⟩ := List.append_of_mem hop
        exact ⟨before, op, after, k, rfl, Operation.succeeds_of_demanded hk _, hk⟩
    · rintro ⟨before, op, after, k, rfl, -, hk⟩
      exact Or.inr ⟨op, by simp, k, hk⟩
  · intro n hn
    rw [← Graph.kindAt_of_get? hn, Graph.kindAt_extend]
    exact Kind.unknown_settle _
  · intro before op after _ hop
    have hno : op.demandedAt? a = none := by
      cases hd : op.demandedAt? a with
      | none => rfl
      | some k => exact absurd (Operation.demandedAt?_eq_some_iff.1 hd) (hop k)
    rw [Graph.extend_append, Graph.extend_cons, Graph.extend_nil, Graph.map_kind_get?,
      Graph.map_kind_get?, Graph.kindAt_apply, hno]
    simp [Graph.mem_apply_iff, hop]
  · rintro before after n rfl hn hk
    obtain ⟨m, hm, hnm⟩ := (Graph.grows_extend (Graph.extend {} before) after).nodes a n hn
    rw [Graph.extend_append, hm]
    exact congrArg some (hnm.kind.resolve_right hk)

/-- A reference leaves the kind open, the class settles it, and the datatype comes too late. -/
theorem kind_of_referred_class :
    (Graph.extend {} [.build {} (.reference "c"), .demand (Options.address {} "c") .concept]).get?
        (Options.address {} "c") = some { address := Options.address {} "c", kind := .concept } ∧
      ((Graph.extend {} [.build {} (.reference "c"), .demand (Options.address {} "c") .concept,
          .demand (Options.address {} "c") .datatype]).get? (Options.address {} "c")).map (·.kind) =
        some .concept := by
  have hsettled : (Graph.extend {} [.build {} (.reference "c"),
      .demand (Options.address {} "c") .concept]).get? (Options.address {} "c") =
        some { address := Options.address {} "c", kind := .concept } := by decide
  exact ⟨hsettled, (node_of_history _ _).2.2.2 _ [.demand _ .datatype] _ rfl hsettled nofun⟩

end UmlOntology
