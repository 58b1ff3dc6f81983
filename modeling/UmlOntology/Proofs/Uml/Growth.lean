/-
Two states of one graph, the later one reached by operations on the earlier. Nothing that was there
is removed, moved or replaced: addresses and edges only come behind those before them, and a kind
changes only from open to the first that is demanded. A label or an edge that is added is answered
for: it is carried out exactly if the graph changes by it, and then the graph has one edge more, at
the node that was meant.
-/
import UmlOntology.Proofs.Uml.Kinds

namespace UmlOntology

variable {g : Graph} {a : Iri} {n : Node} {x : Addition}

/-! ## What a node answers -/

namespace Node

/-- The node with the addition, or nothing if the addition is refused. -/
def add? (n : Node) : Addition → Option Node
  | .label text lang => n.setLabel? text lang
  | .edge p o => n.addEdge? p o

/-- A node refuses what is no news to it. -/
theorem add?_of_knows (h : n.Knows x) : n.add? x = none := by
  cases x with
  | edge p o => exact if_pos h
  | label text lang =>
    show n.setLabel? text lang = none
    unfold setLabel?
    split
    · rfl
    · rename_i hslot
      exact if_pos (h.resolve_left hslot)

theorem add?_of_not_knows (h : ¬ n.Knows x) :
    n.add? x = some { n with edges := n.edges ++ [x.toEdge] } := by
  cases x with
  | edge p o => exact if_neg h
  | label text lang =>
    obtain ⟨hslot, hedge⟩ := not_or.1 h
    show n.setLabel? text lang = _
    unfold setLabel?
    rw [if_neg hslot]
    exact if_neg hedge

theorem isSome_add?_iff : (n.add? x).isSome ↔ ¬ n.Knows x := by
  by_cases h : n.Knows x
  · simp [add?_of_knows h, h]
  · simp [add?_of_not_knows h, h]

end Node

/-! ## What a graph answers -/

namespace Graph

/-- The other graph has one edge more, behind the edges of the node at the address, and all else is
as it was and where it was. -/
def Gains (g : Graph) (a : Iri) (e : Edge) (h : Graph) : Prop :=
  ∃ front n back, g.nodes = front ++ n :: back ∧ g.get? a = some n ∧
    h.nodes = front ++ { n with edges := n.edges ++ [e] } :: back

/-- An addition to the node at an address leaves the graph `h`, and is answered for by `done`: it
says whether the graph has changed, and if it has, then by the edge of the addition. Where there is
no node nothing is done. -/
structure Adds (g : Graph) (a : Iri) (x : Addition) (done : Prop) (h : Graph) : Prop where
  changed : done ↔ h ≠ g
  gains : done → g.Gains a x.toEdge h
  missing : a ∉ g → ¬ done ∧ h = g

theorem Gains.ne {e : Edge} {h : Graph} (hg : g.Gains a e h) : h ≠ g := by
  rintro rfl
  obtain ⟨front, n, back, hold, -, hnew⟩ := hg
  obtain ⟨hnode, -⟩ := List.cons.inj (List.append_cancel_left (hold.symm.trans hnew))
  -- a list is not itself with one more behind
  have hlen := congrArg (fun m : Node => m.edges.length) hnode
  simp at hlen

/-- An addition that is made at a node where it is found is answered for by the node. -/
theorem adds_change (g : Graph) (a : Iri) (x : Addition) :
    g.Adds a x (∃ n, g.get? a = some n ∧ (n.add? x).isSome) (g.change a (·.add x)) := by
  have hgains : (∃ n, g.get? a = some n ∧ (n.add? x).isSome) →
      g.Gains a x.toEdge (g.change a (·.add x)) := by
    rintro ⟨n, hn, hdone⟩
    obtain ⟨front, back, hold, hnew⟩ := change_of_get? hn
    refine ⟨front, n, back, hold, hn, ?_⟩
    rw [hnew, Node.add_of_not_knows (Node.isSome_add?_iff.1 hdone)]
  refine ⟨⟨fun hdone => (hgains hdone).ne, fun hne => ?_⟩, hgains,
    fun ha => ⟨?_, change_of_not_mem ha _⟩⟩
  · by_contra hno
    refine hne (change_eq_self fun n hn => Node.add_of_knows ?_)
    by_contra hknows
    exact hno ⟨n, hn, Node.isSome_add?_iff.2 hknows⟩
  · rintro ⟨n, hn, -⟩
    exact ha (mem_of_get? hn)

end Graph

namespace Operation

/-- The operation that makes an addition to the node at an address. -/
def addition (a : Iri) : Addition → Operation
  | .label text lang => .setLabel a text lang
  | .edge p o => .addEdge a p o

theorem apply_addition (g : Graph) (a : Iri) (x : Addition) :
    (addition a x).apply g = g.change a (·.add x) := by
  cases x with
  | label text lang => exact apply_setLabel g a text lang
  | edge p o => exact apply_addEdge g a p o

theorem succeeds_addition_iff :
    (addition a x).Succeeds g ↔ ∃ n, g.get? a = some n ∧ (n.add? x).isSome := by
  have hbind : (addition a x).Succeeds g ↔ ((g.get? a).bind (·.add? x)).isSome := by
    cases x with
    | label text lang => exact Bool.eq_iff_iff.1 Option.isSome_map
    | edge p o => exact Bool.eq_iff_iff.1 Option.isSome_map
  rw [hbind]
  cases g.get? a with
  | none => simp
  | some n => simp

end Operation

/-! ## What a history leaves alone -/

/-- The kind of a node after a history is the one before it, unless that was open: then it is the
first that the history demanded there and that says something. -/
theorem Graph.kind_of_extend {m : Node} {history : List Operation} (hn : g.get? a = some n)
    (hm : (g.extend history).get? a = some m) :
    m.kind = n.kind ∨
      n.kind = .unknown ∧ (demandedAt a history).find? (· ≠ .unknown) = some m.kind := by
  have hkind := kindAt_extend g history a
  rw [kindAt_of_get? hm, kindAt_of_get? hn] at hkind
  by_cases hopen : n.kind = .unknown
  · rw [hopen, Kind.unknown_settle, Kind.first] at hkind
    cases hfirst : (demandedAt a history).find? (· ≠ .unknown) with
    | none =>
      rw [hfirst] at hkind
      exact Or.inl (hkind.trans hopen.symm)
    | some k =>
      rw [hfirst] at hkind
      exact Or.inr ⟨hopen, by rw [hkind]; rfl⟩
  · rw [Kind.settle_of_known hopen] at hkind
    exact Or.inl hkind

/-- Between two states of a graph with any operations from one to the other, the addresses of the
first stay in front, at each of them the edges stay in front, and the kind stays, or was open and is
the first that was demanded meanwhile. To add a label or an edge to the node that is found at an
address is the operation at the address. Either way it is carried out exactly if the graph changes,
and then by one edge behind the others of that one node; where there is no node it is not, and the
graph stays. -/
theorem growth_of_history :
    (∀ (g : Graph) (since : List Operation),
      g.addresses <+: (g.extend since).addresses ∧
      ∀ a n, g.get? a = some n → ∃ m, (g.extend since).get? a = some m ∧ n.edges <+: m.edges ∧
        (m.kind = n.kind ∨
          n.kind = .unknown ∧ (demandedAt a since).find? (· ≠ .unknown) = some m.kind)) ∧
    ∀ (g : Graph) (a : Iri) (x : Addition),
      (Operation.addition a x).apply g = g.change a (·.add x) ∧
      g.Adds a x ((Operation.addition a x).Succeeds g) ((Operation.addition a x).apply g) ∧
      g.Adds a x (∃ n, g.get? a = some n ∧ (n.add? x).isSome) (g.change a (·.add x)) := by
  constructor
  · intro g since
    have hgrows := Graph.grows_extend g since
    refine ⟨hgrows.addresses, fun a n hn => ?_⟩
    obtain ⟨m, hm, hnm⟩ := hgrows.nodes a n hn
    exact ⟨m, hm, hnm.edges, Graph.kind_of_extend hn hm⟩
  · intro g a x
    have hadds := Graph.adds_change g a x
    have happly := Operation.apply_addition g a x
    refine ⟨happly, ?_, hadds⟩
    rw [happly]
    exact ⟨Operation.succeeds_addition_iff.trans hadds.changed,
      fun hdone => hadds.gains (Operation.succeeds_addition_iff.1 hdone),
      fun ha => ⟨mt Operation.succeeds_addition_iff.1 (hadds.missing ha).1, (hadds.missing ha).2⟩⟩

/-- A node that is referred to and labelled, and what happens to it then: it becomes a class, and is
labelled again and demanded as a datatype in vain. -/
theorem growth_of_labelledClass :
    let a := Options.address {} "c"
    let g := Graph.extend {} [.build {} (.reference "c"), .setLabel a "first" none]
    let since : List Operation :=
      [.addEdge ⟨"urn:none"⟩ .label (.node a), .demand a .concept, .setLabel a "second" none,
        .demand a .datatype]
    (g.get? a = some ⟨a, .unknown, [⟨.label, .literal "first" none⟩]⟩ ∧ (⟨"urn:none"⟩ : Iri) ∉ g) ∧
    (∃ m, (g.extend since).get? a = some m ∧
      [⟨.label, .literal "first" none⟩] <+: m.edges ∧ m.kind = .concept) ∧
    ¬ (Operation.addEdge ⟨"urn:none"⟩ .label (.node a)).Succeeds g := by
  intro a g since
  have hn : g.get? a = some ⟨a, .unknown, [⟨.label, .literal "first" none⟩]⟩ := by decide
  have hmissing : (⟨"urn:none"⟩ : Iri) ∉ g := by decide
  obtain ⟨m, hm, hedges, hkind⟩ := (growth_of_history.1 g since).2 a _ hn
  refine ⟨⟨hn, hmissing⟩, ⟨m, hm, hedges, ?_⟩, ?_⟩
  · have hclass : ((g.extend since).get? a).map (·.kind) = some .concept := by decide
    rw [hm] at hclass
    exact Option.some.inj hclass
  · exact ((growth_of_history.2 g _ (.edge .label (.node a))).2.1.missing hmissing).1

end UmlOntology
