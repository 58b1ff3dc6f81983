/-
The views of a graph: look-up and membership, the nodes of each kind, and the statements. They agree
with the list of nodes as long as there is one node at an address. In particular every node is among
the nodes of exactly one kind, and the statements come node after node, for each of them the type that
its kind implies and then its edges.
-/
import UmlOntology.Proofs.Ontology.Statement

namespace UmlOntology

/-! ## The statements of a node -/

namespace Node

/-- How many statements a node makes: one for each of its edges, and one more if its kind implies a
type. -/
theorem length_statements (n : Node) :
    n.statements.length = n.edges.length + if n.kind.type?.isSome then 1 else 0 := by
  unfold statements impliedType?
  cases n.kind.type? with
  | none => simp
  | some t => simp

theorem map_subject_statements (n : Node) :
    n.statements.map (·.subject) = List.replicate n.statements.length n.address := by
  refine List.eq_replicate_iff.2 ⟨List.length_map .., fun a ha => ?_⟩
  obtain ⟨s, hs, rfl⟩ := List.mem_map.1 ha
  exact subject_of_mem_statements hs

end Node

namespace Graph

variable {g : Graph} {a : Iri} {n : Node}

/-! ## Look-up -/

theorem get?_eq_some_iff (hu : g.addresses.Nodup) :
    g.get? a = some n ↔ n ∈ g.nodes ∧ n.address = a := by
  constructor
  · exact fun hn => ⟨List.mem_of_find?_eq_some hn, address_of_get? hn⟩
  · rintro ⟨hn, rfl⟩
    exact get?_of_mem hu hn

/-! ## Kinds -/

/-- The nodes of all kinds together are the nodes, each once. -/
theorem perm_ofKind (g : Graph) : (Kind.all.flatMap g.ofKind).Perm g.nodes := by
  refine List.perm_iff_count.2 fun n => ?_
  -- the node is counted among those of its own kind and nowhere else
  have hcount : ∀ k, (g.ofKind k).count n = if n.kind = k then g.nodes.count n else 0 := by
    intro k
    unfold ofKind
    split
    · rename_i hk
      exact List.count_filter (by simpa using hk)
    · rename_i hk
      refine List.count_eq_zero.2 fun hmem => hk ?_
      simpa using (List.mem_filter.1 hmem).2
  rw [List.count_flatMap]
  simp only [Function.comp_def, hcount]
  cases n.kind <;> simp [Kind.all]

/-! ## Statements -/

theorem length_statements (g : Graph) :
    g.statements.length = g.edgeCount + g.nodes.countP (·.kind.type?.isSome) := by
  obtain ⟨ns⟩ := g
  show (ns.flatMap Node.statements).length =
    ns.foldr (fun n total => n.edges.length + total) 0 + ns.countP (·.kind.type?.isSome)
  induction ns with
  | nil => rfl
  | cons n ns ih =>
    rw [List.flatMap_cons, List.length_append, ih, List.foldr_cons, List.countP_cons,
      Node.length_statements]
    omega

/-- No statement is about an address at which there is no node. -/
theorem filter_statements_eq_nil (ha : a ∉ g) : g.statements.filter (·.subject = a) = [] := by
  refine List.filter_eq_nil_iff.2 fun s hs heq => ha ?_
  obtain ⟨n, hn, hsn⟩ := List.mem_flatMap.1 hs
  rw [Node.subject_of_mem_statements hsn] at heq
  exact ⟨n, hn, of_decide_eq_true heq⟩

/-- The statements about an address are those of the node there. -/
theorem filter_statements (hu : g.addresses.Nodup) (hn : n ∈ g.nodes) :
    g.statements.filter (·.subject = n.address) = n.statements := by
  obtain ⟨front, back, hnodes⟩ := List.append_of_mem hn
  have hsplit : g.statements =
      statements ⟨front⟩ ++ (n.statements ++ statements ⟨back⟩) := by
    unfold statements
    rw [hnodes, List.flatMap_append, List.flatMap_cons]
  have haddresses : g.addresses =
      addresses ⟨front⟩ ++ n.address :: addresses ⟨back⟩ := by
    unfold addresses
    rw [hnodes, List.map_append, List.map_cons]
  -- the nodes before and behind it have other addresses
  rw [haddresses] at hu
  obtain ⟨-, hback, hfront⟩ := List.nodup_append.1 hu
  have hfront : n.address ∉ (⟨front⟩ : Graph) := by
    rw [mem_iff_addresses]
    exact fun h => hfront _ h _ List.mem_cons_self rfl
  have hback : n.address ∉ (⟨back⟩ : Graph) := by
    rw [mem_iff_addresses]
    exact (List.nodup_cons.1 hback).1
  have hself : n.statements.filter (·.subject = n.address) = n.statements :=
    List.filter_eq_self.2 fun s hs => decide_eq_true (Node.subject_of_mem_statements hs)
  rw [hsplit, List.filter_append, List.filter_append, filter_statements_eq_nil hfront,
    filter_statements_eq_nil hback, hself, List.nil_append, List.append_nil]

/-! ## All views together -/

/-- The graph has one node at an address and no node has an edge twice; look-up and membership find
what is among the nodes; the nodes of a kind are in the order of the nodes, and each node is of one
kind; and the statements come node after node in the order of the nodes, about each of them the type
that its kind implies, if it implies one, and then its edges in their order. -/
structure Consistent (g : Graph) : Prop where
  addresses : g.addresses.Nodup
  edges : ∀ n ∈ g.nodes, n.edges.Nodup
  get : ∀ a n, g.get? a = some n ↔ n ∈ g.nodes ∧ n.address = a
  contains : ∀ a, (a ∈ g ↔ (g.get? a).isSome) ∧ (a ∈ g ↔ a ∈ g.addresses)
  ofKind : ∀ k, (g.ofKind k).Sublist g.nodes ∧ ∀ n ∈ g.ofKind k, n.kind = k
  kinds : (Kind.all.flatMap g.ofKind).Perm g.nodes
  count : g.statements.length = g.edgeCount + g.nodes.countP (·.kind.type?.isSome)
  subjects : g.statements.map (·.subject) = g.nodes.flatMap fun n =>
    List.replicate (n.edges.length + if n.kind.type?.isSome then 1 else 0) n.address
  statements : ∀ n ∈ g.nodes, g.statements.filter (·.subject = n.address) =
    (n.kind.type?.map fun t => ⟨n.address, Predicate.type.iri, .node t⟩).toList ++
      n.edges.map fun e => ⟨n.address, e.predicate.iri, e.object⟩

theorem WF.consistent (hg : g.WF) : g.Consistent where
  addresses := hg.addresses
  edges n hn := hg.edges _ n (get?_of_mem hg.addresses hn)
  get _ _ := get?_eq_some_iff hg.addresses
  contains _ := ⟨mem_iff_get?, mem_iff_addresses⟩
  ofKind k := ⟨List.filter_sublist, fun n hn => by simpa using (List.mem_filter.1 hn).2⟩
  kinds := perm_ofKind g
  count := length_statements g
  subjects := by
    simp only [Graph.statements, List.map_flatMap, Node.map_subject_statements, Node.length_statements]
  statements _ hn := filter_statements hg.addresses hn

end Graph

end UmlOntology
