/-
Doing again what has been done. A second run over the same events reads the same as the first, if
the first left no association open; so it builds constructs that are built and counts all readings
once more. A second call of a construct finds its request met, whatever has come in between.
-/
import UmlOntology.Proofs.Uml.Run

namespace UmlOntology

namespace Totals

/-- All totals doubled. -/
def double (t : Totals) : Totals where
  elements := 2 * t.elements
  resolved := 2 * t.resolved
  skipped := 2 * t.skipped

theorem foldl_count_twice (rs : List Reading) :
    rs.foldl count (rs.foldl count {}) = (rs.foldl count {}).double := by
  simp only [foldl_count, double, mk.injEq]
  refine ⟨?_, ?_, ?_⟩ <;> omega

end Totals

/-- Events that leave no association open, run through once more, leave the graph as it is and
double the totals. Constructs that are built once have their requests met, and built again, in any
order and as often as one likes, they leave the graph as it is. -/
theorem replay_changes_nothing (o : Options) :
    (∀ es, (Translation.run o es).scopes = [] →
      (Translation.extend o (.run o es) es).graph = (Translation.run o es).graph ∧
      (Translation.extend o (.run o es) es).totals = (Translation.run o es).totals.double) ∧
    ∀ calls again : List Construct, (∀ c ∈ again, c ∈ calls) →
      (∀ c ∈ calls, ∀ r, c.request? = some r →
        (Graph.extend {} (calls.map (.build o))).Meets o r) ∧
      (Graph.extend {} (calls.map (.build o))).extend (again.map (.build o)) =
        Graph.extend {} (calls.map (.build o)) := by
  constructor
  · intro es hes
    -- the second run starts with no association open, like the first, so it reads the same
    have hgraph := Translation.graph_extend o (.run o es) es
    have htotals := Translation.totals_extend o (.run o es) es
    rw [hes] at hgraph htotals
    constructor
    · rw [hgraph, Translation.graph_run]
      exact Graph.buildAll_again {} fun _ hc => hc
    · rw [htotals, Translation.totals_run]
      exact Totals.foldl_count_twice _
  · intro calls again hagain
    exact ⟨fun c hc r hr => Graph.meets_buildAll {} hc hr, Graph.buildAll_again {} hagain⟩

/-- A class that ends an association no one opened, and a reference to it beside it. -/
def strayEnd : List Event :=
  [.start { tag := "UML:Class", attributes := [("xmi.id", "c"), ("name", "C")] },
    .finish "UML:Association", .start { tag := "UML:Class", attributes := [("xmi.idref", "c")] }]

/-- An end of an association that was never open does not keep the second run from reading the
same, and a declaration before and after a reference to it is one declaration. -/
theorem replay_strayEnd :
    ((Translation.run {} strayEnd).scopes = [] ∧
      (Translation.extend {} (.run {} strayEnd) strayEnd).graph =
        (Translation.run {} strayEnd).graph) ∧
    ((∀ c ∈ [Construct.association "a", .reference "a"], c ∈ [.reference "a", .association "a"]) ∧
      (Graph.extend {} [.build {} (.reference "a"), .build {} (.association "a")]).extend
          [.build {} (.association "a"), .build {} (.reference "a")] =
        Graph.extend {} [.build {} (.reference "a"), .build {} (.association "a")]) :=
  ⟨⟨by decide, ((replay_changes_nothing {}).1 strayEnd (by decide)).1⟩,
    by decide,
    ((replay_changes_nothing {}).2 [.reference "a", .association "a"]
      [.association "a", .reference "a"] (by decide)).2⟩

end UmlOntology
