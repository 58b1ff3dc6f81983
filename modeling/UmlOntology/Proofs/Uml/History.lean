/-
Histories of a graph. Each operation is a request, a demand, an addition to a node that is there, or
nothing at all, so what one step keeps is read off the laws of those, and what a history keeps
follows by induction. Constructs that have been built once are met for good.
-/
import UmlOntology.Proofs.Uml.Request
import UmlOntology.Uml.Operation

namespace UmlOntology

variable {g h : Graph} {o : Options} {c : Construct}

/-! ## What an operation does -/

namespace Operation

theorem apply_build_of_some {r : Request} (hr : c.request? = some r) (g : Graph) (o : Options) :
    apply g (.build o c) = g.realize o r := by
  show (g.build o c).2 = _
  unfold Graph.build
  rw [hr]

theorem apply_build_of_none (hr : c.request? = none) (g : Graph) (o : Options) :
    apply g (.build o c) = g := by
  show (g.build o c).2 = _
  unfold Graph.build
  rw [hr]

/-- To change the node that is found, if something changes it, is a change like any other. -/
theorem getD_map_change (g : Graph) (a : Iri) (f : Node → Option Node) :
    (((g.get? a).bind f).map fun n => g.change a fun _ => n).getD g =
      g.change a fun n => (f n).getD n := by
  cases hn : g.get? a with
  | none => exact (Graph.change_of_not_mem (Graph.get?_eq_none_iff.1 hn) _).symm
  | some n =>
    rw [Option.bind_some]
    cases hm : f n with
    | none => exact (Graph.change_eq_self_of_get? hn (by rw [hm]; rfl)).symm
    | some m => exact Graph.change_congr_of_get? hn (by rw [hm]; rfl)

theorem apply_setLabel (g : Graph) (a : Iri) (text : String) (lang : Option String) :
    apply g (.setLabel a text lang) = g.change a (·.add (.label text lang)) :=
  getD_map_change g a (·.setLabel? text lang)

theorem apply_addEdge (g : Graph) (a : Iri) (p : Predicate) (x : Object) :
    apply g (.addEdge a p x) = g.change a (·.add (.edge p x)) :=
  getD_map_change g a (·.addEdge? p x)

/-- What an operation can do to a graph. -/
theorem apply_cases (g : Graph) (op : Operation) :
    (∃ o r, op.demanded? = some (o.address r.id, r.kind) ∧ op.apply g = g.realize o r) ∨
    (∃ a k, op.demanded? = some (a, k) ∧ op.apply g = g.demand a k) ∨
    (∃ a x, op.demanded? = none ∧ op.apply g = g.change a (·.add x)) ∨
    op.demanded? = none ∧ op.apply g = g := by
  cases op with
  | build o c =>
    cases hr : c.request? with
    | none => exact .inr (.inr (.inr ⟨by simp [demanded?, hr], apply_build_of_none hr g o⟩))
    | some r => exact .inl ⟨o, r, by simp [demanded?, hr], apply_build_of_some hr g o⟩
  | demand a k => exact .inr (.inl ⟨a, k, rfl, rfl⟩)
  | setLabel a text lang => exact .inr (.inr (.inl ⟨a, _, rfl, apply_setLabel g a text lang⟩))
  | addEdge a p x => exact .inr (.inr (.inl ⟨a, _, rfl, apply_addEdge g a p x⟩))

theorem grows_apply (g : Graph) (op : Operation) : g.Grows (op.apply g) := by
  rcases op.apply_cases g with ⟨o, r, -, e⟩ | ⟨a, k, -, e⟩ | ⟨a, x, -, e⟩ | ⟨-, e⟩
  · rw [e]; exact Graph.grows_realize g o r
  · rw [e]; exact Graph.grows_demand g a k
  · rw [e]; exact Graph.grows_change (fun n => Node.grows_add n x) g a
  · rw [e]; exact Graph.Grows.refl g

theorem wf_apply (hg : g.WF) (op : Operation) : (op.apply g).WF := by
  rcases op.apply_cases g with ⟨o, r, -, e⟩ | ⟨a, k, -, e⟩ | ⟨a, x, -, e⟩ | ⟨-, e⟩
  · rw [e]; exact Graph.wf_realize hg o r
  · rw [e]; exact Graph.wf_demand hg a k
  · rw [e]
    exact Graph.wf_change (fun n => (Node.grows_add n x).address) (fun _ => Node.nodup_add x) hg a
  · rw [e]; exact hg

end Operation

/-! ## What a history keeps -/

namespace Graph

@[simp] theorem extend_nil (g : Graph) : g.extend [] = g := rfl

@[simp] theorem extend_cons (g : Graph) (op : Operation) (history : List Operation) :
    g.extend (op :: history) = (op.apply g).extend history := rfl

theorem extend_append (g : Graph) (h1 h2 : List Operation) :
    g.extend (h1 ++ h2) = (g.extend h1).extend h2 := List.foldl_append

theorem grows_extend (g : Graph) (history : List Operation) : g.Grows (g.extend history) := by
  induction history generalizing g with
  | nil => exact Grows.refl g
  | cons op history ih => exact (Operation.grows_apply g op).trans (ih _)

theorem wf_extend (hg : g.WF) (history : List Operation) : (g.extend history).WF := by
  induction history generalizing g with
  | nil => exact hg
  | cons op history ih => exact ih (Operation.wf_apply hg op)

/-! ## Constructs that are built -/

/-- The graph after constructs have been built in turn. -/
def buildAll (o : Options) (g : Graph) (cs : List Construct) : Graph :=
  g.extend (cs.map (.build o))

@[simp] theorem buildAll_cons (o : Options) (g : Graph) (c : Construct) (cs : List Construct) :
    g.buildAll o (c :: cs) = (Operation.apply g (.build o c)).buildAll o cs := rfl

theorem buildAll_append (o : Options) (g : Graph) (cs ds : List Construct) :
    g.buildAll o (cs ++ ds) = (g.buildAll o cs).buildAll o ds := by
  unfold buildAll
  rw [List.map_append, extend_append]

/-- Whatever is built meets its request in the end, whatever is built before and after it. -/
theorem meets_buildAll {cs : List Construct} (g : Graph) (hc : c ∈ cs) {r : Request}
    (hr : c.request? = some r) : (g.buildAll o cs).Meets o r := by
  induction cs generalizing g with
  | nil => cases hc
  | cons d cs ih =>
    rw [buildAll_cons]
    rcases List.mem_cons.1 hc with rfl | hc
    · -- met by its own step, and kept by what comes after
      rw [Operation.apply_build_of_some hr]
      exact (meets_realize g o r).mono (grows_extend _ _)
    · exact ih _ hc

theorem buildAll_of_meets {cs : List Construct}
    (h : ∀ c ∈ cs, ∀ r, c.request? = some r → g.Meets o r) : g.buildAll o cs = g := by
  induction cs with
  | nil => rfl
  | cons c cs ih =>
    have hc : Operation.apply g (.build o c) = g := by
      cases hr : c.request? with
      | none => exact Operation.apply_build_of_none hr g o
      | some r =>
        rw [Operation.apply_build_of_some hr]
        exact realize_of_meets (h c (List.mem_cons_self ..) r hr)
    rw [buildAll_cons, hc]
    exact ih fun d hd => h d (List.mem_cons_of_mem _ hd)

/-- To build again what has been built changes nothing. -/
theorem buildAll_again {cs ds : List Construct} (g : Graph) (h : ∀ d ∈ ds, d ∈ cs) :
    (g.buildAll o cs).buildAll o ds = g.buildAll o cs :=
  buildAll_of_meets fun d hd _ hr => meets_buildAll g (h d hd) hr

end Graph

end UmlOntology
