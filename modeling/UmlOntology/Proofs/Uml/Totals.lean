/-
The totals of a run and the graph that it leaves. The start of an element is counted by what it does:
an element that is mere structure does nothing, one that reaches a node changes the graph there and
nowhere else, and one that says too little is passed over and leaves the graph alone. So there are no
more nodes than elements that reached one.
-/
import UmlOntology.Proofs.Uml.Run
import UmlOntology.Proofs.Xml.Tree

namespace UmlOntology

/-! ## Elements that are mere structure -/

/-- The names of the elements that always have a part in a model, however little they say. -/
def partNames : List String :=
  ["Class", "DataType", "Package", "Model", "Stereotype", "TagDefinition", "Attribute",
    "Association", "AssociationEnd"]

namespace Element

variable {el : Element}

/-- The element is mere structure: its name gives it no part, it does not stand for a classifier,
and it lacks the identifier or the name of a declaration. -/
def Structural (el : Element) : Prop :=
  el.localName ∉ partNames ∧ ¬ (el.localName = "Classifier" ∧ el.Refers) ∧
    (el.id? = none ∨ el.name? = none)

instance (el : Element) : Decidable el.Structural := inferInstanceAs (Decidable (_ ∧ _ ∧ _))

theorem role_eq_classifier_iff : el.role = .classifier ↔ el.localName = "Classifier" := by
  unfold role Role.ofName
  split <;> simp_all

theorem mem_partNames_iff :
    el.localName ∈ partNames ↔ el.role ≠ .classifier ∧ el.role ≠ .other := by
  unfold role Role.ofName partNames
  split <;> simp_all

/-- Every element goes by its own tag, so it declares something if it has all that it takes. -/
theorem not_declares_iff : ¬ el.Declares el.tag ↔ el.id? = none ∨ el.name? = none := by
  unfold Declares Matches
  cases el.id? <;> cases el.name? <;> simp

end Element

namespace Reading

variable {scopes : List Scope} {el : Element}

theorem ofOther_eq_structural_iff :
    ofOther el = .structural ↔ el.id? = none ∨ el.name? = none := by
  rw [← Element.not_declares_iff]
  unfold ofOther
  split <;> simp_all

theorem ofEnd_ne_structural (scopes : List Scope) (el : Element) :
    ofEnd scopes el ≠ .structural := by
  unfold ofEnd
  split
  · nofun
  · split
    · nofun
    · split <;> nofun

/-- What an element with a part in a model is read as is never mere structure. -/
theorem ofElement_ne_structural (hc : el.role ≠ .classifier) (ho : el.role ≠ .other) :
    ofElement scopes el ≠ .structural := by
  unfold ofElement
  cases hrole : el.role with
  | concept | datatype | package | stereotype | tagDefinition | attributeProperty => nofun
  | association => cases el.id? <;> nofun
  | associationEnd => exact ofEnd_ne_structural scopes el
  | classifier => exact (hc hrole).elim
  | other => exact (ho hrole).elim

/-- An element is read as mere structure, inside whatever associations, if that is what it is. -/
theorem ofElement_eq_structural_iff (scopes : List Scope) :
    ofElement scopes el = .structural ↔ el.Structural := by
  unfold Element.Structural
  rw [Element.mem_partNames_iff, ← Element.role_eq_classifier_iff]
  by_cases hpart : el.role ≠ .classifier ∧ el.role ≠ .other
  · simp [hpart, ofElement_ne_structural hpart.1 hpart.2]
  · unfold ofElement
    by_cases hc : el.role = .classifier
    · by_cases href : el.Refers
      · simp [hc, href]
      · simp [hc, href, ofOther_eq_structural_iff]
    · have ho : el.role = .other := Classical.not_not.1 fun ho => hpart ⟨hc, ho⟩
      simp [ho, ofOther_eq_structural_iff]

end Reading

namespace Translation

variable {o : Options} {t : Translation} {el : Element}

/-! ## What a start can do -/

/-- A start led from one state to the other by an element that is mere structure. -/
structure Passed (t t' : Translation) : Prop where
  graph : t'.graph = t.graph
  totals : t'.totals = { t.totals with elements := t.totals.elements + 1 }

theorem passed_start (hs : el.Structural) : Passed t (t.start o el) := by
  have hread : Reading.ofElement t.scopes el = .structural :=
    (Reading.ofElement_eq_structural_iff t.scopes).2 hs
  refine ⟨graph_start_of_none (by simp [hread, Reading.request?]), ?_⟩
  rw [totals_start, hread]
  rfl

/-- An element that is more than structure reaches one node or says too little. -/
theorem resolved_or_skipped_start (o : Options) (t : Translation) (hs : ¬ el.Structural) :
    (∃ c a, t.reading el = .construct c ∧ Resolved o t c a (t.start o el)) ∨
      Skipped t (t.start o el) := by
  rw [← Reading.ofElement_eq_structural_iff t.scopes] at hs
  cases hr : (Reading.ofElement t.scopes el).request? with
  | none => exact Or.inr (skipped_start ⟨hs, hr⟩)
  | some r =>
    -- only a construct makes a request
    obtain ⟨c, hc, hcr⟩ := Option.bind_eq_some_iff.1 ((Reading.request?_eq_bind _).symm.trans hr)
    have hread : Reading.ofElement t.scopes el = .construct c := by
      cases hread : Reading.ofElement t.scopes el <;> simp_all [Reading.construct?]
    exact Or.inl ⟨c, o.address r.id, hread, resolved_start hread hcr⟩

/-- The construct that the element is read as and the address that it reaches are settled by the
state. -/
theorem Resolved.address_unique {c d : Construct} {a b : Iri} {t' : Translation}
    (hc : t.reading el = .construct c) (hd : t.reading el = .construct d)
    (hca : Resolved o t c a t') (hdb : Resolved o t d b t') : a = b := by
  cases hc.symm.trans hd
  exact Option.some.inj (congrArg Prod.fst (hca.build.symm.trans hdb.build))

/-! ## What a run keeps -/

/-- There are no more nodes than elements that reached one, and no more of these and of the skipped
elements together than elements. -/
structure Accounted (t : Translation) : Prop where
  nodes : t.graph.nodes.length ≤ t.totals.resolved
  elements : t.totals.resolved + t.totals.skipped ≤ t.totals.elements

theorem accounted_empty : Accounted {} := ⟨Nat.le_refl 0, Nat.le_refl 0⟩

end Translation

theorem Graph.length_addresses (g : Graph) : g.addresses.length = g.nodes.length :=
  List.length_map ..

/-- To reach a node adds one node at most. -/
theorem Graph.Reaches.length_nodes_le {g h : Graph} {a : Iri} (hr : g.Reaches a h) :
    h.nodes.length ≤ g.nodes.length + 1 := by
  have hlen := congrArg List.length hr.addresses
  split at hlen
  · rw [length_addresses, length_addresses] at hlen
    omega
  · rw [List.length_append, length_addresses, length_addresses, List.length_singleton] at hlen
    omega

namespace Translation

variable {t : Translation}

theorem Accounted.start (h : t.Accounted) (o : Options) (el : Element) :
    (t.start o el).Accounted := by
  obtain ⟨hnodes, helements⟩ := h
  by_cases hs : el.Structural
  · obtain ⟨hgraph, htotals⟩ := passed_start (o := o) (t := t) hs
    constructor <;> rw [htotals]
    · rw [hgraph]
      exact hnodes
    · show t.totals.resolved + t.totals.skipped ≤ t.totals.elements + 1
      omega
  · rcases resolved_or_skipped_start o t hs with ⟨c, a, -, hres⟩ | ⟨hgraph, htotals⟩
    · have hlen := hres.reaches.length_nodes_le
      constructor <;> rw [hres.totals]
      · show (t.start o el).graph.nodes.length ≤ t.totals.resolved + 1
        omega
      · show t.totals.resolved + 1 + t.totals.skipped ≤ t.totals.elements + 1
        omega
    · constructor <;> rw [htotals]
      · rw [hgraph]
        exact hnodes
      · show t.totals.resolved + (t.totals.skipped + 1) ≤ t.totals.elements + 1
        omega

theorem Accounted.handle (h : t.Accounted) (o : Options) (e : Event) :
    (t.handle o e).Accounted := by
  cases e with
  | start el =>
    rw [handle_start]
    exact h.start o el
  | finish tag =>
    rw [handle_finish]
    exact ⟨h.nodes, h.elements⟩

theorem Accounted.extend (h : t.Accounted) (o : Options) (es : List Event) :
    (t.extend o es).Accounted := by
  induction es generalizing t with
  | nil => exact h
  | cons e es ih => exact ih (h.handle o e)

end Translation

/-- Every element is read once, and nothing else is. -/
theorem Reading.length_ofEvents (scopes : List Scope) (es : List Event) :
    (ofEvents scopes es).length = (Event.elements es).length := by
  induction es generalizing scopes with
  | nil => rfl
  | cons e es ih =>
    cases e with
    | start el =>
      rw [ofEvents_start, Event.elements_start, List.length_cons, List.length_cons, ih]
    | finish tag => rw [ofEvents_finish, Event.elements_finish, ih]

/-- After any events, the totals count the elements that have started, and there are no more nodes
than elements that reached one. The end of an element changes neither the graph nor the totals. The
start of one that is mere structure counts as an element and changes nothing. The start of any other
reaches one node, which is new at the end or has been there, changes no other node and counts as
resolved, or else it leaves the graph as it is and counts as skipped. -/
theorem totals_of_run (o : Options) (es : List Event) :
    ((Translation.run o es).totals.elements = (Event.elements es).length ∧
      (Translation.run o es).graph.nodes.length ≤ (Translation.run o es).totals.resolved ∧
      (Translation.run o es).totals.resolved + (Translation.run o es).totals.skipped ≤
        (Translation.run o es).totals.elements) ∧
    (∀ tag, (Translation.run o (es ++ [.finish tag])).graph = (Translation.run o es).graph ∧
      (Translation.run o (es ++ [.finish tag])).totals = (Translation.run o es).totals) ∧
    ∀ el,
      el.Structural ∧ Translation.Passed (.run o es) (.run o (es ++ [.start el])) ∨
      ¬ el.Structural ∧
        ((∃! a, ∃ c, (Translation.run o es).reading el = .construct c ∧
            Translation.Resolved o (.run o es) c a (.run o (es ++ [.start el]))) ∨
          Translation.Skipped (.run o es) (.run o (es ++ [.start el]))) := by
  have haccounted : (Translation.run o es).Accounted := Translation.accounted_empty.extend o es
  refine ⟨⟨?_, haccounted.nodes, haccounted.elements⟩, fun tag => ?_, fun el => ?_⟩
  · rw [Translation.totals_run, Totals.foldl_count, Reading.length_ofEvents]
    exact Nat.zero_add _
  · rw [Translation.run_finish]
    exact ⟨Translation.graph_finish _ tag, Translation.totals_finish _ tag⟩
  · rw [Translation.run_start]
    by_cases hs : el.Structural
    · exact Or.inl ⟨hs, Translation.passed_start hs⟩
    · refine Or.inr ⟨hs, (Translation.resolved_or_skipped_start o (.run o es) hs).imp_left ?_⟩
      rintro ⟨c, a, hc, hres⟩
      refine ⟨a, ⟨c, hc, hres⟩, ?_⟩
      rintro b ⟨d, hd, hres'⟩
      exact hres'.address_unique hd hc hres

end UmlOntology
