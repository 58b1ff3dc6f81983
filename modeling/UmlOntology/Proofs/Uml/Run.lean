/-
A run of a translation, taken apart. The open associations depend on the events alone; they settle
what each element is read as; and the graph and the totals depend on these readings alone. So a run
builds the constructs that were read, in turn, and counts the readings, whatever their order.
-/
import UmlOntology.Proofs.Uml.History
import UmlOntology.Uml.Translation

namespace UmlOntology

/-! ## Open associations -/

namespace Scope

/-- The open associations after an event. -/
def pass (scopes : List Scope) : Event → List Scope
  | .start el => enter scopes el
  | .finish tag => leave scopes tag

/-- The open associations after events. -/
def passAll (scopes : List Scope) (es : List Event) : List Scope := es.foldl pass scopes

@[simp] theorem pass_start (scopes : List Scope) (el : Element) :
    pass scopes (.start el) = enter scopes el := by rw [pass]

@[simp] theorem pass_finish (scopes : List Scope) (tag : String) :
    pass scopes (.finish tag) = leave scopes tag := by rw [pass]

@[simp] theorem passAll_nil (scopes : List Scope) : passAll scopes [] = scopes := rfl

@[simp] theorem passAll_cons (scopes : List Scope) (e : Event) (es : List Event) :
    passAll scopes (e :: es) = passAll (pass scopes e) es := rfl

theorem passAll_append (scopes : List Scope) (es fs : List Event) :
    passAll scopes (es ++ fs) = passAll (passAll scopes es) fs := List.foldl_append

end Scope

/-! ## Readings -/

/-- A construct that the element may be read as: it is about the element, and a reference is one by
the attribute for references. Individuals of any type and references by an identifier alone are read
nowhere. -/
def Construct.Of (el : Element) : Construct → Prop
  | concept el' | datatype el' | objectProperty el' | annotationProperty el'
  | attributeProperty el' | package el' | stereotype el' | unclassified el' => el' = el
  | associationEnd el' _ _ => el' = el ∧ el.role = .associationEnd
  | conceptReference el' key | elementReference el' key => el' = el ∧ key = idrefAttribute
  | association id => el.id? = some id
  | individual .. | stereotypeReference _ | reference _ => False

namespace Reading

variable {r : Reading} {scopes : List Scope} {el : Element} {c : Construct}

theorem of_ofOther (h : ofOther el = .construct c) : c.Of el := by
  unfold ofOther at h
  split at h
  · cases h
    rfl
  · cases h

theorem of_ofEnd (hrole : el.role = .associationEnd) (h : ofEnd scopes el = .construct c) :
    c.Of el := by
  unfold ofEnd at h
  split at h
  · cases h
    rfl
  · split at h
    · cases h
      rfl
    · split at h <;> cases h
      exact ⟨rfl, hrole⟩

/-- Whatever associations are open, an element is read as a construct about it, if as any. -/
theorem of_ofElement (h : ofElement scopes el = .construct c) : c.Of el := by
  unfold ofElement at h
  cases hrole : el.role with
  | concept =>
    simp only [hrole] at h
    split at h <;> cases h
    · exact ⟨rfl, rfl⟩
    · rfl
  | datatype | package | attributeProperty =>
    simp only [hrole, referenceOr] at h
    split at h <;> cases h
    · exact ⟨rfl, rfl⟩
    · rfl
  | classifier =>
    simp only [hrole] at h
    split at h
    · cases h
      exact ⟨rfl, rfl⟩
    · exact of_ofOther h
  | stereotype | tagDefinition =>
    simp only [hrole] at h
    cases h
    rfl
  | association =>
    simp only [hrole] at h
    split at h
    · rename_i hid
      cases h
      exact hid
    · cases h
  | associationEnd =>
    simp only [hrole] at h
    exact of_ofEnd hrole h
  | other =>
    simp only [hrole] at h
    exact of_ofOther h

/-- The construct that the element is read as. -/
def construct? : Reading → Option Construct
  | construct c => some c
  | _ => none

/-- The element reaches a node. -/
def Resolves (r : Reading) : Prop := r.request?.isSome

instance (r : Reading) : Decidable r.Resolves := inferInstanceAs (Decidable (_ = _))

/-- The element is of a known sort and reaches no node. -/
def Skips (r : Reading) : Prop := r ≠ structural ∧ r.request? = none

instance (r : Reading) : Decidable r.Skips := inferInstanceAs (Decidable (_ ∧ _))

theorem request?_eq_bind (r : Reading) : r.request? = r.construct?.bind Construct.request? := by
  cases r <;> rfl

/-- What the elements of events are read as, inside the associations that are open. -/
def ofEvents (scopes : List Scope) : List Event → List Reading
  | [] => []
  | .start el :: es => ofElement scopes el :: ofEvents (Scope.enter scopes el) es
  | .finish tag :: es => ofEvents (Scope.leave scopes tag) es

@[simp] theorem ofEvents_nil (scopes : List Scope) : ofEvents scopes [] = [] := rfl

@[simp] theorem ofEvents_start (scopes : List Scope) (el : Element) (es : List Event) :
    ofEvents scopes (.start el :: es) =
      ofElement scopes el :: ofEvents (Scope.enter scopes el) es := by rw [ofEvents]

@[simp] theorem ofEvents_finish (scopes : List Scope) (tag : String) (es : List Event) :
    ofEvents scopes (.finish tag :: es) = ofEvents (Scope.leave scopes tag) es := by rw [ofEvents]

theorem ofEvents_append (scopes : List Scope) (es fs : List Event) :
    ofEvents scopes (es ++ fs) = ofEvents scopes es ++ ofEvents (Scope.passAll scopes es) fs := by
  induction es generalizing scopes with
  | nil => rfl
  | cons e es ih =>
    rw [List.cons_append, Scope.passAll_cons]
    cases e with
    | start el =>
      rw [ofEvents_start, ofEvents_start, ih, Scope.pass_start, List.cons_append]
    | finish tag => rw [ofEvents_finish, ofEvents_finish, ih, Scope.pass_finish]

/-- The constructs among readings. -/
def constructs (rs : List Reading) : List Construct := rs.filterMap construct?

theorem constructs_append (rs qs : List Reading) :
    constructs (rs ++ qs) = constructs rs ++ constructs qs := List.filterMap_append

end Reading

/-! ## Totals -/

namespace Totals

/-- The totals after some readings count them by what they bring. -/
theorem foldl_count (t : Totals) (rs : List Reading) :
    rs.foldl count t =
      { elements := t.elements + rs.length
        resolved := t.resolved + rs.countP (·.Resolves)
        skipped := t.skipped + rs.countP (·.Skips) } := by
  induction rs generalizing t with
  | nil => rfl
  | cons r rs ih =>
    rw [List.foldl_cons, ih]
    -- a reading is structural, or it has a request, or it is skipped
    unfold count
    by_cases hs : r = .structural
    · subst hs
      simp [Reading.Resolves, Reading.Skips, Reading.request?]
      omega
    · by_cases hr : r.request?.isSome
      · have hn : r.request? ≠ none := Option.isSome_iff_ne_none.1 hr
        simp [hs, hr, hn, Reading.Resolves, Reading.Skips]
        omega
      · have hn : r.request? = none := by simpa using hr
        simp [hs, hn, Reading.Resolves, Reading.Skips]
        omega

end Totals

namespace Translation

/-! ## One event -/

section Event

variable (o : Options) (t : Translation)

@[simp] theorem handle_start (el : Element) : t.handle o (.start el) = t.start o el := by rw [handle]

@[simp] theorem handle_finish (tag : String) :
    t.handle o (.finish tag) = t.finish tag := by rw [handle]

@[simp] theorem scopes_start (el : Element) :
    (t.start o el).scopes = Scope.enter t.scopes el := by rw [start]

@[simp] theorem totals_start (el : Element) :
    (t.start o el).totals = t.totals.count (Reading.ofElement t.scopes el) := by rw [start, reading]

@[simp] theorem scopes_finish (tag : String) :
    (t.finish tag).scopes = Scope.leave t.scopes tag := by rw [finish]

@[simp] theorem graph_finish (tag : String) : (t.finish tag).graph = t.graph := by rw [finish]

@[simp] theorem totals_finish (tag : String) : (t.finish tag).totals = t.totals := by rw [finish]

end Event

section Start

variable {o : Options} {t : Translation} {el : Element} {r : Request}

theorem graph_start_of_none (hr : (Reading.ofElement t.scopes el).request? = none) :
    (t.start o el).graph = t.graph := by
  unfold start reading
  rw [hr]

theorem graph_start_of_some (hr : (Reading.ofElement t.scopes el).request? = some r) :
    (t.start o el).graph = t.graph.realize o r := by
  unfold start reading
  rw [hr]

/-- The start of an element builds what the element is read as. -/
theorem graph_start (o : Options) (t : Translation) (el : Element) :
    (t.start o el).graph =
      t.graph.buildAll o (Reading.constructs [Reading.ofElement t.scopes el]) := by
  cases hread : Reading.ofElement t.scopes el with
  | construct c =>
    have hc : (Reading.ofElement t.scopes el).request? = c.request? := by
      rw [hread, Reading.request?]
    cases hr : c.request? with
    | none =>
      rw [graph_start_of_none (hc.trans hr)]
      exact (Operation.apply_build_of_none hr _ _).symm
    | some r =>
      rw [graph_start_of_some (hc.trans hr)]
      exact (Operation.apply_build_of_some hr _ _).symm
  | structural | incomplete | unplaced index =>
    have hnone : (Reading.ofElement t.scopes el).request? = none := by
      rw [hread, Reading.request?]
      nofun
    rw [graph_start_of_none hnone]
    rfl

/-! ## Starts that reach a node and starts that do not -/

/-- A start led from one state to the other by building `c`, which reached the node at `a`. -/
structure Resolved (o : Options) (t : Translation) (c : Construct) (a : Iri)
    (t' : Translation) : Prop where
  build : t.graph.build o c = (some a, t'.graph)
  reaches : t.graph.Reaches a t'.graph
  totals : t'.totals =
    { t.totals with elements := t.totals.elements + 1, resolved := t.totals.resolved + 1 }

/-- A start led from one state to the other by an element that says too little. -/
structure Skipped (t t' : Translation) : Prop where
  graph : t'.graph = t.graph
  totals : t'.totals =
    { t.totals with elements := t.totals.elements + 1, skipped := t.totals.skipped + 1 }

theorem resolved_start {c : Construct}
    (hc : Reading.ofElement t.scopes el = .construct c) (hr : c.request? = some r) :
    Resolved o t c (o.address r.id) (t.start o el) := by
  have hread : (Reading.ofElement t.scopes el).request? = some r := by
    rw [hc, Reading.request?, hr]
  have hg : (t.start o el).graph = t.graph.realize o r := graph_start_of_some hread
  refine ⟨?_, ?_, ?_⟩
  · unfold Graph.build
    rw [hr, hg]
  · rw [hg]
    exact Graph.reaches_realize _ _ _
  · rw [totals_start]
    unfold Totals.count
    rw [if_neg (by rw [hc]; nofun), hread, if_pos Option.isSome_some]

theorem skipped_start (hs : (Reading.ofElement t.scopes el).Skips) : Skipped t (t.start o el) := by
  obtain ⟨hne, hr⟩ := hs
  constructor
  · exact graph_start_of_none hr
  · rw [totals_start]
    unfold Totals.count
    rw [if_neg hne, hr]
    rfl

end Start

/-! ## Runs -/

variable (o : Options) (t : Translation) (es : List Event)

@[simp] theorem extend_nil : extend o t [] = t := rfl

@[simp] theorem extend_cons (e : Event) : extend o t (e :: es) = extend o (t.handle o e) es := rfl

theorem extend_append (fs : List Event) :
    extend o t (es ++ fs) = extend o (extend o t es) fs := List.foldl_append

theorem scopes_extend : (extend o t es).scopes = Scope.passAll t.scopes es := by
  induction es generalizing t with
  | nil => rfl
  | cons e es ih =>
    rw [extend_cons, ih, Scope.passAll_cons]
    cases e with
    | start el => rw [handle_start, scopes_start, Scope.pass_start]
    | finish tag => rw [handle_finish, scopes_finish, Scope.pass_finish]

/-- A run builds the constructs that it reads. -/
theorem graph_extend :
    (extend o t es).graph =
      t.graph.buildAll o (Reading.constructs (Reading.ofEvents t.scopes es)) := by
  induction es generalizing t with
  | nil => rfl
  | cons e es ih =>
    rw [extend_cons, ih]
    cases e with
    | start el =>
      rw [handle_start, graph_start, scopes_start, ← Graph.buildAll_append,
        ← Reading.constructs_append, Reading.ofEvents_start, List.singleton_append]
    | finish tag => rw [handle_finish, graph_finish, scopes_finish, Reading.ofEvents_finish]

/-- A run counts the readings. -/
theorem totals_extend :
    (extend o t es).totals = (Reading.ofEvents t.scopes es).foldl Totals.count t.totals := by
  induction es generalizing t with
  | nil => rfl
  | cons e es ih =>
    rw [extend_cons, ih]
    cases e with
    | start el =>
      rw [handle_start, totals_start, scopes_start, Reading.ofEvents_start, List.foldl_cons]
    | finish tag => rw [handle_finish, totals_finish, scopes_finish, Reading.ofEvents_finish]

theorem run_append (fs : List Event) : run o (es ++ fs) = extend o (run o es) fs :=
  extend_append o {} es fs

theorem run_start (el : Element) : run o (es ++ [.start el]) = (run o es).start o el := by
  rw [run_append, extend_cons, extend_nil, handle_start]

theorem run_finish (tag : String) : run o (es ++ [.finish tag]) = (run o es).finish tag := by
  rw [run_append, extend_cons, extend_nil, handle_finish]

theorem scopes_run : (run o es).scopes = Scope.passAll [] es := scopes_extend o {} es

theorem graph_run :
    (run o es).graph = Graph.buildAll o {} (Reading.constructs (Reading.ofEvents [] es)) :=
  graph_extend o {} es

theorem totals_run : (run o es).totals = (Reading.ofEvents [] es).foldl Totals.count {} :=
  totals_extend o {} es

end Translation

end UmlOntology
