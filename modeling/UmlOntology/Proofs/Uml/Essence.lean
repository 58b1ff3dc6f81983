/-
What a translation sees of a document. Of a tag it is the local part, of the attributes the three
that identify, refer and name, each if it has a value; elements that are mere structure and the ends
of all elements but associations do nothing at all. So events that have the same essence are
translated to the same graph, down to every order in it, and reach and skip as many elements.
-/
import UmlOntology.Proofs.Uml.Scopes
import UmlOntology.Proofs.Uml.Totals
import Mathlib.Data.List.TakeWhile

namespace UmlOntology

/-! ## The essence of elements and events -/

/-- The attributes that say something to the translation. -/
def readAttributes : List String := [idAttribute, idrefAttribute, nameAttribute]

/-- The element without the namespace of its tag, and with those attributes only that say something
and have a value. -/
def Element.essence (el : Element) : Element where
  tag := el.localName
  attributes := readAttributes.filterMap fun key => (el.nonEmpty? key).map fun v => (key, v)

namespace Event

/-- The event with the essence of its element, or without the namespace of its tag. -/
def essence : Event → Event
  | start el => start el.essence
  | finish tag => finish (localName tag)

/-- The event does something: an element that is more than structure starts, or an association
ends. -/
def Matters : Event → Prop
  | start el => ¬ el.Structural
  | finish tag => localName tag = "Association"

instance : DecidablePred Matters
  | start el => inferInstanceAs (Decidable (¬ el.Structural))
  | finish tag => inferInstanceAs (Decidable (localName tag = "Association"))

/-- The essence of the events that do something. -/
def essences (es : List Event) : List Event := (es.map essence).filter (·.Matters)

end Event

/-! ## Elements and their essence -/

@[simp] theorem localName_localName (tag : String) : localName (localName tag) = localName tag := by
  have htwice : ∀ s : List Char,
      (s.takeWhile (· ≠ ':')).takeWhile (· ≠ ':') = s.takeWhile (· ≠ ':') := fun s =>
    List.takeWhile_eq_self_iff.2 fun c hc => List.mem_takeWhile_imp (p := (· ≠ ':')) hc
  unfold localName
  rw [String.toList_ofList, List.reverse_reverse, htwice]

namespace Element

variable {el : Element} {key : String}

theorem find?_filterMap_attribute (value? : String → Option String) (key : String)
    (keys : List String) :
    (keys.filterMap fun k => (value? k).map fun v => (k, v)).find? (·.1 = key) =
      if key ∈ keys then (value? key).map fun v => (key, v) else none := by
  induction keys with
  | nil => rfl
  | cons k keys ih =>
    by_cases hk : k = key
    · subst hk
      cases hv : value? k with
      | none => simp [hv, ih]
      | some v => simp [hv]
    · cases hv : value? k with
      | none => simp [hv, ih, Ne.symm hk]
      | some v => simp [hv, ih, hk, Ne.symm hk]

/-- The attributes that say something keep their values. -/
theorem nonEmpty?_essence (hkey : key ∈ readAttributes) (el : Element) :
    el.essence.nonEmpty? key = el.nonEmpty? key := by
  have hvalue : el.essence.value? key = el.nonEmpty? key := by
    unfold value? essence
    rw [find?_filterMap_attribute, if_pos hkey]
    cases el.nonEmpty? key <;> rfl
  unfold nonEmpty? at hvalue ⊢
  rw [hvalue]
  simp

@[simp] theorem id?_essence (el : Element) : el.essence.id? = el.id? :=
  nonEmpty?_essence (by decide) el

@[simp] theorem idref?_essence (el : Element) : el.essence.idref? = el.idref? :=
  nonEmpty?_essence (by decide) el

@[simp] theorem name?_essence (el : Element) : el.essence.name? = el.name? :=
  nonEmpty?_essence (by decide) el

@[simp] theorem declaration?_essence (el : Element) : el.essence.declaration? = el.declaration? := by
  simp [declaration?]

@[simp] theorem refers_essence_iff : el.essence.Refers ↔ el.Refers := by
  simp [Refers]

@[simp] theorem localName_essence (el : Element) : el.essence.localName = el.localName :=
  localName_localName el.tag

@[simp] theorem role_essence (el : Element) : el.essence.role = el.role := by
  simp [role]

@[simp] theorem structural_essence_iff : el.essence.Structural ↔ el.Structural := by
  simp [Structural]

end Element

@[simp] theorem Event.matters_essence_iff {e : Event} : e.essence.Matters ↔ e.Matters := by
  cases e <;> simp [essence, Matters]

/-! ## Readings of the essence -/

namespace Construct

@[simp] theorem declared_essence (el : Element) (k : Kind) (xs : String → List Addition) :
    declared el.essence k xs = declared el k xs := by
  simp [declared]

@[simp] theorem request?_conceptReference_essence (el : Element) :
    (conceptReference el.essence idrefAttribute).request? =
      (conceptReference el idrefAttribute).request? := by
  rw [request?, request?, Element.nonEmpty?_essence (by decide)]

@[simp] theorem request?_elementReference_essence (el : Element) :
    (elementReference el.essence idrefAttribute).request? =
      (elementReference el idrefAttribute).request? := by
  rw [request?_elementReference_eq, request?_elementReference_eq,
    Element.nonEmpty?_essence (by decide)]

end Construct

namespace Reading

theorem request?_ofOther_essence (el : Element) :
    (ofOther el.essence).request? = (ofOther el).request? := by
  have hiff : el.essence.Declares el.essence.tag ↔ el.Declares el.tag := by
    rw [← not_iff_not, Element.not_declares_iff, Element.not_declares_iff, Element.id?_essence,
      Element.name?_essence]
  unfold ofOther
  by_cases hd : el.Declares el.tag
  · simp [hd, hiff, request?, Construct.request?]
  · simp [hd, hiff, request?]

theorem request?_ofEnd_essence (scopes : List Scope) (el : Element) :
    (ofEnd scopes el.essence).request? = (ofEnd scopes el).request? := by
  cases scopes with
  | nil => simp [ofEnd, request?, Construct.request?]
  | cons scope outer =>
    simp only [ofEnd, Element.id?_essence]
    by_cases hid : el.id?.isSome
    · simp [hid, request?, Construct.request?]
    · rw [if_neg hid, if_neg hid]
      -- the scope settles whether a side is left, and the end gives its name only
      split
      · simp [request?, Construct.request?]
      · rfl

/-- An element asks for what its essence asks for. -/
theorem request?_essence (scopes : List Scope) (el : Element) :
    (ofElement scopes el.essence).request? = (ofElement scopes el).request? := by
  unfold ofElement
  rw [Element.role_essence]
  cases el.role with
  | concept =>
    by_cases href : el.Refers
    · simp [href, request?]
    · simp [href, request?, Construct.request?]
  | datatype | package | attributeProperty =>
    by_cases href : el.Refers
    · simp [href, referenceOr, request?]
    · simp [href, referenceOr, request?, Construct.request?, Construct.individualRequest?]
  | stereotype | tagDefinition =>
    simp [request?, Construct.request?, Construct.individualRequest?]
  | association => simp only [Element.id?_essence]
  | associationEnd => exact request?_ofEnd_essence scopes el
  | classifier =>
    by_cases href : el.Refers
    · simp [href, request?]
    · simpa [href] using request?_ofOther_essence el
  | other => exact request?_ofOther_essence el

theorem structural_essence_iff (scopes : List Scope) (el : Element) :
    ofElement scopes el.essence = .structural ↔ ofElement scopes el = .structural := by
  rw [ofElement_eq_structural_iff, ofElement_eq_structural_iff, Element.structural_essence_iff]

end Reading

namespace Scope

variable {scopes : List Scope} {el : Element} {tag : String}

theorem enter_essence (scopes : List Scope) (el : Element) :
    enter scopes el.essence = enter scopes el := by
  simp [enter]

theorem leave_localName (scopes : List Scope) (tag : String) :
    leave scopes (localName tag) = leave scopes tag := by
  simp [leave]

theorem enter_structural (hs : el.Structural) : enter scopes el = scopes := by
  refine enter_other (fun ha => hs.1 ?_) fun he => hs.1 ?_
  · rw [show el.localName = "Association" from ha]
    decide
  · rw [show el.localName = "AssociationEnd" from he]
    decide

/-- The end of what is no association leaves all associations open. -/
theorem leave_of_ne (htag : localName tag ≠ "Association") : leave scopes tag = scopes :=
  @leave_other { tag } scopes htag

end Scope

/-! ## Runs over the essence -/

/-- Readings that ask for the same and are mere structure alike are counted alike. -/
theorem Totals.count_congr {t u : Totals} {r q : Reading}
    (hs : r = .structural ↔ q = .structural) (hr : r.request? = q.request?)
    (hresolved : t.resolved = u.resolved) (hskipped : t.skipped = u.skipped) :
    (t.count r).resolved = (u.count q).resolved ∧ (t.count r).skipped = (u.count q).skipped := by
  unfold count
  by_cases h : r = .structural
  · rw [if_pos h, if_pos (hs.1 h)]
    exact ⟨hresolved, hskipped⟩
  · rw [if_neg h, if_neg (mt hs.2 h), hr]
    split
    · exact ⟨congrArg (· + 1) hresolved, hskipped⟩
    · exact ⟨hresolved, congrArg (· + 1) hskipped⟩

namespace Translation

variable {o : Options} {t u : Translation} {el : Element} {tag : String}

/-- The states are the same but for the number of elements that have started. -/
structure Alike (t u : Translation) : Prop where
  graph : t.graph = u.graph
  scopes : t.scopes = u.scopes
  resolved : t.totals.resolved = u.totals.resolved
  skipped : t.totals.skipped = u.totals.skipped

namespace Alike

theorem refl (t : Translation) : t.Alike t := ⟨rfl, rfl, rfl, rfl⟩

theorem start (h : t.Alike u) (o : Options) (el : Element) :
    (t.start o el).Alike (u.start o el.essence) := by
  have hr := (Reading.request?_essence u.scopes el).symm
  obtain ⟨hresolved, hskipped⟩ := Totals.count_congr (t := t.totals) (u := u.totals)
    (Reading.structural_essence_iff u.scopes el).symm hr h.resolved h.skipped
  refine ⟨?_, ?_, ?_, ?_⟩
  · unfold Translation.start reading
    simp only [h.graph, h.scopes, hr]
  · rw [scopes_start, scopes_start, Scope.enter_essence, h.scopes]
  · rw [totals_start, totals_start, h.scopes, hresolved]
  · rw [totals_start, totals_start, h.scopes, hskipped]

/-- An element that is mere structure does nothing but count as an element. -/
theorem start_left (h : t.Alike u) (hs : el.Structural) : (t.start o el).Alike u := by
  obtain ⟨hgraph, htotals⟩ := passed_start (o := o) (t := t) hs
  refine ⟨hgraph.trans h.graph, ?_, ?_, ?_⟩
  · rw [scopes_start, Scope.enter_structural hs, h.scopes]
  · rw [htotals]
    exact h.resolved
  · rw [htotals]
    exact h.skipped

theorem finish (h : t.Alike u) (tag : String) :
    (t.finish tag).Alike (u.finish (localName tag)) := by
  refine ⟨?_, ?_, ?_, ?_⟩
  · rw [graph_finish, graph_finish, h.graph]
  · rw [scopes_finish, scopes_finish, Scope.leave_localName, h.scopes]
  · rw [totals_finish, totals_finish, h.resolved]
  · rw [totals_finish, totals_finish, h.skipped]

theorem finish_left (h : t.Alike u) (htag : localName tag ≠ "Association") :
    (t.finish tag).Alike u := by
  refine ⟨?_, ?_, ?_, ?_⟩
  · rw [graph_finish, h.graph]
  · rw [scopes_finish, Scope.leave_of_ne htag, h.scopes]
  · rw [totals_finish, h.resolved]
  · rw [totals_finish, h.skipped]

theorem handle (h : t.Alike u) (o : Options) (e : Event) :
    (t.handle o e).Alike (u.handle o e.essence) := by
  cases e with
  | start el =>
    rw [Event.essence, handle_start, handle_start]
    exact h.start o el
  | finish tag =>
    rw [Event.essence, handle_finish, handle_finish]
    exact h.finish tag

/-- An event that does nothing leaves the state as it is. -/
theorem handle_left (h : t.Alike u) (o : Options) {e : Event} (he : ¬ e.Matters) :
    (t.handle o e).Alike u := by
  cases e with
  | start el =>
    rw [handle_start]
    exact h.start_left (Classical.not_not.1 he)
  | finish tag =>
    rw [handle_finish]
    exact h.finish_left he

theorem extend (h : t.Alike u) (o : Options) (es : List Event) :
    (t.extend o es).Alike (u.extend o (Event.essences es)) := by
  induction es generalizing t u with
  | nil => exact h
  | cons e es ih =>
    by_cases he : e.Matters
    · have hcons : Event.essences (e :: es) = e.essence :: Event.essences es := by
        simp [Event.essences, he]
      rw [hcons, extend_cons, extend_cons]
      exact ih (h.handle o e)
    · have hcons : Event.essences (e :: es) = Event.essences es := by
        simp [Event.essences, he]
      rw [hcons, extend_cons]
      exact ih (h.handle_left o he)

end Alike

end Translation

/-- Events that are the same in essence are translated to the same graph, with the same numbers of
elements that reached a node and of those that were skipped. -/
theorem translation_of_essences (o : Options) {es fs : List Event}
    (h : Event.essences es = Event.essences fs) :
    (Translation.run o es).graph = (Translation.run o fs).graph ∧
    (Translation.run o es).totals.resolved = (Translation.run o fs).totals.resolved ∧
    (Translation.run o es).totals.skipped = (Translation.run o fs).totals.skipped := by
  have hes := (Translation.Alike.refl {}).extend o es
  have hfs := (Translation.Alike.refl {}).extend o fs
  rw [h] at hes
  exact ⟨hes.graph.trans hfs.graph.symm, hes.resolved.trans hfs.resolved.symm,
    hes.skipped.trans hfs.skipped.symm⟩

/-- A class and an association with an end, inside elements that hold them, with attributes that say
nothing. -/
def dressedEvents : List Event :=
  [.start { tag := "XMI", attributes := [("xmi.version", "1.1")] },
    .start { tag := "UML:Class", attributes := [("name", "C"), ("isLeaf", "false"), ("xmi.id", "c")] },
    .start { tag := "UML:Classifier.feature" }, .finish "UML:Classifier.feature",
    .finish "UML:Class",
    .start { tag := "UML:Association", attributes := [("xmi.id", "a"), ("name", "")] },
    .start { tag := "UML:AssociationEnd", attributes := [("xmi.id", ""), ("name", "E")] },
    .finish "UML:AssociationEnd", .finish "UML:Association", .finish "XMI"]

/-- The same with nothing around it, and the tags in another namespace. -/
def bareEvents : List Event :=
  [.start { tag := "Class", attributes := [("xmi.id", "c"), ("name", "C")] },
    .start { tag := "a:b:Association", attributes := [("xmi.id", "a")] },
    .start { tag := "b:AssociationEnd", attributes := [("name", "E")] }, .finish "Association"]

theorem translation_of_bareEvents :
    Event.essences dressedEvents = Event.essences bareEvents ∧
    (Translation.run {} dressedEvents).graph = (Translation.run {} bareEvents).graph ∧
    (Translation.run {} dressedEvents).totals.resolved =
      (Translation.run {} bareEvents).totals.resolved ∧
    (Translation.run {} dressedEvents).totals.skipped =
      (Translation.run {} bareEvents).totals.skipped := by
  have hsame : Event.essences dressedEvents = Event.essences bareEvents := by decide
  exact ⟨hsame, translation_of_essences {} hsame⟩

end UmlOntology
