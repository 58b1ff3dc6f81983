/-
Documents as trees. A tree delivers the start of its element, what is inside, and the end with the
same tag. The places of a forest are its elements in document order, each with the elements around
it; an element around another goes with its number in the document, so that two elements that say
the same are told apart.
-/
import UmlOntology.Xml.Element
import Mathlib.Data.List.Basic

namespace UmlOntology

/-- An element and what is inside it. -/
inductive Tree where
  | node (element : Element) (inside : List Tree)

/-- Trees that stand next to each other. -/
abbrev Forest := List Tree

/-! ## Events -/

mutual

/-- The events of an element and of what is inside it. -/
def Tree.events : Tree → List Event
  | .node el inside => .start el :: (Forest.events inside ++ [.finish el.tag])

/-- The events of trees, one tree after the other. -/
def Forest.events : Forest → List Event
  | [] => []
  | t :: ts => t.events ++ Forest.events ts

end

/-- The element that an event starts. -/
def Event.element? : Event → Option Element
  | start el => some el
  | finish _ => none

/-- The elements that events start. -/
def Event.elements (es : List Event) : List Element := es.filterMap element?

@[simp] theorem Event.elements_nil : elements [] = [] := rfl

@[simp] theorem Event.elements_start (el : Element) (es : List Event) :
    elements (start el :: es) = el :: elements es := rfl

@[simp] theorem Event.elements_finish (tag : String) (es : List Event) :
    elements (finish tag :: es) = elements es := rfl

@[simp] theorem Event.elements_append (es fs : List Event) :
    elements (es ++ fs) = elements es ++ elements fs := List.filterMap_append

/-- A start among two stretches of events is in the first or in the second. -/
theorem Event.start_mem_append {es fs pre post : List Event} {el : Element}
    (h : es ++ fs = pre ++ start el :: post) :
    (∃ rest, es = pre ++ start el :: rest) ∨
      ∃ pre', pre = es ++ pre' ∧ fs = pre' ++ start el :: post := by
  rcases List.append_eq_append_iff.1 h with ⟨pre', hpre, hfs⟩ | ⟨es', hes, hrest⟩
  · exact Or.inr ⟨pre', hpre, hfs⟩
  · cases es' with
    | nil =>
      -- `es` ends right before the start
      rw [List.append_nil] at hes
      exact Or.inr ⟨[], by rw [hes, List.append_nil], hrest.symm⟩
    | cons e rest =>
      obtain ⟨rfl, -⟩ := List.cons.inj hrest
      exact Or.inl ⟨rest, hes⟩

/-! ## Places -/

mutual

/-- The number of elements of a tree. -/
def Tree.size : Tree → Nat
  | .node _ inside => Forest.size inside + 1

/-- The number of elements of a forest. -/
def Forest.size : Forest → Nat
  | [] => 0
  | t :: ts => t.size + Forest.size ts

end

/-- An element at its place in a document. -/
structure Place where
  element : Element
  /-- The elements around it, innermost first, with their numbers. -/
  around : List (Nat × Element)
deriving DecidableEq

mutual

/-- The places of a tree, which stands inside `around` and is number `n` of the document. -/
def Tree.places (around : List (Nat × Element)) (n : Nat) : Tree → List Place
  | .node el inside => ⟨el, around⟩ :: Forest.places ((n, el) :: around) (n + 1) inside

/-- The places of a forest, which stands inside `around` and starts with number `n`. -/
def Forest.places (around : List (Nat × Element)) (n : Nat) : Forest → List Place
  | [] => []
  | t :: ts => t.places around n ++ Forest.places around (n + t.size) ts

end

/-! ## What the places tell -/

mutual

theorem Tree.elements_places (around : List (Nat × Element)) (n : Nat) :
    ∀ t : Tree, (t.places around n).map (·.element) = Event.elements t.events
  | .node el inside => by
    rw [Tree.places, Tree.events, List.map_cons, Event.elements_start, Event.elements_append,
      Forest.elements_places _ _ inside]
    simp

theorem Forest.elements_places (around : List (Nat × Element)) (n : Nat) :
    ∀ f : Forest, (f.places around n).map (·.element) = Event.elements f.events
  | [] => rfl
  | t :: ts => by
    rw [Forest.places, Forest.events, List.map_append, Event.elements_append,
      Tree.elements_places _ _ t, Forest.elements_places _ _ ts]

end

mutual

/-- What is around a place of a tree is what is around the tree, and further in elements that have
their numbers from the tree. -/
theorem Tree.around_of_mem {around : List (Nat × Element)} {n : Nat} {p : Place} :
    ∀ t : Tree, p ∈ t.places around n →
      ∃ inner, p.around = inner ++ around ∧ ∀ x ∈ inner, n ≤ x.1 ∧ x.1 < n + t.size
  | .node el inside, hp => by
    rw [Tree.places] at hp
    rcases List.mem_cons.1 hp with rfl | hp
    · exact ⟨[], rfl, fun x hx => by cases hx⟩
    · obtain ⟨inner, hi, hn⟩ := Forest.around_of_mem inside hp
      refine ⟨inner ++ [(n, el)], by rw [hi, List.append_assoc]; rfl, fun x hx => ?_⟩
      rw [Tree.size]
      rcases List.mem_append.1 hx with hx | hx
      · have := hn x hx
        omega
      · rw [List.mem_singleton] at hx
        subst hx
        simp only []
        omega

theorem Forest.around_of_mem {around : List (Nat × Element)} {n : Nat} {p : Place} :
    ∀ f : Forest, p ∈ f.places around n →
      ∃ inner, p.around = inner ++ around ∧ ∀ x ∈ inner, n ≤ x.1 ∧ x.1 < n + f.size
  | [], hp => by cases hp
  | t :: ts, hp => by
    rw [Forest.places] at hp
    rw [Forest.size]
    rcases List.mem_append.1 hp with hp | hp
    · obtain ⟨inner, hi, hn⟩ := Tree.around_of_mem t hp
      refine ⟨inner, hi, fun x hx => ?_⟩
      have := hn x hx
      omega
    · obtain ⟨inner, hi, hn⟩ := Forest.around_of_mem ts hp
      refine ⟨inner, hi, fun x hx => ?_⟩
      have := hn x hx
      omega

end

/-- All numbers of the elements are below `n`, which is free for the next element. -/
def Below (n : Nat) (around : List (Nat × Element)) : Prop := ∀ x ∈ around, x.1 < n

namespace Below

variable {n m : Nat} {around : List (Nat × Element)}

theorem nil (n : Nat) : Below n [] := nofun

theorem mono (hnm : n ≤ m) (h : Below n around) : Below m around :=
  fun x hx => Nat.lt_of_lt_of_le (h x hx) hnm

theorem cons (el : Element) (h : Below n around) : Below (n + 1) ((n, el) :: around) := by
  intro x hx
  rcases List.mem_cons.1 hx with rfl | hx
  · exact Nat.lt_succ_self n
  · exact Nat.lt_succ_of_lt (h x hx)

theorem place {t : Tree} {p : Place} (h : Below n around) (hp : p ∈ t.places around n) :
    Below (n + t.size) p.around := by
  obtain ⟨inner, hi, hnum⟩ := Tree.around_of_mem t hp
  intro x hx
  rw [hi] at hx
  rcases List.mem_append.1 hx with hx | hx
  · exact (hnum x hx).2
  · exact Nat.lt_add_right _ (h x hx)

end Below

end UmlOntology
