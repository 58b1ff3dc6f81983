/-
Constructs that say too little, and what the others do to a graph. What a construct has to say is
settled by its sort: an identifier and a name to declare something, an identifier to refer to
something. If any of it is missing or empty, nothing is asked for and the graph stays. Otherwise there
is a node for the construct, the one that was there or a new one behind all others, and every other
node stays as it is and where it is.
-/
import UmlOntology.Proofs.Uml.Construct
import UmlOntology.Proofs.Uml.History

namespace UmlOntology

/-! ## What a construct has to say -/

/-- The element does not have the attribute, or has it without a value. -/
def Element.Lacks (el : Element) (name : String) : Prop :=
  el.value? name = none ∨ el.value? name = some ""

instance (el : Element) (name : String) : Decidable (el.Lacks name) :=
  inferInstanceAs (Decidable (_ ∨ _))

theorem Element.nonEmpty?_eq_none_iff {el : Element} {name : String} :
    el.nonEmpty? name = none ↔ el.Lacks name := by
  unfold nonEmpty? Lacks
  cases el.value? name with
  | none => simp
  | some v => simp

/-- The element cannot declare anything that has an identifier and a name. -/
def Element.LacksDeclaration (el : Element) : Prop :=
  el.Lacks idAttribute ∨ el.Lacks nameAttribute

instance (el : Element) : Decidable el.LacksDeclaration := inferInstanceAs (Decidable (_ ∨ _))

namespace Construct

/-- Something that the construct has to say is missing or empty. -/
def Lacks : Construct → Prop
  | concept el | datatype el | attributeProperty el | individual el _ | package el
  | unclassified el => el.LacksDeclaration
  | annotationProperty el | stereotype el => el.Lacks idrefAttribute ∧ el.LacksDeclaration
  | objectProperty el => el.Lacks idAttribute
  | conceptReference el key | elementReference el key => el.Lacks key
  | stereotypeReference id | reference id | association id => id = ""
  | associationEnd _ base _ => base = ""

instance (c : Construct) : Decidable c.Lacks := by
  cases c <;> unfold Lacks <;> infer_instance

/-- The identifier of the node that the construct is about, if it says all that it has to say. -/
def targetId? : Construct → Option String
  | concept el | datatype el | attributeProperty el | individual el _ | package el
  | unclassified el | objectProperty el => el.value? idAttribute
  | annotationProperty el | stereotype el => el.idref?.or (el.value? idAttribute)
  | conceptReference el key | elementReference el key => el.value? key
  | stereotypeReference id | reference id | association id => some id
  | associationEnd _ base side => some (endId base side)

/-- What is asked for: nothing if something is lacking, and otherwise the node with the
identifier. -/
inductive Answers (lacks : Prop) (id? : Option String) : Option Request → Prop
  | nothing : lacks → Answers lacks id? none
  | node {r : Request} : ¬ lacks → id? = some r.id → Answers lacks id? (some r)

theorem answers_declared (el : Element) (k : Kind) (xs : String → List Addition) :
    Answers el.LacksDeclaration (el.value? idAttribute) (declared el k xs) := by
  unfold declared Element.declaration? Element.LacksDeclaration
  rw [← Element.nonEmpty?_eq_none_iff, ← Element.nonEmpty?_eq_none_iff]
  unfold Element.id? Element.name?
  cases hid : el.nonEmpty? idAttribute with
  | none => exact .nothing (Or.inl rfl)
  | some id =>
    cases hname : el.nonEmpty? nameAttribute with
    | none => exact .nothing (Or.inr rfl)
    | some name => exact .node (by simp) (Option.filter_eq_some_iff.1 hid).1

theorem answers_unless_empty {s : String} {id? : Option String} {r : Request}
    (hid : id? = some r.id) : Answers (s = "") id? (if s = "" then none else some r) := by
  split
  · rename_i hempty
    exact .nothing hempty
  · rename_i hne
    exact .node hne hid

theorem answers_referred (id : String) (k : Kind) (xs : List Addition) :
    Answers (id = "") (some id) (referred id k xs) :=
  answers_unless_empty rfl

theorem answers_keyed (el : Element) (key : String) (k : Kind) :
    Answers (el.Lacks key) (el.value? key)
      ((el.nonEmpty? key).bind fun id => referred id k []) := by
  rw [← Element.nonEmpty?_eq_none_iff]
  cases hid : el.nonEmpty? key with
  | none => exact .nothing rfl
  | some id =>
    rw [Option.bind_some, referred, if_neg (Element.ne_empty_of_nonEmpty? hid)]
    exact .node (by simp) (Option.filter_eq_some_iff.1 hid).1

/-- To refer comes first, and only what does not refer has to declare. -/
theorem answers_idref (el : Element) {k : Kind} {xs : List Addition} {r? : Option Request}
    (hr : Answers el.LacksDeclaration (el.value? idAttribute) r?) :
    Answers (el.Lacks idrefAttribute ∧ el.LacksDeclaration) (el.idref?.or (el.value? idAttribute))
      (match el.idref? with | some id => referred id k xs | none => r?) := by
  rw [← Element.nonEmpty?_eq_none_iff, show el.nonEmpty? idrefAttribute = el.idref? from rfl]
  cases hid : el.idref? with
  | none =>
    cases hr with
    | nothing hlacks => exact .nothing ⟨rfl, hlacks⟩
    | node hlacks htarget => exact .node (fun h => hlacks h.2) htarget
  | some id =>
    simp only [referred, if_neg (Element.ne_empty_of_nonEmpty? hid)]
    exact .node (by simp) rfl

/-- A construct asks for its node exactly if it lacks nothing. -/
theorem answers_request (c : Construct) : Answers c.Lacks c.targetId? c.request? := by
  cases c with
  | concept el | datatype el | attributeProperty el | unclassified el =>
    rw [request?, Lacks, targetId?]
    exact answers_declared el _ _
  | individual el type | package el =>
    rw [request?, individualRequest?, Lacks, targetId?]
    exact answers_declared el _ _
  | annotationProperty el => exact answers_idref el (answers_declared el _ _)
  | stereotype el => exact answers_idref el (answers_declared el _ _)
  | stereotypeReference id | reference id => exact answers_referred id _ _
  | conceptReference el key => exact answers_keyed el key .concept
  | elementReference el key =>
    rw [request?_elementReference_eq]
    exact answers_keyed el key .unknown
  | objectProperty el =>
    rw [request?, Lacks, targetId?, ← Element.nonEmpty?_eq_none_iff]
    unfold Element.id?
    cases hid : el.nonEmpty? idAttribute with
    | none => exact .nothing rfl
    | some id => exact .node (by simp) (Option.filter_eq_some_iff.1 hid).1
  | association id | associationEnd el base side => exact answers_unless_empty rfl

end Construct

/-! ## What a request does to a graph -/

namespace Graph

variable {g : Graph} {a : Iri} {m : Node}

/-- The other graph has the node `m` at the address: in the place of the one that was there, which it
continues, or, if there was none, behind all others. The others are as they were, where they were. -/
inductive Places (g : Graph) (a : Iri) (m : Node) : Graph → Prop
  | again {front back : List Node} {n : Node} : g.nodes = front ++ n :: back →
      g.get? a = some n → n.Grows m → Places g a m ⟨front ++ m :: back⟩
  | new : a ∉ g → Places g a m ⟨g.nodes ++ [m]⟩

theorem places_realize (g : Graph) (o : Options) (r : Request) :
    ∃ m, (g.realize o r).get? (o.address r.id) = some m ∧
      g.Places (o.address r.id) m (g.realize o r) := by
  refine ⟨_, by rw [get?_realize, if_pos rfl], ?_⟩
  unfold realize demand
  by_cases ha : o.address r.id ∈ g
  · obtain ⟨n, hn⟩ := Option.isSome_iff_exists.1 (mem_iff_get?.1 ha)
    rw [if_pos ha, change_change (fun n => Node.address_demand n r.kind), nodeAt_of_get? hn]
    obtain ⟨front, back, hold, hnew⟩ := change_of_get? hn
    rw [hnew]
    exact .again hold hn ((Node.grows_demand n r.kind).trans (Node.grows_addAll _ _))
  · rw [if_neg ha, change_concat ha rfl, nodeAt, get?_eq_none_iff.2 ha, Option.getD_none,
      Node.demand_blank]
    exact .new ha

end Graph

/-- A construct gives no node exactly if something that it has to say is missing or empty, and then
the graph stays as it is. Otherwise it gives the node that is at the address of its identifier from
then on, in its old place and with its old edges in front, or behind all others if it is new; and no
other node is touched. -/
theorem build_of_construct (g : Graph) (o : Options) (c : Construct) :
    ((g.build o c).1 = none ↔ c.Lacks) ∧ (c.Lacks → (g.build o c).2 = g) ∧
    (¬ c.Lacks → ∃ id m, c.targetId? = some id ∧ (g.build o c).1 = some (o.address id) ∧
      (g.build o c).2.get? (o.address id) = some m ∧
      g.Places (o.address id) m (g.build o c).2) := by
  have hanswers := c.answers_request
  unfold Graph.build
  cases hr : c.request? with
  | none =>
    rw [hr] at hanswers
    cases hanswers with
    | nothing hlacks => exact ⟨by simpa using hlacks, fun _ => rfl, fun h => absurd hlacks h⟩
  | some r =>
    rw [hr] at hanswers
    cases hanswers with
    | node hlacks htarget =>
      obtain ⟨m, hm, hplaces⟩ := Graph.places_realize g o r
      exact ⟨by simpa using hlacks, fun h => absurd h hlacks,
        fun _ => ⟨r.id, m, htarget, rfl, hm, hplaces⟩⟩

/-- A stereotype without an identifier changes nothing. A class under the identifier of a datatype
gives the node of the datatype, which stands where it stood, in front of another. -/
theorem build_of_redeclaredDatatype :
    let g := Graph.extend {} [.demand (Options.address {} "d") .datatype, .build {} (.reference "x")]
    let named : Construct := .stereotype { attributes := [("xmi.id", ""), ("name", "S")] }
    let again : Construct := .concept { attributes := [("xmi.id", "d"), ("name", "D")] }
    (named.Lacks ∧ (g.build {} named).2 = g) ∧ ¬ again.Lacks ∧
      ∃ m, (g.build {} again).2.get? (Options.address {} "d") = some m ∧ m.kind = .datatype ∧
        g.Places (Options.address {} "d") m (g.build {} again).2 := by
  intro g named again
  have hnamed : named.Lacks := by decide
  have hagain : ¬ again.Lacks := by decide
  obtain ⟨id, m, htarget, -, hm, hplaces⟩ := (build_of_construct g {} again).2.2 hagain
  obtain rfl : "d" = id := Option.some.inj htarget
  refine ⟨⟨hnamed, (build_of_construct g {} named).2.1 hnamed⟩, hagain, m, hm, ?_, hplaces⟩
  have hkind : ((g.build {} again).2.get? (Options.address {} "d")).map (·.kind) =
      some .datatype := by decide
  rw [hm] at hkind
  exact Option.some.inj hkind

end UmlOntology
