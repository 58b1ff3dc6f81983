/-
What a construct says about its node: the identifier that it declares, which a reference does not,
and the label that it gives. The request of a construct says the same, and what it adds besides are
types and stereotypes.
-/
import UmlOntology.Uml.Construct

namespace UmlOntology

/-- The label that an addition is for, with its language. -/
def Addition.label? : Addition → Option (String × Option String)
  | .label text lang => some (text, lang)
  | .edge .. => none

/-- A request adds these labels in turn, and no labels as mere edges. -/
structure Request.Labels (r : Request) (labels : List (String × Option String)) : Prop where
  labels : r.additions.filterMap Addition.label? = labels
  edges : ∀ p x, .edge p x ∈ r.additions → p = .type ∨ p = .hasStereotype

theorem Element.refers_of_idref? {el : Element} {id : String} (h : el.idref? = some id) :
    el.Refers := by
  unfold Refers
  rw [h]
  rfl

theorem Element.ne_empty_of_nonEmpty? {el : Element} {name value : String}
    (h : el.nonEmpty? name = some value) : value ≠ "" := by
  simpa using (Option.filter_eq_some_iff.1 h).2

namespace Construct

/-- A name in the language of names. -/
def inNameLanguage (name : String) : String × Option String := (name, some Vocabulary.nameLanguage)

/-- A name in no language. -/
def inNoLanguage (name : String) : String × Option String := (name, none)

/-- The identifier that a construct declares. Where a construct may be a reference in place of a
declaration, the reference comes first. -/
def declaredId? : Construct → Option String
  | concept el | datatype el | attributeProperty el | individual el _ | package el
  | unclassified el => el.declaration?.map (·.1)
  | annotationProperty el | stereotype el =>
    if el.Refers then none else el.declaration?.map (·.1)
  | objectProperty el => el.id?
  | association id => if id = "" then none else some id
  | associationEnd _ base side => if base = "" then none else some (endId base side)
  | conceptReference .. | stereotypeReference _ | reference _ | elementReference .. => none

/-- The label that a construct gives its node, with its language: a name in the language of names,
but for a declaration that is not classified a name in no language. -/
def label? : Construct → Option (String × Option String)
  | concept el | datatype el | attributeProperty el | individual el _ | package el =>
    el.declaration?.map fun d => inNameLanguage d.2
  | annotationProperty el | stereotype el =>
    if el.Refers then none else el.declaration?.map fun d => inNameLanguage d.2
  | unclassified el => el.declaration?.map fun d => inNoLanguage d.2
  | objectProperty el => if el.id?.isSome then el.name?.map inNameLanguage else none
  | associationEnd el base _ => if base = "" then none else el.name?.map inNameLanguage
  | conceptReference .. | stereotypeReference _ | association _ | reference _
  | elementReference .. => none

/-- The address of the node that a construct reaches. -/
def address? (o : Options) (c : Construct) : Option Iri := c.request?.map fun r => o.address r.id

/-- This is the address that building the construct gives. -/
theorem fst_build (g : Graph) (o : Options) (c : Construct) : (g.build o c).1 = c.address? o := by
  unfold Graph.build address?
  cases c.request? <;> rfl

/-! ## What a request says -/

/-- A request, or none, of a construct that declares `id?` and gives `label?`: a reference does
neither. -/
inductive Says : Option Request → Option String → Option (String × Option String) → Prop
  | nothing : Says none none none
  | reference {r : Request} : r.declares = false → r.Labels [] → Says (some r) none none
  | declaration {r : Request} {label? : Option (String × Option String)} : r.declares = true →
      r.Labels label?.toList → Says (some r) (some r.id) label?

theorem says_declared {k : Kind} {xs : String → List Addition}
    {label : String → String × Option String} (el : Element)
    (hxs : ∀ id name, Request.Labels ⟨id, k, true, xs name⟩ [label name]) :
    Says (declared el k xs) (el.declaration?.map (·.1))
      (el.declaration?.map fun d => label d.2) := by
  unfold declared
  cases el.declaration? with
  | none => exact .nothing
  | some d => exact .declaration rfl (hxs d.1 d.2)

theorem says_referred {k : Kind} {xs : List Addition} (id : String)
    (hxs : ∀ id, Request.Labels ⟨id, k, false, xs⟩ []) : Says (referred id k xs) none none := by
  unfold referred
  split
  · exact .nothing
  · exact .reference rfl (hxs id)

/-- A construct refers if its element does, and declares otherwise. -/
theorem says_idref {el : Element} {f : String → Option Request} {r? : Option Request}
    {id? : Option String} {label? : Option (String × Option String)}
    (hf : ∀ id, Says (f id) none none) (hr : Says r? id? label?) :
    Says (match el.idref? with | some id => f id | none => r?)
      (if el.Refers then none else id?) (if el.Refers then none else label?) := by
  cases hid : el.idref? with
  | none =>
    have href : ¬ el.Refers := by simp [Element.Refers, hid]
    rw [if_neg href, if_neg href]
    exact hr
  | some id =>
    have href := Element.refers_of_idref? hid
    rw [if_pos href, if_pos href]
    exact hf id

/-- The labels of a declaration whose name is optional. -/
theorem labels_name? (id : String) (k : Kind) (name? : Option String) :
    Request.Labels ⟨id, k, true, (name?.map nameLabel).toList⟩ (name?.map inNameLanguage).toList := by
  cases name? with
  | none => exact ⟨rfl, nofun⟩
  | some name => exact ⟨rfl, by simp [nameLabel]⟩

/-- A reference reaches the same as one that takes an empty value for none. -/
theorem request?_elementReference_eq (el : Element) (key : String) :
    (elementReference el key).request? =
      (el.nonEmpty? key).bind fun id => referred id .unknown [] := by
  rw [request?]
  unfold Element.nonEmpty?
  cases el.value? key with
  | none => rfl
  | some id =>
    rw [Option.filter_some, Option.bind_some]
    by_cases hid : id = ""
    · simp [hid, referred]
    · simp [hid]

/-- The construct refers by the value of an attribute, if it has one. -/
theorem says_keyed (el : Element) (key : String) (k : Kind) :
    Says ((el.nonEmpty? key).bind fun id => referred id k []) none none := by
  cases el.nonEmpty? key with
  | none => exact .nothing
  | some id => exact says_referred id fun _ => ⟨rfl, nofun⟩

theorem says_individual (el : Element) (type : Iri) :
    Says (individualRequest? el type) (el.declaration?.map (·.1))
      (el.declaration?.map fun d => inNameLanguage d.2) :=
  says_declared el fun _ _ => ⟨rfl, by simp [nameLabel, typeEdge]⟩

theorem says_stereotype (id : String) : Says (stereotypeRequest? id) none none :=
  says_referred id fun _ => ⟨rfl, by simp [typeEdge]⟩

/-- The request of a construct declares what the construct declares, and labels its node as the
construct does. -/
theorem says_request (c : Construct) : Says c.request? c.declaredId? c.label? := by
  cases c with
  | concept el | datatype el | attributeProperty el | unclassified el =>
    rw [request?, declaredId?, label?]
    refine says_declared el fun id name => ?_
    exact ⟨rfl, by simp [nameLabel, typeEdge]⟩
  | individual el type => exact says_individual el type
  | package el => exact says_individual el _
  | annotationProperty el =>
    refine says_idref (fun id => says_referred id fun _ => ⟨rfl, nofun⟩)
      (says_declared el fun id name => ?_)
    exact ⟨rfl, by simp [nameLabel]⟩
  | stereotype el => exact says_idref says_stereotype (says_individual el _)
  | stereotypeReference id => exact says_stereotype id
  | reference id => exact says_referred id fun _ => ⟨rfl, nofun⟩
  | conceptReference el key => exact says_keyed el key .concept
  | elementReference el key =>
    rw [request?_elementReference_eq]
    exact says_keyed el key .unknown
  | association id =>
    rw [request?, declaredId?, label?]
    split
    · exact .nothing
    · exact .declaration rfl ⟨rfl, nofun⟩
  | objectProperty el =>
    rw [request?, declaredId?, label?]
    cases el.id? with
    | none => exact .nothing
    | some id => exact .declaration rfl (labels_name? id _ el.name?)
  | associationEnd el base side =>
    rw [request?, declaredId?, label?]
    split
    · exact .nothing
    · exact .declaration rfl (labels_name? _ _ el.name?)

/-! ## What a request tells of its construct -/

variable {c : Construct} {r : Request} {id? : Option String}
  {label? : Option (String × Option String)}

theorem Says.declaredId? (hs : Says (some r) id? label?) :
    id? = if r.declares then some r.id else none := by
  cases hs with
  | reference hd _ => rw [hd, if_neg Bool.false_ne_true]
  | declaration hd _ => rw [hd, if_pos rfl]

theorem Says.labels (hs : Says (some r) id? label?) : r.Labels label?.toList := by
  cases hs with
  | reference _ hl => exact hl
  | declaration _ hl => exact hl

theorem declaredId?_of_request (hr : c.request? = some r) :
    c.declaredId? = if r.declares then some r.id else none :=
  (hr ▸ says_request c).declaredId?

theorem labels_of_request (hr : c.request? = some r) : r.Labels c.label?.toList :=
  (hr ▸ says_request c).labels

end Construct

end UmlOntology
