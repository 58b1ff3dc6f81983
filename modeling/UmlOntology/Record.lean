/-
The journal of a translation: what happened to the graph and to the elements, as records with a
level, a wording and named fields.
-/
import UmlOntology.Ontology.Kind

namespace UmlOntology

/-- How much detail a record is. -/
inductive Level where
  | trace
  | debug
deriving DecidableEq, Repr

/-- One entry of the journal. -/
inductive Record where
  /-- A node came to be. -/
  | created (address : Iri) (kind : Kind)
  /-- A node of unknown kind got its kind. -/
  | settled (address : Iri) (kind : Kind)
  /-- A node was demanded with another kind than it has. -/
  | reused (address : Iri) (existing demanded : Kind)
  | namelessAssociation
  /-- An element said too little about itself. -/
  | skipped (tag : String)
  /-- An association end has neither an identifier nor a side to get one from. -/
  | unplacedEnd (index : Nat)
  | finished (nodes elements resolved skipped : Nat)
deriving DecidableEq, Repr

namespace Record

/-- The level of a record. -/
def level : Record → Level
  | reused .. | unplacedEnd .. | finished .. => .debug
  | _ => .trace

/-- The wording of a record. -/
def message : Record → String
  | created .. => "creating node"
  | settled .. => "refining unknown node"
  | reused .. => "reusing node of a different kind"
  | namelessAssociation => "association without id"
  | skipped .. => "skipping incomplete element"
  | unplacedEnd .. => "cannot synthesize id for association end"
  | finished .. => "translation finished"

/-- The named fields of a record, with their values as texts. -/
def fields : Record → List (String × String)
  | created a k => [("address", a.text), ("kind", k.name)]
  | settled a k => [("address", a.text), ("to", k.name)]
  | reused a k l => [("address", a.text), ("existing", k.name), ("requested", l.name)]
  | namelessAssociation => []
  | skipped tag => [("tag", tag)]
  | unplacedEnd i => [("index", toString i)]
  | finished n e r s =>
    [("nodes", toString n), ("elements", toString e), ("resolved", toString r),
      ("skipped", toString s)]

end Record

end UmlOntology
