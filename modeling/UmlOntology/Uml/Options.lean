/-
The settings of a translation.
-/
import UmlOntology.Iri

namespace UmlOntology

/-- What can be chosen for a translation. -/
structure Options where
  /-- Declared nodes keep the identifier they were declared under. -/
  keepIds : Bool := true
  /-- What stands in front of identifiers in addresses. -/
  ns : Namespace := {}
deriving DecidableEq, Repr

/-- The address of an identifier under these settings. -/
def Options.address (o : Options) (id : String) : Iri := o.ns.address id

end UmlOntology
