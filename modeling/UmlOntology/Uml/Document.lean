/-
The translation of a whole document. A fault anywhere in the document is a failure, and no graph
comes out; incomplete elements are passed over.
-/
import UmlOntology.Uml.Translation
import UmlOntology.Xml.Reader

namespace UmlOntology

/-- The graph of a document, or the failure that its first fault is. -/
def translate (o : Options) (document : Bytes) (decoders : Decoders := .ascii) :
    Except Failure Graph :=
  match eventsOf document decoders with
  | (_, some fault) => .error fault.failure
  | (events, none) => .ok (Translation.run o events).graph

/-- The journal of the translation of a document. A translation that ends with a fault does not put
its end on record. -/
def translationJournal (o : Options) (document : Bytes) (decoders : Decoders := .ascii) :
    List Record :=
  let (events, fault) := eventsOf document decoders
  Translation.journal o {} events ++
    if fault.isSome then [] else [(Translation.run o events).closing]

/-- The graph of a document in a file, by what reading the file gave. -/
def translateFile (o : Options) (contents : Except FileError Bytes)
    (decoders : Decoders := .ascii) : Except Failure Graph :=
  match contents with
  | .ok document => translate o document decoders
  | .error e => .error e.failure

/-- The journal of the translation of a document in a file. -/
def fileJournal (o : Options) (contents : Except FileError Bytes)
    (decoders : Decoders := .ascii) : List Record :=
  match contents with
  | .ok document => translationJournal o document decoders
  | .error _ => []

end UmlOntology
