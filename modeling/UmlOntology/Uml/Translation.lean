/-
The translation of a model: a run over its events that lets each element ask its node of the graph.
It reads in one pass and keeps the graph, the associations that are open and three totals.
-/
import UmlOntology.Uml.Reading

namespace UmlOntology

/-- What a translation counts. -/
structure Totals where
  /-- Elements that have started. -/
  elements : Nat := 0
  /-- Elements that reached a node. -/
  resolved : Nat := 0
  /-- Elements of a known sort that said too little to reach one. -/
  skipped : Nat := 0
deriving DecidableEq, Repr

/-- The totals after an element with this reading. -/
def Totals.count (t : Totals) (reading : Reading) : Totals :=
  let t := { t with elements := t.elements + 1 }
  if reading = .structural then t
  else if reading.request?.isSome then { t with resolved := t.resolved + 1 }
  else { t with skipped := t.skipped + 1 }

/-- The state of a translation between two events. -/
structure Translation where
  graph : Graph := {}
  /-- The associations that are open, innermost first. -/
  scopes : List Scope := []
  totals : Totals := {}
deriving DecidableEq, Repr

namespace Translation

/-- What the element is read as in this state. -/
def reading (t : Translation) (el : Element) : Reading := Reading.ofElement t.scopes el

/-- The state after the start of an element. -/
def start (o : Options) (t : Translation) (el : Element) : Translation where
  graph :=
    match (t.reading el).request? with
    | some r => t.graph.realize o r
    | none => t.graph
  scopes := Scope.enter t.scopes el
  totals := t.totals.count (t.reading el)

/-- The state after the end of an element. -/
def finish (t : Translation) (tag : String) : Translation :=
  { t with scopes := Scope.leave t.scopes tag }

/-- The state after an event. -/
def handle (o : Options) (t : Translation) : Event → Translation
  | .start el => t.start o el
  | .finish tag => t.finish tag

/-- The state after events in turn. -/
def extend (o : Options) (t : Translation) (events : List Event) : Translation :=
  events.foldl (handle o) t

/-- The state of a new translation after events. -/
def run (o : Options) (events : List Event) : Translation := extend o {} events

/-! ## The journal -/

/-- What the start of an element puts on record. -/
def startRecords (o : Options) (t : Translation) (el : Element) : List Record :=
  match t.reading el with
  | .structural => []
  | .construct c =>
    c.records o t.graph ++ if c.request?.isSome then [] else [.skipped el.tag]
  | .incomplete => [.skipped el.tag]
  | .unplaced index => [.unplacedEnd index, .skipped el.tag]

/-- What an event puts on record. -/
def records (o : Options) (t : Translation) : Event → List Record
  | .start el => t.startRecords o el
  | .finish _ => []

/-- What events put on record. -/
def journal (o : Options) (t : Translation) : List Event → List Record
  | [] => []
  | e :: es => t.records o e ++ journal o (t.handle o e) es

/-- What the end of the translation puts on record. -/
def closing (t : Translation) : Record :=
  .finished t.graph.nodes.length t.totals.elements t.totals.resolved t.totals.skipped

end Translation

end UmlOntology
