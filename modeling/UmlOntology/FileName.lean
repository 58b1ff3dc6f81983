/-
Names of files that hold a model. A path names its last part that is not empty or a mere dot; two
dots name no file. The extension is what follows the last dot of the name, unless that dot is the
first character.
-/
import UmlOntology.Vocabulary

namespace UmlOntology.FileName

/-- The parts of a path between slashes, less those that stay where they are. -/
def parts (path : String) : List String :=
  (path.splitOn "/").filter fun p => p ≠ "" && p ≠ "."

/-- The name of the file that a path leads to. -/
def name? (path : String) : Option String :=
  (parts path).getLast?.filter (· ≠ "..")

/-- What stands behind the last dot of a name. -/
def extension? (name : String) : Option String :=
  let reversed := name.toList.reverse
  let tail := reversed.takeWhile (· ≠ '.')
  match reversed.drop tail.length with
  | _ :: _ :: _ => some (String.ofList tail.reverse)
  | _ => none

/-- The path is that of a file that holds a model, by its extension in letters of either case. -/
def IsModel (path : String) : Prop :=
  ∃ e ∈ (name? path).bind extension?, String.ofList (e.toList.map Char.toLower) ∈
    Vocabulary.fileExtensions

instance (path : String) : Decidable (IsModel path) :=
  inferInstanceAs (Decidable (∃ e ∈ (name? path).bind extension?, _))

end UmlOntology.FileName
