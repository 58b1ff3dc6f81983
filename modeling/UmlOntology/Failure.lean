/-
Why a document gives no graph, as it is reported: the document is not well formed, a name in it is
not text, or it cannot be got at. Incomplete elements are no failure; they are passed over.
-/

namespace UmlOntology

/-- The two kinds of name in a document. -/
inductive NamePart where
  | tag
  | attributeName
deriving DecidableEq, Repr

/-- A failure, with its details in words. -/
inductive Failure where
  | malformed (detail : String)
  | inaccessible (detail : String)
  | undecodable (part : NamePart) (detail : String)
deriving DecidableEq, Repr

/-- What a name stands in, in words. -/
def NamePart.text : NamePart → String
  | tag => "tag"
  | attributeName => "attribute"

/-- The wording of a failure. -/
def Failure.message : Failure → String
  | malformed detail => "XML error: " ++ detail
  | inaccessible detail => "IO error: " ++ detail
  | undecodable part detail => "Invalid UTF-8 in " ++ part.text ++ ": " ++ detail

/-- Why the file of a document cannot be read. -/
inductive FileError where
  | notFound
  | isDirectory
deriving DecidableEq, Repr

/-- The wording of a file error, with the system's number for it. -/
def FileError.message : FileError → String
  | notFound => "No such file or directory (os error 2)"
  | isDirectory => "Is a directory (os error 21)"

/-- A document that cannot be got at. -/
def FileError.failure (e : FileError) : Failure := .inaccessible e.message

end UmlOntology
