/-
Texts in quotes, as a statement shows them. Four characters are written with a backslash: the
quote, the backslash itself, line feed and carriage return. So a text stays on one line and ends at
the first quote that no backslash stands before.
-/

namespace UmlOntology.Literal

/-- The letter that stands behind the backslash for a character. -/
def letter? (c : Char) : Option Char :=
  if c = '"' then some '"'
  else if c = '\\' then some '\\'
  else if c = '\n' then some 'n'
  else if c = '\r' then some 'r'
  else none

/-- The character that a letter behind a backslash stands for. -/
def character? (l : Char) : Option Char :=
  if l = '"' then some '"'
  else if l = '\\' then some '\\'
  else if l = 'n' then some '\n'
  else if l = 'r' then some '\r'
  else none

/-- A text as it stands between quotes. -/
def encode : List Char → List Char
  | [] => []
  | c :: s =>
    match letter? c with
    | some l => '\\' :: l :: encode s
    | none => c :: encode s

/-- Reads on from behind the opening quote: the text up to the closing quote and what follows
that. -/
def scan : List Char → Option (List Char × List Char)
  | [] => none
  | '"' :: s => some ([], s)
  | ['\\'] => none
  | '\\' :: l :: s => do
    let c ← character? l
    let (text, rest) ← scan s
    return (c :: text, rest)
  | c :: s => do
    let (text, rest) ← scan s
    return (c :: text, rest)

/-- A text in quotes, with its language behind it. -/
def render (value : String) (lang : Option String) : String :=
  "\"" ++ String.ofList (encode value.toList) ++ "\"" ++
    match lang with
    | some l => "@" ++ l
    | none => ""

end UmlOntology.Literal
