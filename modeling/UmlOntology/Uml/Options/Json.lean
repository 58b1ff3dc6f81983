/-
Settings in JSON: an object with a member for each setting, or an array of the settings in order.
Settings that are left out have their defaults, and members of other names are passed over. The
first thing wrong from the left counts.
-/
import UmlOntology.Json.Value
import UmlOntology.Text.Decimal
import UmlOntology.Text.Quoted
import UmlOntology.Uml.Options

namespace UmlOntology

/-- What a text of settings should hold at some place. -/
inductive Expected where
  | boolean
  | string
  | options

/-- The names of the settings. -/
inductive Setting where
  | keepIds
  | ns
deriving DecidableEq, Repr

/-- What is wrong with a text of settings. -/
inductive OptionsError where
  /-- The text is no JSON. -/
  | notJson
  | wrongType (found : Json.Head) (expected : Expected)
  | duplicate (setting : Setting)

/-- The name of a setting as it is written. -/
def Setting.name : Setting → String
  | keepIds => "keep_ids"
  | ns => "namespace"

/-- The setting that goes by a name. -/
def Setting.ofName? (name : String) : Option Setting :=
  if name = keepIds.name then some keepIds
  else if name = ns.name then some ns
  else none

/-- What is expected, in words. -/
def Expected.text : Expected → String
  | boolean => "a boolean"
  | string => "a string"
  | options => "struct TranslateOptions"

/-- What was found, in words. -/
def Json.Head.text : Json.Head → String
  | null => "null"
  | boolean b => "boolean `" ++ toString b ++ "`"
  | number (.whole n) => "integer `" ++ toString n ++ "`"
  | number (.float x) => "floating point `" ++ Decimal.render x ++ "`"
  | string s => "string " ++ Quoted.quote s
  | sequence => "sequence"
  | map => "map"

/-- The wording of an error in settings that are JSON. -/
def OptionsError.message : OptionsError → String
  | notJson => "not JSON"
  | wrongType found expected => "invalid type: " ++ found.text ++ ", expected " ++ expected.text
  | duplicate setting => "duplicate field `" ++ setting.name ++ "`"

namespace Options

/-- A result that is there, or the error of text that is no JSON. -/
def orNotJson {α : Type} : Option α → Except OptionsError α
  | some a => .ok a
  | none => .error .notJson

/-- A truth value. -/
def readBoolean (s : List Char) : Except OptionsError (Bool × List Char) := do
  match ← orNotJson (Json.head? s) with
  | (.boolean b, s) => return (b, s)
  | (found, _) => .error (.wrongType found .boolean)

/-- A string. -/
def readString (s : List Char) : Except OptionsError (String × List Char) := do
  match ← orNotJson (Json.head? s) with
  | (.string t, s) => return (t, s)
  | (found, _) => .error (.wrongType found .string)

/-- The settings read so far. -/
structure Draft where
  keepIds : Option Bool := none
  ns : Option String := none

/-- The settings, with defaults for those that have not been read. -/
def Draft.complete (p : Draft) : Options :=
  { keepIds := p.keepIds.getD ({} : Options).keepIds
    ns := (p.ns.map Namespace.mk).getD ({} : Options).ns }

/-- The colon behind a name. -/
def readColon (s : List Char) : Except OptionsError (List Char) :=
  orNotJson (Json.word? [':'] (Json.skipBlank s))

/-- The member of this name, from behind the name. -/
def readMember (p : Draft) (name : String) (s : List Char) :
    Except OptionsError (Draft × List Char) := do
  match Setting.ofName? name with
  | some .keepIds =>
    if p.keepIds.isSome then .error (.duplicate .keepIds)
    else
      let (b, s) ← readBoolean (← readColon s)
      return ({ p with keepIds := some b }, s)
  | some .ns =>
    if p.ns.isSome then .error (.duplicate .ns)
    else
      let (t, s) ← readString (← readColon s)
      return ({ p with ns := some t }, s)
  | none =>
    let s ← orNotJson (Json.skipValue? (← readColon s))
    return (p, s)

/-- The members of an object from the beginning of one on; `fuel` bounds their number. -/
def readMembers : Nat → Draft → List Char → Except OptionsError (Draft × List Char)
  | 0, _, _ => .error .notJson
  | fuel + 1, p, s =>
    match Json.skipBlank s with
    | '"' :: s => do
      let (name, s) ← orNotJson (Json.string? false s)
      let (p, s) ← readMember p name s
      match Json.skipBlank s with
      | ',' :: s => readMembers fuel p s
      | '\x7d' :: s => return (p, s)
      | _ => .error .notJson
    | _ => .error .notJson

/-- An object from behind its opening bracket. -/
def readObject (s : List Char) : Except OptionsError (Draft × List Char) :=
  match Json.skipBlank s with
  | '\x7d' :: s => .ok ({}, s)
  | t => readMembers (s.length + 1) {} t

/-- The rest of an array behind the setting of the namespace. -/
def readClose (s : List Char) : Except OptionsError (List Char) :=
  orNotJson (Json.word? [']'] (Json.skipBlank s))

/-- An array from behind its opening bracket. It may be shorter than the settings, not longer. -/
def readArray (s : List Char) : Except OptionsError (Draft × List Char) := do
  match Json.skipBlank s with
  | ']' :: s => return ({}, s)
  | s =>
    let (b, s) ← readBoolean s
    match Json.skipBlank s with
    | ',' :: s =>
      match Json.skipBlank s with
      | ']' :: _ => .error .notJson
      | s =>
        let (t, s) ← readString s
        return ({ keepIds := some b, ns := some t }, ← readClose s)
    | s => return ({ keepIds := some b }, ← readClose s)

/-- The settings that a text gives. -/
def ofJson (text : String) : Except OptionsError Options := do
  let (p, s) ←
    match ← orNotJson (Json.head? text.toList) with
    | (.map, s) => readObject s
    | (.sequence, s) => readArray s
    | (found, _) => .error (.wrongType found .options)
  if Json.skipBlank s = [] then return p.complete else .error .notJson

end Options

end UmlOntology
