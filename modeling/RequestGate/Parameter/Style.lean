import RequestGate.Json.Parser
import RequestGate.Parameter.Basic
import RequestGate.Request.Basic
import RequestGate.Schema.Shape

/-!
# Decoding parameter styles

A parameter's value arrives in the way that its style and `explode` prescribe: an array as one
string with delimiters, an object as JSON text, as keys of its own beside the others, or as keys
with brackets. `RequestGate.Style.decode` puts a request's tables into the form that the schemas
speak of, one declared parameter after the other.

Nothing in the request can make decoding fail. It fails where an array is declared with a style that
has no delimiter, whatever the request.
-/

namespace RequestGate.Style

/-- Whether a value counts as given: `null`, `false`, zero and the empty string do not. -/
def isGiven : Json → Bool
  | .null => false
  | .bool b => b
  | .num n => !n.isZero
  | .str s => !s.isEmpty
  | _ => true

/-- The value in an array of its own, unless it is an array. -/
def wrap (value : Json) : Json :=
  if value.isArr then value else .arr [value]

/-- The delimiter between the items of an array in one string. -/
def delimiter? (style : String) : Option Char :=
  match style with
  | "simple" | "form" => some ','
  | "spaceDelimited" => some ' '
  | "pipeDelimited" => some '|'
  | _ => none

/-- Whether values of a media type are JSON text: the subtype is `json` or ends in `+json`. -/
def isJsonMediaType (mediaType : String) : Bool :=
  let essence := Text.trim ((Text.splitOn ';' mediaType.toList).headD [])
  match Text.splitFirst? '/' (essence.map Char.toLower) with
  | some (_, subtype) =>
    subtype == "json".toList || Text.startsWith "+json".toList.reverse subtype.reverse
  | none => false

/-! ### What can be done to the entry of a parameter -/

/-- Reads the value under `name` as JSON text, if it is a string that is. -/
def readJson (table : Entries Json) (name : String) : Entries Json :=
  match Entries.get? table name with
  | some (.str text) =>
    match Json.parse? text with
    | some value => Entries.insert table name value
    | none => table
  | _ => table

/-- Adds members to the object under `name`; a value that is no object gives way to them. -/
def addMembers (table : Entries Json) (name : String) (members : Entries Json) : Entries Json :=
  if members.isEmpty then table
  else
    match Entries.get? table name with
    | some (.obj existing) => Entries.insert table name (.obj (Entries.insertAll existing members))
    | _ => Entries.insert table name (.obj members)

/-- Takes entries out of a table, each under a new name, in the order of the list. -/
def takeEntries (names : List (String × String)) (table : Entries Json) :
    Entries Json × Entries Json :=
  names.foldl (fun (taken, table) (key, newName) =>
    match Entries.get? table key with
    | some value => (Entries.insert taken newName value, Entries.swapRemove table key)
    | none => (taken, table)) ([], table)

/-- Moves the entries of an object's own properties under `name`. A property that is an array gets
an array. -/
def collapseExploded (root schema : Json) (name : String) (table : Entries Json) : Entries Json :=
  -- the entry under the name stays, since that is where the others go
  let properties := (Schema.properties root schema).filter fun p => p.1 != name
  let (taken, table) := takeEntries (properties.map fun p => (p.1, p.1)) table
  let members := taken.map fun (key, value) =>
    match Entries.get? properties key with
    | some sub =>
      if Schema.effectiveType root sub = some "array" then (key, wrap value) else (key, value)
    | none => (key, value)
  addMembers table name members

/-- The property that a key in brackets denotes: the key is `name[property]`. -/
def bracketed? (name key : String) : Option String :=
  match Text.dropStart? (name ++ "[").toList key.toList with
  | some rest =>
    match rest.reverse with
    | ']' :: property => some (String.ofList property.reverse)
    | _ => none
  | none => none

/-- Moves the entries with keys `name[property]` under `name`. -/
def collapseDeepObject (name : String) (table : Entries Json) : Entries Json :=
  let keys := table.filterMap fun entry => (bracketed? name entry.1).map fun p => (entry.1, p)
  let (taken, table) := takeEntries keys table
  addMembers table name taken

/-- Splits the string under `name`, unless it is empty. -/
def splitDelimited (delimiter : Char) (name : String) (table : Entries Json) : Entries Json :=
  match Entries.get? table name with
  | some (.str text) =>
    if text.isEmpty then table
    else Entries.insert table name (.arr ((Text.split delimiter text).map .str))
  | _ => table

/-! ### Decoding -/

/-- Whether a parameter is a query parameter that describes an object, and not by `content`. -/
def isQueryObject (root : Json) (p : Parameter) : Bool :=
  p.contentMediaType.isNone && p.location == .query && Schema.isObjectLike root p.schema

/-- Decodes one object among the query parameters. -/
def decodeObject (root : Json) (p : Parameter) (table : Entries Json) : Entries Json :=
  if p.style == "form" && p.explode then
    collapseExploded root p.schema p.name (readJson table p.name)
  else if p.style == "deepObject" then
    let table := collapseDeepObject p.name table
    let table :=
      -- the default replaces also what does not count as given
      if (Entries.get? table p.name).any isGiven then table
      else
        match Schema.defaultValue root p.schema with
        | some value => Entries.insert table p.name value
        | none => table
    readJson table p.name
  else readJson table p.name

/-- Decodes the entry of one parameter in the table of its place. -/
def decodeEntry (root : Json) (p : Parameter) (table : Entries Json) :
    Except StructuralFault (Entries Json) :=
  match p.contentMediaType with
  | some mediaType => .ok (if isJsonMediaType mediaType then readJson table p.name else table)
  | none =>
    if isQueryObject root p then .ok (decodeObject root p table)
    else if Schema.effectiveType root p.schema = some "array" then
      if p.explode then
        .ok (Entries.modify table p.name fun value => if isGiven value then wrap value else value)
      else
        match delimiter? p.style with
        | some delimiter => .ok (splitDelimited delimiter p.name table)
        | none => .error (.unknownStyle p.style p.name)
    -- this concerns objects outside the query, as nothing else has properties
    else if p.style == "form" && p.explode then
      .ok (collapseExploded root p.schema p.name table)
    else .ok table

/-- Decodes one parameter of a request. -/
def decodeParameter (root : Json) (route : String) (p : Parameter) (request : NormalizedRequest) :
    Except GateError NormalizedRequest :=
  match decodeEntry root p (request.table p.location) with
  | .ok table => .ok (request.withTable p.location table)
  | .error fault => .error (.structural route fault)

/-- The request with every declared parameter decoded. -/
def decode (root : Json) (route : String) (parameters : List Parameter) (request : Request) :
    Except GateError NormalizedRequest :=
  parameters.foldlM (fun r p => decodeParameter root route p r) (NormalizedRequest.ofRequest request)

end RequestGate.Style
