import RequestGate.Error
import RequestGate.Json.Record
import RequestGate.Schema.Normalize

/-!
# Declared parameters

A `RequestGate.Parameter` is a declaration with everything that OpenAPI leaves implicit filled in:
the style that belongs to the place, `explode` after the style, the schema from either of the two
places where it may stand. Header names are kept in lower case.
-/

namespace RequestGate

/-- A declared parameter. -/
structure Parameter where
  name : String
  location : Location
  required : Bool
  style : String
  explode : Bool
  allowEmptyValue : Bool
  /-- The schema, in its Draft 7 form. -/
  schema : Json
  /-- The media type, if the parameter is declared by `content`. -/
  contentMediaType : Option String
deriving DecidableEq

namespace Parameter

/-- A flag of a declaration. -/
def flag (declaration : Json) (name : String) : Bool :=
  (declaration.getBool? name).getD false

/-- The schema of a declaration: that under `schema`, or the one of the single media type under
`content`, but not both. -/
def selectSchema? (declaration : Json) : Option (Json × Option String) :=
  match declaration.get? "schema", declaration.getObj? "content" with
  | some schema, none => some (schema, none)
  | none, some [(mediaType, entry)] => (entry.get? "schema").map fun s => (s, some mediaType)
  | _, _ => none

/-- The name under which a parameter of a place is kept. -/
def storedName (location : Location) (name : String) : String :=
  if location = .header then Text.asciiLower name else name

/-- The parameter of a declaration without references. -/
def ofDeclaration (route : String) (declaration : Json) : Except GateError Parameter := do
  let name := (declaration.getStr? "name").getD ""
  let place := (declaration.getStr? "in").getD ""
  let location ←
    match Location.ofName? place with
    | some location => .ok location
    | none => .error (.structural route (.unknownLocation place name))
  let (schema, contentMediaType) ←
    match selectSchema? declaration with
    | some found => .ok found
    | none => .error (.structural route (.noSchema name))
  let style := (declaration.getStr? "style").getD location.defaultStyle
  return {
    name := storedName location name
    location
    required := flag declaration "required"
    style
    explode := (declaration.getBool? "explode").getD (style == "form")
    allowEmptyValue := flag declaration "allowEmptyValue"
    schema := Schema.normalize schema
    contentMediaType }

/-- The parameter as a record. -/
def toJson (p : Parameter) : Json :=
  .obj <|
    [("name", .str p.name), ("in", .str p.location.name), ("required", .bool p.required),
     ("style", .str p.style), ("explode", .bool p.explode),
     ("allowEmptyValue", .bool p.allowEmptyValue), ("schema", p.schema)] ++
      (match p.contentMediaType with
        | some m => [("contentMediaType", Json.str m)]
        | none => [])

/-- The fields of a parameter. -/
def fields : List Json.Field :=
  ["name", "in", "required", "style", "explode", "allowEmptyValue", "schema",
    "contentMediaType"].map Json.Field.named

/-- Reads a place by its name, which may also be the one key of an object that holds `null`. -/
def readLocation? : Json → Option Location
  | .str name => Location.ofName? name
  | .obj [(name, .null)] => Location.ofName? name
  | _ => none

/-- Reads a parameter from a raw value. -/
def ofJson? (value : Json) : Option Parameter := do
  match ← Json.readFields? fields value with
  | [some name, some location, some required, some style, some explode, some allowEmptyValue,
      some schema, contentMediaType] =>
    some
      { name := ← Json.readStr? name
        location := ← readLocation? location
        required := ← Json.readBool? required
        style := ← Json.readStr? style
        explode := ← Json.readBool? explode
        allowEmptyValue := ← Json.readBool? allowEmptyValue
        schema := schema.collapse
        contentMediaType := ← Json.optional? Json.readStr? contentMediaType }
  | _ => none

end Parameter

end RequestGate
