import RequestGate.Digest.Canonical
import RequestGate.Json.Record
import RequestGate.Options
import RequestGate.Request.Location

/-!
# The schema of a whole request

What an operation demands of a request is one `RequestGate.RequestSchema`: a
`RequestGate.LocationSchema` for each of the four places of parameters, and a schema for the body.
`RequestGate.RequestSchema.toEngineSchema` makes a single JSON schema of it, in which the document's
components are embedded so that references find them.
-/

namespace RequestGate

/-- The schema of the parameters of one place. -/
structure LocationSchema where
  title : String
  /-- The schemas of the parameters, by name. -/
  properties : Entries Json
  /-- The names of the required parameters. -/
  required : List String
  /-- Whether undeclared names are let through. -/
  additionalProperties : Bool
  /-- The query parameters that may be sent empty, ascending. -/
  allowEmptyValue : List String
deriving DecidableEq

namespace LocationSchema

/-- The title of a place. -/
def titleOf : Location → String
  | .query => "HTTP query"
  | .header => "HTTP headers"
  | .path => "HTTP path"
  | .cookie => "HTTP cookies"

/-- The schema of a place without parameters. Headers are open, everything else is closed. -/
def empty (location : Location) : LocationSchema :=
  ⟨titleOf location, [], [], location == .header, []⟩

/-- Whether a parameter is declared. -/
def declares (schema : LocationSchema) (name : String) : Bool :=
  Entries.contains schema.properties name

/-- A member that is left out when the list is empty. -/
def listMember (name : String) (items : List String) : Entries Json :=
  if items.isEmpty then [] else [(name, Json.ofStrings items)]

/-- The JSON schema of a place. Empty values are not its business. -/
def toEngineSchema (schema : LocationSchema) : Json :=
  .obj <|
    [("title", .str schema.title), ("type", .str "object"),
     ("properties", .obj schema.properties)] ++ listMember "required" schema.required ++
      [("additionalProperties", .bool schema.additionalProperties)]

/-- The schema as a record. -/
def toJson (schema : LocationSchema) : Json :=
  .obj <|
    [("title", .str schema.title), ("properties", .obj schema.properties)] ++
      listMember "required" schema.required ++
      [("additionalProperties", .bool schema.additionalProperties)] ++
      listMember "allowEmptyValue" schema.allowEmptyValue

/-- The fields of the record. -/
def fields : List Json.Field :=
  ["title", "properties", "required", "additionalProperties", "allowEmptyValue"].map
    Json.Field.named

/-- Reads the record from a raw value. -/
def ofJson? (value : Json) : Option LocationSchema := do
  match ← Json.readFields? fields value with
  | [some title, some properties, required, some additionalProperties, allowEmptyValue] =>
    some
      { title := ← Json.readStr? title
        properties := ← properties.collapse.obj?
        required := ← Json.withDefault? [] (Json.readList? Json.readStr?) required
        additionalProperties := ← Json.readBool? additionalProperties
        allowEmptyValue := sortedDistinct
          (← Json.withDefault? [] (Json.readList? Json.readStr?) allowEmptyValue) }
  | _ => none

end LocationSchema

/-- The schema of a body of one media type. -/
structure BodySchema where
  schema : Json
  /-- Whether there must be a body. -/
  required : Bool
deriving DecidableEq

namespace BodySchema

/-- Anything, or no body at all. -/
def unconstrained : BodySchema := ⟨.obj [], false⟩

/-- The schema as a record. -/
def toJson (body : BodySchema) : Json :=
  .obj [("schema", body.schema), ("required", .bool body.required)]

/-- Reads the record from a raw value. -/
def ofJson? (value : Json) : Option BodySchema := do
  match ← Json.readFields? [.named "schema", .named "required"] value with
  | [some schema, some required] =>
    some { schema := schema.collapse, required := ← Json.readBool? required }
  | _ => none

end BodySchema

/-- The schemas of the four places. -/
structure ParameterSchemas where
  query : LocationSchema := .empty .query
  headers : LocationSchema := .empty .header
  path : LocationSchema := .empty .path
  cookies : LocationSchema := .empty .cookie
deriving DecidableEq

namespace ParameterSchemas

/-- The schema of a place. -/
def branch (schemas : ParameterSchemas) : Location → LocationSchema
  | .query => schemas.query
  | .header => schemas.headers
  | .path => schemas.path
  | .cookie => schemas.cookies

/-- The schemas with another one for a place. -/
def withLocation (schemas : ParameterSchemas) (location : Location) (schema : LocationSchema) :
    ParameterSchemas :=
  match location with
  | .query => { schemas with query := schema }
  | .header => { schemas with headers := schema }
  | .path => { schemas with path := schema }
  | .cookie => { schemas with cookies := schema }

@[simp] theorem branch_withLocation (schemas : ParameterSchemas) (location : Location)
    (schema : LocationSchema) : (schemas.withLocation location schema).branch location = schema := by
  cases location <;> rfl

theorem branch_withLocation_of_ne (schemas : ParameterSchemas) {location other : Location}
    (schema : LocationSchema) (h : other ≠ location) :
    (schemas.withLocation location schema).branch other = schemas.branch other := by
  cases location <;> cases other <;> first | rfl | exact absurd rfl h

/-- The schemas as a record. -/
def toJson (schemas : ParameterSchemas) : Json :=
  .obj
    [("query", schemas.query.toJson), ("headers", schemas.headers.toJson),
     ("path", schemas.path.toJson), ("cookies", schemas.cookies.toJson)]

/-- Reads the record from a raw value. -/
def ofJson? (value : Json) : Option ParameterSchemas := do
  match ← Json.readFields? (["query", "headers", "path", "cookies"].map Json.Field.named) value with
  | [some query, some headers, some path, some cookies] =>
    some
      { query := ← LocationSchema.ofJson? query
        headers := ← LocationSchema.ofJson? headers
        path := ← LocationSchema.ofJson? path
        cookies := ← LocationSchema.ofJson? cookies }
  | _ => none

end ParameterSchemas

/-- The schema of a request to an operation, for one class of content types. -/
structure RequestSchema where
  parameters : ParameterSchemas := {}
  body : BodySchema := .unconstrained
deriving DecidableEq

namespace RequestSchema

/-- The fields that a request must have. Cookies may be missing altogether. -/
def requiredFields (schema : RequestSchema) : List String :=
  ["query", "headers", "path"] ++ if schema.body.required then ["body"] else []

/-- The JSON schema of the instance of a request. -/
def toEngineSchema (schema : RequestSchema) (components : Json) : Json :=
  .obj
    [("required", Json.ofStrings schema.requiredFields),
     ("properties", .obj
        [("query", schema.parameters.query.toEngineSchema),
         ("headers", schema.parameters.headers.toEngineSchema),
         ("path", schema.parameters.path.toEngineSchema),
         ("cookies", schema.parameters.cookies.toEngineSchema),
         ("body", schema.body.schema)]),
     ("components", components)]

/-- The schema as a record. -/
def toJson (schema : RequestSchema) : Json :=
  .obj [("parameters", schema.parameters.toJson), ("body", schema.body.toJson)]

/-- Reads the record from a raw value. -/
def ofJson? (value : Json) : Option RequestSchema := do
  match ← Json.readFields? [.named "parameters", .named "body"] value with
  | [some parameters, some body] =>
    some
      { parameters := ← ParameterSchemas.ofJson? parameters
        body := ← BodySchema.ofJson? body }
  | _ => none

/-- The name of the schema up to the order of members. -/
def fingerprint (schema : RequestSchema) : Fingerprint :=
  Fingerprint.of schema.toJson

end RequestSchema

end RequestGate
