import RequestGate.Json.Basic

/-!
# The schema of schemas

`RequestGate.Draft7.metaSchema` is the Draft 7 schema that every schema has to satisfy. It only
looks at places where the dialect puts schemas: what stands under a keyword that it does not know is
not looked into.
-/

namespace RequestGate.Draft7

namespace MetaSchema

/-- A schema with a type and further keywords. -/
def typed (type : String) (more : Entries Json) : Json :=
  .obj (("type", .str type) :: more)

/-- A reference to a schema. -/
def reference (target : String) : Json := .obj [("$ref", .str target)]

/-- Any schema. -/
def anySchema : Json := reference "#"

/-- One of the schemas that the meta-schema defines. -/
def defined (name : String) : Json := reference ("#/definitions/" ++ name)

/-- A string. -/
def text : Json := typed "string" []

/-- A string of a format. -/
def formatted (format : String) : Json := typed "string" [("format", .str format)]

/-- A Boolean that is false unless given. -/
def flag : Json := typed "boolean" [("default", .bool false)]

/-- A number. -/
def number : Json := typed "number" []

/-- An object whose members are all of one schema. -/
def table (members : Json) (more : Entries Json) : Json :=
  typed "object" (("additionalProperties", members) :: more)

/-- A member that is the empty object unless given. -/
def emptyDefault : Entries Json := [("default", .obj [])]

/-- The schemas that others refer to. -/
def definitions : Entries Json :=
  [("schemaArray", typed "array" [("minItems", Json.ofInt 1), ("items", anySchema)]),
   ("nonNegativeInteger", typed "integer" [("minimum", Json.ofInt 0)]),
   ("nonNegativeIntegerDefault0", .obj
      [("allOf", .arr [defined "nonNegativeInteger", .obj [("default", Json.ofInt 0)]])]),
   ("simpleTypes", .obj
      [("enum", Json.ofStrings
          ["array", "boolean", "integer", "null", "number", "object", "string"])]),
   ("stringArray", typed "array"
      [("items", text), ("uniqueItems", .bool true), ("default", .arr [])])]

/-- The schema of every keyword's value. -/
def keywords : Entries Json :=
  [("$id", formatted "uri-reference"),
   ("$schema", formatted "uri"),
   ("$ref", formatted "uri-reference"),
   ("$comment", text),
   ("title", text),
   ("description", text),
   ("default", .bool true),
   ("readOnly", flag),
   ("examples", typed "array" [("items", .bool true)]),
   ("multipleOf", typed "number" [("exclusiveMinimum", Json.ofInt 0)]),
   ("maximum", number),
   ("exclusiveMaximum", number),
   ("minimum", number),
   ("exclusiveMinimum", number),
   ("maxLength", defined "nonNegativeInteger"),
   ("minLength", defined "nonNegativeIntegerDefault0"),
   ("pattern", formatted "regex"),
   ("additionalItems", anySchema),
   ("items", .obj
      [("anyOf", .arr [anySchema, defined "schemaArray"]), ("default", .bool true)]),
   ("maxItems", defined "nonNegativeInteger"),
   ("minItems", defined "nonNegativeIntegerDefault0"),
   ("uniqueItems", flag),
   ("contains", anySchema),
   ("maxProperties", defined "nonNegativeInteger"),
   ("minProperties", defined "nonNegativeIntegerDefault0"),
   ("required", defined "stringArray"),
   ("additionalProperties", anySchema),
   ("definitions", table anySchema emptyDefault),
   ("properties", table anySchema emptyDefault),
   ("patternProperties", table anySchema
      (("propertyNames", .obj [("format", .str "regex")]) :: emptyDefault)),
   ("dependencies", table
      (.obj [("anyOf", .arr [anySchema, defined "stringArray"])]) []),
   ("propertyNames", anySchema),
   ("const", .bool true),
   ("enum", typed "array" [("items", .bool true)]),
   ("type", .obj
      [("anyOf", .arr
          [defined "simpleTypes",
           typed "array"
            [("items", defined "simpleTypes"), ("minItems", Json.ofInt 1),
             ("uniqueItems", .bool true)]])]),
   ("format", text),
   ("contentMediaType", text),
   ("contentEncoding", text),
   ("if", anySchema),
   ("then", anySchema),
   ("else", anySchema),
   ("allOf", defined "schemaArray"),
   ("anyOf", defined "schemaArray"),
   ("oneOf", defined "schemaArray"),
   ("not", anySchema)]

end MetaSchema

/-- The schema of all schemas. -/
def metaSchema : Json :=
  .obj
    [("title", .str "Core schema meta-schema"),
     ("definitions", .obj MetaSchema.definitions),
     ("type", Json.ofStrings ["object", "boolean"]),
     ("properties", .obj MetaSchema.keywords),
     ("default", .bool true)]

end RequestGate.Draft7
