import RequestGate.Json.Basic

/-!
# From the schema dialect of OpenAPI 3.0 to Draft 7

Two keywords of the OpenAPI dialect mean nothing, or something else, in Draft 7. `nullable: true`
becomes the type `null` beside the declared one, and `null` among the values of `enum`; a Boolean
`exclusiveMinimum` or `exclusiveMaximum` becomes the bound itself. `RequestGate.Schema.normalize`
changes a schema so, and every schema inside it, and leaves all else alone.

A change to one schema touches none of the keywords that hold further schemas, so it makes no
difference that the inner schemas are changed first.
-/

namespace RequestGate.Schema

/-- How the value of a keyword holds schemas. -/
inductive Nesting where
  /-- It is a schema, or an array of schemas. -/
  | oneOrMany
  /-- It is an array of schemas. -/
  | many
  /-- It is an object whose members are schemas. -/
  | table
  /-- It holds none. -/
  | nothing
deriving DecidableEq

/-- Which keywords hold schemas that are normalized too. -/
def nesting : String → Nesting
  | "not" | "additionalProperties" | "items" => .oneOrMany
  | "allOf" | "anyOf" | "oneOf" => .many
  | "properties" | "patternProperties" => .table
  | _ => .nothing

/-- The types with `null` beside them, if it is not among them already. -/
def widenType : Json → Json
  | .str t => if t = "null" then .str t else .arr [.str t, .str "null"]
  | .arr types => if types.contains (.str "null") then .arr types else .arr (types ++ [.str "null"])
  | value => value

/-- The values with `null` at their end, if it is not among them already. -/
def widenEnum : Json → Json
  | .arr values => if values.contains .null then .arr values else .arr (values ++ [.null])
  | value => value

/-- Turns `nullable` into `null` as a type and as a value. -/
def replaceNullable (members : Entries Json) : Entries Json :=
  match Entries.get? members "nullable" with
  | none => members
  | some nullable =>
    let rest := Entries.swapRemove members "nullable"
    if nullable = .bool true then
      Entries.modify (Entries.modify rest "type" widenType) "enum" widenEnum
    else rest

/-- Turns a Boolean flag `exclusive` into the bound that stands under `inclusive`. -/
def replaceExclusive (exclusive inclusive : String) (members : Entries Json) : Entries Json :=
  match Entries.get? members exclusive with
  | some (.bool true) =>
    match Entries.get? members inclusive with
    | some limit => Entries.insert (Entries.swapRemove members inclusive) exclusive limit
    | none => Entries.swapRemove members exclusive
  | some (.bool false) => Entries.swapRemove members exclusive
  | _ => members

/-- Replaces the keywords of one schema. -/
def replaceKeywords (members : Entries Json) : Entries Json :=
  replaceExclusive "exclusiveMaximum" "maximum" <|
    replaceExclusive "exclusiveMinimum" "minimum" <| replaceNullable members

mutual

/-- The Draft 7 form of a schema and of every schema inside it. -/
def normalize : Json → Json
  | .obj members => .obj (replaceKeywords (normalizeMembers members))
  | schema => schema

/-- Normalizes the schemas under the keywords of a schema. -/
def normalizeMembers : List (String × Json) → List (String × Json)
  | [] => []
  | (k, v) :: rest => (k, normalizeUnder (nesting k) v) :: normalizeMembers rest

/-- Normalizes the schemas in the value of a keyword. -/
def normalizeUnder (n : Nesting) : Json → Json
  | .arr items =>
    if n = .oneOrMany ∨ n = .many then .arr (normalizeList items) else .arr items
  | .obj members =>
    match n with
    | .oneOrMany => .obj (replaceKeywords (normalizeMembers members))
    | .table => .obj (normalizeTable members)
    | _ => .obj members
  | value => value

/-- Normalizes every schema of a list. -/
def normalizeList : List Json → List Json
  | [] => []
  | a :: as => normalize a :: normalizeList as

/-- Normalizes every schema of a table. -/
def normalizeTable : List (String × Json) → List (String × Json)
  | [] => []
  | (k, a) :: as => (k, normalize a) :: normalizeTable as

end

/-- A single schema under a keyword is normalized as any other. -/
theorem normalizeUnder_oneOrMany_obj (members : Entries Json) :
    normalizeUnder .oneOrMany (.obj members) = normalize (.obj members) := by
  simp [normalizeUnder, normalize]

end RequestGate.Schema
