import RequestGate.Json.Printer
import RequestGate.Schema.Reference

/-!
# Violations of a schema

A `RequestGate.Draft7.Violation` says where an instance violates a schema: a path into the instance,
a path through the schema, and what is special about the keyword at its end. The path through the
schema names every reference that was followed by a segment `$ref` of its own.

A `RequestGate.SchemaError` is what is reported of it: the keyword, which is the last segment of the
path, and the value of the keyword, which is looked up in the schema along the path.
-/

namespace RequestGate

namespace Draft7

/-- What a violation is about, beyond its keyword. -/
inductive Detail where
  /-- Nothing further. -/
  | plain
  /-- A required member is missing. -/
  | missing (name : String)
  /-- Members that are not allowed. -/
  | unexpected (names : List String)
  /-- The schema `false` met this instance. -/
  | falseSchema (value : Json)
  /-- No item of this array matches. -/
  | noneContained (value : Json)
  /-- Items beyond those that are described. -/
  | extraItems (items : List Json)
  /-- A string is not of the media type. -/
  | mediaType (value : Json) (name : String)
  /-- A string is not in the encoding. -/
  | encoding (value : Json) (name : String)

/-- The violation in words. Only what has no better wording elsewhere is spelled out. -/
def Detail.message : Detail → String
  | .plain => "the keyword is violated"
  | .missing name => Json.quote name ++ " is a required property"
  | .unexpected names =>
    "Additional properties are not allowed (" ++
      String.intercalate ", " (names.map fun n => "'" ++ n ++ "'") ++
      (if names.length = 1 then " was" else " were") ++ " unexpected)"
  | .falseSchema value => "False schema does not allow " ++ value.compact
  | .noneContained value => "None of " ++ value.compact ++ " are valid under the given schema"
  | .extraItems items =>
    "Additional items are not allowed (" ++
      String.intercalate ", " (items.map Json.compact) ++
      (if items.length = 1 then " was" else " were") ++ " unexpected)"
  | .mediaType value name =>
    value.compact ++ " is not compliant with " ++ Json.quote name ++ " media type"
  | .encoding value name =>
    value.compact ++ " is not compliant with " ++ Json.quote name ++ " content encoding"

/-- One violation; both paths are lists of segments. -/
structure Violation where
  instancePath : List String
  schemaPath : List String
  detail : Detail

end Draft7

namespace Schema

/-- One step along a path through a schema, over references that the path does not name. -/
def pathStep? (root : Json) (segment : String) : (hops : Nat) → Json → Option Json
  | 0, _ => none
  | hops + 1, node =>
    let reference := reference? node
    match segment == "$ref", reference with
    -- the path names the reference
    | true, some reference => target? root reference
    | _, reference =>
      let found := match node with
        | .obj members => Entries.get? members segment
        | .arr items =>
          (Text.readNatBelow? Text.wordCount segment.toList).bind fun i => items[i]?
        | _ => none
      match found with
      | some value => some value
      | none =>
        match reference with
        -- the path does not name it, and goes on at its target
        | some reference => (target? root reference).bind (pathStep? root segment hops)
        | none => none

/-- The value at the end of a path through a schema. -/
def lookupPath? (root : Json) (segments : List String) : Option Json :=
  segments.foldlM (fun node segment => pathStep? root segment levels node) root

end Schema

/-- A violation as it is reported. -/
structure SchemaError where
  /-- The keyword that is violated. -/
  keyword : String
  /-- The pointer into the instance. -/
  instancePath : String
  /-- The pointer through the schema. -/
  schemaPath : String
  /-- The value of the keyword. -/
  keywordValue : Option Json
  /-- The required member that is missing. -/
  missingProperty : Option String
  /-- The members that are not allowed. -/
  unexpectedProperties : List String
  /-- The violation in words. -/
  message : String
deriving DecidableEq

namespace SchemaError

/-- The report of a violation of the schema `root`. -/
def ofViolation (root : Json) (v : Draft7.Violation) : SchemaError where
  keyword := v.schemaPath.getLastD ""
  instancePath := Pointer.render v.instancePath
  schemaPath := Pointer.render v.schemaPath
  keywordValue := Schema.lookupPath? root v.schemaPath
  missingProperty := match v.detail with
    | .missing name => some name
    | _ => none
  unexpectedProperties := match v.detail with
    | .unexpected names => names
    | _ => []
  message := v.detail.message

end SchemaError

end RequestGate
