import RequestGate.Options
import RequestGate.Schema.Coerce

/-!
# Deserializing formatted strings

A string whose schema names a format with a deserializer is replaced by what the deserializer makes
of it; one that the deserializer refuses stays as it is.
-/

namespace RequestGate.Schema

/-- The string as the deserializer of its schema's format reads it. -/
def deserializeString (options : Options) (schema : Json) (text : String) : Json :=
  match (schema.getStr? "format").bind options.deserializer? with
  | some d => (d.read text).getD (.str text)
  | none => .str text

/-- `deserialize` with a bound on the levels visited. -/
def deserializeWithin (options : Options) (root : Json) : (levels : Nat) → (schema value : Json) →
    Json
  | 0, _, value => value
  | levels + 1, schema, value =>
    match resolve root schema with
    | none => value
    | some schema =>
      match value with
      | .str text => deserializeString options schema text
      | value => mapChildren root schema (deserializeWithin options root levels) value

/-- The value with all strings deserialized whose formats have a deserializer. -/
def deserialize (options : Options) (root schema value : Json) : Json :=
  deserializeWithin options root levels schema value

end RequestGate.Schema
