import RequestGate.Options
import RequestGate.Schema.Coerce

/-!
# Pruning undeclared members

`RequestGate.Schema.prune` removes from a value the members that its schema does not declare, as far
as the mode demands. Only objects whose schema declares properties at all, and no
`patternProperties`, lose members; the members that stay keep their order.
-/

namespace RequestGate.Schema

/-- Whether a value has a type, as far as that can be seen at a glance: a whole number must be
written as one, and an unknown type is had by everything. -/
def hasTypeAtAGlance (value : Json) (type : String) : Bool :=
  match type, value with
  | "string", .str _ => true
  | "string", _ => false
  | "integer", .num n => isWhole n
  | "integer", _ => false
  | "number", .num _ => true
  | "number", _ => false
  | "boolean", .bool _ => true
  | "boolean", _ => false
  | "array", .arr _ => true
  | "array", _ => false
  | "object", .obj _ => true
  | "object", _ => false
  | "null", .null => true
  | "null", _ => false
  | _, _ => true

/-- Whether a mode removes an undeclared value of an object with these `additionalProperties`. -/
def isRemovable (root : Json) (mode : RemoveAdditional) (additional : Option Json) (value : Json) :
    Bool :=
  match mode with
  | .off => false
  | .all => true
  | .declared => additional == some (.bool false)
  | .failing =>
    match additional with
    | some (.bool allowed) => !allowed
    | some schema =>
      -- the schema is not checked beyond its type
      match (resolve root schema).bind primaryType with
      | some type => !hasTypeAtAGlance value type
      | none => false
    | none => false

/-- The members of an object that a mode leaves. -/
def keepMembers (root : Json) (mode : RemoveAdditional) (schema : Json) (declared : Entries Json)
    (members : Entries Json) : Entries Json :=
  -- patterns may declare any name, so nothing is removed beside them
  if (!declared.isEmpty || schema.hasKey "properties") && !schema.hasKey "patternProperties" then
    members.filter fun m =>
      Entries.contains declared m.1 ||
        !isRemovable root mode (schema.get? "additionalProperties") m.2
  else members

/-- `prune` with a bound on the levels visited. -/
def pruneWithin (root : Json) (mode : RemoveAdditional) : (levels : Nat) → (schema value : Json) →
    Json
  | 0, _, value => value
  | levels + 1, schema, value =>
    match resolve root schema with
    | none => value
    | some schema =>
      match value with
      | .obj members =>
        let kept := keepMembers root mode schema (properties root schema) members
        .obj (mapDeclared root schema (pruneWithin root mode levels) kept)
      | .arr items => .arr (mapItems schema (pruneWithin root mode levels) items)
      | value => value

/-- The value without the members that a mode removes. The schema is its own root. -/
def prune (mode : RemoveAdditional) (schema value : Json) : Json :=
  if mode = .off then value else pruneWithin schema mode levels schema value

end RequestGate.Schema
