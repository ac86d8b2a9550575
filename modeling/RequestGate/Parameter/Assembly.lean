import RequestGate.Operation.RequestSchema
import RequestGate.Parameter.Basic
import RequestGate.Schema.Shape

/-!
# The schemas of an operation's parameters

Every parameter puts its schema among those of its place, in the order of declaration, and no place
may have two of one name. The query is open if the options say so, or if some query parameter is an
object that is open itself: then it cannot be told which keys belong to it.
-/

namespace RequestGate.Parameter

/-- `isOpenObject` with a bound on the levels visited. -/
def isOpenWithin (root : Json) : (levels : Nat) → Json → Bool
  | 0, _ => false
  | levels + 1, schema =>
    match Schema.resolve root schema with
    | none => false
    | some schema =>
      (match schema.get? "additionalProperties" with
        | some value => value != .bool false
        | none => false) ||
      ["allOf", "oneOf", "anyOf"].any fun keyword =>
        ((schema.getArr? keyword).getD []).any (isOpenWithin root levels)

/-- Whether a schema, or a member of one of its compositions, allows undeclared members
expressly. -/
def isOpenObject (root schema : Json) : Bool :=
  isOpenWithin root Schema.levels schema

/-- The schema of a place with one parameter more. -/
def addTo (p : Parameter) (schema : LocationSchema) : LocationSchema :=
  { schema with
    properties := Entries.insert schema.properties p.name p.schema
    required := if p.required then schema.required ++ [p.name] else schema.required
    allowEmptyValue :=
      if p.location = .query ∧ p.allowEmptyValue then
        sortedDistinct (schema.allowEmptyValue ++ [p.name])
      else schema.allowEmptyValue }

/-- Adds one parameter to the schema of its place. -/
def place (route : String) (schemas : ParameterSchemas) (p : Parameter) :
    Except GateError ParameterSchemas :=
  let schema := schemas.branch p.location
  if schema.declares p.name then
    .error (.structural route (.duplicateParameter p.name p.location))
  else .ok (schemas.withLocation p.location (p.addTo schema))

/-- The schemas of an operation's parameters. -/
def assemble (root : Json) (allowUnknownQuery : Bool) (route : String)
    (parameters : List Parameter) : Except GateError ParameterSchemas := do
  let schemas ← parameters.foldlM (place route) {}
  let isOpen := parameters.any fun p => p.location == .query && isOpenObject root p.schema
  return { schemas with
    query := { schemas.query with additionalProperties := allowUnknownQuery || isOpen } }

end RequestGate.Parameter
