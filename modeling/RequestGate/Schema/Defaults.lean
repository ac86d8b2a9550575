import RequestGate.Schema.Coerce

/-!
# Filling in defaults

`RequestGate.Schema.fillDefaults` gives every declared property that an object lacks the default of
its schema, at every level that the value itself has. Nothing that is there is changed, and what is
put in is not looked into any further.
-/

namespace RequestGate.Schema

/-- The default that a schema, or the schema it refers to, declares. -/
def declaredDefault? (root schema : Json) : Option Json :=
  (resolve root schema).bind fun s => s.get? "default"

/-- Fills one property: a value that is there by `f`, a missing one by its default. -/
def fillProperty (root : Json) (f : Json → Json → Json) (members : Entries Json)
    (property : String × Json) : Entries Json :=
  if Entries.contains members property.1 then
    Entries.modify members property.1 (f property.2)
  else
    match declaredDefault? root property.2 with
    | some value => Entries.insert members property.1 value
    | none => members

/-- `fillDefaults` with a bound on the levels visited. -/
def fillWithin (root : Json) : (levels : Nat) → (schema value : Json) → Json
  | 0, _, value => value
  | levels + 1, schema, value =>
    match resolve root schema with
    | none => value
    | some schema =>
      match value with
      | .obj members =>
        .obj ((properties root schema).foldl (fillProperty root (fillWithin root levels)) members)
      | .arr items => .arr (mapItems schema (fillWithin root levels) items)
      | value => value

/-- The value with the defaults of its schema filled in. -/
def fillDefaults (root schema value : Json) : Json :=
  fillWithin root levels schema value

end RequestGate.Schema
