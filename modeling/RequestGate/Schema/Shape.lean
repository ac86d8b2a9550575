import RequestGate.Schema.Reference

/-!
# What kind of schema this is

`RequestGate.Schema.Shape` is the one view through which the library looks at a schema: a reference,
a composition, an array, an object, or anything else. A reference hides all other keywords, a
composition hides the type, and among compositions `allOf` comes before `oneOf` before `anyOf`.
A schema without a type is an object if it has `properties`, and an array if it has `items`.

The questions below the view look through references and compositions. All of them descend at most
`RequestGate.Schema.levels` levels.
-/

namespace RequestGate.Schema

/-- The view of a schema. -/
inductive Shape where
  | reference (target : String)
  | allOf (members : List Json)
  | oneOf (members : List Json)
  | anyOf (members : List Json)
  | array (items : Option Json)
  | object (properties : Option (Entries Json))
  | scalar (type : Option String)
deriving DecidableEq

/-- The declared type; of several the first that is not `null`. -/
def primaryType (schema : Json) : Option String :=
  match schema.get? "type" with
  | some (.str t) => some t
  | some (.arr types) => (types.filterMap Json.str?).find? (· != "null")
  | _ => none

/-- The view of a schema that is neither a reference nor a composition. -/
def plainShape (schema : Json) : Shape :=
  match primaryType schema with
  | some "object" => .object (schema.getObj? "properties")
  | some "array" => .array (schema.get? "items")
  | none =>
    if schema.hasKey "properties" then .object (schema.getObj? "properties")
    else if schema.hasKey "items" then .array (schema.get? "items")
    else .scalar none
  | some t => .scalar (some t)

/-- The view of a schema. -/
def shape (schema : Json) : Shape :=
  match reference? schema with
  | some target => .reference target
  | none =>
    match schema.getArr? "allOf" with
    | some members => .allOf members
    | none =>
      match schema.getArr? "oneOf" with
      | some members => .oneOf members
      | none =>
        match schema.getArr? "anyOf" with
        | some members => .anyOf members
        | none => plainShape schema

/-- The members of a composition. -/
def Shape.members : Shape → List Json
  | .allOf members | .oneOf members | .anyOf members => members
  | _ => []

/-! ### Objects -/

/-- `isObjectLike` with a bound on the levels visited. -/
def isObjectLikeWithin (root : Json) : (levels : Nat) → Json → Bool
  | 0, _ => false
  | levels + 1, schema =>
    match resolve root schema with
    | none => false
    | some schema =>
      match shape schema with
      | .object _ => true
      | s => s.members.any (isObjectLikeWithin root levels)

/-- Whether a schema describes an object, itself or through a member of its composition. -/
def isObjectLike (root schema : Json) : Bool :=
  isObjectLikeWithin root levels schema

/-- Adds the properties whose names are new. -/
def addNew (known more : Entries Json) : Entries Json :=
  more.foldl (fun table p => if Entries.contains table p.1 then table else table ++ [p]) known

/-- Adds the properties of a schema to those known already. -/
def collectProperties (root : Json) : (levels : Nat) → Entries Json → Json → Entries Json
  | 0, known, _ => known
  | levels + 1, known, schema =>
    match resolve root schema with
    | none => known
    | some schema =>
      match shape schema with
      | .object (some properties) => addNew known properties
      | s => s.members.foldl (collectProperties root levels) known

/-- The declared properties of a schema, those of the members of its composition included; of
several with one name the first counts. -/
def properties (root schema : Json) : Entries Json :=
  collectProperties root levels [] schema

/-- The schema of a declared property. -/
def property? (root schema : Json) (name : String) : Option Json :=
  Entries.get? (properties root schema) name

/-! ### Types -/

/-- `effectiveType` with a bound on the levels visited. -/
def effectiveTypeWithin (root : Json) : (levels : Nat) → Json → Option String
  | 0, _ => none
  | levels + 1, schema =>
    match resolve root schema with
    | none => none
    | some schema =>
      match primaryType schema with
      | some t => some t
      | none =>
        match shape schema with
        | .allOf members => members.findSome? (effectiveTypeWithin root levels)
        | .object _ => some "object"
        | .array _ => some "array"
        | _ => none

/-- The type that a schema demands: its own, or else that of the first member of `allOf` that has
one. -/
def effectiveType (root schema : Json) : Option String :=
  effectiveTypeWithin root levels schema

/-! ### Defaults -/

/-- `defaultValue` with a bound on the levels visited; only the outermost object has a default even
if it is empty. -/
def defaultWithin (root : Json) : (levels : Nat) → (outermost : Bool) → Json → Option Json
  | 0, _, _ => none
  | levels + 1, outermost, schema =>
    match schema.get? "default" with
    | some value => some value
    | none =>
      match shape schema with
      | .reference reference => (target? root reference).bind (defaultWithin root levels false)
      | .object (some properties) =>
        let members : Entries Json := properties.filterMap fun p =>
          match defaultWithin root levels false p.2 with
          | some (.obj []) => none
          | some value => some (p.1, value)
          | none => none
        if outermost || !members.isEmpty then some (.obj members) else none
      | s => s.members.findSome? (defaultWithin root levels false)

/-- The default of a schema: the one it declares, or that of what it refers to, or that of the first
member of its composition that has one, or an object of the defaults of its properties. -/
def defaultValue (root schema : Json) : Option Json :=
  defaultWithin root levels true schema

end RequestGate.Schema
