import RequestGate.Draft7.MetaSchema
import RequestGate.Draft7.Validate
import RequestGate.Error
import RequestGate.Options

/-!
# Compiling a schema

Not every value is a schema. `RequestGate.Engine.compile` hands out a `RequestGate.Predicate` only
for one that passes two examinations. First it must satisfy the meta-schema. Then its keywords are
gone through one by one, and so are those of everything that its references reach, which the
meta-schema may not have looked at: a keyword's value must be of the right kind, a pattern must be
one, a reference must lead somewhere.

A predicate is no more than the schema and the formats, since checking reads the schema directly. The
examinations are what makes every answer of a predicate meaningful. For the same reason they refuse two
things that are allowed in a schema but that checking does not understand: patterns in a notation that
`RequestGate.Pattern.parse?` leaves out, and references by the names that `$id` gives.
-/

namespace RequestGate

namespace Draft7

/-- How the value of a keyword holds schemas that are examined. -/
inductive Holding where
  /-- It is a schema. -/
  | one
  /-- It is a schema if it is an object, and otherwise holds none. -/
  | oneObject
  /-- It is a schema or a list of schemas; anything else holds none. -/
  | oneOrMany
  /-- It is a list of schemas. -/
  | many
  /-- It is an object whose members are schemas. -/
  | table
  /-- It is an object whose members are schemas or lists of names. -/
  | dependencies
  /-- It holds none. -/
  | nothing
deriving DecidableEq

/-- How a keyword holds schemas, given the keywords beside it. Some keywords mean nothing without
another one and are then not looked into. -/
def holding (siblings : Entries Json) (keyword : String) : Holding :=
  let onlyIf (condition : Bool) (h : Holding) : Holding := if condition then h else .nothing
  match keyword with
  | "not" | "contains" => .one
  | "additionalProperties" | "propertyNames" => .oneObject
  | "items" => .oneOrMany
  | "additionalItems" =>
    onlyIf (((Entries.get? siblings "items").map Json.isArr).getD false) .oneObject
  | "allOf" | "anyOf" | "oneOf" => .many
  | "properties" | "patternProperties" => .table
  | "dependencies" => .dependencies
  | "if" => onlyIf (Entries.contains siblings "then" || Entries.contains siblings "else") .one
  | "then" | "else" => onlyIf (Entries.contains siblings "if") .one
  | _ => .nothing

/-- The names of the types. -/
def knownTypes : List String :=
  ["array", "boolean", "integer", "null", "number", "object", "string"]

/-- Whether a value is a string. -/
def isText (value : Json) : Bool := value.str?.isSome

/-- Whether a value is a number that can bound a count. -/
def isCount : Json → Bool
  | .num n => n.isIntegral && n.compareValue (.int 0) != .lt
  | _ => false

/-- Whether a value is a number. -/
def isNumber : Json → Bool
  | .num _ => true
  | _ => false

/-- The first text of a list that is no pattern. -/
def firstInvalidPattern? (texts : List String) : Option CompileFault :=
  (texts.find? fun t => (Pattern.parse? t).isNone).map .invalidPattern

/-- What is wrong with the name of a type. -/
def typeFault? : Json → Option CompileFault
  | .str t => if knownTypes.contains t then none else some (.unknownType t)
  | _ => some (.invalidKeyword "type")

/-- What is wrong with the value of a keyword, apart from the schemas in it. -/
def keywordFault? (formats : Formats) (keyword : String) (value : Json) : Option CompileFault :=
  let demand (holds : Bool) : Option CompileFault :=
    if holds then none else some (.invalidKeyword keyword)
  match keyword with
  | "type" =>
    match value with
    | .arr types => types.findSome? typeFault?
    | type => typeFault? type
  | "enum" => demand value.isArr
  | "required" => demand ((value.arr?).any fun names => names.all isText)
  | "minimum" | "maximum" | "exclusiveMinimum" | "exclusiveMaximum" | "multipleOf" =>
    demand (isNumber value)
  | "minLength" | "maxLength" | "minItems" | "maxItems" | "minProperties" | "maxProperties" =>
    demand (isCount value)
  | "uniqueItems" => demand value.bool?.isSome
  | "contentEncoding" | "contentMediaType" => demand (isText value)
  | "format" => demand (isText value || !formats.asserted)
  | "pattern" =>
    match value with
    | .str p => firstInvalidPattern? [p]
    | _ => some (.invalidKeyword keyword)
  | "patternProperties" =>
    match value with
    | .obj table => firstInvalidPattern? (Entries.keys table)
    | _ => some (.invalidKeyword keyword)
  | "allOf" | "anyOf" | "oneOf" => demand value.isArr
  | "properties" | "dependencies" => demand value.isObj
  | _ => none

mutual

/-- Examines a schema and every schema inside it. The result lists the references in it. -/
def examine (formats : Formats) : Json → Except CompileFault (List String)
  | .bool _ => .ok []
  | .obj members =>
    match Entries.get? members "$ref" with
    | some (.str reference) => .ok [reference]
    | some _ => .error (.invalidKeyword "$ref")
    | none => examineKeywords formats members members
  | _ => .error .notASchema

/-- Examines keywords one by one. -/
def examineKeywords (formats : Formats) (siblings : Entries Json) :
    List (String × Json) → Except CompileFault (List String)
  | [] => .ok []
  | (keyword, value) :: rest => do
    match keywordFault? formats keyword value with
    | some fault => .error fault
    | none =>
      let here ← examineUnder formats (holding siblings keyword) value
      let others ← examineKeywords formats siblings rest
      return here ++ others

/-- Examines the schemas in the value of a keyword. -/
def examineUnder (formats : Formats) (h : Holding) : Json → Except CompileFault (List String)
  | .obj members =>
    match h with
    | .one | .oneObject | .oneOrMany =>
      -- this is `examine`, written out for the recursion on the value
      match Entries.get? members "$ref" with
      | some (.str reference) => .ok [reference]
      | some _ => .error (.invalidKeyword "$ref")
      | none => examineKeywords formats members members
    | .table => examineTable formats members
    | .dependencies => examineDependencies formats members
    | _ => .ok []
  | .arr items =>
    match h with
    | .many | .oneOrMany => examineList formats items
    | .one => .error .notASchema
    | _ => .ok []
  | .bool _ => .ok []
  | _ => if h = .one then .error .notASchema else .ok []

/-- Examines a list of schemas. -/
def examineList (formats : Formats) : List Json → Except CompileFault (List String)
  | [] => .ok []
  | a :: as => do
    let here ← examine formats a
    let others ← examineList formats as
    return here ++ others

/-- Examines a table of schemas. -/
def examineTable (formats : Formats) : List (String × Json) → Except CompileFault (List String)
  | [] => .ok []
  | (_, a) :: as => do
    let here ← examine formats a
    let others ← examineTable formats as
    return here ++ others

/-- Examines a table of schemas and lists of names. -/
def examineDependencies (formats : Formats) :
    List (String × Json) → Except CompileFault (List String)
  | [] => .ok []
  | (_, a) :: as => do
    let here ←
      match a with
      | .arr names =>
        if names.all isText then .ok [] else .error (.invalidKeyword "dependencies")
      | schema => examine formats schema
    let others ← examineDependencies formats as
    return here ++ others

end

/-- Examines what is reached by references, those in `pending` and all further ones, leaving out the
ones that are `done`. -/
def examineReached (formats : Formats) (root : Json) :
    (steps : Nat) → (done pending : List String) → Except CompileFault Unit
  | 0, _, _ => .ok ()
  | _ + 1, _, [] => .ok ()
  | steps + 1, done, reference :: pending =>
    if done.contains reference then examineReached formats root steps done pending
    else
      match resolve? root reference with
      | none => .error (.unresolvedReference reference)
      | some target => do
        let more ← examine formats target
        examineReached formats root steps (reference :: done)
          (pending ++ more.filter fun r => !done.contains r)

/-- As many references as there can be to go through: each schema that holds one may be reached by
way of any other. -/
def reachSteps (root : Json) : Nat :=
  (root.size + 1) * (root.size + 1)

/-- What keeps a schema from being compiled: a mistake in it, or something that checking does not
understand. -/
def compileFault? (formats : Formats) (schema : Json) : Option CompileFault :=
  match allViolations .builtin metaSchema schema with
  | violation :: _ => some (.invalid (Pointer.render violation.instancePath))
  | [] =>
    let examined := do
      let references ← examine formats schema
      examineReached formats schema (reachSteps schema) [] references
    match examined with
    | .error fault => some fault
    | .ok () => none

end Draft7

/-- A schema that can be checked against, with the formats that it is checked with. -/
structure Predicate where
  schema : Json
  formats : Draft7.Formats

namespace Predicate

/-- Everything in an instance that violates the schema, in order. -/
def errors (predicate : Predicate) (value : Json) : List SchemaError :=
  (Draft7.allViolations predicate.formats predicate.schema value).map
    (SchemaError.ofViolation predicate.schema)

/-- Whether an instance violates nothing. -/
def accepts (predicate : Predicate) (value : Json) : Bool :=
  (Draft7.allViolations predicate.formats predicate.schema value).isEmpty

theorem accepts_iff (predicate : Predicate) (value : Json) :
    predicate.accepts value = true ↔ predicate.errors value = [] := by
  simp [accepts, errors]

end Predicate

namespace Engine

/-- The name of the engine and its dialect, which artifacts are bound to. -/
def stamp : String := "jsonschema-0.28/draft7"

/-- The predicates of all formats that options bring. They are registered one after the other, the
deserializers after all custom formats, and a later one takes the place of an earlier one of its
name. -/
def formatTable (options : Options) : Entries (String → Bool) :=
  Entries.ofList <|
    options.formats.map (fun f => (f.name, f.accepts)) ++
      options.deserializers.map fun d => (d.format, fun s => (d.read s).isSome)

/-- The formats that options bring. -/
def formats (options : Options) : Draft7.Formats :=
  ⟨Entries.get? (formatTable options), options.settings.validateFormats⟩

/-- Compiles a schema. -/
def compile (options : Options) (schema : Json) : Except CompileFault Predicate :=
  match Draft7.compileFault? (formats options) schema with
  | some fault => .error fault
  | none => .ok ⟨schema, formats options⟩

end Engine

end RequestGate
