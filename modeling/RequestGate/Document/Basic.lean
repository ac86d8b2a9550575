import RequestGate.Error
import RequestGate.Json.Record
import RequestGate.Schema.Normalize
import RequestGate.Schema.Reference

/-!
# OpenAPI documents

A `RequestGate.Document` is an OpenAPI 3 document whose component schemas have been brought to
Draft 7. It is asked for its operations, and for what an operation declares: the parameters, those
of the path included, and the body, all of them with their references resolved.

A reference that leads nowhere is a fault of the operation that has it. It is only noticed when the
operation is used.
-/

namespace RequestGate

/-- The methods that a path may declare operations for. -/
inductive Method where
  | get
  | put
  | post
  | delete
  | options
  | head
  | patch
  | trace
deriving DecidableEq, Inhabited

namespace Method

/-- The name of a method in a document. -/
def name : Method → String
  | .get => "get"
  | .put => "put"
  | .post => "post"
  | .delete => "delete"
  | .options => "options"
  | .head => "head"
  | .patch => "patch"
  | .trace => "trace"

/-- All methods. -/
def all : List Method :=
  [.get, .put, .post, .delete, .options, .head, .patch, .trace]

/-- The method with exactly this name. -/
def ofName? (text : String) : Option Method :=
  all.find? fun m => m.name == text

/-- The method with this name in any case. -/
def ofAnyCase? (text : String) : Option Method :=
  all.find? fun m => Text.eqIgnoreAsciiCase m.name text

@[simp] theorem ofName?_name (m : Method) : ofName? m.name = some m := by
  cases m <;> decide

end Method

/-- A declared operation. -/
structure Operation where
  method : Method
  /-- The route template. -/
  route : String
  /-- The path item that holds the operation. -/
  pathItem : Json
  /-- The declaration itself. -/
  declaration : Json
deriving DecidableEq

/-- An OpenAPI document that can be used. -/
structure Document where
  root : Json
deriving DecidableEq

namespace Document

/-- The version that a document says it is written for, if it can be used. -/
def checkVersion (root : Json) : Except ConfigurationFault Unit :=
  match root.getStr? "openapi" with
  | none => .error .noVersion
  | some version =>
    if Text.startsWith "3.".toList version.toList then .ok ()
    else .error (.unsupportedVersion version)

/-- The document with the schemas among its components normalized. -/
def normalizeComponents : Json → Json
  | .obj members =>
    .obj <| Entries.modify members "components" fun
      | .obj components =>
        .obj <| Entries.modify components "schemas" fun
          | .obj schemas => .obj (Entries.mapValues Schema.normalize schemas)
          | schemas => schemas
      | components => components
  | root => root

/-- The document that a value is. -/
def ofJson (root : Json) : Except ConfigurationFault Document := do
  checkVersion root
  if (root.getObj? "paths").isNone then .error .noPaths
  else return ⟨normalizeComponents root⟩

/-- The components, or an empty object. -/
def components (document : Document) : Json :=
  (document.root.get? "components").getD (.obj [])

/-- The root that the references of schemas are resolved in. -/
def schemaRoot (components : Json) : Json :=
  .obj [("components", components)]

/-! ### Operations -/

/-- The paths, by route template. -/
def paths (document : Document) : Entries Json :=
  (document.root.getObj? "paths").getD []

/-- The operation of a method, in any case, and of exactly this route. -/
def operation? (document : Document) (method route : String) : Option Operation := do
  let pathItem ← Entries.get? document.paths route
  let method ← Method.ofAnyCase? method
  let declaration ← (pathItem.get? method.name).filter Json.isObj
  return { method, route, pathItem, declaration }

/-- The operations of one path. -/
def pathOperations (route : String) (pathItem : Json) : List Operation :=
  ((pathItem.obj?).getD []).filterMap fun (name, declaration) =>
    (Method.ofName? name).bind fun method =>
      if declaration.isObj then some { method, route, pathItem, declaration } else none

/-- All operations, in the order of the document. -/
def operations (document : Document) : List Operation :=
  document.paths.flatMap fun (route, pathItem) => pathOperations route pathItem

/-! ### What an operation declares -/

/-- `dereference` with the number of references that may still be followed. -/
def dereferenceWithin (document : Document) : (hops : Nat) → Json → Except StructuralFault Json
  | 0, _ => .error (.referenceChainTooLong Schema.maxHops)
  | hops + 1, value =>
    match Schema.reference? value with
    | none => .ok value
    | some reference =>
      match Schema.target? document.root reference with
      | some target => dereferenceWithin document hops target
      | none => .error (.danglingReference reference)

/-- What a value stands for, once all references have been followed. -/
def dereference (document : Document) (route : String) (value : Json) : Except GateError Json :=
  (dereferenceWithin document Schema.maxHops value).mapError (.structural route)

/-- The parameters that a path item or an operation declares itself. -/
def ownParameters (document : Document) (route : String) (holder : Json) :
    Except GateError (List Json) :=
  match holder.get? "parameters" with
  | none => .ok []
  | some (.arr parameters) => parameters.mapM (document.dereference route)
  | some _ => .error (.structural route .parametersNotAList)

/-- Sameness of members that may be missing. -/
def sameMember (a b : Json) (key : String) : Bool :=
  match a.get? key, b.get? key with
  | some x, some y => x.same y
  | none, none => true
  | _, _ => false

/-- Whether two declarations are for the same parameter. -/
def sameParameter (a b : Json) : Bool :=
  sameMember a b "name" && sameMember a b "in"

/-- The parameters of an operation: those of the path that the operation does not declare anew, then
its own. -/
def parameters (document : Document) (operation : Operation) : Except GateError (List Json) := do
  let ofPath ← document.ownParameters operation.route operation.pathItem
  let own ← document.ownParameters operation.route operation.declaration
  return (ofPath.filter fun p => !own.any (sameParameter p)) ++ own

/-- The declared body of an operation. -/
def requestBody (document : Document) (operation : Operation) : Except GateError (Option Json) :=
  match operation.declaration.get? "requestBody" with
  | none => .ok none
  | some body => (document.dereference operation.route body).map some

end Document

end RequestGate
