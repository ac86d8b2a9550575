import RequestGate.Operation.Key
import RequestGate.Operation.RequestSchema
import RequestGate.Parameter.Style
import RequestGate.Schema.Defaults
import RequestGate.Schema.Deserialize
import RequestGate.Schema.Prune
import RequestGate.Wording

/-!
# The validator of an operation

A `RequestGate.Validator` holds everything that is needed to judge the requests to one operation
with one class of content types. A request runs through it in fixed stages:

1. the parameters are decoded by their styles;
2. they are coerced to their types, and defaults are filled in, in the body too;
3. undeclared query parameters are refused, then empty ones;
4. undeclared members are removed, as far as the options say so;
5. the whole request is checked against the schema, and all violations are reported together;
6. strings of formats with a deserializer are replaced.
-/

namespace RequestGate

/-- What a validator was made from. -/
inductive Origin where
  /-- A document, on the first request. -/
  | live
  /-- A compiled artifact. -/
  | artifact
deriving DecidableEq

/-- The validator of an operation and a class of content types. -/
structure Validator where
  key : OperationKey
  method : String
  route : String
  contentClass : String
  /-- The declared media type that is selected for the body. -/
  mediaType : Option String
  origin : Origin
  parameters : List Parameter
  schema : RequestSchema
  fingerprint : Fingerprint
  predicate : Predicate

namespace NormalizedRequest

/-- The request with the value of every parameter that is given coerced to its schema. -/
def coerceParameters (root : Json) (parameters : List Parameter) (r : NormalizedRequest) :
    NormalizedRequest :=
  parameters.foldl (fun r p =>
    r.withTable p.location
      (Entries.modify (r.table p.location) p.name (Schema.coerce root p.schema))) r

/-- The body with a function applied to it, if there is one. -/
def mapBody (f : Json → Json) (r : NormalizedRequest) : NormalizedRequest :=
  { r with body := r.body.map f }

/-- The request with the defaults of its parameters and of its body filled in. -/
def applyDefaults (root : Json) (parameters : List Parameter) (bodySchema : Json)
    (r : NormalizedRequest) : NormalizedRequest :=
  (parameters.foldl (fun r p =>
    r.withTable p.location
      (Schema.fillProperty root (Schema.fillDefaults root) (r.table p.location) (p.name, p.schema)))
    r).mapBody (Schema.fillDefaults root bodySchema)

/-- The request with all strings deserialized whose formats have a deserializer. -/
def applyDeserializers (options : Options) (root : Json) (parameters : List Parameter)
    (bodySchema : Json) (r : NormalizedRequest) : NormalizedRequest :=
  (parameters.foldl (fun r p =>
    r.withTable p.location
      (Entries.modify (r.table p.location) p.name (Schema.deserialize options root p.schema)))
    r).mapBody (Schema.deserialize options root bodySchema)

end NormalizedRequest

namespace Validator

/-- The items for undeclared query parameters, unless those are let through. -/
def unknownQueryItems (query : LocationSchema) (r : NormalizedRequest) : List RejectionItem :=
  if query.additionalProperties then []
  else
    ((Entries.keys r.query).filter fun name => !query.declares name).map fun name =>
      .brief (".query." ++ name) ("Unknown query parameter '" ++ name ++ "'")

/-- The items for query parameters that were sent empty and may not be. -/
def emptyQueryItems (query : LocationSchema) (request : Request) : List RejectionItem :=
  ((request.query.getD []).filter fun (name, value) =>
    query.declares name && !query.allowEmptyValue.contains name && value == .str "").map
      fun (name, _) =>
        .brief (".query." ++ name) ("Empty value found for query parameter '" ++ name ++ "'")

/-- Refuses a request for the given items, if there are any. -/
def refuse (route : String) (items : List RejectionItem) : Except GateError Unit :=
  if items.isEmpty then .ok () else .error (.badRequest (.ofItems route items))

/-- The request in the form in which it is judged: decoded, coerced, and with its defaults. -/
def prepare (validator : Validator) (request : Request) : Except GateError NormalizedRequest := do
  let root := validator.predicate.schema
  let decoded ← Style.decode root validator.route validator.parameters request
  return (decoded.coerceParameters root validator.parameters).applyDefaults root
    validator.parameters validator.schema.body.schema

/-- Judges a request, and answers with what is made of it if it is accepted. -/
def validate (validator : Validator) (options : Options) (request : Request) :
    Except GateError NormalizedRequest := do
  let root := validator.predicate.schema
  let query := validator.schema.parameters.query
  let prepared ← validator.prepare request
  refuse validator.route (unknownQueryItems query prepared)
  -- emptiness is judged on what was sent, not on what is made of it
  refuse validator.route (emptyQueryItems query request)
  let instance_ := Schema.prune options.settings.removeAdditional root prepared.toInstance
  match validator.predicate.errors instance_ with
  | [] =>
    return (prepared.replaceFromInstance instance_).applyDeserializers options root
      validator.parameters validator.schema.body.schema
  | errors => .error (.badRequest (.ofErrors validator.route errors))

end Validator

end RequestGate
