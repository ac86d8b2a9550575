import RequestGate.Artifact.Basic
import RequestGate.Media.Negotiation
import RequestGate.Operation.Plan
import RequestGate.Validator

/-!
# The gate

A `RequestGate.Gate` judges the requests to all operations of a document, or of an artifact. It makes
the validator of an operation when the first request comes that needs it, and keeps it in a slot
under the key of the operation. Two validators with schemas of the same fingerprint share one
predicate, namely the one that was compiled first.

A route or method that is not declared is none of the gate's business: its slot is filled with
`none`, and its requests pass. A validator that cannot be made leaves its slot open and empty, and the
next request tries again.
-/

namespace RequestGate

/-- What the operations of a gate are taken from. -/
inductive Source where
  | document (document : Document)
  /-- An artifact, with the path that its faults are reported under. -/
  | artifact (path : String) (payload : Payload)

namespace Source

/-- The components that schemas refer to. -/
def components : Source → Json
  | .document d => d.components
  | .artifact _ payload => payload.components

end Source

/-- How far the validator for a key has come. -/
inductive CompileState where
  | uncompiled
  | compiling
  | ready
deriving DecidableEq

/-- What can be told of the validator for a key between two calls, when nothing is being compiled. -/
inductive SlotState where
  | uncompiled
  | ready
deriving DecidableEq

/-- The state of a validator that is not being compiled. -/
def SlotState.toCompileState : SlotState → CompileState
  | uncompiled => .uncompiled
  | ready => .ready

/-- The place for the validator of a key. It is opened when the key is asked for, and it is empty until
there is something to put into it. -/
structure Slot where
  /-- What the slot is filled with: the validator, or `none` if the operation is not declared. -/
  entry : Option (Option Validator) := none
  /-- Whether the validator is being built. -/
  compiling : Bool := false

/-- How far the validator of a slot has come. The flag counts only as long as the slot is empty. -/
def Slot.state (slot : Slot) : CompileState :=
  if slot.entry.isSome then .ready
  else if slot.compiling then .compiling
  else .uncompiled

/-- A gate with all that it has compiled so far. -/
structure Gate where
  source : Source
  options : Options
  /-- The slots that have been opened, by the texts of their keys. -/
  slots : Entries Slot := []
  /-- The compiled predicates by the digits of their fingerprints. -/
  predicates : Entries Predicate := []

/-- What a validator is made from, save for its predicate. -/
structure Blueprint where
  method : String
  route : String
  mediaType : Option String
  origin : Origin
  parameters : List Parameter
  schema : RequestSchema
  fingerprint : Fingerprint

namespace Blueprint

/-- The blueprint of a declared operation. -/
def ofOperation (options : Options) (document : Document) (contentType : ContentType)
    (operation : Operation) : Except GateError Blueprint := do
  let plan ← Plan.assemble document options.settings.allowUnknownQueryParameters operation
  let (schema, mediaType) := plan.schemaFor document.components contentType
  return { method := plan.method.name, route := plan.route, mediaType, origin := .live,
           parameters := plan.parameters, schema, fingerprint := schema.fingerprint }

/-- The blueprint of a recorded operation. The key is looked up among those foreseen; for any other,
the selected media type decides. -/
def ofRecord (path : String) (payload : Payload) (key : OperationKey) (contentType : ContentType)
    (record : OperationRecord) : Except GateError Blueprint :=
  let selected := negotiate record.mediaTypes contentType
  let fingerprint? :=
    (Entries.get? payload.keys key.text).or (Entries.get? record.variants (selected.getD ""))
  match fingerprint? with
  | none => .error (.artifact path (.noVariant key))
  | some fingerprint =>
    match Entries.get? payload.schemas fingerprint.hex with
    | none => .error (.artifact path (.missingSchema fingerprint))
    | some schema =>
      .ok { method := record.method, route := record.route, mediaType := selected,
            origin := .artifact, parameters := record.parameters, schema, fingerprint }

/-- The validator that a blueprint and a predicate make. -/
def validator (b : Blueprint) (key : OperationKey) (contentType : ContentType)
    (predicate : Predicate) : Validator :=
  { key, method := b.method, route := b.route, contentClass := contentType.keyClass,
    mediaType := b.mediaType, origin := b.origin, parameters := b.parameters,
    schema := b.schema, fingerprint := b.fingerprint, predicate }

end Blueprint

namespace Payload

/-- The first recorded operation of a method, in any case, and of exactly this route. -/
def operation? (payload : Payload) (method route : String) : Option OperationRecord :=
  payload.operations.find? fun record =>
    Text.eqIgnoreAsciiCase record.method method && record.route == route

end Payload

namespace Gate

/-- A gate that has compiled nothing yet. -/
def ofDocument (options : Options) (document : Document) : Gate :=
  { source := .document document, options }

/-- The blueprint for a request, or `none` if its operation is not declared. -/
def blueprint (gate : Gate) (key : OperationKey) (method route : String)
    (contentType : ContentType) : Except GateError (Option Blueprint) :=
  match gate.source with
  | .document document =>
    match document.operation? method route with
    | none => .ok none
    | some operation =>
      (Blueprint.ofOperation gate.options document contentType operation).map some
  | .artifact path payload =>
    match payload.operation? method route with
    | none => .ok none
    | some record => (Blueprint.ofRecord path payload key contentType record).map some

/-- The predicate of a blueprint: the one that is shared under its fingerprint, or else a new one. -/
def predicateOf (gate : Gate) (b : Blueprint) : Except GateError Predicate :=
  match Entries.get? gate.predicates b.fingerprint.hex with
  | some predicate => .ok predicate
  | none =>
    (Engine.compile gate.options (b.schema.toEngineSchema gate.source.components)).mapError
      fun fault => .structural b.route (.notCompilable fault)

/-- The gate with a predicate filed under a fingerprint. -/
def withPredicate (gate : Gate) (fingerprint : Fingerprint) (predicate : Predicate) : Gate :=
  { gate with predicates := Entries.insert gate.predicates fingerprint.hex predicate }

/-- Builds the validator for a request, or `none` if its operation is not declared. The predicate is
filed as soon as there is one. -/
def build (gate : Gate) (key : OperationKey) (method route : String) (contentType : ContentType) :
    Except GateError (Option Validator) × Gate :=
  match gate.blueprint key method route contentType with
  | .error e => (.error e, gate)
  | .ok none => (.ok none, gate)
  | .ok (some b) =>
    match gate.predicateOf b with
    | .error e => (.error e, gate)
    | .ok predicate =>
      (.ok (some (b.validator key contentType predicate)),
        gate.withPredicate b.fingerprint predicate)

/-! ### Slots -/

/-- The slot under the text of a key. One that has not been opened looks like one that is empty. -/
def slotAt (gate : Gate) (text : String) : Slot :=
  (Entries.get? gate.slots text).getD {}

/-- What the slot under the text of a key is filled with. -/
def entryAt (gate : Gate) (text : String) : Option (Option Validator) :=
  (gate.slotAt text).entry

/-- The gate with another slot for a key. -/
def setSlot (gate : Gate) (key : OperationKey) (slot : Slot) : Gate :=
  { gate with slots := Entries.insert gate.slots key.text slot }

/-- The gate with the slot of a key open. -/
def openSlot (gate : Gate) (key : OperationKey) : Gate :=
  if Entries.contains gate.slots key.text then gate else gate.setSlot key {}

/-- Fills the empty slot of a key. While the validator is being built, the slot says so. If that fails,
the slot is empty again. -/
def fillSlot (gate : Gate) (key : OperationKey) (method route : String)
    (contentType : ContentType) : Except GateError (Option Validator) × Gate :=
  match (gate.setSlot key { compiling := true }).build key method route contentType with
  | (.error e, built) => (.error e, built.setSlot key {})
  | (.ok validator, built) => (.ok validator, built.setSlot key { entry := some validator })

/-- The validator in the slot of a key, which is opened first. An empty slot is filled for the operation
of the method and the route, whether or not the key is theirs. -/
def validatorUnder (gate : Gate) (key : OperationKey) (method route : String)
    (contentType : ContentType) : Except GateError (Option Validator) × Gate :=
  let opened := gate.openSlot key
  match opened.entryAt key.text with
  | some validator => (.ok validator, opened)
  | none => opened.fillSlot key method route contentType

/-- The validator for requests to an operation with a content type, and the gate that has it in its
slot; `none` if the operation is not declared. A fault comes alone: a caller who goes on with the gate
from before will not notice. -/
def validatorFor (gate : Gate) (method route : String) (contentType : ContentType) :
    Except GateError (Option Validator × Gate) :=
  match gate.validatorUnder (.of method route contentType) method route contentType with
  | (.error e, _) => .error e
  | (.ok validator, next) => .ok (validator, next)

/-- Judges a request. -/
def validate (gate : Gate) (request : Request) : Except GateError NormalizedRequest × Gate :=
  let contentType := ContentType.ofHeaders (request.headers.getD [])
  let key := .of request.method request.route contentType
  match gate.validatorUnder key request.method request.route contentType with
  | (.error e, gate) => (.error e, gate)
  | (.ok (some validator), gate) => (validator.validate gate.options request, gate)
  | (.ok none, gate) => (.ok (NormalizedRequest.ofRequest request), gate)

/-! ### What has been compiled -/

/-- How far the validator for a key has come. -/
def compileState (gate : Gate) (key : OperationKey) : CompileState :=
  (gate.slotAt key.text).state

/-- Whether a slot is filled. -/
def slotState (gate : Gate) (key : OperationKey) : SlotState :=
  if gate.compileState key = .ready then .ready else .uncompiled

/-- The validator in a slot. -/
def cached? (gate : Gate) (key : OperationKey) : Option Validator :=
  (gate.entryAt key.text).bind id

/-- The keys of all filled slots, ascending. -/
def cachedKeys (gate : Gate) : List String :=
  sortedDistinct (Entries.keys (gate.slots.filter fun slot => slot.2.entry.isSome))

/-- The number of compiled predicates. -/
def predicateCount (gate : Gate) : Nat :=
  gate.predicates.length

end Gate

end RequestGate
