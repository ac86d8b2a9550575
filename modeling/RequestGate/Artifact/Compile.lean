import RequestGate.Artifact.Basic
import RequestGate.Operation.Plan

/-!
# Compiling a document

`RequestGate.Artifact.compile` goes through all operations of a document, and for each of them
through all content classes that can be foreseen. Every schema that arises is compiled once, to see
whether that succeeds: an artifact holds no schema that is not one. Of several schemas with one
fingerprint the first is kept, and with it the order of its members.
-/

namespace RequestGate.Artifact

/-- What has been collected so far. -/
structure Progress where
  operations : List OperationRecord := []
  schemas : Entries RequestSchema := []
  keys : Entries Fingerprint := []

/-- Adds a schema, unless one with its fingerprint is there. -/
def addSchema (options : Options) (components : Json) (route : String)
    (schemas : Entries RequestSchema) (schema : RequestSchema) :
    Except GateError (Entries RequestSchema) :=
  let hex := schema.fingerprint.hex
  if Entries.contains schemas hex then .ok schemas
  else
    match Engine.compile options (schema.toEngineSchema components) with
    | .ok _ => .ok (Entries.insertSorted schemas hex schema)
    | .error fault => .error (.structural route (.notCompilable fault))

/-- Adds a content class of an operation; the variants are those of the operation so far. -/
def addClass (options : Options) (components : Json) (plan : Plan)
    (state : Progress × Entries Fingerprint) (keyClass : String) :
    Except GateError (Progress × Entries Fingerprint) := do
  let (progress, variants) := state
  let (schema, selected) := plan.schemaFor components (.ofKeyClass keyClass)
  let schemas ← addSchema options components plan.route progress.schemas schema
  let key := OperationKey.ofClass plan.method.name plan.route keyClass
  let keys := Entries.insertSorted progress.keys key.text schema.fingerprint
  return ({ progress with schemas, keys },
    Entries.insertSorted variants (selected.getD "") schema.fingerprint)

/-- Adds an operation. -/
def addOperation (options : Options) (document : Document) (progress : Progress)
    (operation : Operation) : Except GateError Progress := do
  let components := document.components
  let plan ← Plan.assemble document options.settings.allowUnknownQueryParameters operation
  let (progress, variants) ←
    plan.contentClasses.foldlM (addClass options components plan) (progress, [])
  let record : OperationRecord :=
    { method := plan.method.name, route := plan.route, mediaTypes := plan.mediaTypes,
      parameters := plan.parameters, variants }
  return { progress with operations := progress.operations ++ [record] }

/-- The payload of a document. -/
def compilePayload (options : Options) (document : Document) : Except GateError Payload := do
  let progress ← document.operations.foldlM (addOperation options document) {}
  return { components := document.components, operations := progress.operations,
           schemas := progress.schemas, keys := progress.keys }

/-- The artifact of a payload. -/
def sealed (options : Options) (now : Timestamp) (payload : Payload) : Artifact :=
  { formatVersion := version, engine := Engine.stamp, compiledAt := now, options := options.stamp,
    payload, digest := payload.digest }

/-- Compiles a document. -/
def compile (options : Options) (now : Timestamp) (document : Document) :
    Except GateError Artifact := do
  return sealed options now (← compilePayload options document)

/-- A fresh artifact passes verification. -/
theorem verify_sealed (options : Options) (now : Timestamp) (payload : Payload) :
    (sealed options now payload).verify = .ok () := by
  simp [verify, sealed]

end RequestGate.Artifact
