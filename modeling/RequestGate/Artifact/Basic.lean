import RequestGate.Draft7.Compile
import RequestGate.Json.Parser
import RequestGate.Operation.RequestSchema
import RequestGate.Parameter.Basic
import RequestGate.Timestamp

/-!
# Compiled artifacts

A `RequestGate.Artifact` is a document that has been compiled ahead of time: all operations, all the
schemas that their requests can be held to, and the components that these refer to. It is one JSON
record. The part that matters is its *payload*, which is sealed by a digest, so that an artifact
which was changed by hand is recognised.

Schemas are kept under their fingerprints, once each. An operation finds its schema in two ways:
by the key of the request among the keys foreseen at compile time, or by the media type that is
selected for its body.
-/

namespace RequestGate

/-- An operation as it is recorded. -/
structure OperationRecord where
  method : String
  route : String
  mediaTypes : List String
  parameters : List Parameter
  /-- The fingerprint of the schema for each selected media type, ascending; the empty one stands for
  an operation without a body. -/
  variants : Entries Fingerprint
deriving DecidableEq

/-- The part of an artifact that its digest seals. All tables have ascending keys. -/
structure Payload where
  components : Json
  operations : List OperationRecord
  /-- The schemas by the digits of their fingerprints. -/
  schemas : Entries RequestSchema
  /-- The fingerprints by the texts of the keys that could be foreseen. -/
  keys : Entries Fingerprint
deriving DecidableEq

/-- A compiled artifact. -/
structure Artifact where
  formatVersion : Nat
  engine : String
  compiledAt : Timestamp
  /-- The options it was compiled with. -/
  options : Stamp
  payload : Payload
  digest : String
deriving DecidableEq

/-! ### Writing -/

/-- A table of fingerprints as a record. -/
def fingerprintsToJson (table : Entries Fingerprint) : Json :=
  .obj (Entries.mapValues (fun f => Json.str f.hex) table)

/-- The record of an operation. -/
def OperationRecord.toJson (r : OperationRecord) : Json :=
  .obj
    [("method", .str r.method), ("route", .str r.route),
     ("mediaTypes", Json.ofStrings r.mediaTypes),
     ("parameters", .arr (r.parameters.map Parameter.toJson)),
     ("variants", fingerprintsToJson r.variants)]

namespace Payload

/-- The record of a payload. -/
def toJson (p : Payload) : Json :=
  .obj
    [("components", p.components), ("operations", .arr (p.operations.map OperationRecord.toJson)),
     ("schemas", .obj (Entries.mapValues RequestSchema.toJson p.schemas)),
     ("keys", fingerprintsToJson p.keys)]

/-- The seal of a payload. -/
def digest (p : Payload) : String :=
  (Fingerprint.of p.toJson).hex

end Payload

namespace Artifact

/-- The version of the format that is written and read. -/
def version : Nat := 1

/-- The artifact as a record. -/
def toJson (a : Artifact) : Json :=
  .obj
    [("formatVersion", Json.ofInt a.formatVersion), ("engine", .str a.engine),
     ("compiledAt", .str a.compiledAt.text), ("options", a.options.toJson),
     ("payload", a.payload.toJson), ("digest", .str a.digest)]

/-- The artifact as text. -/
def text (a : Artifact) : String := a.toJson.pretty

end Artifact

/-! ### Reading -/

/-- Reads a table, whose keys may stand in any order, as one with ascending keys. -/
def readSorted? {α : Type} (read : Json → Option α) (value : Json) : Option (Entries α) := do
  let entries ← Json.readEntries? read value
  some (entries.foldl (fun table e => Entries.insertSorted table e.1 e.2) [])

/-- Reads a fingerprint. -/
def readFingerprint? (value : Json) : Option Fingerprint :=
  (Json.readStr? value).map Fingerprint.mk

/-- Reads the stamp of the options, none of which may be missing. -/
def Stamp.ofJson? (value : Json) : Option Stamp := do
  match ← Json.readFields? ((Settings.names ++ ["formats"]).map Json.Field.named) value with
  | [some allowUnknownQuery, some removeAdditional, some validateFormats, some formats] =>
    some
      { settings :=
          { allowUnknownQueryParameters := ← Json.readBool? allowUnknownQuery
            removeAdditional := ← (RemoveAdditional.ofJson removeAdditional).toOption
            validateFormats := ← Json.readBool? validateFormats }
        formats := sortedDistinct (← Json.readList? Json.readStr? formats) }
  | _ => none

/-- Reads the record of an operation from a raw value. -/
def OperationRecord.ofJson? (value : Json) : Option OperationRecord := do
  let fields := ["method", "route", "mediaTypes", "parameters", "variants"].map Json.Field.named
  match ← Json.readFields? fields value with
  | [some method, some route, some mediaTypes, some parameters, some variants] =>
    some
      { method := ← Json.readStr? method
        route := ← Json.readStr? route
        mediaTypes := ← Json.readList? Json.readStr? mediaTypes
        parameters := ← Json.readList? Parameter.ofJson? parameters
        variants := ← readSorted? readFingerprint? variants }
  | _ => none

/-- Reads a payload from a raw value. -/
def Payload.ofJson? (value : Json) : Option Payload := do
  let fields := ["components", "operations", "schemas", "keys"].map Json.Field.named
  match ← Json.readFields? fields value with
  | [some components, some operations, some schemas, some keys] =>
    some
      { components := components.collapse
        operations := ← Json.readList? OperationRecord.ofJson? operations
        schemas := ← readSorted? RequestSchema.ofJson? schemas
        keys := ← readSorted? readFingerprint? keys }
  | _ => none

namespace Artifact

/-- Reads a number of the format's versions. -/
def readVersion? : Json → Option Nat
  | .num (.int n) => if 0 ≤ n ∧ n < 4294967296 then some n.toNat else none
  | _ => none

/-- Reads an artifact from a raw value. -/
def ofJson? (value : Json) : Option Artifact := do
  let fields := ["formatVersion", "engine", "compiledAt", "options", "payload", "digest"].map
    Json.Field.named
  match ← Json.readFields? fields value with
  | [some formatVersion, some engine, some compiledAt, some options, some payload, some digest] =>
    some
      { formatVersion := ← readVersion? formatVersion
        engine := ← Json.readStr? engine
        compiledAt := ← (Json.readStr? compiledAt).bind Timestamp.parse?
        options := ← Stamp.ofJson? options
        payload := ← Payload.ofJson? payload
        digest := ← Json.readStr? digest }
  | _ => none

/-- Checks that an artifact is one that this program wrote. -/
def verify (a : Artifact) : Except ArtifactFault Unit :=
  if a.formatVersion ≠ version then .error (.unsupportedVersion a.formatVersion version)
  else if a.engine ≠ Engine.stamp then .error (.foreignEngine a.engine Engine.stamp)
  else if a.payload.digest ≠ a.digest then .error .digestMismatch
  else .ok ()

/-- Reads an artifact from text, and verifies it. -/
def parse (text : String) : Except ArtifactFault Artifact := do
  match (Json.parseRaw? text).bind ofJson? with
  | none => .error (.unparsable "the text is not an artifact")
  | some a =>
    a.verify
    return a

end Artifact

end RequestGate
