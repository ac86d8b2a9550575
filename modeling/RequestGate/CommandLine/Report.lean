import RequestGate.Artifact.Basic

/-!
# Reports on artifacts

What `inspect` shows of an artifact, as text or as a record, and what `compile` shows of the one it
has written.
-/

namespace RequestGate.CommandLine

/-- An operation in a report. -/
structure OperationLine where
  /-- The method in upper case. -/
  method : String
  route : String
  mediaTypes : List String
  parameters : Nat
  variants : Nat
deriving DecidableEq

/-- A report on an artifact. -/
structure Report where
  formatVersion : Nat
  engine : String
  compiledAt : String
  digest : String
  options : Stamp
  operations : List OperationLine
  keys : Nat
  schemas : Nat
deriving DecidableEq

/-- The letters `a` to `z` in upper case. -/
def asciiUpper (s : String) : String :=
  String.ofList (s.toList.map Char.toUpper)

/-- The line of an operation. -/
def OperationLine.ofRecord (r : OperationRecord) : OperationLine :=
  { method := asciiUpper r.method, route := r.route, mediaTypes := r.mediaTypes,
    parameters := r.parameters.length, variants := r.variants.length }

/-- The line as a record. -/
def OperationLine.toJson (line : OperationLine) : Json :=
  .obj
    [("method", .str line.method), ("route", .str line.route),
     ("mediaTypes", Json.ofStrings line.mediaTypes),
     ("parameters", Json.ofInt line.parameters), ("variants", Json.ofInt line.variants)]

/-- A text filled up with blanks to a width. -/
def leftAligned (width : Nat) (s : String) : String :=
  s ++ String.ofList (List.replicate (width - s.length) ' ')

/-- The line as text. -/
def OperationLine.text (line : OperationLine) : String :=
  let body := if line.mediaTypes.isEmpty then "-" else String.intercalate ", " line.mediaTypes
  "  " ++ leftAligned 7 line.method ++ " " ++ line.route ++ " (parameters: " ++
    toString line.parameters ++ ", body: " ++ body ++ ")"

namespace Report

/-- The report on an artifact. -/
def ofArtifact (a : Artifact) : Report :=
  { formatVersion := a.formatVersion, engine := a.engine, compiledAt := a.compiledAt.reportText,
    digest := a.digest, options := a.options,
    operations := a.payload.operations.map OperationLine.ofRecord,
    keys := a.payload.keys.length, schemas := a.payload.schemas.length }

/-- The report as a record. -/
def toJson (r : Report) : Json :=
  .obj
    [("formatVersion", Json.ofInt r.formatVersion), ("engine", .str r.engine),
     ("compiledAt", .str r.compiledAt), ("digest", .str r.digest),
     ("options", r.options.toJson),
     ("operations", .arr (r.operations.map OperationLine.toJson)),
     ("keys", Json.ofInt r.keys), ("schemas", Json.ofInt r.schemas)]

/-- The options in one line. -/
def optionsLine (s : Settings) : String :=
  "  options:     allowUnknownQueryParameters=" ++ toString s.allowUnknownQueryParameters ++
    " removeAdditional=" ++ s.removeAdditional.name ++
    " validateFormats=" ++ toString s.validateFormats

/-- The report as lines of text. -/
def lines (r : Report) : List String :=
  ["  format:      v" ++ toString r.formatVersion,
   "  engine:      " ++ r.engine,
   "  compiled at: " ++ r.compiledAt,
   "  digest:      " ++ r.digest,
   optionsLine r.options.settings] ++
    (if r.options.formats.isEmpty then []
      else ["  formats:     " ++ String.intercalate ", " r.options.formats]) ++
    [""] ++ r.operations.map OperationLine.text ++
    ["", "Total: " ++ toString r.operations.length ++ " operations, " ++ toString r.keys ++
      " keys, " ++ toString r.schemas ++ " schemas"]

end Report

/-- What is shown of an artifact that has been written to a path. -/
def summaryLines (path : String) (a : Artifact) : List String :=
  ["  artifact:   " ++ path,
   "  operations: " ++ toString a.payload.operations.length,
   "  keys:       " ++ toString a.payload.keys.length,
   "  schemas:    " ++ toString a.payload.schemas.length,
   "  digest:     " ++ a.digest]

end RequestGate.CommandLine
