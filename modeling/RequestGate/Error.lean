import RequestGate.Digest.Canonical
import RequestGate.Operation.Key
import RequestGate.Request.Location

/-!
# Everything that can go wrong

`RequestGate.GateError` has one constructor for each party that is at fault: the configuration, the
declaration of an operation, the request, a compiled artifact, or the file system. Within each, the
cause is a value of its own type; the wording stands in one function per type.

Only a `RequestGate.Rejection` is expected in daily traffic. It lists what is wrong with a request,
item by item, and is answered with the status 400; everything else is a 500.
-/

namespace RequestGate

/-! ### Rejections -/

/-- One thing that is wrong with a request. -/
structure RejectionItem where
  /-- Where in the request, such as `.path.petId`. -/
  path : String
  /-- What is wrong, in short. -/
  message : String
  /-- What is wrong and where, as a whole sentence. -/
  fullMessage : Option String
  /-- A code for programs. -/
  errorCode : Option String
deriving DecidableEq

namespace RejectionItem

/-- An item with no more than a place and a message. -/
def brief (path message : String) : RejectionItem := ⟨path, message, none, none⟩

/-- The item as a sentence. -/
def text (item : RejectionItem) : String :=
  item.fullMessage.getD (item.path ++ ": " ++ item.message)

/-- The item as a record. -/
def toJson (item : RejectionItem) : Json :=
  .obj <|
    [("path", .str item.path), ("message", .str item.message)] ++
      (match item.fullMessage with
        | some m => [("fullMessage", Json.str m)]
        | none => []) ++
      (match item.errorCode with
        | some c => [("errorCode", Json.str c)]
        | none => [])

end RejectionItem

/-- The refusal of a request. -/
structure Rejection where
  /-- The route that the request was matched to. -/
  route : String
  /-- All items in one line. -/
  summary : String
  items : List RejectionItem
deriving DecidableEq

namespace Rejection

/-- The status of every rejection. -/
def status : Nat := 400

/-- A rejection whose summary joins the given parts. -/
def ofParts (route : String) (parts : List String) (items : List RejectionItem) : Rejection :=
  ⟨route, String.intercalate ", " parts, items⟩

/-- A rejection whose summary joins the messages of its items. -/
def ofItems (route : String) (items : List RejectionItem) : Rejection :=
  ofParts route (items.map RejectionItem.message) items

/-- The rejection as a sentence. -/
def text (rejection : Rejection) : String :=
  "Bad Request: " ++ rejection.summary

/-- The rejection as a record. -/
def toJson (rejection : Rejection) : Json :=
  .obj
    [("statusCode", Json.ofInt status), ("summaryMessage", .str rejection.summary),
     ("route", .str rejection.route), ("errors", .arr (rejection.items.map RejectionItem.toJson))]

end Rejection

/-! ### Faults of a declaration -/

/-- Why a schema cannot be compiled. -/
inductive CompileFault where
  /-- The schema violates the meta-schema at this place. -/
  | invalid (place : String)
  /-- A value that is neither an object nor a Boolean stands where a schema is needed. -/
  | notASchema
  | unknownType (name : String)
  | unresolvedReference (reference : String)
  | invalidPattern (pattern : String)
  /-- A keyword has a value of a wrong kind. -/
  | invalidKeyword (keyword : String)
deriving DecidableEq

/-- The cause in words. -/
def CompileFault.text : CompileFault → String
  | .invalid place => "the schema is not valid at '" ++ place ++ "'"
  | .notASchema => "a schema must be an object or a boolean"
  | .unknownType name => "unknown type '" ++ name ++ "'"
  | .unresolvedReference reference => "cannot resolve '" ++ reference ++ "'"
  | .invalidPattern pattern => "invalid pattern '" ++ pattern ++ "'"
  | .invalidKeyword keyword => "invalid value of '" ++ keyword ++ "'"

/-- The wording of a failed compilation. -/
def CompileFault.message (fault : CompileFault) : String :=
  "schema compilation failed: " ++ fault.text

/-- Why an operation's declaration cannot be used. -/
inductive StructuralFault where
  | unknownLocation (location parameter : String)
  | noSchema (parameter : String)
  | duplicateParameter (parameter : String) (location : Location)
  | unknownStyle (style parameter : String)
  | parametersNotAList
  | danglingReference (reference : String)
  | referenceChainTooLong (hops : Nat)
  | notCompilable (fault : CompileFault)
  | other (message : String)
deriving DecidableEq

/-- The cause in words. -/
def StructuralFault.message : StructuralFault → String
  | .unknownLocation location parameter =>
    "Parameter 'in' has incorrect value '" ++ location ++ "' for [" ++ parameter ++ "]"
  | .noSchema parameter =>
    "No available parameter in 'schema' or 'content' for [" ++ parameter ++ "]"
  | .duplicateParameter parameter location =>
    "Parameter '" ++ parameter ++ "' is declared more than once in '" ++ location.name ++ "'"
  | .unknownStyle style parameter =>
    "Parameter 'style' has incorrect value '" ++ style ++ "' for [" ++ parameter ++ "]"
  | .parametersNotAList => "'parameters' must be an array"
  | .danglingReference reference => "cannot resolve reference '" ++ reference ++ "'"
  | .referenceChainTooLong hops => "reference chain exceeds " ++ toString hops ++ " hops"
  | .notCompilable fault => fault.message
  | .other message => message

/-! ### Faults of the configuration -/

/-- Why the configuration cannot be used. -/
inductive ConfigurationFault where
  | noVersion
  | unsupportedVersion (version : String)
  | noPaths
  | unreadableDocument (path reason : String)
  | invalidYaml (path reason : String)
  | invalidJson (path reason : String)
  | unreadableOptions (path reason : String)
  | invalidOptions (path reason : String)
  | other (message : String)
deriving DecidableEq

/-- The cause in words. -/
def ConfigurationFault.message : ConfigurationFault → String
  | .noVersion => "document has no 'openapi' version field"
  | .unsupportedVersion version =>
    "unsupported OpenAPI version '" ++ version ++ "', expected 3.x"
  | .noPaths => "document has no 'paths' object"
  | .unreadableDocument path reason => "cannot read specification " ++ path ++ ": " ++ reason
  | .invalidYaml path reason => "invalid YAML in " ++ path ++ ": " ++ reason
  | .invalidJson path reason => "invalid JSON in " ++ path ++ ": " ++ reason
  | .unreadableOptions path reason => "cannot read options file " ++ path ++ ": " ++ reason
  | .invalidOptions path reason => "invalid options file " ++ path ++ ": " ++ reason
  | .other message => message

/-! ### Faults of an artifact -/

/-- Why a compiled artifact cannot be used. -/
inductive ArtifactFault where
  | unreadable (reason : String)
  | unparsable (reason : String)
  | unsupportedVersion (version expected : Nat)
  | foreignEngine (engine expected : String)
  | digestMismatch
  | queryPolicyDiffers (compiled current : Bool)
  | missingFormats (names : List String)
  | schemaNotCompilable (schema : Fingerprint) (fault : CompileFault)
  | noVariant (key : OperationKey)
  | missingSchema (schema : Fingerprint)
  | other (message : String)
deriving DecidableEq

/-- The cause in words. -/
def ArtifactFault.message : ArtifactFault → String
  | .unreadable reason => "cannot read: " ++ reason
  | .unparsable reason => "cannot parse: " ++ reason
  | .unsupportedVersion version expected =>
    "format version " ++ toString version ++ " is not supported, expected " ++ toString expected
  | .foreignEngine engine expected =>
    "compiled for engine '" ++ engine ++ "', this build uses '" ++ expected ++ "'"
  | .digestMismatch => "integrity digest mismatch"
  | .queryPolicyDiffers compiled current =>
    "compiled with allowUnknownQueryParameters=" ++ toString compiled ++ ", options say " ++
      toString current
  | .missingFormats names => "custom formats not supplied: " ++ String.intercalate ", " names
  | .schemaNotCompilable schema fault => "schema " ++ schema.hex ++ ": " ++ fault.message
  | .noVariant key => "no schema variant for key '" ++ key.text ++ "'"
  | .missingSchema schema => "missing schema '" ++ schema.hex ++ "'"
  | .other message => message

/-! ### Errors -/

/-- What can come of an operation instead of its result. -/
inductive GateError where
  | configuration (fault : ConfigurationFault)
  | structural (route : String) (fault : StructuralFault)
  | badRequest (rejection : Rejection)
  | artifact (path : String) (fault : ArtifactFault)
  | io (reason : String)
deriving DecidableEq

namespace GateError

/-- The error as a sentence. -/
def message : GateError → String
  | .configuration fault => "configuration error: " ++ fault.message
  | .structural route fault => "invalid declaration for route " ++ route ++ ": " ++ fault.message
  | .badRequest rejection => rejection.text
  | .artifact path fault => "artifact error for '" ++ path ++ "': " ++ fault.message
  | .io reason => "I/O error: " ++ reason

/-- The status to answer with. -/
def status : GateError → Nat
  | .badRequest _ => Rejection.status
  | _ => 500

end GateError

end RequestGate
