import RequestGate.Artifact.Compile
import RequestGate.Artifact.Load
import RequestGate.CommandLine.Arguments
import RequestGate.CommandLine.Report
import RequestGate.Document.Reading

/-!
# Running a command

A command reads files, may write one, and may ask for the time. It does so through a
`RequestGate.World`, in whatever monad that is: in the program it is the file system, and in a proof
or a test it can be a table in memory. Everything else about a command is pure.

A run ends in one of three ways: all is well (`0`), the request is refused (`1`), or the command
could not do its work (`2`).
-/

namespace RequestGate

/-- What a command can do to the world around it. Failures are given in words. -/
structure World (m : Type → Type) where
  readFile : (path : String) → m (Except String String)
  /-- Writes a file, and makes the directories that lead to it. -/
  writeFile : (path text : String) → m (Except String Unit)
  now : m Timestamp

namespace World

variable {m : Type → Type} [Monad m]

/-- The document in a file. -/
def readDocument (world : World m) (path : String) : m (Except GateError Document) := do
  match ← world.readFile path with
  | .error reason => return .error (.configuration (.unreadableDocument path reason))
  | .ok text => return (Document.parse path text).mapError .configuration

/-- The verified artifact in a file. -/
def readArtifact (world : World m) (path : String) : m (Except GateError Artifact) := do
  match ← world.readFile path with
  | .error reason => return .error (.artifact path (.unreadable reason))
  | .ok text => return (Artifact.parse text).mapError (.artifact path)

/-- The settings in a file. -/
def readSettings (world : World m) (path : String) : m (Except GateError Settings) := do
  match ← world.readFile path with
  | .error reason => return .error (.configuration (.unreadableOptions path reason))
  | .ok text => return (Settings.parseFile path text).mapError .configuration

/-- Compiles a document into a file. -/
def compileTo (world : World m) (options : Options) (document : Document) (path : String) :
    m (Except GateError Artifact) := do
  match Artifact.compile options (← world.now) document with
  | .error e => return .error e
  | .ok artifact =>
    match ← world.writeFile path artifact.text with
    | .error reason => return .error (.io reason)
    | .ok () => return .ok artifact

/-- The gate of a document in a file. -/
def openDocument (world : World m) (options : Options) (path : String) :
    m (Except GateError Gate) := do
  return (← world.readDocument path).map (Gate.ofDocument options)

/-- The gate of an artifact in a file. -/
def openArtifact (world : World m) (options : Options) (path : String) :
    m (Except GateError Gate) := do
  match ← world.readArtifact path with
  | .error e => return .error e
  | .ok artifact => return (artifact.load options path).mapError (.artifact path)

end World

namespace CommandLine

/-- How a run ends. -/
structure Outcome where
  exitCode : UInt32
  /-- What is printed, line by line. -/
  output : List String
  /-- What is said on the error channel. -/
  error : Option String
deriving DecidableEq

namespace Outcome

/-- All is well. -/
def ok (output : List String) : Outcome := ⟨0, output, none⟩

/-- The request is refused. -/
def refused (output : List String) : Outcome := ⟨1, output, none⟩

/-- The command could not do its work: what it was about to do, and why that failed. -/
def failed (context cause : String) : Outcome := ⟨2, [], some (context ++ ": " ++ cause)⟩

end Outcome

variable {m : Type → Type} [Monad m] (world : World m)

/-- Reads the request of a check: JSON if it starts with a brace, else the path of a file. -/
def readRequest (raw : String) : m (Except Outcome Request) := do
  let inline := Text.trimStart raw.toList
  let ofText (context text : String) : Except Outcome Request :=
    match (Json.parseRaw? text).bind Request.ofJson? with
    | some request => .ok request
    | none => .error (.failed context "the text is not a request")
  if inline.head? == some '\x7b' then
    return ofText "invalid inline request JSON" (String.ofList inline)
  else
    match ← world.readFile raw with
    | .error reason => return .error (.failed ("failed to read request file: " ++ raw) reason)
    | .ok text => return ofText ("invalid request JSON in " ++ raw) text

/-- Opens what a request is checked against. -/
def openSource (options : Options) : CheckSource → m (Except Outcome Gate)
  | .document path => do
    return (← world.openDocument options path).mapError fun e =>
      .failed ("failed to load document " ++ path) e.message
  | .artifact path => do
    return (← world.openArtifact options path).mapError fun e =>
      .failed ("failed to load artifact " ++ path) e.message

/-- Checks one request. -/
def judge (gate : Gate) (request : Request) : Outcome :=
  match (gate.validate request).1 with
  | .ok normalized => .ok [normalized.toJson.pretty]
  | .error (.badRequest rejection) => .refused [rejection.toJson.pretty]
  | .error e => .failed "request could not be validated" e.message

/-- Runs a command with options that have been read. -/
def runCommand (options : Options) : Command → m Outcome
  | .compile spec out => do
    let result ← match ← world.readDocument spec with
      | .error e => pure (.error e)
      | .ok document => world.compileTo options document out
    match result with
    | .ok artifact => return .ok (summaryLines out artifact)
    | .error e => return .failed ("failed to compile " ++ spec) e.message
  | .check source request => do
    match ← readRequest world request with
    | .error outcome => return outcome
    | .ok request =>
      match ← openSource world options source with
      | .error outcome => return outcome
      | .ok gate => return judge gate request
  | .inspect path asJson => do
    match ← world.readArtifact path with
    | .error e => return .failed ("failed to read artifact " ++ path) e.message
    | .ok artifact =>
      let report := Report.ofArtifact artifact
      return .ok (if asJson then [report.toJson.pretty] else report.lines)

/-- The name and version of the program. -/
def versionLine : String := "oav 0.1.0"

/-- How the program is used. -/
def usageLines : List String :=
  ["Usage: oav [OPTIONS] <COMMAND>",
   "",
   "Commands:",
   "  compile  --spec <SPEC> --out <OUT>",
   "  check    (--spec <SPEC> | --artifact <ARTIFACT>) --request <REQUEST>",
   "  inspect  --artifact <ARTIFACT> [--json]",
   "",
   "Options:",
   "  -v, --verbose...       Say more",
   "      --config <CONFIG>  A file of settings",
   "  -h, --help             Print help",
   "  -V, --version          Print version"]

/-- Runs the program on its arguments. -/
def run (args : List String) : m Outcome := do
  match parse args with
  | .error .help => return .ok usageLines
  | .error .version => return .ok [versionLine]
  | .error .misuse => return ⟨2, [], none⟩
  | .ok invocation =>
    match invocation.config with
    | none => runCommand world {} invocation.command
    | some path =>
      match ← world.readSettings path with
      | .error e => return .failed ("failed to load options from " ++ path) e.message
      | .ok settings => runCommand world { settings } invocation.command

end CommandLine

end RequestGate
