import RequestGate.Entries
import RequestGate.Text.Basic

/-!
# The arguments of the command line

There are three commands, each with options of its own:

* `compile --spec <file> --out <file>`;
* `check (--spec <file> | --artifact <file>) --request <file or JSON>`;
* `inspect --artifact <file> [--json]`.

Before a command and behind it, `--config <file>` names a file of settings and `-v` asks for more
words. An option is given its value in the next argument or after an equals sign. A value that looks
like an option is none, and no option may be given twice at the same level.

Arguments are read from left to right. What comes first decides: a plea for help before any mistake
is answered with help, a mistake before it is a mistake.
-/

namespace RequestGate.CommandLine

/-- Why there is nothing to run. -/
inductive Halt where
  | help
  | version
  | misuse
deriving DecidableEq

/-- What a request is checked against. -/
inductive CheckSource where
  | document (path : String)
  | artifact (path : String)
deriving DecidableEq

/-- A command with its options. -/
inductive Command where
  | compile (spec out : String)
  | check (source : CheckSource) (request : String)
  | inspect (artifact : String) (asJson : Bool)
deriving DecidableEq

/-- A command with the options that all commands have. -/
structure Invocation where
  config : Option String
  verbosity : Nat
  command : Command
deriving DecidableEq

/-- The options that may be given at one level. -/
structure Level where
  /-- The options with a value. -/
  valued : List String
  /-- The options without one. -/
  flags : List String
  /-- The names of commands. -/
  commands : List String
  /-- Whether the version may be asked for. -/
  hasVersion : Bool

/-- The options before a command. -/
def topLevel : Level := ⟨["config"], [], ["compile", "check", "inspect", "help"], true⟩

/-- The options behind a command. -/
def levelOf? : String → Option Level
  | "compile" => some ⟨["config", "spec", "out"], [], [], false⟩
  | "check" => some ⟨["config", "spec", "artifact", "request"], [], [], false⟩
  | "inspect" => some ⟨["config", "artifact"], ["json"], [], false⟩
  | _ => none

/-- The options with a value that must not be empty. -/
def isPathOption (name : String) : Bool :=
  name != "request"

/-- What has been given at one level. -/
structure Given where
  values : Entries String := []
  flags : List String := []
  verbosity : Nat := 0

/-- Gives an option its value. -/
def Given.setValue (g : Given) (name value : String) : Except Halt Given :=
  if Entries.contains g.values name || (isPathOption name && value.isEmpty) then .error .misuse
  else .ok { g with values := Entries.insert g.values name value }

/-- Sets an option without a value. -/
def Given.setFlag (g : Given) (name : String) : Except Halt Given :=
  if g.flags.contains name then .error .misuse else .ok { g with flags := name :: g.flags }

/-- Reads letters that stand behind one dash. -/
def readLetters (level : Level) : List Char → Given → Except Halt Given
  | [], g => .ok g
  | 'v' :: rest, g => readLetters level rest { g with verbosity := g.verbosity + 1 }
  | 'h' :: _, _ => .error .help
  | 'V' :: _, _ => .error (if level.hasVersion then .version else .misuse)
  | _, _ => .error .misuse

/-- Reads an option behind two dashes. The second part of the result is the option that now waits for
its value. -/
def readLong (level : Level) (body : List Char) (g : Given) :
    Except Halt (Given × Option String) := do
  let (name, attached) := match Text.splitFirst? '=' body with
    | some (name, value) => (String.ofList name, some (String.ofList value))
    | none => (String.ofList body, none)
  if level.valued.contains name then
    match attached with
    | some value => return (← g.setValue name value, none)
    | none => return (g, some name)
  else if attached.isSome then throw .misuse
  else if name == "help" then throw .help
  else if name == "version" && level.hasVersion then throw .version
  else if name == "verbose" then return ({ g with verbosity := g.verbosity + 1 }, none)
  else if level.flags.contains name then return (← g.setFlag name, none)
  else throw .misuse

/-- Reads the arguments of one level, up to a command. The result has the command and what comes
behind it. `pending` is the option that waits for its value. -/
def readLevel (level : Level) : (pending : Option String) → List String → Given →
    Except Halt (Given × Option (String × List String))
  | none, [], g => .ok (g, none)
  | some _, [], _ => .error .misuse
  | some name, arg :: rest, g =>
    match arg.toList with
    -- what looks like an option is no value, though a single dash is one
    | '-' :: _ :: _ => .error .misuse
    | _ => do readLevel level none rest (← g.setValue name arg)
  | none, arg :: rest, g =>
    match arg.toList with
    | ['-', '-'] => if rest.isEmpty then .ok (g, none) else .error .misuse
    | '-' :: '-' :: body => do
      let (g, pending) ← readLong level body g
      readLevel level pending rest g
    | '-' :: letter :: letters => do
      readLevel level none rest (← readLetters level (letter :: letters) g)
    | _ => if level.commands.contains arg then .ok (g, some (arg, rest)) else .error .misuse

/-- The command that the options behind its name amount to. -/
def toCommand (name : String) (g : Given) : Except Halt Command :=
  let value := Entries.get? g.values
  match name with
  | "compile" =>
    match value "spec", value "out" with
    | some spec, some out => .ok (.compile spec out)
    | _, _ => .error .misuse
  | "check" =>
    match value "spec", value "artifact", value "request" with
    | some spec, none, some request => .ok (.check (.document spec) request)
    | none, some artifact, some request => .ok (.check (.artifact artifact) request)
    | _, _, _ => .error .misuse
  | "inspect" =>
    match value "artifact" with
    | some artifact => .ok (.inspect artifact (g.flags.contains "json"))
    | none => .error .misuse
  | _ => .error .misuse

/-- Answers a plea for help about a command. -/
def readHelp : List String → Halt
  | [] => .help
  | name :: _ => if topLevel.commands.contains name then .help else .misuse

/-- Reads all arguments. -/
def parse (args : List String) : Except Halt Invocation := do
  let (outer, command) ← readLevel topLevel none args {}
  match command with
  | none => throw .misuse
  | some (name, rest) =>
    match levelOf? name with
    | none => throw (readHelp rest)
    | some level =>
      let (inner, _) ← readLevel level none rest {}
      -- options behind the command count before those in front of it
      return {
        config := (Entries.get? inner.values "config").or (Entries.get? outer.values "config")
        verbosity := max outer.verbosity inner.verbosity
        command := ← toCommand name inner }

end RequestGate.CommandLine
