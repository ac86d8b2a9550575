import RequestGate.Document.Basic
import RequestGate.Json.Parser
import RequestGate.Options
import RequestGate.Yaml.Basic

/-!
# Reading documents and settings from files

The extension of a file's name says how it is written: `yaml` and `yml`, exactly so, stand for YAML,
anything else for JSON. A file of settings may hold nothing at all, if it is YAML.
-/

namespace RequestGate

namespace FilePath

/-- The last part of a path; empty if that is no name. -/
def fileName (path : String) : List Char :=
  let parts := (Text.splitOn '/' path.toList).filter fun part => !part.isEmpty && part != ['.']
  let name := parts.getLastD []
  if name == ['.', '.'] then [] else name

/-- The extension of a path: what follows the last dot of the name, unless the name starts there. -/
def extension (path : String) : String :=
  match (Text.splitOn '.' (fileName path)).reverse with
  | _ :: [] :: [] => ""
  | extension :: _ :: _ => String.ofList extension
  | _ => ""

/-- Whether a path says that its file holds YAML. -/
def isYaml (path : String) : Bool :=
  extension path == "yaml" || extension path == "yml"

end FilePath

namespace Document

/-- Reads a document from the text of a file. -/
def parse (path text : String) : Except ConfigurationFault Document :=
  if FilePath.isYaml path then
    match Yaml.parseRaw? text with
    | some value => ofJson (value.getD .null).collapse
    | none => .error (.invalidYaml path "the text is not YAML")
  else
    match Json.parse? text with
    | some value => ofJson value
    | none => .error (.invalidJson path "the text is not JSON")

end Document

namespace Settings

/-- Reads settings from the text of a file. -/
def parse (path text : String) : Except SettingsFault Settings :=
  if FilePath.isYaml path then
    match Yaml.parseRaw? text with
    | some (some value) => ofJson value
    | some none => .ok {}
    | none => .error .shape
  else
    match Json.parseRaw? text with
    | some value => ofJson value
    | none => .error .shape

/-- Reads settings from the text of a file, and says which file is at fault. -/
def parseFile (path text : String) : Except ConfigurationFault Settings :=
  (parse path text).mapError fun fault => .invalidOptions path fault.message

end Settings

end RequestGate
