import RequestGate.Json.Record

/-!
# Options

`RequestGate.Settings` are the plain settings, which a file can hold. `RequestGate.Options` adds
what only a program can supply: formats of its own and deserializers, which are functions on
strings. A deserializer is a format too, namely that of the strings it can read.
-/

namespace RequestGate

/-- What becomes of members that an object schema does not declare. -/
inductive RemoveAdditional where
  /-- They stay, and the schema decides. -/
  | off
  /-- They go where `additionalProperties` is `false`. -/
  | declared
  /-- They all go. -/
  | all
  /-- They go where `additionalProperties` would refuse them. -/
  | failing
deriving DecidableEq, Inhabited

namespace RemoveAdditional

/-- The mode as a setting. -/
def toJson : RemoveAdditional → Json
  | .off => .bool false
  | .declared => .bool true
  | .all => .str "all"
  | .failing => .str "failing"

/-- The mode's name in a report. -/
def name : RemoveAdditional → String
  | .off => "Off"
  | .declared => "Declared"
  | .all => "All"
  | .failing => "Failing"

end RemoveAdditional

/-- Why settings cannot be read. -/
inductive SettingsFault where
  | shape
  | unknownMode (mode : String)
deriving DecidableEq

/-- The cause in words. -/
def SettingsFault.message : SettingsFault → String
  | .shape => "the settings have an unexpected shape"
  | .unknownMode mode =>
    "removeAdditional must be a boolean, 'all' or 'failing', got '" ++ mode ++ "'"

/-- Reads a mode. -/
def RemoveAdditional.ofJson : Json → Except SettingsFault RemoveAdditional
  | .bool false => .ok .off
  | .bool true => .ok .declared
  | .str "all" => .ok .all
  | .str "failing" => .ok .failing
  | .str mode => .error (.unknownMode mode)
  | _ => .error .shape

/-- The plain settings. -/
structure Settings where
  /-- Whether undeclared query parameters are let through. -/
  allowUnknownQueryParameters : Bool := false
  removeAdditional : RemoveAdditional := .off
  /-- Whether the keyword `format` is checked. -/
  validateFormats : Bool := true
deriving DecidableEq, Inhabited

namespace Settings

/-- The settings as members of a record. -/
def toMembers (s : Settings) : Entries Json :=
  [("allowUnknownQueryParameters", .bool s.allowUnknownQueryParameters),
   ("removeAdditional", s.removeAdditional.toJson), ("validateFormats", .bool s.validateFormats)]

/-- The settings as a record. -/
def toJson (s : Settings) : Json := .obj s.toMembers

/-- The names of the settings, in order. -/
def names : List String :=
  ["allowUnknownQueryParameters", "removeAdditional", "validateFormats"]

/-- Reads a Boolean setting. -/
def readFlag : Json → Except SettingsFault Bool
  | .bool b => .ok b
  | _ => .error .shape

/-- Puts one setting in; other names are ignored. -/
def set (s : Settings) (name : String) (value : Json) : Except SettingsFault Settings :=
  match name with
  | "allowUnknownQueryParameters" => do
    return { s with allowUnknownQueryParameters := ← readFlag value }
  | "removeAdditional" => do return { s with removeAdditional := ← RemoveAdditional.ofJson value }
  | "validateFormats" => do return { s with validateFormats := ← readFlag value }
  | _ => .ok s

/-- Puts settings in one after the other, so that the first fault is the one reported. A setting
that is given twice is a fault. -/
def setAll : Settings → (given : List String) → List (String × Json) →
    Except SettingsFault Settings
  | s, _, [] => .ok s
  | s, given, (name, value) :: rest =>
    if given.contains name && names.contains name then .error .shape
    else do setAll (← s.set name value) (name :: given) rest

/-- Reads settings from a raw record, or from an array of the settings in order. What is missing
keeps its default. -/
def ofJson : Json → Except SettingsFault Settings
  | .obj members => setAll {} [] members
  | .arr items =>
    if names.length < items.length then
      -- the settings are read before the excess is noticed
      (setAll {} [] (names.zip items)).bind fun _ => .error .shape
    else setAll {} [] (names.zip items)
  | _ => .error .shape

end Settings

/-- The kind of value that a format is meant for. Formats are checked on strings alone. -/
inductive FormatType where
  | string
  | number
deriving DecidableEq

/-- A format of the program's own. -/
structure CustomFormat where
  name : String
  type : FormatType
  accepts : String → Bool

/-- A deserializer of the strings of a format. -/
structure Deserializer where
  format : String
  read : String → Option Json

/-- All options of a gate. -/
structure Options where
  settings : Settings := {}
  formats : List CustomFormat := []
  deserializers : List Deserializer := []

/-- What an artifact records of the options it was compiled with. -/
structure Stamp where
  settings : Settings
  /-- The names of all formats, ascending and without repetition. -/
  formats : List String
deriving DecidableEq

namespace Stamp

/-- The stamp as a record. -/
def toJson (stamp : Stamp) : Json :=
  .obj (stamp.settings.toMembers ++ [("formats", Json.ofStrings stamp.formats)])

end Stamp

/-- The strings of a list in ascending order, each once. -/
def sortedDistinct (names : List String) : List String :=
  Entries.keys (names.foldl (fun table name => Entries.insertSorted table name ()) [])

namespace Options

/-- The names of all formats that the options bring, ascending and without repetition. -/
def formatNames (options : Options) : List String :=
  sortedDistinct
    (options.formats.map CustomFormat.name ++ options.deserializers.map Deserializer.format)

/-- The deserializer of a format; the last one registered counts. -/
def deserializer? (options : Options) (format : String) : Option Deserializer :=
  options.deserializers.reverse.find? fun d => d.format == format

/-- What an artifact records of the options. -/
def stamp (options : Options) : Stamp :=
  ⟨options.settings, options.formatNames⟩

end Options

end RequestGate
