import RequestGate.CommandLine.Run
import Std.Time.DateTime.Timestamp

/-!
# The program

The world of the program is the file system and the clock. What is written goes to a staging file
first, so that an artifact is either there as a whole or not at all.
-/

namespace RequestGate

/-- The moment of now. -/
def currentTime : IO Timestamp := do
  let now ← Std.Time.Timestamp.now
  let nanos := now.toNanosecondsSinceUnixEpoch.toInt
  return ⟨nanos.fdiv 1000000000, (nanos.fmod 1000000000).toNat⟩

/-- The directory that a path is in. -/
def directoryOf (path : String) : String :=
  match (Text.splitOn '/' path.toList).dropLast with
  | [] => ""
  | [[]] => "/"
  | parts => String.ofList (Text.joinWith '/' parts)

/-- Writes a file by way of a staging file beside it. -/
def writeStaged (path text : String) : IO Unit := do
  let directory := directoryOf path
  if directory != "" then IO.FS.createDirAll directory
  let staging := path ++ ".staging"
  IO.FS.writeFile staging text
  IO.FS.rename staging path

/-- An action, its failure in words. -/
def attempt {α : Type} (action : IO α) : IO (Except String α) := do
  match ← action.toBaseIO with
  | .ok value => return .ok value
  | .error e => return .error (toString e)

/-- The file system and the clock. -/
def realWorld : World IO where
  readFile path := attempt (IO.FS.readFile path)
  writeFile path text := attempt (writeStaged path text)
  now := currentTime

end RequestGate

/-- Runs the program. -/
def main (args : List String) : IO UInt32 := do
  let outcome ← RequestGate.CommandLine.run RequestGate.realWorld args
  for line in outcome.output do
    IO.println line
  match outcome.error with
  | some text => IO.eprintln ("ERROR " ++ text)
  | none =>
    if outcome.exitCode == 2 then
      for line in RequestGate.CommandLine.usageLines do
        IO.eprintln line
  return outcome.exitCode
