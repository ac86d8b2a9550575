import RequestGate.CommandLine.Run

/-!
# A world in memory

`RequestGate.World.memory` gives commands a file system that is a mere table, and a clock that stands
still. With it a run of the program is a function from tables to tables. A path leads to a file by
its parts; directories are there as soon as something is in them.
-/

namespace RequestGate

/-- The files of a file system in memory, by path. -/
abbrev FileTable := Entries String

namespace FilePath

/-- The parts of a path, without those that lead nowhere else. -/
def parts (path : String) : List (List Char) :=
  (Text.splitOn '/' path.toList).filter fun part => !part.isEmpty && part != ['.']

/-- The path of parts. -/
def ofParts (parts : List (List Char)) : String :=
  String.ofList (Text.joinWith '/' parts)

/-- The path in the form under which a file is kept; `none` for one that leads elsewhere. -/
def plain? (path : String) : Option String :=
  let parts := parts path
  if path.startsWith "/" || path.endsWith "/" || parts.isEmpty || parts.contains ['.', '.'] then none
  else some (ofParts parts)

/-- The paths of the directories that lead to a file. -/
def parents (path : String) : List String :=
  let parts := parts path
  (List.range parts.length).tail.map fun n => ofParts (parts.take n)

end FilePath

namespace FileTable

/-- The text of a file. -/
def read (files : FileTable) (path : String) : Except String String :=
  match (FilePath.plain? path).bind (Entries.get? files) with
  | some text => .ok text
  | none => .error "no such file"

/-- Whether a path is one of a directory. -/
def isDirectory (files : FileTable) (path : String) : Bool :=
  files.any fun file => (FilePath.parents file.1).contains path

/-- Writes a file. No file may stand where a directory is needed, nor the other way round. -/
def write (files : FileTable) (path text : String) : Except String FileTable :=
  match FilePath.plain? path with
  | none => .error "not a file"
  | some path =>
    if (FilePath.parents path).any (Entries.contains files) then .error "not a directory"
    else if files.isDirectory path then .error "is a directory"
    else .ok (Entries.insert files path text)

/-- The names in the outermost directory, ascending. -/
def names (files : FileTable) : List String :=
  sortedDistinct (files.filterMap fun file => (FilePath.parts file.1).head?.map String.ofList)

end FileTable

namespace World

/-- The world of a table of files at one moment. -/
def memory (time : Timestamp) : World (StateM FileTable) where
  readFile path := do return (← get).read path
  writeFile path text := do
    match (← get).write path text with
    | .ok files =>
      set files
      return .ok ()
    | .error reason => return .error reason
  now := pure time

end World

end RequestGate
