import RequestGate.Json.Basic

/-!
# Records in JSON

A record with known fields is written as an object. On reading, unknown members are ignored and no
field may be given twice, be it under its name or under another name that it answers to. A record
may also be given as an array of its fields in order, cut short where the last fields are optional.

Text is read into *raw* values first, which still show repeated keys; `RequestGate.Json.collapse`
turns a raw value into an ordinary one, where the last of several members with one key wins.
-/

namespace RequestGate.Json

mutual

/-- The value without repeated keys: the last value wins, at the place of the first. -/
def collapse : Json → Json
  | .arr items => .arr (collapseList items)
  | .obj members => .obj (Entries.ofList (collapseMembers members))
  | value => value

/-- Every item without repeated keys. -/
def collapseList : List Json → List Json
  | [] => []
  | a :: as => collapse a :: collapseList as

/-- Every member's value without repeated keys. -/
def collapseMembers : List (String × Json) → List (String × Json)
  | [] => []
  | (k, a) :: as => (k, collapse a) :: collapseMembers as

end

/-- A field of a record: its name and the other names it is read under. -/
structure Field where
  name : String
  aliases : List String

namespace Field

/-- A field with one name. -/
def named (name : String) : Field := ⟨name, []⟩

/-- Whether a member with this key gives the field. -/
def answersTo (field : Field) (key : String) : Bool :=
  key == field.name || field.aliases.contains key

end Field

/-- The fields of a record in the order of `fields`, each with its value if it is given. `none` if
the value is no record or gives a field twice. -/
def readFields? (fields : List Field) : Json → Option (List (Option Json))
  | .obj members =>
    fields.mapM fun field =>
      match members.filter fun member => field.answersTo member.1 with
      | [] => some none
      | [member] => some (some member.2)
      | _ => none
  | .arr items =>
    if fields.length < items.length then none
    else some (items.map some ++ List.replicate (fields.length - items.length) none)
  | _ => none

/-- Reads an array item by item. -/
def readList? {α : Type} (read : Json → Option α) : Json → Option (List α)
  | .arr items => items.mapM read
  | _ => none

/-- Reads a string. -/
def readStr? : Json → Option String
  | .str s => some s
  | _ => none

/-- Reads a Boolean. -/
def readBool? : Json → Option Bool
  | .bool b => some b
  | _ => none

/-- Reads an object as a table with values of one kind; repeated keys collapse. -/
def readEntries? {α : Type} (read : Json → Option α) : Json → Option (Entries α)
  | .obj members => do
    let entries ← members.mapM fun member => (read member.2).map fun v => (member.1, v)
    some (Entries.ofList entries)
  | _ => none

/-- A field that may be missing or `null`. -/
def optional? {α : Type} (read : Json → Option α) : Option Json → Option (Option α)
  | none => some none
  | some .null => some none
  | some value => (read value).map some

/-- A field that may be missing and then has the value `default`. -/
def withDefault? {α : Type} (default : α) (read : Json → Option α) : Option Json → Option α
  | none => some default
  | some value => read value

end RequestGate.Json
