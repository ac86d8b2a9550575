import RequestGate.Json.Basic

/-!
# Writing JSON text

`RequestGate.Json.compact` writes a value without blanks, `RequestGate.Json.pretty` with one item
a line and two blanks of indentation. Both keep the order of members and escape in strings exactly
the quote, the backslash and the control characters below the blank.
-/

namespace RequestGate.Json

/-- The last hexadecimal digit of `n`, in lower case. -/
def hexDigit (n : Nat) : Char :=
  let d := n % 16
  if d < 10 then Char.ofNat ('0'.toNat + d) else Char.ofNat ('a'.toNat + d - 10)

/-- A character as it stands in a string. -/
def escapeChar (c : Char) : List Char :=
  if c = '"' then ['\\', '"']
  else if c = '\\' then ['\\', '\\']
  else if c = '\x08' then ['\\', 'b']
  else if c = '\x0c' then ['\\', 'f']
  else if c = '\n' then ['\\', 'n']
  else if c = '\r' then ['\\', 'r']
  else if c = '\t' then ['\\', 't']
  else if c.toNat < 0x20 then ['\\', 'u', '0', '0', hexDigit (c.toNat / 16), hexDigit c.toNat]
  else [c]

/-- A string with its quotes and escapes. -/
def quote (s : String) : String :=
  String.ofList ('"' :: s.toList.flatMap escapeChar ++ ['"'])

mutual

/-- The value without any blank. -/
def compact : Json → String
  | .null => "null"
  | .bool true => "true"
  | .bool false => "false"
  | .num n => n.text
  | .str s => quote s
  | .arr items => "[" ++ String.intercalate "," (compactList items) ++ "]"
  | .obj members => "\x7b" ++ String.intercalate "," (compactMembers members) ++ "\x7d"

/-- The items, each compact. -/
def compactList : List Json → List String
  | [] => []
  | a :: as => compact a :: compactList as

/-- The members, each compact. -/
def compactMembers : List (String × Json) → List String
  | [] => []
  | (k, a) :: as => (quote k ++ ":" ++ compact a) :: compactMembers as

end

/-- Lines in brackets: a line each, indented one level more than the brackets. -/
def block (opening closing indent : String) (lines : List String) : String :=
  match lines with
  | [] => opening ++ closing
  | lines =>
    opening ++ "\n" ++
      String.intercalate ",\n" (lines.map fun line => indent ++ "  " ++ line) ++
      "\n" ++ indent ++ closing

mutual

/-- The value over several lines, in a place that is indented by `indent`. -/
def prettyAt (indent : String) : Json → String
  | .arr items => block "[" "]" indent (prettyList (indent ++ "  ") items)
  | .obj members => block "\x7b" "\x7d" indent (prettyMembers (indent ++ "  ") members)
  | .null => "null"
  | .bool true => "true"
  | .bool false => "false"
  | .num n => n.text
  | .str s => quote s

/-- The items over several lines each. -/
def prettyList (indent : String) : List Json → List String
  | [] => []
  | a :: as => prettyAt indent a :: prettyList indent as

/-- The members over several lines each. -/
def prettyMembers (indent : String) : List (String × Json) → List String
  | [] => []
  | (k, a) :: as => (quote k ++ ": " ++ prettyAt indent a) :: prettyMembers indent as

end

/-- The value over several lines. -/
def pretty (value : Json) : String :=
  prettyAt "" value

end RequestGate.Json
