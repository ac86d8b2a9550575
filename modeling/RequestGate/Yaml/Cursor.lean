import RequestGate.Text.Basic

/-!
# A cursor in YAML text

In YAML the place of a character matters: structure is shown by columns, and a key must stand on one
line. A `RequestGate.Yaml.Cursor` is what is left of a text together with the place that has been
reached.

Before it is read, a text is made plain: every line ends in a line feed, and a byte order mark at
the front is gone. Control characters make it no YAML text at all.
-/

namespace RequestGate.Yaml

/-- A place in a text and what follows it. -/
structure Cursor where
  rest : List Char
  index : Nat := 0
  line : Nat := 0
  column : Nat := 0

/-- Whether a character may stand in YAML text. -/
def isPrintable (c : Char) : Bool :=
  let n := c.toNat
  n == 0x09 || n == 0x0A || n == 0x0D || (0x20 ≤ n && n ≤ 0x7E) || n == 0x85 ||
    (0xA0 ≤ n && n ≤ 0xFFFD && n != 0xFEFF) || 0x10000 ≤ n

/-- The text with every end of line as one line feed. -/
def plainLines : List Char → List Char
  | [] => []
  | '\r' :: '\n' :: rest => '\n' :: plainLines rest
  | '\r' :: rest => '\n' :: plainLines rest
  | '\u0085' :: rest => '\n' :: plainLines rest
  | c :: rest => c :: plainLines rest

/-- A blank within a line. -/
def isBlank (c : Char) : Bool := c == ' ' || c == '\t'

/-- The end of a line. -/
def isBreak (c : Char) : Bool := c == '\n'

/-- Whether a text starts with a blank or an end of line, or is empty. -/
def startsBlank : List Char → Bool
  | [] => true
  | c :: _ => isBlank c || isBreak c

namespace Cursor

/-- The start of a text; `none` if it holds characters that may not stand there. -/
def start? (text : String) : Option Cursor :=
  let chars := match text.toList with
    | '\uFEFF' :: rest => rest
    | chars => chars
  if chars.all isPrintable then some { rest := plainLines chars } else none

/-- One character further. -/
def next (c : Cursor) : Cursor :=
  match c.rest with
  | [] => c
  | ch :: rest =>
    if isBreak ch then ⟨rest, c.index + 1, c.line + 1, 0⟩
    else ⟨rest, c.index + 1, c.line, c.column + 1⟩

/-- Several characters further. -/
def skip : Nat → Cursor → Cursor
  | 0, c => c
  | n + 1, c => skip n c.next

/-- The character at the cursor. -/
def peek? (c : Cursor) : Option Char := c.rest.head?

/-- Whether the text after the cursor starts with a blank or an end of line, or is empty. -/
def atBlank (c : Cursor) : Bool := startsBlank c.rest

/-- Past all characters of a kind within the line. -/
def skipWhile (p : Char → Bool) (c : Cursor) : Cursor :=
  skip (c.rest.takeWhile fun ch => p ch && !isBreak ch).length c

/-- Whether a line starts here with three of these characters and a blank. -/
def atMarker (mark : Char) (c : Cursor) : Bool :=
  c.column == 0 &&
    match c.rest with
    | a :: b :: d :: rest => a == mark && b == mark && d == mark && startsBlank rest
    | _ => false

/-- Whether the start or the end of a document is marked here. -/
def atDocumentMarker (c : Cursor) : Bool := c.atMarker '-' || c.atMarker '.'

end Cursor

end RequestGate.Yaml
