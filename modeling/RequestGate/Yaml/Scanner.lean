import RequestGate.Yaml.ScalarText

/-!
# The tokens of YAML

Columns and line breaks are turned into tokens that open and close blocks, so that what comes after
needs no columns any more. The difficulty is that a key is only known to be one when the colon after
it is seen. The scanner remembers where a key may have begun, and when the colon comes, it puts the
tokens for the key, and for the block that the key opens, in front of what it has read since.

A key may only begin where the scanner allows it, must stand on one line, and may not be longer than
`RequestGate.Yaml.keyReach` characters. Where a block is continued by a line with nothing but such a
key in it, the colon *has to* come.
-/

namespace RequestGate.Yaml

/-- How a scalar is written. -/
inductive Style where
  | plain
  | quoted
  | block
deriving DecidableEq

/-- The pieces of YAML text. -/
inductive Token where
  | directive
  | documentStart
  | documentEnd
  | blockSequence
  | blockMapping
  | blockEnd
  | flowSequence
  | flowSequenceEnd
  | flowMapping
  | flowMappingEnd
  | entry
  | flowEntry
  | key
  | value
  | alias (name : String)
  | anchor (name : String)
  | tag (name : String)
  | scalar (style : Style) (text : String)
deriving DecidableEq

/-- The longest key that needs no indicator. -/
def keyReach : Nat := 1024

/-- A place where a key may have begun. -/
structure PossibleKey where
  /-- Whether the colon has to come. -/
  required : Bool
  /-- The number of tokens before it. -/
  tokenIndex : Nat
  place : Cursor

/-- The state between two tokens. -/
structure Scanner where
  cursor : Cursor
  /-- The tokens so far, in reverse. -/
  tokens : List Token := []
  /-- The column of the innermost open block, or `-1`. -/
  indent : Int := -1
  /-- The columns of the blocks around it. -/
  indents : List Int := []
  /-- The possible key of the block level or of the innermost flow collection. -/
  possible : Option PossibleKey := none
  /-- Those of the levels around it; there is one for each open flow collection. -/
  outer : List (Option PossibleKey) := []
  /-- Whether a key may begin at the cursor. -/
  keyAllowed : Bool := true

namespace Scanner

/-- Whether a flow collection is open. -/
def inFlow (s : Scanner) : Bool := !s.outer.isEmpty

/-- With one token more. -/
def push (token : Token) (s : Scanner) : Scanner := { s with tokens := token :: s.tokens }

/-- With a token after the first `index` ones. -/
def insertAt (index : Nat) (token : Token) (s : Scanner) : Scanner :=
  { s with tokens := s.tokens.insertIdx (s.tokens.length - index) token }

/-- At another place. -/
def moveTo (c : Cursor) (s : Scanner) : Scanner := { s with cursor := c }

/-- Some characters further. -/
def skip (n : Nat) (s : Scanner) : Scanner := { s with cursor := s.cursor.skip n }

/-- Allows or forbids a key. -/
def allowKey (allowed : Bool) (s : Scanner) : Scanner := { s with keyAllowed := allowed }

/-! ### Blocks and keys -/

/-- Closes all blocks that begin right of a column. -/
def unrollTo (column : Int) : List Int → Scanner → Scanner
  | [], s => s
  | outer :: rest, s =>
    if s.indent ≤ column then s
    else unrollTo column rest { s.push .blockEnd with indent := outer, indents := rest }

/-- Closes all blocks that begin right of a column, unless a flow collection is open. -/
def unroll (column : Int) (s : Scanner) : Scanner :=
  if s.inFlow then s else unrollTo column s.indents s

/-- Opens a block at a column, if it is right of the innermost one. The token goes after the first
`index` ones. -/
def roll (column index : Nat) (token : Token) (s : Scanner) : Scanner :=
  if s.inFlow || (column : Int) ≤ s.indent then s
  else { s.insertAt index token with indent := column, indents := s.indent :: s.indents }

/-- Opens a block at the cursor. -/
def rollHere (token : Token) (s : Scanner) : Scanner :=
  s.roll s.cursor.column s.tokens.length token

/-- Gives up the possible key; `none` if it had to become one. -/
def dropKey (s : Scanner) : Option Scanner :=
  if s.possible.any (·.required) then none else some { s with possible := none }

/-- A possible key begins at the cursor, if it may. -/
def saveKey (s : Scanner) : Option Scanner :=
  if s.keyAllowed then do
    -- at the column of its block nothing but a key can stand
    let required := !s.inFlow && s.indent == (s.cursor.column : Int)
    let s ← s.dropKey
    some { s with possible := some ⟨required, s.tokens.length, s.cursor⟩ }
  else some s

/-- Whether a possible key has got too long, or has been left on another line. -/
def isStale (c : Cursor) (key : PossibleKey) : Bool :=
  key.place.line < c.line || key.place.index + keyReach < c.index

/-- Gives up a possible key that has become impossible. -/
def refreshKey (c : Cursor) (key : Option PossibleKey) : Option (Option PossibleKey) :=
  match key with
  | some k => if isStale c k then (if k.required then none else some none) else some (some k)
  | none => some none

/-- Gives up all possible keys that have become impossible. -/
def dropStale (s : Scanner) : Option Scanner := do
  let possible ← refreshKey s.cursor s.possible
  let outer ← s.outer.mapM (refreshKey s.cursor)
  some { s with possible, outer }

/-! ### Single tokens -/

/-- Skips blanks, comments and line breaks before a token. -/
def skipToToken : Nat → Scanner → Scanner
  | 0, s => s
  | n + 1, s =>
    match s.cursor.peek? with
    | some ch =>
      -- a tab may not stand where a key of a block may begin
      if ch == ' ' || (ch == '\t' && (s.inFlow || !s.keyAllowed)) then skipToToken n (s.skip 1)
      else if ch == '#' then skipToToken n (s.moveTo (s.cursor.skipWhile fun _ => true))
      else if isBreak ch then
        skipToToken n ((s.skip 1).allowKey (s.keyAllowed || !s.inFlow))
      else s
    | none => s

/-- A directive: the rest of its line. -/
def fetchDirective (s : Scanner) : Option Scanner := do
  let s ← (s.unroll (-1)).dropKey
  some (((s.moveTo (s.cursor.skipWhile fun _ => true)).push .directive).allowKey false)

/-- The mark of the start or the end of a document. -/
def fetchMarker (token : Token) (s : Scanner) : Option Scanner := do
  let s ← (s.unroll (-1)).dropKey
  some (((s.skip 3).push token).allowKey false)

/-- The start of a flow collection. -/
def fetchFlowStart (token : Token) (s : Scanner) : Option Scanner := do
  let s ← s.saveKey
  let s := { s with outer := s.possible :: s.outer, possible := none }
  some (((s.skip 1).push token).allowKey true)

/-- The end of a flow collection. -/
def fetchFlowEnd (token : Token) (s : Scanner) : Option Scanner := do
  let s ← s.dropKey
  let s := match s.outer with
    | key :: outer => { s with possible := key, outer }
    | [] => s
  some (((s.skip 1).push token).allowKey false)

/-- The comma in a flow collection. -/
def fetchFlowEntry (s : Scanner) : Option Scanner := do
  let s ← s.dropKey
  some (((s.skip 1).push .flowEntry).allowKey true)

/-- The dash before an item of a block. -/
def fetchEntry (s : Scanner) : Option Scanner := do
  if !s.inFlow && !s.keyAllowed then none
  else
    let s ← (s.rollHere .blockSequence).dropKey
    some (((s.skip 1).push .entry).allowKey true)

/-- The question mark before a key. -/
def fetchKey (s : Scanner) : Option Scanner := do
  if !s.inFlow && !s.keyAllowed then none
  else
    let s ← (s.rollHere .blockMapping).dropKey
    some (((s.skip 1).push .key).allowKey !s.inFlow)

/-- The colon before a value. A possible key becomes one. -/
def fetchValue (s : Scanner) : Option Scanner :=
  match s.possible with
  | some key =>
    -- the token goes before what has been read of the key
    let s := (s.insertAt key.tokenIndex .key).roll key.place.column key.tokenIndex .blockMapping
    some (({ s with possible := none }.skip 1).push .value |>.allowKey false)
  | none =>
    if !s.inFlow && !s.keyAllowed then none
    else
      let s := s.rollHere .blockMapping
      some (((s.skip 1).push .value).allowKey !s.inFlow)

/-- A character of the name of an anchor. -/
def isNameChar (c : Char) : Bool :=
  c.isAlphanum || c == '_' || c == '-'

/-- The name of an anchor, after its indicator. -/
def fetchAnchor (token : String → Token) (s : Scanner) : Option Scanner := do
  let s ← s.saveKey
  let name := (s.cursor.rest.drop 1).takeWhile isNameChar
  let s := s.skip (name.length + 1)
  let ends := s.cursor.atBlank || (s.cursor.peek?.any fun c => isFlowIndicator c ||
    c == '?' || c == ':' || c == '%' || c == '@' || c == '\x60')
  if name.isEmpty || !ends then none
  else some ((s.push (token (String.ofList name))).allowKey false)

/-- A tag, with its indicator. -/
def fetchTag (s : Scanner) : Option Scanner := do
  let s ← s.saveKey
  let name := s.cursor.rest.takeWhile fun c =>
    !isBlank c && !isBreak c && !(s.inFlow && isFlowIndicator c)
  some (((s.skip name.length).push (.tag (String.ofList name))).allowKey false)

/-- A block scalar. -/
def fetchBlockScalar (s : Scanner) : Option Scanner := do
  let s ← s.dropKey
  let (text, c) ← readBlock? s.indent s.cursor
  some (((s.moveTo c).push (.scalar .block text)).allowKey true)

/-- A quoted scalar. -/
def fetchQuoted (quote : Char) (s : Scanner) : Option Scanner := do
  let s ← s.saveKey
  let (text, c) ← readQuoted? quote s.cursor
  some (((s.moveTo c).push (.scalar .quoted text)).allowKey false)

/-- A plain scalar. -/
def fetchPlain (s : Scanner) : Option Scanner := do
  let s ← s.saveKey
  let (text, broken, c) ← readPlain? s.inFlow s.indent s.cursor
  some (((s.moveTo c).push (.scalar .plain text)).allowKey broken)

/-- A character that no plain scalar begins with, unless it is a dash, a question mark or a colon
before other text. -/
def isIndicator (c : Char) : Bool :=
  ['-', '?', ':', ',', '[', ']', '\x7b', '\x7d', '#', '&', '*', '!', '|', '>', '\x27', '"', '%',
    '@', '\x60'].contains c

/-- The token at the cursor, which stands at a character. -/
def fetchAt (ch : Char) (s : Scanner) : Option Scanner :=
  let beforeBlank := startsBlank (s.cursor.rest.drop 1)
  if s.cursor.column == 0 && ch == '%' then s.fetchDirective
  else if s.cursor.atMarker '-' then s.fetchMarker .documentStart
  else if s.cursor.atMarker '.' then s.fetchMarker .documentEnd
  else
    match ch with
    | '[' => s.fetchFlowStart .flowSequence
    | '\x7b' => s.fetchFlowStart .flowMapping
    | ']' => s.fetchFlowEnd .flowSequenceEnd
    | '\x7d' => s.fetchFlowEnd .flowMappingEnd
    | ',' => s.fetchFlowEntry
    | '*' => s.fetchAnchor .alias
    | '&' => s.fetchAnchor .anchor
    | '!' => s.fetchTag
    | '\x27' => s.fetchQuoted ch
    | '"' => s.fetchQuoted ch
    | _ =>
      if ch == '-' && beforeBlank then s.fetchEntry
      else if ch == '?' && (s.inFlow || beforeBlank) then s.fetchKey
      else if ch == ':' && (s.inFlow || beforeBlank) then s.fetchValue
      else if (ch == '|' || ch == '>') && !s.inFlow then s.fetchBlockScalar
      else if isBlank ch then none
      else if !isIndicator ch || ch == '-' || (!s.inFlow && (ch == '?' || ch == ':')) then
        s.fetchPlain
      else none

/-- What is left to do at the end of the text. -/
def finish (s : Scanner) : Option Scanner :=
  (s.unroll (-1)).dropKey

/-- Reads tokens to the end of the text. -/
def run : Nat → Scanner → Option Scanner
  | 0, _ => none
  | fuel + 1, s => do
    let s ← (s.skipToToken (s.cursor.rest.length + 1)).dropStale
    let s := s.unroll s.cursor.column
    match s.cursor.peek? with
    | none => s.finish
    | some ch => run fuel (← s.fetchAt ch)

end Scanner

/-- The tokens of a text. -/
def tokenize? (text : String) : Option (List Token) := do
  let c ← Cursor.start? text
  let s ← Scanner.run (c.rest.length + 1) { cursor := c }
  some s.tokens.reverse

end RequestGate.Yaml
