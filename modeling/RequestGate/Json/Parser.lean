import RequestGate.Json.Record
import RequestGate.Text.Basic

/-!
# Reading JSON text

Text is read in two passes. `RequestGate.Json.tokenize?` cuts it into tokens; each step takes at
least one character, so the pass ends with the text. `RequestGate.Json.ofTokens?` then runs once
over the tokens with a stack of the containers that are still open: the stack *is* the nesting, so
the limit on nesting is a limit on its height and no recursion is needed.

What is refused: a control character, an unknown escape or half of a surrogate pair in a string; a
number with a superfluous zero, without digits after the point or the exponent mark, or too large
for a double; anything after the value; containers nested more than
`RequestGate.Json.nestingLimit` deep. A key that is repeated keeps its first place and takes the
last value, except in the raw values of `RequestGate.Json.parseRaw?`.
-/

namespace RequestGate.Json

/-- The pieces of JSON text. -/
inductive Token where
  | openArr
  | closeArr
  | openObj
  | closeObj
  | comma
  | colon
  | str (s : String)
  | atom (value : Json)

/-! ### Strings -/

/-- The value of four hexadecimal digits at the front, and what follows them. -/
def hex4? : List Char → Option (Nat × List Char)
  | a :: b :: c :: d :: rest => do
    let digit (ch : Char) : Option Nat :=
      if '0' ≤ ch ∧ ch ≤ '9' then some (ch.toNat - '0'.toNat)
      else if 'a' ≤ ch ∧ ch ≤ 'f' then some (ch.toNat - 'a'.toNat + 10)
      else if 'A' ≤ ch ∧ ch ≤ 'F' then some (ch.toNat - 'A'.toNat + 10)
      else none
    let a ← digit a
    let b ← digit b
    let c ← digit c
    let d ← digit d
    some (((a * 16 + b) * 16 + c) * 16 + d, rest)
  | _ => none

/-- The character that the escapes after `\u` denote. A high surrogate must be followed by the
escape of a low one. -/
def unicodeEscape? (cs : List Char) : Option (Char × List Char) := do
  let (first, rest) ← hex4? cs
  if 0xDC00 ≤ first ∧ first ≤ 0xDFFF then none
  else if 0xD800 ≤ first ∧ first ≤ 0xDBFF then
    match rest with
    | '\\' :: 'u' :: rest =>
      let (second, rest) ← hex4? rest
      if 0xDC00 ≤ second ∧ second ≤ 0xDFFF then
        some (Char.ofNat (0x10000 + (first - 0xD800) * 0x400 + (second - 0xDC00)), rest)
      else none
    | _ => none
  else some (Char.ofNat first, rest)

/-- The character of a one-letter escape. -/
def simpleEscape? : Char → Option Char
  | '"' => some '"'
  | '\\' => some '\\'
  | '/' => some '/'
  | 'b' => some '\x08'
  | 'f' => some '\x0c'
  | 'n' => some '\n'
  | 'r' => some '\r'
  | 't' => some '\t'
  | _ => none

/-- Reads a string after its opening quote: the characters in reverse and what follows the closing
quote. The fuel bounds the number of characters and escapes. -/
def readStringFuel : Nat → List Char → List Char → Option (List Char × List Char)
  | 0, _, _ => none
  | _ + 1, [], _ => none
  | fuel + 1, c :: rest, done =>
    if c = '"' then some (done, rest)
    else if c = '\\' then
      match rest with
      | 'u' :: rest =>
        match unicodeEscape? rest with
        | some (ch, rest) => readStringFuel fuel rest (ch :: done)
        | none => none
      | e :: rest =>
        match simpleEscape? e with
        | some ch => readStringFuel fuel rest (ch :: done)
        | none => none
      | [] => none
    else if c.toNat < 0x20 then none
    else readStringFuel fuel rest (c :: done)

/-- Reads a string after its opening quote. -/
def readString? (cs : List Char) : Option (String × List Char) :=
  (readStringFuel (cs.length + 1) cs []).map fun (done, rest) =>
    (String.ofList done.reverse, rest)

/-! ### Numbers -/

/-- The parts of a number literal. -/
structure Literal where
  negative : Bool
  whole : List Char
  fraction : Option (List Char)
  exponent : Option Int

/-- The number that a literal denotes. Without fraction and exponent it is a whole number if it is
in range and not the negative zero; otherwise it is the nearest double. -/
def Literal.value? (l : Literal) : Option Number :=
  let float (digits : List Char) (exponent : Int) : Option Number :=
    (Binary64.ofDecimal? l.negative (Text.digitsValue digits) exponent).map .float
  match l.fraction, l.exponent with
  | none, none =>
    let size : Int := Text.digitsValue l.whole
    let n := if l.negative then -size else size
    if Number.InRange n ∧ ¬(l.negative = true ∧ n = 0) then some (.int n) else float l.whole 0
  | fraction, exponent =>
    let digits := fraction.getD []
    float (l.whole ++ digits) (exponent.getD 0 - digits.length)

/-- Takes a minus off the front, if there is one. -/
def splitMinus : List Char → Bool × List Char
  | '-' :: rest => (true, rest)
  | cs => (false, cs)

/-- Reads the digits after the point, if there is one. -/
def readFraction? : List Char → Option (Option (List Char) × List Char)
  | '.' :: after =>
    let digits := after.takeWhile Char.isDigit
    if digits.isEmpty then none else some (some digits, after.dropWhile Char.isDigit)
  | cs => some (none, cs)

/-- Reads the exponent after its mark. -/
def readPower? (cs : List Char) : Option (Option Int × List Char) :=
  let (negative, cs) := Text.splitSign cs
  let digits := cs.takeWhile Char.isDigit
  if digits.isEmpty then none
  else
    let n : Int := Text.digitsValue digits
    some (some (if negative then -n else n), cs.dropWhile Char.isDigit)

/-- Reads the exponent, if there is a mark for it. -/
def readExponent? : List Char → Option (Option Int × List Char)
  | 'e' :: after => readPower? after
  | 'E' :: after => readPower? after
  | cs => some (none, cs)

/-- Reads a number literal at the front of the text. -/
def readLiteral? (cs : List Char) : Option (Literal × List Char) :=
  let (negative, cs) := splitMinus cs
  let whole := cs.takeWhile Char.isDigit
  if whole.isEmpty || (whole.head? == some '0' && whole.length != 1) then none
  else do
    let (fraction, cs) ← readFraction? (cs.dropWhile Char.isDigit)
    let (exponent, rest) ← readExponent? cs
    some (⟨negative, whole, fraction, exponent⟩, rest)

/-! ### Tokens -/

/-- The token at the front of the text, which is not empty and starts with no blank. -/
def nextToken? : List Char → Option (Token × List Char)
  | [] => none
  | '[' :: rest => some (.openArr, rest)
  | ']' :: rest => some (.closeArr, rest)
  | '\x7b' :: rest => some (.openObj, rest)
  | '\x7d' :: rest => some (.closeObj, rest)
  | ',' :: rest => some (.comma, rest)
  | ':' :: rest => some (.colon, rest)
  | '"' :: rest => (readString? rest).map fun (s, rest) => (.str s, rest)
  | 'n' :: 'u' :: 'l' :: 'l' :: rest => some (.atom .null, rest)
  | 't' :: 'r' :: 'u' :: 'e' :: rest => some (.atom (.bool true), rest)
  | 'f' :: 'a' :: 'l' :: 's' :: 'e' :: rest => some (.atom (.bool false), rest)
  | cs => do
    let (literal, rest) ← readLiteral? cs
    let n ← literal.value?
    some (.atom (.num n), rest)

/-- The four characters that may stand between tokens. -/
def isSpace (c : Char) : Bool :=
  c == ' ' || c == '\n' || c == '\t' || c == '\r'

/-- Cuts text into tokens; the fuel bounds their number. -/
def tokenizeFuel : Nat → List Char → List Token → Option (List Token)
  | 0, _, _ => none
  | fuel + 1, cs, done =>
    match cs.dropWhile isSpace with
    | [] => some done.reverse
    | cs =>
      match nextToken? cs with
      | some (token, rest) => tokenizeFuel fuel rest (token :: done)
      | none => none

/-- The tokens of a text. -/
def tokenize? (cs : List Char) : Option (List Token) :=
  tokenizeFuel (cs.length + 1) cs []

/-! ### Structure -/

/-- A container that is still open, with what it holds so far in reverse. -/
inductive Frame where
  | items (done : List Json)
  | members (done : List (String × Json)) (key : String)

/-- What may come next. -/
inductive Expect where
  /-- A value. -/
  | value
  /-- A value, or the end of an array that has just been opened. -/
  | valueOrClose
  /-- A key, or the end of an object that has just been opened, whose members are none yet. -/
  | keyOrClose
  /-- The next key of an object with these members. -/
  | key (done : List (String × Json))
  /-- The colon after a key. -/
  | colon
  /-- A comma or the end of the innermost container, which has just been given this value. -/
  | after (value : Json)

/-- The state between two tokens. -/
structure State where
  stack : List Frame
  expect : Expect

/-- One token further. A key is on the stack from the moment it is read. -/
def State.step (limit : Nat) (state : State) (token : Token) : Option State :=
  let value (v : Json) : Option State := some { state with expect := .after v }
  let opened : Option State :=
    if limit ≤ state.stack.length then none
    else
      match token with
      | .openArr => some ⟨.items [] :: state.stack, .valueOrClose⟩
      | _ => some ⟨state.stack, .keyOrClose⟩
  match state.expect, token with
  | .value, .str s => value (.str s)
  | .value, .atom v => value v
  | .value, .openArr => opened
  | .value, .openObj => opened
  | .valueOrClose, .str s => value (.str s)
  | .valueOrClose, .atom v => value v
  | .valueOrClose, .openArr => opened
  | .valueOrClose, .openObj => opened
  | .valueOrClose, .closeArr =>
    match state.stack with
    | .items _ :: stack => some ⟨stack, .after (.arr [])⟩
    | _ => none
  | .keyOrClose, .str key => some ⟨.members [] key :: state.stack, .colon⟩
  -- without a key the object is not on the stack
  | .keyOrClose, .closeObj => value (.obj [])
  | .key done, .str key => some ⟨.members done key :: state.stack, .colon⟩
  | .colon, .colon => some { state with expect := .value }
  | .after v, .comma =>
    match state.stack with
    | .items done :: stack => some ⟨.items (v :: done) :: stack, .value⟩
    | .members done key :: stack => some ⟨stack, .key ((key, v) :: done)⟩
    | [] => none
  | .after v, .closeArr =>
    match state.stack with
    | .items done :: stack => some ⟨stack, .after (.arr (v :: done).reverse)⟩
    | _ => none
  | .after v, .closeObj =>
    match state.stack with
    | .members done key :: stack => some ⟨stack, .after (.obj ((key, v) :: done).reverse)⟩
    | _ => none
  | _, _ => none

/-- The raw value of a list of tokens, with at most `limit` containers open at a time. -/
def ofTokens? (limit : Nat) (tokens : List Token) : Option Json :=
  match tokens.foldlM (State.step limit) ⟨[], .value⟩ with
  | some ⟨[], .after v⟩ => some v
  | _ => none

/-- How deeply arrays and objects may be nested in text. -/
def nestingLimit : Nat := 127

/-- The raw value of JSON text with containers nested at most `limit` deep. -/
def parseRawWithin? (limit : Nat) (text : String) : Option Json :=
  (tokenize? text.toList).bind (ofTokens? limit)

/-- The raw value of JSON text, which still shows repeated keys. -/
def parseRaw? (text : String) : Option Json :=
  parseRawWithin? nestingLimit text

/-- The value of JSON text. -/
def parse? (text : String) : Option Json :=
  (parseRaw? text).map collapse

end RequestGate.Json
