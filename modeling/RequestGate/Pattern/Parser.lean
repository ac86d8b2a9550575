import RequestGate.Pattern.Basic
import RequestGate.Text.Basic

/-!
# Reading patterns

The notation is that of ECMAScript as far as it is regular: characters and escapes, classes, groups,
alternatives, greedy and lazy repetition, anchors, word boundaries, looking ahead and behind.

Left out are back references, flags as in `(?i)`, and classes that are named by a property as in
`\p{L}`. A pattern with one of these may well be valid, but it is refused here like one that is not
well formed, and so a schema that contains it cannot be compiled.

The reader goes through the text once and keeps the groups that are still open on a stack.
-/

namespace RequestGate.Pattern

/-! ### Escapes -/

/-- What an escape stands for. -/
inductive Escape where
  | char (c : Char)
  | set (s : CharSet)
  | boundary (negated : Bool)
  | textStart
  | textStop

/-- The value of a hexadecimal digit. -/
def hexValue? (c : Char) : Option Nat :=
  if '0' ≤ c ∧ c ≤ '9' then some (c.toNat - '0'.toNat)
  else if 'a' ≤ c ∧ c ≤ 'f' then some (c.toNat - 'a'.toNat + 10)
  else if 'A' ≤ c ∧ c ≤ 'F' then some (c.toNat - 'A'.toNat + 10)
  else none

/-- The character with a code point, unless it is a surrogate or out of range. -/
def charOf? (n : Nat) : Option Char :=
  if n.isValidChar then some (Char.ofNat n) else none

/-- Reads a code point of exactly `count` hexadecimal digits, or of any number of them in braces. -/
def readHex? (count : Nat) (cs : List Char) : Option (Char × List Char) :=
  let value (digits : List Char) : Option Char := do
    let n ← digits.foldlM (fun n c => (hexValue? c).map fun d => n * 16 + d) 0
    charOf? n
  match cs with
  | '\x7b' :: rest =>
    let digits := rest.takeWhile (· != '\x7d')
    match rest.dropWhile (· != '\x7d') with
    | _ :: rest => if digits.isEmpty then none else (value digits).map fun c => (c, rest)
    | [] => none
  | cs =>
    if cs.length < count then none
    else (value (cs.take count)).map fun c => (c, cs.drop count)

/-- Reads what stands after a backslash. -/
def readEscape? : List Char → Option (Escape × List Char)
  | [] => none
  | c :: rest =>
    match c with
    | 'd' => some (.set .digits, rest)
    | 'D' => some (.set (.compl .digits), rest)
    | 'w' => some (.set .wordChars, rest)
    | 'W' => some (.set (.compl .wordChars), rest)
    | 's' => some (.set .blanks, rest)
    | 'S' => some (.set (.compl .blanks), rest)
    | 'b' => some (.boundary false, rest)
    | 'B' => some (.boundary true, rest)
    | 'A' => some (.textStart, rest)
    | 'z' => some (.textStop, rest)
    | 'n' => some (.char '\n', rest)
    | 't' => some (.char '\t', rest)
    | 'r' => some (.char '\r', rest)
    | 'f' => some (.char '\x0c', rest)
    | 'v' => some (.char '\x0b', rest)
    | 'a' => some (.char '\x07', rest)
    | 'x' => (readHex? 2 rest).map fun (c, rest) => (.char c, rest)
    | 'u' => (readHex? 4 rest).map fun (c, rest) => (.char c, rest)
    | 'U' => (readHex? 8 rest).map fun (c, rest) => (.char c, rest)
    | 'c' =>
      match rest with
      | l :: rest =>
        if l.isAlpha then some (.char (Char.ofNat (l.toNat % 32)), rest) else none
      | [] => none
    | c =>
      if c.toNat < 0x80 && !c.isAlphanum && c != '<' && c != '>' && 0x20 < c.toNat then
        some (.char c, rest)
      else if c == ' ' then some (.char c, rest)
      else none

/-! ### Classes -/

/-- One item of a class: a character, or a set that cannot be the end of a range. -/
inductive ClassItem where
  | char (c : Char)
  | set (s : CharSet)

/-- Reads one item of a class that is no nested class. -/
def readClassItem? : List Char → Option (ClassItem × List Char)
  | [] => none
  | '\\' :: 'b' :: rest => some (.char '\x08', rest)
  | '\\' :: rest => do
    match ← readEscape? rest with
    | (.char c, rest) => some (.char c, rest)
    | (.set s, rest) => some (.set s, rest)
    | _ => none
  | c :: rest => some (.char c, rest)

/-- A named class such as `alpha`. -/
def namedClass? : String → Option CharSet
  | "alpha" => some (.ofList [.range 'a' 'z', .range 'A' 'Z'])
  | "digit" => some .digits
  | "alnum" => some (.ofList [.range 'a' 'z', .range 'A' 'Z', .digits])
  | "upper" => some (.range 'A' 'Z')
  | "lower" => some (.range 'a' 'z')
  | "space" => some (.ofList ([' ', '\t', '\n', '\r', '\x0b', '\x0c'].map .single))
  | "blank" => some (.ofList ([' ', '\t'].map .single))
  | "punct" => some (.ofList [.range '!' '/', .range ':' '@', .range '[' '\x60', .range '\x7b' '~'])
  | "word" => some .wordChars
  | "xdigit" => some (.ofList [.digits, .range 'a' 'f', .range 'A' 'F'])
  | "cntrl" => some (.ofList [.range '\x00' '\x1f', .single '\x7f'])
  | "graph" => some (.range '!' '~')
  | "print" => some (.range ' ' '~')
  | "ascii" => some (.range '\x00' '\x7f')
  | _ => none

/-- A class that is still open: its items so far, and whether it is negated. -/
structure OpenClass where
  negated : Bool
  items : List CharSet

/-- The set of a class. -/
def OpenClass.close (c : OpenClass) : CharSet :=
  let set := CharSet.ofList c.items
  if c.negated then .compl set else set

/-- Reads the start of a class after its bracket: a negation, and a closing bracket or dashes that
stand for themselves. -/
def openClass (cs : List Char) : OpenClass × List Char :=
  let (negated, cs) := match cs with
    | '^' :: rest => (true, rest)
    | _ => (false, cs)
  let dashes := cs.takeWhile (· == '-')
  let cs := cs.dropWhile (· == '-')
  let dashSets := if dashes.isEmpty then [] else [CharSet.single '-']
  match dashes, cs with
  | [], ']' :: rest => (⟨negated, [.single ']']⟩, rest)
  | _, cs => (⟨negated, dashSets⟩, cs)

/-- Reads a class and the classes nested in it; the fuel bounds the number of items. -/
def readClassFuel : Nat → OpenClass → List OpenClass → List Char → Option (CharSet × List Char)
  | 0, _, _, _ => none
  | fuel + 1, current, outer, cs =>
    let add (s : CharSet) : OpenClass := { current with items := s :: current.items }
    match cs with
    | [] => none
    | ']' :: rest =>
      match outer with
      | [] => some (current.close, rest)
      | parent :: outer =>
        readClassFuel fuel { parent with items := current.close :: parent.items } outer rest
    | '[' :: ':' :: rest =>
      let name := rest.takeWhile (· != ':')
      match rest.dropWhile (· != ':'), name with
      | ':' :: ']' :: rest, '^' :: name =>
        match namedClass? (String.ofList name) with
        | some s => readClassFuel fuel (add (.compl s)) outer rest
        | none => none
      | ':' :: ']' :: rest, name =>
        match namedClass? (String.ofList name) with
        | some s => readClassFuel fuel (add s) outer rest
        | none => none
      | _, _ => none
    | '[' :: rest =>
      let (nested, rest) := openClass rest
      readClassFuel fuel nested (current :: outer) rest
    | cs =>
      match readClassItem? cs with
      | none => none
      | some (.set s, rest) => readClassFuel fuel (add s) outer rest
      | some (.char first, rest) =>
        match rest with
        -- a dash before the end stands for itself
        | '-' :: ']' :: _ => readClassFuel fuel (add (.single first)) outer rest
        | '-' :: '-' :: _ => none
        | '-' :: rest =>
          match readClassItem? rest with
          | some (.char last, rest) =>
            if first ≤ last then readClassFuel fuel (add (.range first last)) outer rest else none
          | _ => none
        | rest => readClassFuel fuel (add (.single first)) outer rest

/-- Reads a class after its opening bracket. -/
def readClass? (cs : List Char) : Option (CharSet × List Char) :=
  let (current, rest) := openClass cs
  readClassFuel (cs.length + 1) current [] rest

/-! ### Groups and repetition -/

/-- What a group is for. -/
inductive GroupKind where
  | plain
  | look (behind negated : Bool)

/-- A group that is still open: its finished alternatives and the items of the current one, both in
reverse. -/
structure OpenGroup where
  kind : GroupKind
  alternatives : List Pattern
  items : List Pattern

/-- The pattern of a group. -/
def OpenGroup.close (g : OpenGroup) : Pattern :=
  let body := ofAlternatives (ofList g.items.reverse :: g.alternatives).reverse
  match g.kind with
  | .plain => body
  | .look behind negated => .look behind negated body

/-- Whether a character may stand in the name of a group. -/
def isNameChar (c : Char) : Bool :=
  c == '_' || c.isAlphanum || c == '.' || c == '[' || c == ']'

/-- Reads the rest of a group's name. -/
def readGroupName? (cs : List Char) : Option (List Char) :=
  let name := cs.takeWhile isNameChar
  match name, cs.dropWhile isNameChar with
  | c :: _, '>' :: rest => if c.isAlpha || c == '_' then some rest else none
  | _, _ => none

/-- Reads the start of a group after its parenthesis. -/
def readGroupStart? : List Char → Option (GroupKind × List Char)
  | '?' :: ':' :: rest => some (.plain, rest)
  | '?' :: '=' :: rest => some (.look false false, rest)
  | '?' :: '!' :: rest => some (.look false true, rest)
  | '?' :: '<' :: '=' :: rest => some (.look true false, rest)
  | '?' :: '<' :: '!' :: rest => some (.look true true, rest)
  | '?' :: '<' :: rest => (readGroupName? rest).map fun rest => (.plain, rest)
  | '?' :: 'P' :: '<' :: rest => (readGroupName? rest).map fun rest => (.plain, rest)
  | '?' :: _ => none
  | rest => some (.plain, rest)

/-- Reads the counts of a repetition after its brace. -/
def readCounts? (cs : List Char) : Option (Nat × Option Nat × List Char) :=
  let low := cs.takeWhile Char.isDigit
  let least := Text.digitsValue low
  match cs.dropWhile Char.isDigit with
  | '\x7d' :: rest => if low.isEmpty then none else some (least, some least, rest)
  | ',' :: rest =>
    let high := rest.takeWhile Char.isDigit
    match rest.dropWhile Char.isDigit with
    | '\x7d' :: rest =>
      if high.isEmpty then (if low.isEmpty then none else some (least, none, rest))
      else
        let most := Text.digitsValue high
        if least ≤ most then some (least, some most, rest) else none
    | _ => none
  | _ => none

/-- Reads a repetition at the front of the text, if there is one: its counts and what follows. A
question mark after it makes it lazy, which changes nothing here. -/
def readRepeat? (cs : List Char) : Option (Option (Nat × Option Nat) × List Char) :=
  let lazy : List Char → List Char
    | '?' :: rest => rest
    | rest => rest
  match cs with
  | '*' :: rest => some (some (0, none), lazy rest)
  | '+' :: rest => some (some (1, none), lazy rest)
  | '?' :: rest => some (some (0, some 1), lazy rest)
  | '\x7b' :: rest =>
    (readCounts? rest).map fun (least, most, rest) => (some (least, most), lazy rest)
  | cs => some (none, cs)

/-- Reads a pattern; the fuel bounds the number of its pieces. -/
def parseFuel : Nat → OpenGroup → List OpenGroup → List Char → Option Pattern
  | 0, _, _, _ => none
  | fuel + 1, group, outer, cs =>
    let add (p : Pattern) (rest : List Char) : Option Pattern :=
      parseFuel fuel { group with items := p :: group.items } outer rest
    match cs with
    | [] => if outer.isEmpty then some group.close else none
    | '(' :: rest =>
      match readGroupStart? rest with
      | some (kind, rest) => parseFuel fuel ⟨kind, [], []⟩ (group :: outer) rest
      | none => none
    | ')' :: rest =>
      match outer with
      | [] => none
      | parent :: outer =>
        parseFuel fuel { parent with items := group.close :: parent.items } outer rest
    | '|' :: rest =>
      parseFuel fuel
        { group with
          alternatives := ofList group.items.reverse :: group.alternatives
          items := [] } outer rest
    | '.' :: rest => add (.char .notNewline) rest
    | '^' :: rest => add .start rest
    | '$' :: rest => add .stop rest
    | '[' :: rest =>
      match readClass? rest with
      | some (set, rest) => add (.char set) rest
      | none => none
    | '\\' :: rest =>
      match readEscape? rest with
      | some (.char c, rest) => add (.char (.single c)) rest
      | some (.set s, rest) => add (.char s) rest
      | some (.boundary negated, rest) => add (.boundary negated) rest
      | some (.textStart, rest) => add .start rest
      | some (.textStop, rest) => add .stop rest
      | none => none
    | c :: rest =>
      match readRepeat? cs with
      | none => none
      | some (none, _) => add (.char (.single c)) rest
      | some (some (least, most), rest) =>
        match group.items with
        | [] => none
        | p :: items =>
          parseFuel fuel { group with items := .repeat p least most :: items } outer rest

/-- The pattern that a text denotes, unless it is not well formed or uses what is left out here. -/
def parse? (text : String) : Option Pattern :=
  parseFuel (text.length + 1) ⟨.plain, [], []⟩ [] text.toList

end RequestGate.Pattern
