import RequestGate.Text.Alphanumeric

/-!
# Regular patterns

A `RequestGate.Pattern` is matched by the set of places where it can end: `RequestGate.Pattern.ends`
maps a place in a text to all places up to which the pattern can reach from there. Sequences compose
these maps, alternatives join them, and a repetition takes a closure, which is finite because there
are only so many places. No order of preference among matches is kept, since only the existence of a
match is ever asked for.

A pattern matches a text if it does so somewhere in it; only anchors tie it to the ends.
-/

namespace RequestGate

/-- A set of characters. -/
inductive CharSet where
  | none
  | range (first last : Char)
  | union (a b : CharSet)
  | compl (a : CharSet)

namespace CharSet

/-- Whether a character is in the set. -/
def contains : CharSet → Char → Bool
  | .none, _ => false
  | .range first last, c => decide (first ≤ c) && decide (c ≤ last)
  | .union a b, c => a.contains c || b.contains c
  | .compl a, c => !a.contains c

/-- The set of one character. -/
def single (c : Char) : CharSet := .range c c

/-- The union of a list of sets. -/
def ofList (sets : List CharSet) : CharSet :=
  sets.foldr .union .none

/-- The digits `0` to `9`. -/
def digits : CharSet := .range '0' '9'

/-- Letters and digits of ASCII, and the underscore. -/
def wordChars : CharSet :=
  ofList [.range 'a' 'z', .range 'A' 'Z', digits, single '_']

/-- The blanks that `\s` stands for. -/
def blanks : CharSet :=
  ofList ([' ', '\t', '\n', '\r', '\x0b', '\x0c', '\u00a0', '\ufeff', '\u2003', '\u2029'].map single)

/-- Everything but a line feed. -/
def notNewline : CharSet := .compl (single '\n')

end CharSet

/-- A regular pattern. -/
inductive Pattern where
  | empty
  | char (set : CharSet)
  /-- The start of the text. -/
  | start
  /-- The end of the text. -/
  | stop
  /-- A place with a word character on exactly one side, or if `negated` any other place. -/
  | boundary (negated : Bool)
  | seq (a b : Pattern)
  | alt (a b : Pattern)
  /-- At least `least` and at most `most` times. -/
  | repeat (a : Pattern) (least : Nat) (most : Option Nat)
  /-- A place that `a` matches from, or if `behind` up to; or if `negated` any other place. -/
  | look (behind negated : Bool) (a : Pattern)

namespace Pattern

/-- Whether a character belongs to a word at a word boundary. -/
def isWordChar (c : Char) : Bool :=
  c == '_' || Text.isAlphanumeric c

/-- Whether a place lies between a word character and something else. -/
def isBoundary (text : Array Char) (i : Nat) : Bool :=
  let before := match i with
    | 0 => false
    | j + 1 => text[j]?.any isWordChar
  let after := text[i]?.any isWordChar
  before != after

/-- The places reached by one step from any of the given places, each once. -/
def advance (step : Nat → List Nat) (places : List Nat) : List Nat :=
  (places.flatMap step).eraseDups

/-- The places reached by exactly `n` steps. -/
def steps (step : Nat → List Nat) : Nat → List Nat → List Nat
  | 0, places => places
  | n + 1, places => steps step n (advance step places)

/-- The places reached by at most `n` steps more, where `seen` has been reached already and `latest`
are those of it whose own steps have not been taken. -/
def closure (step : Nat → List Nat) : Nat → (seen latest : List Nat) → List Nat
  | 0, seen, _ => seen
  | n + 1, seen, latest =>
    let more := (advance step latest).filter fun i => !seen.contains i
    if more.isEmpty then seen else closure step n (seen ++ more) more

/-- The places where the pattern can end if it starts at place `i` of the text. -/
def ends (text : Array Char) : Pattern → Nat → List Nat
  | .empty, i => [i]
  | .char set, i =>
    match text[i]? with
    | some c => if set.contains c then [i + 1] else []
    | none => []
  | .start, i => if i = 0 then [i] else []
  | .stop, i => if i = text.size then [i] else []
  | .boundary negated, i => if isBoundary text i != negated then [i] else []
  | .seq a b, i => advance (b.ends text) (a.ends text i)
  | .alt a b, i => (a.ends text i ++ b.ends text i).eraseDups
  | .repeat a least most, i =>
    let required := steps (a.ends text) least [i]
    match most with
    -- no more rounds than there are places in the text
    | none => closure (a.ends text) (text.size + 1) required required
    | some most => closure (a.ends text) (most - least) required required
  | .look behind negated a, i =>
    let found :=
      if behind then (List.range (i + 1)).any fun j => (a.ends text j).contains i
      else !(a.ends text i).isEmpty
    if found != negated then [i] else []

/-- Whether the pattern matches somewhere in the text. -/
def matchesIn (p : Pattern) (text : String) : Bool :=
  let chars := text.toList.toArray
  (List.range (chars.size + 1)).any fun i => !(p.ends chars i).isEmpty

/-- The pattern of a list, one after the other. -/
def ofList (items : List Pattern) : Pattern :=
  match items with
  | [] => .empty
  | [p] => p
  | p :: rest => .seq p (ofList rest)

/-- The pattern of several alternatives. -/
def ofAlternatives (items : List Pattern) : Pattern :=
  match items with
  | [] => .empty
  | [p] => p
  | p :: rest => .alt p (ofAlternatives rest)

end Pattern

end RequestGate
