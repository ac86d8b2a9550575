import RequestGate.Json.Basic
import RequestGate.Schema.Coerce
import RequestGate.Yaml.Composer

/-!
# Reading YAML text

A document in YAML is read as a JSON value. Keys are their own text, whatever it may look like. What
a scalar is depends on how it is written: a quoted one or a block is a string; a plain one is `null`,
a Boolean or a number if it has one of their forms, and otherwise a string too. A tag can overrule
that. Decimal numbers with a superfluous zero in front are strings.

The values are raw: they still show repeated keys.
-/

namespace RequestGate.Yaml

/-- How deeply sequences and mappings may be nested. -/
def nestingLimit : Nat := 128

/-! ### Plain scalars -/

/-- Whether a plain scalar is `null`. -/
def isNullText (text : String) : Bool :=
  ["", "~", "null", "Null", "NULL"].contains text

/-- The Boolean that a plain scalar denotes. -/
def boolOf? (text : String) : Option Bool :=
  if ["true", "True", "TRUE"].contains text then some true
  else if ["false", "False", "FALSE"].contains text then some false
  else none

/-- The value of a digit in a base up to 16. -/
def digitValue? (base : Nat) (c : Char) : Option Nat :=
  let value : Option Nat :=
    if '0' ≤ c ∧ c ≤ '9' then some (c.toNat - '0'.toNat)
    else if 'a' ≤ c ∧ c ≤ 'f' then some (c.toNat - 'a'.toNat + 10)
    else if 'A' ≤ c ∧ c ≤ 'F' then some (c.toNat - 'A'.toNat + 10)
    else none
  value.filter (· < base)

/-- The number that digits denote in a base; there must be some. -/
def digitsIn? (base : Nat) : List Char → Option Nat
  | [] => none
  | cs => cs.foldlM (fun n c => (digitValue? base c).map fun d => n * base + d) 0

/-- Whether a scalar has a superfluous zero in front of its digits. -/
def hasLeadingZero (cs : List Char) : Bool :=
  match (Text.splitSign cs).2 with
  | '0' :: d :: rest => Text.allDigits (d :: rest)
  | _ => false

/-- The whole number that a scalar without a sign denotes. -/
def unsignedOf? : List Char → Option Nat
  | '0' :: 'x' :: digits => digitsIn? 16 digits
  | '0' :: 'o' :: digits => digitsIn? 8 digits
  | '0' :: 'b' :: digits => digitsIn? 2 digits
  | digits => digitsIn? 10 digits

/-- The whole number that a plain scalar denotes, if it has one of 128 bits. -/
def intOf? (text : String) : Option Int :=
  let cs := text.toList
  if hasLeadingZero cs then none
  else
    let (negative, digits) := Text.splitSign cs
    (unsignedOf? digits).bind fun n =>
      if negative then (if n ≤ Nat.pow 2 127 then some (-(n : Int)) else none)
      else if n < Nat.pow 2 128 then some n else none

/-- The double that a plain scalar denotes. -/
def floatOf? (text : String) : Option Binary64 :=
  let cs := text.toList
  if hasLeadingZero cs then none
  else
    match cs with
    | '+' :: '+' :: _ | '+' :: '-' :: _ => none
    | '+' :: cs => Schema.readFloat? cs
    | cs => Schema.readFloat? cs

/-- Whether a plain scalar is an infinity or no number, which become `null`. -/
def isUnboundedText (text : String) : Bool :=
  [".inf", ".Inf", ".INF", "+.inf", "+.Inf", "+.INF", "-.inf", "-.Inf", "-.INF", ".nan", ".NaN",
    ".NAN"].contains text

/-- A whole number as a value; `none` if it is out of range. -/
def ofInt? (n : Int) : Option Json :=
  if Number.InRange n then some (Json.ofInt n) else none

/-- The value of a double in a plain scalar. -/
def ofFloatText? (text : String) : Option Json :=
  if isUnboundedText text then some .null else (floatOf? text).map fun x => .num (.float x)

/-- The value of a plain scalar. -/
def ofPlain? (text : String) : Option Json :=
  if isNullText text then some .null
  else
    match boolOf? text, intOf? text, ofFloatText? text with
    | some b, _, _ => some (.bool b)
    | none, some n, _ => ofInt? n
    | none, none, some value => some value
    | none, none, none => some (.str text)

/-! ### Nodes -/

/-- What a tag means. -/
inductive Kind where
  | null
  | bool
  | int
  | float
  /-- The text as it is. -/
  | other
  /-- A type that only the author knows. -/
  | local

/-- The names of the tags with a meaning, after their prefix. -/
def kindOfCore : String → Kind
  | "null" => .null
  | "bool" => .bool
  | "int" => .int
  | "float" => .float
  | _ => .other

/-- What a tag means. -/
def kindOf (tag : String) : Kind :=
  match tag.toList with
  | '!' :: '!' :: name => kindOfCore (String.ofList name)
  | '!' :: '<' :: rest =>
    match Text.dropStart? "tag:yaml.org,2002:".toList rest with
    | some name => kindOfCore (String.ofList name.dropLast)
    | none => if rest.head? == some '!' then .local else .other
  | _ => .local

/-- The value of a scalar with a tag. -/
def ofTagged? (kind : Kind) (text : String) : Option Json :=
  match kind with
  | .null => if text != "" && isNullText text then some .null else none
  | .bool => (boolOf? text).map .bool
  | .int => (intOf? text).bind ofInt?
  | .float => ofFloatText? text
  | .other => some (.str text)
  | .local => none

/-- The value of a scalar. -/
def ofScalar? (tag : Option String) (style : Style) (text : String) : Option Json :=
  match tag with
  | some tag => ofTagged? (kindOf tag) text
  | none => if style = .plain then ofPlain? text else some (.str text)

/-- Whether a collection may have this tag. -/
def allowsTag (tag : Option String) : Bool :=
  match tag.map kindOf with
  | some .local => false
  | _ => true

/-- The key of an entry. -/
def Node.key? : Node → Option String
  | .scalar _ _ text => some text
  | _ => none

mutual

/-- The raw value of a node. -/
def Node.toJson? : Node → Option Json
  | .scalar tag style text => ofScalar? tag style text
  | .sequence tag items =>
    if allowsTag tag then (itemsToJson? items).map .arr else none
  | .mapping tag entries =>
    if allowsTag tag then (entriesToJson? entries).map .obj else none

/-- The raw values of items. -/
def itemsToJson? : List Node → Option (List Json)
  | [] => some []
  | a :: as => do
    let value ← a.toJson?
    return value :: (← itemsToJson? as)

/-- The raw values of entries. -/
def entriesToJson? : List (Node × Node) → Option (List (String × Json))
  | [] => some []
  | (k, a) :: as => do
    let key ← k.key?
    let value ← a.toJson?
    return (key, value) :: (← entriesToJson? as)

end

/-- The raw value of YAML text; `some none` if the text holds no document. -/
def parseRaw? (text : String) : Option (Option Json) := do
  match ← compose? (← tokenize? text) with
  | none => some none
  | some node =>
    let value ← node.toJson?
    if value.depth ≤ nestingLimit then some (some value) else none

end RequestGate.Yaml
