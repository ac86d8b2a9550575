import RequestGate.Schema.Shape
import RequestGate.Text.Basic

/-!
# Coercion

Parameters arrive as text. `RequestGate.Schema.coerce` turns a value towards the types that its
schema declares: a value that has one of them stays as it is, any other becomes the first of them
that it can be converted to, and stays as it is if there is none.

A conversion never loses anything: text becomes a whole number only if it denotes exactly that
number, and an array gives way to its item only if it is the only one.
-/

namespace RequestGate.Schema

/-- The types that a schema declares. -/
def declaredTypes (schema : Json) : List String :=
  match schema.get? "type" with
  | some (.str t) => [t]
  | some (.arr types) => types.filterMap Json.str?
  | _ => []

/-- Whether a value has a type. A whole number may be written with a fraction of zeros. -/
def hasType (value : Json) (type : String) : Bool :=
  match type, value with
  | "string", .str _ => true
  | "boolean", .bool _ => true
  | "null", .null => true
  | "array", .arr _ => true
  | "object", .obj _ => true
  | "number", .num _ => true
  | "integer", .num n => n.isIntegral
  | _, _ => false

/-! ### Numbers from text -/

/-- Reads digits with an optional sign as a whole number. The minus sign is understood only for
numbers that need it, or that a signed word can hold. -/
def readInt? (cs : List Char) : Option Int :=
  let (negative, digits) := Text.splitSign cs
  if digits.isEmpty || !Text.allDigits digits then none
  else
    let n : Int := Text.digitsValue digits
    let n := if negative then -n else n
    if Number.InRange n then some n else none

/-- Reads a decimal with an optional sign, point and exponent; there must be a digit on one side of
the point at least. `none` also for numbers beyond the doubles. -/
def readFloat? (cs : List Char) : Option Binary64 := do
  let (negative, cs) := Text.splitSign cs
  let whole := cs.takeWhile Char.isDigit
  let rest := cs.dropWhile Char.isDigit
  let (fraction, rest) := match rest with
    | '.' :: after => (after.takeWhile Char.isDigit, after.dropWhile Char.isDigit)
    | _ => ([], rest)
  if whole.isEmpty && fraction.isEmpty then none
  else
    let exponent ← match rest with
      | [] => some 0
      | e :: after =>
        if e = 'e' ∨ e = 'E' then
          let (negative, digits) := Text.splitSign after
          if digits.isEmpty || !Text.allDigits digits then none
          else
            let n : Int := Text.digitsValue digits
            some (if negative then -n else n)
        else none
    Binary64.ofDecimal? negative (Text.digitsValue (whole ++ fraction))
      (exponent - fraction.length)

/-- The number that a text denotes. A decimal whose value is whole and below `2 ^ 63` in size is a
whole number. -/
def readNumber? (text : String) : Option Number :=
  match readInt? text.toList with
  | some n => some (.int n)
  | none =>
    (readFloat? text.toList).map fun x =>
      match x.toInt? with
      | some n => if n.natAbs < Nat.pow 2 63 then .int n else .float x
      | none => .float x

/-! ### Conversions -/

/-- Whether a number is written as a whole number. -/
def isWhole : Number → Bool
  | .int _ => true
  | .float _ => false

/-- The number that a scalar converts to. -/
def toNumber? : Json → Option Number
  | .str s => readNumber? s
  | .bool b => some (.int (if b then 1 else 0))
  | .null => some (.int 0)
  | _ => none

/-- Converts a value that is no array to a type. -/
def convertScalar? (type : String) (value : Json) : Option Json :=
  match type with
  | "number" => (toNumber? value).map .num
  | "integer" => ((toNumber? value).filter isWhole).map .num
  | "string" =>
    match value with
    | .num n => some (.str n.text)
    | .bool b => some (.str (if b then "true" else "false"))
    | .null => some (.str "")
    | _ => none
  | "boolean" =>
    match value with
    | .str "true" => some (.bool true)
    | .str "false" => some (.bool false)
    | .num n =>
      if n.eqValue (.int 1) then some (.bool true)
      else if n.isZero then some (.bool false)
      else none
    | .null => some (.bool false)
    | _ => none
  | "null" =>
    match value with
    | .str "" => some .null
    | .num n => if n.isZero then some .null else none
    | .bool false => some .null
    | _ => none
  | "array" =>
    match value with
    | .obj _ => none
    | scalar => some (.arr [scalar])
  | _ => none

mutual

/-- Converts a value to a type. An array of one item converts as that item does. -/
def convert? (type : String) : Json → Option Json
  | .arr items => if type = "array" then none else convertOnly? type items
  | value => convertScalar? type value

/-- Converts the only item of an array. -/
def convertOnly? (type : String) : List Json → Option Json
  | [item] => if hasType item type then some item else convert? type item
  | _ => none

end

/-- The value as one of the types, if it has none of them and can be converted. -/
def coerceTo (types : List String) (value : Json) : Json :=
  if types.any (hasType value) then value
  else (types.findSome? fun t => convert? t value).getD value

/-! ### Coercion towards a schema -/

/-- Applies a function to the members that a schema declares, each with the schema of its
property. -/
def mapDeclared (root schema : Json) (f : Json → Json → Json) (members : Entries Json) :
    Entries Json :=
  let declared := properties root schema
  members.map fun (name, value) =>
    match Entries.get? declared name with
    | some sub => (name, f sub value)
    | none => (name, value)

/-- The schema of the items of an array, if it is given as an object. -/
def itemSchema? (schema : Json) : Option Json :=
  (schema.get? "items").filter Json.isObj

/-- Applies a function to every item, with the schema of the items. -/
def mapItems (schema : Json) (f : Json → Json → Json) (items : List Json) : List Json :=
  match itemSchema? schema with
  | some sub => items.map (f sub)
  | none => items

/-- Applies a function to the declared members or to the items of a value. -/
def mapChildren (root schema : Json) (f : Json → Json → Json) : Json → Json
  | .obj members => .obj (mapDeclared root schema f members)
  | .arr items => .arr (mapItems schema f items)
  | value => value

/-- `coerce` with a bound on the levels visited. -/
def coerceWithin (root : Json) : (levels : Nat) → (schema value : Json) → Json
  | 0, _, value => value
  | levels + 1, schema, value =>
    match resolve root schema with
    | none => value
    | some schema =>
      match shape schema with
      -- each member takes over what the one before has made of the value
      | .allOf members => members.foldl (fun value m => coerceWithin root levels m value) value
      | _ =>
        mapChildren root schema (coerceWithin root levels) (coerceTo (declaredTypes schema) value)

/-- The value turned towards the types of its schema, and everything in it towards theirs. -/
def coerce (root schema value : Json) : Json :=
  coerceWithin root levels schema value

end RequestGate.Schema
