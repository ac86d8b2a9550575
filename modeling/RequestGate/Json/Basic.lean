import RequestGate.Entries
import RequestGate.Number.Shortest

/-!
# JSON values

`RequestGate.Json` is the value type of the whole library: documents, schemas, requests and the
payloads of artifacts are all JSON. Members of objects keep their order, and whole numbers are kept
apart from doubles, because both differences can be seen in what the gate answers.

Three notions of sameness are used, and they are different:

* equality, with the order of members and `1` apart from `1.0`;
* `RequestGate.Json.same`, which forgets the order of members;
* the comparison by value of the schema engine, which lives with the engine.

`RequestGate.Json.WellFormed` says what every value read from text satisfies: no object repeats a
key, and whole numbers lie between `-2 ^ 63` and `2 ^ 64`.
-/

namespace RequestGate

/-- A number: a whole number or a double. -/
inductive Number where
  | int (n : Int)
  | float (x : Binary64)
deriving DecidableEq, Inhabited

/-- A JSON value with ordered members. -/
inductive Json where
  | null
  | bool (b : Bool)
  | num (n : Number)
  | str (s : String)
  | arr (items : List Json)
  | obj (members : List (String × Json))
deriving Inhabited

namespace Number

/-- The least whole number that is written with a sign and digits. -/
def leastInt : Int := -9223372036854775808

/-- The bound above whole numbers. -/
def intBound : Int := 18446744073709551616

/-- Whether a whole number is one that number literals can denote. -/
def InRange (n : Int) : Prop := leastInt ≤ n ∧ n < intBound

instance (n : Int) : Decidable (InRange n) := inferInstanceAs (Decidable (_ ∧ _))

/-- Numerator and positive denominator of the value. -/
def toRatio : Number → Int × Nat
  | .int n => (n, 1)
  | .float x => x.toRatio

/-- Comparison by value. -/
def compareValue (a b : Number) : Ordering :=
  let x := a.toRatio
  let y := b.toRatio
  compare (x.1 * (y.2 : Int)) (y.1 * (x.2 : Int))

/-- Equality by value: `1` and `1.0` are the same, and so are the two zeros. -/
def eqValue (a b : Number) : Bool :=
  a.compareValue b == .eq

/-- Whether the value is a whole number, however it is written. -/
def isIntegral : Number → Bool
  | .int _ => true
  | .float x => x.isIntegral

/-- Whether the value is zero. -/
def isZero : Number → Bool
  | .int n => n == 0
  | .float x => x.isZero

/-- Sameness of numbers that keeps `1` apart from `1.0`. -/
def same : Number → Number → Bool
  | .int a, .int b => a == b
  | .float a, .float b => eqValue (.float a) (.float b)
  | _, _ => false

/-- Doubles in JSON text: positional while the first digit stands between `10 ^ -5` and `10 ^ 15`,
whole ones with `.0`. -/
def jsonFloat : FloatFormat := ⟨-5, 15, ".0", true⟩

/-- Doubles in canonical text: positional between `10 ^ -6` and `10 ^ 20`, and one zero only. -/
def canonicalFloat : FloatFormat := ⟨-6, 20, "", false⟩

/-- The number as JSON text. -/
def text : Number → String
  | .int n => toString n
  | .float x => jsonFloat.render x

/-- The number in canonical text. -/
def canonicalText : Number → String
  | .int n => toString n
  | .float x => canonicalFloat.render x

end Number

namespace Json

/-! ### Equality -/

mutual

/-- Equality as a Boolean function. -/
def beq : Json → Json → Bool
  | .null, .null => true
  | .bool a, .bool b => a == b
  | .num a, .num b => decide (a = b)
  | .str a, .str b => a == b
  | .arr a, .arr b => beqList a b
  | .obj a, .obj b => beqMembers a b
  | _, _ => false

/-- Equality of lists of values. -/
def beqList : List Json → List Json → Bool
  | [], [] => true
  | a :: as, b :: bs => beq a b && beqList as bs
  | _, _ => false

/-- Equality of members, in order. -/
def beqMembers : List (String × Json) → List (String × Json) → Bool
  | [], [] => true
  | (k, a) :: as, (l, b) :: bs => k == l && beq a b && beqMembers as bs
  | _, _ => false

end

mutual

theorem beq_iff : ∀ a b : Json, beq a b = true ↔ a = b
  | .null, b => by cases b <;> simp [beq]
  | .bool a, b => by cases b <;> simp [beq]
  | .num a, b => by cases b <;> simp [beq]
  | .str a, b => by cases b <;> simp [beq]
  | .arr a, b => by
    cases b with
    | arr b => simpa [beq] using beqList_iff a b
    | _ => simp [beq]
  | .obj a, b => by
    cases b with
    | obj b => simpa [beq] using beqMembers_iff a b
    | _ => simp [beq]

theorem beqList_iff : ∀ a b : List Json, beqList a b = true ↔ a = b
  | [], b => by cases b <;> simp [beqList]
  | a :: as, b => by
    cases b with
    | nil => simp [beqList]
    | cons b bs => simp [beqList, beq_iff a b, beqList_iff as bs]

theorem beqMembers_iff : ∀ a b : List (String × Json), beqMembers a b = true ↔ a = b
  | [], b => by cases b <;> simp [beqMembers]
  | (k, a) :: as, b => by
    cases b with
    | nil => simp [beqMembers]
    | cons b bs =>
      obtain ⟨l, b⟩ := b
      simp [beqMembers, beq_iff a b, beqMembers_iff as bs]

end

instance : DecidableEq Json := fun a b =>
  decidable_of_iff (beq a b = true) (beq_iff a b)

mutual

/-- Sameness of values, whatever the order of members. -/
def same : Json → Json → Bool
  | .null, .null => true
  | .bool a, .bool b => a == b
  | .num a, .num b => a.same b
  | .str a, .str b => a == b
  | .arr a, .arr b => sameList a b
  | .obj a, .obj b => a.length == b.length && sameMembers a b
  | _, _ => false

/-- Sameness item by item. -/
def sameList : List Json → List Json → Bool
  | [], [] => true
  | a :: as, b :: bs => same a b && sameList as bs
  | _, _ => false

/-- Whether every member has a same member in the other object. -/
def sameMembers : List (String × Json) → List (String × Json) → Bool
  | [], _ => true
  | (k, a) :: as, bs =>
    (match Entries.get? bs k with
      | some b => same a b
      | none => false) && sameMembers as bs

end

/-! ### Access -/

/-- The member under `key`, if the value is an object that has it. -/
def get? : Json → String → Option Json
  | .obj members, key => Entries.get? members key
  | _, _ => none

/-- Whether the value is an object with a member under `key`. -/
def hasKey (value : Json) (key : String) : Bool :=
  (value.get? key).isSome

/-- The text of a string. -/
def str? : Json → Option String
  | .str s => some s
  | _ => none

/-- The value of a Boolean. -/
def bool? : Json → Option Bool
  | .bool b => some b
  | _ => none

/-- The items of an array. -/
def arr? : Json → Option (List Json)
  | .arr items => some items
  | _ => none

/-- The members of an object. -/
def obj? : Json → Option (Entries Json)
  | .obj members => some members
  | _ => none

/-- Whether the value is `null`. -/
def isNull : Json → Bool
  | .null => true
  | _ => false

/-- Whether the value is an object. -/
def isObj : Json → Bool
  | .obj _ => true
  | _ => false

/-- Whether the value is an array. -/
def isArr : Json → Bool
  | .arr _ => true
  | _ => false

/-- The member under `key`, if it is a string. -/
def getStr? (value : Json) (key : String) : Option String :=
  (value.get? key).bind str?

/-- The member under `key`, if it is a Boolean. -/
def getBool? (value : Json) (key : String) : Option Bool :=
  (value.get? key).bind bool?

/-- The member under `key`, if it is an array. -/
def getArr? (value : Json) (key : String) : Option (List Json) :=
  (value.get? key).bind arr?

/-- The member under `key`, if it is an object. -/
def getObj? (value : Json) (key : String) : Option (Entries Json) :=
  (value.get? key).bind obj?

/-- A whole number as a value. -/
def ofInt (n : Int) : Json := .num (.int n)

/-- An array of strings. -/
def ofStrings (items : List String) : Json := .arr (items.map .str)

@[simp] theorem get?_obj (members : Entries Json) (key : String) :
    (Json.obj members).get? key = Entries.get? members key := rfl

/-! ### Measures -/

mutual

/-- How deeply arrays and objects are nested; scalars count nothing. -/
def depth : Json → Nat
  | .arr items => depthList items + 1
  | .obj members => depthMembers members + 1
  | _ => 0

/-- The greatest depth in a list. -/
def depthList : List Json → Nat
  | [] => 0
  | a :: as => max (depth a) (depthList as)

/-- The greatest depth among members. -/
def depthMembers : List (String × Json) → Nat
  | [] => 0
  | (_, a) :: as => max (depth a) (depthMembers as)

end

mutual

/-- The number of values in a value, itself included. -/
def size : Json → Nat
  | .arr items => sizeList items + 1
  | .obj members => sizeMembers members + 1
  | _ => 1

/-- The sum of the sizes of a list. -/
def sizeList : List Json → Nat
  | [] => 0
  | a :: as => size a + sizeList as

/-- The sum of the sizes of members. -/
def sizeMembers : List (String × Json) → Nat
  | [] => 0
  | (_, a) :: as => size a + sizeMembers as

end

mutual

/-- No object repeats a key and every whole number is in range, at every depth. -/
def WellFormed : Json → Prop
  | .num (.int n) => Number.InRange n
  | .arr items => WellFormedList items
  | .obj members => Entries.Distinct members ∧ WellFormedMembers members
  | _ => True

/-- Every item is well formed. -/
def WellFormedList : List Json → Prop
  | [] => True
  | a :: as => WellFormed a ∧ WellFormedList as

/-- Every member's value is well formed. -/
def WellFormedMembers : List (String × Json) → Prop
  | [] => True
  | (_, a) :: as => WellFormed a ∧ WellFormedMembers as

end

end Json

end RequestGate
