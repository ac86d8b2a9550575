import RequestGate.Json.Basic

/-!
# Equality of instances

The keywords `enum`, `const` and `uniqueItems` compare values: numbers by what they denote, so that
`1` equals `1.0`, and objects member by member *in order*.
-/

namespace RequestGate.Draft7

mutual

/-- Whether two values are equal to the keywords that compare. -/
def equal : Json → Json → Bool
  | .null, .null => true
  | .bool a, .bool b => a == b
  | .num a, .num b => a.eqValue b
  | .str a, .str b => a == b
  | .arr a, .arr b => equalList a b
  | .obj a, .obj b => equalMembers a b
  | _, _ => false

/-- Equality item by item. -/
def equalList : List Json → List Json → Bool
  | [], [] => true
  | a :: as, b :: bs => equal a b && equalList as bs
  | _, _ => false

/-- Equality member by member. -/
def equalMembers : List (String × Json) → List (String × Json) → Bool
  | [], [] => true
  | (k, a) :: as, (l, b) :: bs => k == l && equal a b && equalMembers as bs
  | _, _ => false

end

/-- Whether no two items are equal. -/
def allDifferent : List Json → Bool
  | [] => true
  | a :: as => as.all (fun b => !equal a b) && allDifferent as

end RequestGate.Draft7
