import RequestGate.Json.Basic

/-!
# Multiples

The keyword `multipleOf` works on doubles. With a whole divisor a multiple is a whole number that
leaves no remainder. With any other divisor the quotient is rounded to a double, and what counts is
that its fraction is smaller than `2 ^ -52`; the fraction of a negative quotient always is. Where
the quotient is beyond the doubles, the decimals that the two numbers are written as are divided
exactly.
-/

namespace RequestGate.Draft7

/-- A number as a double. -/
def toDouble : Number → Binary64
  | .int n => (Binary64.ofInt? n).getD (Binary64.zero false)
  | .float x => x

/-- Whether the decimal `a` is a whole multiple of the decimal `b`. -/
def isDecimalMultiple (a b : Binary64.Decimal) : Bool :=
  let shift := a.exponent - b.exponent
  let num := if 0 ≤ shift then a.digits * Nat.pow 10 shift.toNat else a.digits
  let den := if 0 ≤ shift then b.digits else b.digits * Nat.pow 10 (-shift).toNat
  den != 0 && num % den == 0

/-- Whether the fraction of a double is smaller than `2 ^ -52`. -/
def isNearlyWhole (x : Binary64) : Bool :=
  let r := x.absRatio
  x.negative || r.1 % r.2 * Nat.pow 2 52 < r.2

/-- Whether a number is a multiple of a divisor. -/
def isMultipleOf (n divisor : Number) : Bool :=
  let x := toDouble n
  let d := toDouble divisor
  -- a whole divisor is decided on integers, any other by the rounded quotient
  match d.toInt? with
  | some d =>
    match x.toInt? with
    | some n => d != 0 && Int.tmod n d == 0
    | none => false
  | none =>
    match x.div? d with
    | some q => isNearlyWhole q
    -- there is no such quotient, so the shortest decimals decide
    | none => isDecimalMultiple x.shortest d.shortest

end RequestGate.Draft7
