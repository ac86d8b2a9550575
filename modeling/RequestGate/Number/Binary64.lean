/-!
# Binary floating point as exact arithmetic

A number with a fraction or an exponent is a *double*: a sign and a dyadic rational
`significand * 2 ^ exponent` with at most 53 significant bits. `RequestGate.Binary64` holds such a
number as plain data, so that two doubles are equal exactly when they have the same sign and the
same value, and every operation is exact arithmetic on `Nat` followed by one rounding.

The only rounding is `RequestGate.Binary64.ofRatio?`: the double nearest to a quotient, ties to the
even significand. Reading decimals and dividing are that function. Infinities and
not-a-number do not exist: what would be too large is `none`.
-/

namespace RequestGate

/-- A pair of significand and exponent in its one canonical form: 53 bits, filled up from below
unless the exponent is already the least one. -/
def IsCanonicalDouble (significand : Nat) (exponent : Int) : Prop :=
  significand < Nat.pow 2 53 ∧ -1074 ≤ exponent ∧ exponent ≤ 971 ∧
    (Nat.pow 2 52 ≤ significand ∨ exponent = -1074)

instance (significand : Nat) (exponent : Int) :
    Decidable (IsCanonicalDouble significand exponent) :=
  inferInstanceAs (Decidable (_ ∧ _ ∧ _ ∧ (_ ∨ _)))

/-- A finite double: `± significand * 2 ^ exponent`, with a sign on zero too. -/
structure Binary64 where
  negative : Bool
  significand : Nat
  exponent : Int
  canonical : IsCanonicalDouble significand exponent
deriving DecidableEq

namespace Binary64

/-- Zero, with its sign. -/
def zero (negative : Bool) : Binary64 :=
  ⟨negative, 0, -1074, by decide⟩

instance : Inhabited Binary64 := ⟨zero false⟩

/-- Whether the value is zero, of either sign. -/
def isZero (x : Binary64) : Bool := x.significand == 0

/-- The same number with the other sign. -/
def neg (x : Binary64) : Binary64 := { x with negative := !x.negative }

/-! ### Rounding -/

/-- The natural number nearest to `num / den`, an exact half going to the even neighbour. -/
def divNearestEven (num den : Nat) : Nat :=
  let q := num / den
  let r := num % den
  if 2 * r < den then q
  else if 2 * r = den then (if q % 2 = 0 then q else q + 1)
  else q + 1

/-- `num / den` in units of `2 ^ exponent`, again as a quotient. -/
def inUnits (num den : Nat) (exponent : Int) : Nat × Nat :=
  if 0 ≤ exponent then (num, den * Nat.pow 2 exponent.toNat)
  else (num * Nat.pow 2 (-exponent).toNat, den)

/-- The double with these parts, if they are canonical. -/
def ofParts? (negative : Bool) (significand : Nat) (exponent : Int) : Option Binary64 :=
  if h : IsCanonicalDouble significand exponent then some ⟨negative, significand, exponent, h⟩
  else none

/-- The exponent at which `num / den` has 53 bits before the point, or the least exponent. -/
def unitExponent (num den : Nat) : Int :=
  let guess : Int := (num.log2 : Int) - (den.log2 : Int) - 52
  let scaled := inUnits num den guess
  max (if scaled.1 / scaled.2 < Nat.pow 2 52 then guess - 1 else guess) (-1074)

/-- The double nearest to `num / den`, or `none` if that is beyond the largest double. -/
def ofRatio? (negative : Bool) (num den : Nat) : Option Binary64 :=
  if num = 0 then some (zero negative)
  else
    let exponent := unitExponent num den
    let scaled := inUnits num den exponent
    let significand := divNearestEven scaled.1 scaled.2
    if significand = Nat.pow 2 53 then ofParts? negative (Nat.pow 2 52) (exponent + 1)
    else ofParts? negative significand exponent

/-- The double nearest to `digits * 10 ^ exponent`. Exponents that decide the answer by their size
alone are not expanded. -/
def ofDecimal? (negative : Bool) (digits : Nat) (exponent : Int) : Option Binary64 :=
  if digits = 0 then some (zero negative)
  else
    let magnitude : Int := ((toString digits).length : Int) + exponent
    if 310 < magnitude then none
    else if magnitude < -330 then some (zero negative)
    else if 0 ≤ exponent then ofRatio? negative (digits * Nat.pow 10 exponent.toNat) 1
    else ofRatio? negative digits (Nat.pow 10 (-exponent).toNat)

/-- The double nearest to an integer. -/
def ofInt? (n : Int) : Option Binary64 :=
  ofRatio? (n < 0) n.natAbs 1

/-! ### The value -/

/-- Numerator and denominator of the absolute value. -/
def absRatio (x : Binary64) : Nat × Nat :=
  if 0 ≤ x.exponent then (x.significand * Nat.pow 2 x.exponent.toNat, 1)
  else (x.significand, Nat.pow 2 (-x.exponent).toNat)

/-- Numerator and (positive) denominator of the value. -/
def toRatio (x : Binary64) : Int × Nat :=
  let r := x.absRatio
  (if x.negative then -(r.1 : Int) else (r.1 : Int), r.2)

/-- Whether the value is an integer. -/
def isIntegral (x : Binary64) : Bool :=
  let r := x.absRatio
  r.1 % r.2 == 0

/-- The value, if it is an integer. -/
def toInt? (x : Binary64) : Option Int :=
  let r := x.toRatio
  if x.isIntegral then some (r.1 / (r.2 : Int)) else none

/-- The quotient, rounded; `none` if it is too large or the divisor is zero. -/
def div? (x y : Binary64) : Option Binary64 :=
  if y.isZero then none
  else
    let a := x.absRatio
    let b := y.absRatio
    ofRatio? (x.negative != y.negative) (a.1 * b.2) (a.2 * b.1)

end Binary64

end RequestGate
