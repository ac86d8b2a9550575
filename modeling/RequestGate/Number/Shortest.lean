import RequestGate.Number.Binary64

/-!
# The shortest decimal that reads back

Between a double and its two neighbours lie the numbers that round to it. A decimal *names* the
double when it lies in that interval, whose ends count exactly when the significand is even.
`RequestGate.Binary64.shortest` is the naming decimal with the fewest digits, and among those the
one nearest to the double, an exact tie going to the even digit.

The search is by number of digits: if some decimal of `n` digits lies in the interval, then one of
the two decimals of `n` digits next to the double does, and seventeen digits always suffice.

`RequestGate.Number.FloatFormat` holds the decisions of an output format on top of the digits: where
positional notation ends and what becomes of whole numbers and of the sign of zero.
-/

namespace RequestGate

namespace Binary64

/-- A decimal `digits * 10 ^ exponent`. -/
structure Decimal where
  digits : Nat
  exponent : Int
deriving DecidableEq, Repr

/-- Moves trailing zeros of the digits into the exponent. -/
def Decimal.strip (d : Decimal) : Decimal :=
  if h : d.digits ≠ 0 ∧ d.digits % 10 = 0 then
    Decimal.strip ⟨d.digits / 10, d.exponent + 1⟩
  else d
termination_by d.digits
decreasing_by
  show d.digits / 10 < d.digits
  omega

/-- `2 ^ e` or `10 ^ e` as a quotient. -/
def powRatio (base : Nat) (e : Int) : Nat × Nat :=
  if 0 ≤ e then (Nat.pow base e.toNat, 1) else (1, Nat.pow base (-e).toNat)

/-- The ends of the interval of the reals that round to a double, in quarters of its last place. Just
above a power of two the lower neighbour is twice as near. -/
def quarters (x : Binary64) : Nat × Nat :=
  let m := x.significand
  let lower := if m = Nat.pow 2 52 ∧ -1074 < x.exponent then 4 * m - 1 else 4 * m - 2
  (lower, 4 * m + 2)

/-- The decimal exponent of the first digit of a double that is not zero. -/
def decimalMagnitude (x : Binary64) : Int :=
  let v := x.absRatio
  let atLeast (e : Int) : Bool :=
    let p := powRatio 10 e
    p.1 * v.2 ≤ v.1 * p.2
  let guess : Int := ((x.significand.log2 : Int) + x.exponent) * 30103 / 100000
  if atLeast (guess + 1) then guess + 1
  else if atLeast guess then guess
  else guess - 1

/-- The place of the last of `n` digits. -/
def lastPlace (x : Binary64) (n : Nat) : Int :=
  x.decimalMagnitude - ((n : Int) - 1)

/-- A quarter of the last binary place over the denominator that it has in common with `step`. -/
def scale (x : Binary64) (place : Int) : Nat :=
  (powRatio 2 (x.exponent - 2)).1 * (powRatio 10 place).2

/-- One in the last decimal place over the same denominator. -/
def step (x : Binary64) (place : Int) : Nat :=
  (powRatio 10 place).1 * (powRatio 2 (x.exponent - 2)).2

/-- Whether the decimal `candidate * 10 ^ place` names `x`. -/
def names (x : Binary64) (place : Int) (candidate : Nat) : Bool :=
  let (low, high) := x.quarters
  let c := candidate * x.step place
  -- a number halfway between two doubles is read as the even one
  if x.significand % 2 = 0 then low * x.scale place ≤ c && c ≤ high * x.scale place
  else low * x.scale place < c && c < high * x.scale place

/-- The decimal of `n` digits that names `x`, if there is one. -/
def nearestNaming? (x : Binary64) (n : Nat) : Option Decimal :=
  let place := x.lastPlace n
  let step := x.step place
  -- value and step have one denominator, so only their numerators are needed
  let value := 4 * x.significand * x.scale place
  let below := value / step
  let above := below + 1
  let decimal (digits : Nat) : Option Decimal := some (Decimal.strip ⟨digits, place⟩)
  match x.names place below, x.names place above with
  | false, false => none
  | true, false => decimal below
  | false, true => decimal above
  | true, true =>
    let down := value - below * step
    let up := above * step - value
    if down < up then decimal below
    else if up < down then decimal above
    -- a tie goes to the even digit
    else if below % 2 = 0 then decimal below else decimal above

/-- The shortest decimal that names the absolute value of `x`. -/
def shortest (x : Binary64) : Decimal :=
  if x.isZero then ⟨0, 0⟩
  else ((List.range 17).findSome? fun n => x.nearestNaming? (n + 1)).getD ⟨0, 0⟩

end Binary64

namespace Number

/-- How a decimal is written out. -/
structure FloatFormat where
  /-- The least exponent of the first digit that is still written positionally. -/
  least : Int
  /-- The greatest one. -/
  greatest : Int
  /-- What follows a whole number in positional notation. -/
  wholeSuffix : String
  /-- Whether a negative zero keeps its sign. -/
  signedZero : Bool

/-- `n` zeros. -/
def zeros (n : Nat) : String := String.ofList (List.replicate n '0')

/-- The first `n` characters, a point, and the rest. -/
def withPoint (digits : String) (n : Nat) : String :=
  String.ofList (digits.toList.take n) ++ "." ++ String.ofList (digits.toList.drop n)

/-- The text of a decimal that is not zero: positionally in the format's range and with an exponent
of explicit sign outside it. -/
def FloatFormat.layout (format : FloatFormat) (d : Binary64.Decimal) : String :=
  let digits := toString d.digits
  let count := digits.length
  let first : Int := d.exponent + (count : Int) - 1
  if format.least ≤ first && first ≤ format.greatest then
    if 0 ≤ d.exponent then digits ++ zeros d.exponent.toNat ++ format.wholeSuffix
    else if 0 ≤ first then withPoint digits (first.toNat + 1)
    else "0." ++ zeros (-first - 1).toNat ++ digits
  else
    let mantissa := if count = 1 then digits else withPoint digits 1
    mantissa ++ (if first < 0 then "e-" else "e+") ++ toString first.natAbs

/-- The text of a double in a format: the layout of its shortest digits. -/
def FloatFormat.render (format : FloatFormat) (x : Binary64) : String :=
  if x.isZero then
    (if x.negative && format.signedZero then "-0" else "0") ++ format.wholeSuffix
  else
    let body := format.layout x.shortest
    if x.negative then "-" ++ body else body

end Number

end RequestGate
