import RequestGate.Text.Basic

/-!
# Dates and times

The formats `date`, `time` and `date-time`: a day of the Gregorian calendar as `YYYY-MM-DD`, a time
of the day with seconds and an offset from UTC, and both with a `T` between them. A sixtieth second
is possible only where it is 23:59 in UTC.
-/

namespace RequestGate.Format

/-- Two decimal digits at the front of a text. -/
def twoDigits? : List Char → Option (Nat × List Char)
  | a :: b :: rest =>
    if a.isDigit && b.isDigit then some (Text.digitsValue [a, b], rest) else none
  | _ => none

/-- Whether a year has a 29th of February. -/
def isLeapYear (year : Nat) : Bool :=
  year % 4 == 0 && (year % 100 != 0 || year % 400 == 0)

/-- The number of days of a month, none for what is no month. -/
def daysInMonth (year month : Nat) : Nat :=
  match month with
  | 1 | 3 | 5 | 7 | 8 | 10 | 12 => 31
  | 4 | 6 | 9 | 11 => 30
  | 2 => if isLeapYear year then 29 else 28
  | _ => 0

/-- Whether a text is a day. -/
def isDate (cs : List Char) : Bool :=
  match cs with
  | [y1, y2, y3, y4, '-', m1, m2, '-', d1, d2] =>
    let digits := [y1, y2, y3, y4, m1, m2, d1, d2]
    let day := Text.digitsValue [d1, d2]
    Text.allDigits digits && 1 ≤ day &&
      day ≤ daysInMonth (Text.digitsValue [y1, y2, y3, y4]) (Text.digitsValue [m1, m2])
  | _ => false

/-- The offset from UTC in minutes that a text denotes. -/
def offsetMinutes? (cs : List Char) : Option Int :=
  let signed (sign : Int) : List Char → Option Int
    | [h1, h2, ':', m1, m2] =>
      let hours := Text.digitsValue [h1, h2]
      let minutes := Text.digitsValue [m1, m2]
      if Text.allDigits [h1, h2, m1, m2] && hours ≤ 23 && minutes ≤ 59 then
        some (sign * ((hours * 60 + minutes : Nat) : Int))
      else none
    | _ => none
  match cs with
  | ['Z'] | ['z'] => some 0
  | '+' :: rest => signed 1 rest
  | '-' :: rest => signed (-1) rest
  | _ => none

/-- Removes a fraction of a second; `none` if a point has no digits after it. -/
def dropFraction? : List Char → Option (List Char)
  | '.' :: rest =>
    if (rest.takeWhile Char.isDigit).isEmpty then none else some (rest.dropWhile Char.isDigit)
  | cs => some cs

/-- Whether a text is a time of the day with an offset. -/
def isTime (cs : List Char) : Bool :=
  match cs with
  | h1 :: h2 :: ':' :: m1 :: m2 :: ':' :: s1 :: s2 :: rest =>
    if !Text.allDigits [h1, h2, m1, m2, s1, s2] then false
    else
      let hour := Text.digitsValue [h1, h2]
      let minute := Text.digitsValue [m1, m2]
      let second := Text.digitsValue [s1, s2]
      match (dropFraction? rest).bind offsetMinutes? with
      | none => false
      | some offset =>
        hour ≤ 23 && minute ≤ 59 &&
          -- a leap second is put in before midnight in UTC
          (second ≤ 59 || (second == 60 &&
            ((hour * 60 + minute : Nat) - offset : Int) % (24 * 60) == 23 * 60 + 59))
  | _ => false

/-- Whether a text is a day and a time with a `T` between them. -/
def isDateTime (cs : List Char) : Bool :=
  let date := cs.takeWhile fun c => c != 'T' && c != 't'
  match cs.drop date.length with
  | _ :: time => isDate date && isTime time
  | [] => false

end RequestGate.Format
