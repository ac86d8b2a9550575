import RequestGate.Format.Time

/-!
# Points in time

An artifact says when it was compiled. A `RequestGate.Timestamp` counts seconds and nanoseconds from
the start of 1970 in UTC. Text may give the time in any offset from UTC, and rather freely: a blank
may stand for the `T`, leading zeros may be missing, and blanks may surround the parts.

Days are counted in the proleptic Gregorian calendar, by way of years that start in March: then the
day that only leap years have is the last of its year.
-/

namespace RequestGate

/-- A point in time. -/
structure Timestamp where
  /-- The seconds since the start of 1970. -/
  seconds : Int
  /-- The nanoseconds on top; a full second more within a leap second. -/
  nanos : Nat
deriving DecidableEq, Inhabited

namespace Timestamp

/-- The number of days from the first of January 1970 to a day. -/
def daysFromCivil (year : Int) (month day : Nat) : Int :=
  let y := if month ≤ 2 then year - 1 else year
  let era := y.fdiv 400
  let yearOfEra := y - era * 400
  let monthFromMarch := (month + 9) % 12
  let dayOfYear : Int := ((153 * monthFromMarch + 2) / 5 + day - 1 : Nat)
  let dayOfEra := yearOfEra * 365 + yearOfEra.fdiv 4 - yearOfEra.fdiv 100 + dayOfYear
  era * 146097 + dayOfEra - 719468

/-- Year, month and day of a number of days since the first of January 1970. -/
def civilFromDays (days : Int) : Int × Nat × Nat :=
  -- years begin in March here, so that a leap day is the last day of its year
  let z := days + 719468
  let era := z.fdiv 146097
  let dayOfEra := (z - era * 146097).toNat
  let yearOfEra := (dayOfEra - dayOfEra / 1460 + dayOfEra / 36524 - dayOfEra / 146096) / 365
  let dayOfYear := dayOfEra - (365 * yearOfEra + yearOfEra / 4 - yearOfEra / 100)
  let monthFromMarch := (5 * dayOfYear + 2) / 153
  let day := dayOfYear - (153 * monthFromMarch + 2) / 5 + 1
  let month := (monthFromMarch + 2) % 12 + 1
  let year := era * 400 + yearOfEra + (if month ≤ 2 then 1 else 0)
  (year, month, day)

/-! ### Writing -/

/-- A number with at least `width` digits. -/
def padded (width n : Nat) : String :=
  let digits := toString n
  String.ofList (List.replicate (width - digits.length) '0') ++ digits

/-- The fraction of a second, in groups of three digits. -/
def fractionText (nanos : Nat) : String :=
  if nanos = 0 then ""
  else if nanos % 1000000 = 0 then "." ++ padded 3 (nanos / 1000000)
  else if nanos % 1000 = 0 then "." ++ padded 6 (nanos / 1000)
  else "." ++ padded 9 nanos

/-- A year; it has a sign unless it has four digits. -/
def yearText (year : Int) : String :=
  if 0 ≤ year ∧ year ≤ 9999 then padded 4 year.toNat
  else (if year < 0 then "-" else "+") ++ padded 4 year.natAbs

/-- The point in time with a suffix for its offset, which must be that of UTC. -/
def textWith (suffix : String) (t : Timestamp) : String :=
  let days := t.seconds.fdiv 86400
  let second := (t.seconds - days * 86400).toNat
  let (year, month, day) := civilFromDays days
  yearText year ++ "-" ++ padded 2 month ++ "-" ++ padded 2 day ++ "T" ++
    padded 2 (second / 3600) ++ ":" ++ padded 2 (second / 60 % 60) ++ ":" ++
    padded 2 (second % 60 + t.nanos / 1000000000) ++ fractionText (t.nanos % 1000000000) ++ suffix

/-- The point in time as it stands in an artifact. -/
def text (t : Timestamp) : String := t.textWith "Z"

/-- The point in time as it stands in a report. -/
def reportText (t : Timestamp) : String := t.textWith "+00:00"

/-! ### Reading -/

/-- Reads a number of at most `width` digits, over the blanks before it. -/
def readNumber? (width : Nat) (cs : List Char) : Option (Nat × List Char) :=
  let cs := Text.trimStart cs
  let digits := (cs.takeWhile Char.isDigit).take width
  if digits.isEmpty then none else some (Text.digitsValue digits, cs.drop digits.length)

/-- Reads a year: four digits at most, or any number of them after a sign. -/
def readYear? (cs : List Char) : Option (Int × List Char) :=
  match Text.trimStart cs with
  | '-' :: rest => (readNumber? rest.length rest).map fun (n, rest) => (-(n : Int), rest)
  | '+' :: rest => (readNumber? rest.length rest).map fun (n, rest) => ((n : Int), rest)
  | cs => (readNumber? 4 cs).map fun (n, rest) => ((n : Int), rest)

/-- Reads one character. -/
def expect? (c : Char) : List Char → Option (List Char)
  | d :: rest => if d = c then some rest else none
  | [] => none

/-- Reads a fraction of a second as nanoseconds; digits beyond the ninth are dropped. -/
def readFraction? : List Char → Option (Nat × List Char)
  | '.' :: rest =>
    let digits := rest.takeWhile Char.isDigit
    if digits.isEmpty then none
    else
      let nine := (digits ++ List.replicate 9 '0').take 9
      some (Text.digitsValue nine, rest.drop digits.length)
  | cs => some (0, cs)

/-- Reads an offset from UTC in seconds, which nothing but blanks may follow. -/
def readOffset? (cs : List Char) : Option Int :=
  let signed (sign : Int) : List Char → Option Int
    | h1 :: h2 :: rest =>
      let minutes := match rest with
        | ':' :: minutes => minutes
        | rest => Text.trimStart rest
      match minutes with
      | m1 :: m2 :: rest =>
        let size := (Text.digitsValue [h1, h2] * 60 + Text.digitsValue [m1, m2]) * 60
        if Text.allDigits [h1, h2, m1, m2] && m1 < '6' && size < 86400 &&
            (Text.trimStart rest).isEmpty then
          some (sign * (size : Int))
        else none
      | _ => none
    | _ => none
  match cs with
  | '+' :: rest => signed 1 rest
  | '-' :: rest => signed (-1) rest
  | '\u2212' :: rest => signed (-1) rest
  | cs =>
    let name := Text.asciiLower (String.ofList (Text.trimEnd cs))
    if name = "z" ∨ name = "utc" then some 0 else none

/-- Reads a point in time. -/
def parse? (text : String) : Option Timestamp := do
  let (year, cs) ← readYear? text.toList
  let (month, cs) ← readNumber? 2 (← expect? '-' cs)
  let (day, cs) ← readNumber? 2 (← expect? '-' cs)
  let cs ← match cs with
    | 'T' :: rest | 't' :: rest | ' ' :: rest => some rest
    | _ => none
  let (hour, cs) ← readNumber? 2 cs
  let (minute, cs) ← readNumber? 2 (← expect? ':' cs)
  let (second, cs) ← readNumber? 2 (← expect? ':' cs)
  let (nanos, cs) ← readFraction? cs
  let offset ← readOffset? (Text.trimStart cs)
  -- the calendar repeats after 400 years
  if day = 0 ∨ Format.daysInMonth (year.emod 400).toNat month < day ∨ 262143 < year.natAbs then none
  else if 23 < hour ∨ 59 < minute ∨ 60 < second then none
  else
    let days := daysFromCivil year month day
    -- second 60 is second 59 with a billion nanoseconds more
    let ofDay : Int := (hour * 60 + minute) * 60 + min second 59
    some ⟨days * 86400 + ofDay - offset, nanos + (second - 59) * 1000000000⟩

end Timestamp

end RequestGate
