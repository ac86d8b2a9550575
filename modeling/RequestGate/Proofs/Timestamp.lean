import RequestGate.Proofs.Calendar
import RequestGate.Proofs.Text.Digits

/-!
# Reading a point in time back

A point in time is written with numbers of fixed width and one character between any two of them. So
each number ends before a character that is no digit, and is read again up to there
(`RequestGate.Timestamp.readNumber?_digitsOf`); the fraction ends before the letter for the offset. That
the numbers stand for the same point in time is a matter of the calendar.
-/

namespace RequestGate.Timestamp

open Text

/-! ### Digits -/

/-- The characters of a number with at least `width` digits. -/
def digitsOf (width n : Nat) : List Char := (padded width n).toList

theorem digitsOf_eq (width n : Nat) :
    digitsOf width n =
      List.replicate (width - (Nat.toDigits 10 n).length) '0' ++ Nat.toDigits 10 n := by
  rw [digitsOf, padded, Nat.toString_eq_ofList_toDigits]
  simp

/-- **Digits denote their number**, whatever the width. -/
theorem digitsValue_digitsOf (width n : Nat) : digitsValue (digitsOf width n) = n := by
  rw [digitsOf_eq, digitsValue_append, digitsValue_replicate]
  exact digitsValue_toDigits n

theorem isDigit_of_mem_digitsOf {width n : Nat} {c : Char} (h : c ∈ digitsOf width n) :
    c.isDigit = true := by
  rw [digitsOf_eq] at h
  rcases List.mem_append.mp h with h | h
  · rw [List.eq_of_mem_replicate h]
    decide
  · exact Nat.isDigit_of_mem_toDigits (by decide) (by decide) h

theorem length_digitsOf {width n : Nat} (hwidth : 0 < width) (h : n < 10 ^ width) :
    (digitsOf width n).length = width := by
  have hle := Nat.toDigits_length 10 n width hwidth h
  rw [digitsOf_eq, List.length_append, List.length_replicate]
  omega

theorem digitsOf_ne_nil (width n : Nat) : digitsOf width n ≠ [] := by
  rw [digitsOf_eq]
  exact List.append_ne_nil_of_right_ne_nil _ Nat.toDigits_ne_nil

/-! ### Numbers -/

/-- The digits of a number are not blank at the front. -/
theorem trimStart_digitsOf (width n : Nat) (rest : List Char) :
    trimStart (digitsOf width n ++ rest) = digitsOf width n ++ rest := by
  refine trimStart_of_front fun c hc => ?_
  obtain ⟨first, others, hdigits⟩ := List.exists_cons_of_ne_nil (digitsOf_ne_nil width n)
  have hfirst : first ∈ digitsOf width n := by simp [hdigits]
  obtain rfl : first = c := by simpa [hdigits] using hc
  exact (plain_of_isDigit (isDigit_of_mem_digitsOf hfirst)).1

/-- **A number is read up to the first character that is no digit.** -/
theorem readNumber?_digitsOf {bound width n : Nat} {rest : List Char}
    (hbound : (digitsOf width n).length ≤ bound) (hrest : Ends rest) :
    readNumber? bound (digitsOf width n ++ rest) = some (n, rest) := by
  have hdigits : ((digitsOf width n ++ rest).takeWhile Char.isDigit).take bound =
      digitsOf width n := by
    rw [takeWhile_digits (fun c hc => isDigit_of_mem_digitsOf hc) hrest,
      List.take_of_length_le hbound]
  have hne : (digitsOf width n).isEmpty = false := by simpa using digitsOf_ne_nil width n
  rw [readNumber?]
  simp only [trimStart_digitsOf, hdigits, hne, Bool.false_eq_true, if_false, digitsValue_digitsOf,
    List.drop_left]

theorem readTwo {n : Nat} (h : n < 100) {rest : List Char} (hrest : Ends rest) :
    readNumber? 2 (digitsOf 2 n ++ rest) = some (n, rest) :=
  readNumber?_digitsOf (le_of_eq (length_digitsOf (by decide) h)) hrest

theorem readNumber?_signed (n : Nat) {rest : List Char} (hrest : Ends rest) :
    readNumber? (digitsOf 4 n ++ rest).length (digitsOf 4 n ++ rest) = some (n, rest) :=
  readNumber?_digitsOf (by rw [List.length_append]; omega) hrest

theorem readYear?_minus (n : Nat) {rest : List Char} (hrest : Ends rest) :
    readYear? ('-' :: (digitsOf 4 n ++ rest)) = some (-(n : Int), rest) := by
  have hsign : trimStart ('-' :: (digitsOf 4 n ++ rest)) = '-' :: (digitsOf 4 n ++ rest) :=
    List.dropWhile_cons_of_neg (by decide)
  rw [readYear?, hsign]
  simp only [readNumber?_signed n hrest, Option.map_some]

theorem readYear?_plus (n : Nat) {rest : List Char} (hrest : Ends rest) :
    readYear? ('+' :: (digitsOf 4 n ++ rest)) = some ((n : Int), rest) := by
  have hsign : trimStart ('+' :: (digitsOf 4 n ++ rest)) = '+' :: (digitsOf 4 n ++ rest) :=
    List.dropWhile_cons_of_neg (by decide)
  rw [readYear?, hsign]
  simp only [readNumber?_signed n hrest, Option.map_some]

/-- **A year is read back**, with its sign if it has one. -/
theorem readYear?_yearText (year : Int) {rest : List Char} (hrest : Ends rest) :
    readYear? ((yearText year).toList ++ rest) = some (year, rest) := by
  rw [yearText]
  split
  · rename_i hplain
    have hlength : (digitsOf 4 year.toNat).length ≤ 4 :=
      le_of_eq (length_digitsOf (by decide) (by omega))
    -- the plain form has no sign, and no digit is one
    have hnumber := readNumber?_digitsOf hlength hrest
    obtain ⟨first, others, hdigits⟩ := List.exists_cons_of_ne_nil (digitsOf_ne_nil 4 year.toNat)
    have hfirst : first ∈ digitsOf 4 year.toNat := by simp [hdigits]
    obtain ⟨-, hminus, hplus⟩ := plain_of_isDigit (isDigit_of_mem_digitsOf hfirst)
    rw [← digitsOf, readYear?, trimStart_digitsOf]
    split
    · rename_i _ _ heq
      exact absurd (List.cons.inj (hdigits ▸ heq)).1 hminus
    · rename_i _ _ heq
      exact absurd (List.cons.inj (hdigits ▸ heq)).1 hplus
    · rw [hnumber, Option.map_some]
      have hyear : ((year.toNat : Nat) : Int) = year := by omega
      exact congrArg (fun y => some (y, rest)) hyear
  · have htext : ∀ sign : String, (sign ++ padded 4 year.natAbs).toList ++ rest =
        sign.toList ++ (digitsOf 4 year.natAbs ++ rest) := by simp [digitsOf]
    rw [htext]
    split
    · rename_i hnegative
      have hyear : -((year.natAbs : Nat) : Int) = year := by omega
      have hsign : "-".toList = ['-'] := rfl
      rw [hsign, List.singleton_append, readYear?_minus year.natAbs hrest, hyear]
    · have hyear : ((year.natAbs : Nat) : Int) = year := by omega
      have hsign : "+".toList = ['+'] := rfl
      rw [hsign, List.singleton_append, readYear?_plus year.natAbs hrest, hyear]

/-! ### Fractions -/

/-- **A fraction of at most nine digits is read as nanoseconds.** -/
theorem readFraction?_digitsOf {width n : Nat} (hwidth : 0 < width) (hnine : width ≤ 9)
    (h : n < 10 ^ width) {rest : List Char} (hrest : Ends rest) :
    readFraction? ('.' :: (digitsOf width n ++ rest)) = some (n * 10 ^ (9 - width), rest) := by
  have hdigits : (digitsOf width n ++ rest).takeWhile Char.isDigit = digitsOf width n :=
    takeWhile_digits (fun c hc => isDigit_of_mem_digitsOf hc) hrest
  have hlength := length_digitsOf hwidth h
  have hne : (digitsOf width n).isEmpty = false := by simpa using digitsOf_ne_nil width n
  have htake : (digitsOf width n ++ List.replicate 9 '0').take 9 =
      digitsOf width n ++ List.replicate (9 - width) '0' := by
    rw [List.take_append, List.take_of_length_le (by omega), hlength, List.take_replicate,
      Nat.min_eq_left (by omega)]
  rw [readFraction?]
  simp only [hdigits, hne, Bool.false_eq_true, if_false, htake, digitsValue_append_zeros,
    digitsValue_digitsOf, List.drop_left]

/-- A fraction is read back. -/
theorem readFraction?_fractionText {nanos : Nat} (h : nanos < 1000000000) :
    readFraction? ((fractionText nanos).toList ++ ['Z']) = some (nanos, ['Z']) := by
  have hends : Ends ['Z'] := by
    intro c hc
    obtain rfl : 'Z' = c := by simpa using hc
    decide
  have htext : ∀ width n, ("." ++ padded width n).toList ++ ['Z'] =
      '.' :: (digitsOf width n ++ ['Z']) := by simp [digitsOf]
  -- groups of three zeros are left out at the end, and filled up again
  rw [fractionText]
  split
  · rename_i hzero
    subst hzero
    rfl
  · split
    · rw [htext, readFraction?_digitsOf (by decide) (by decide) (by omega) hends]
      have hnanos : nanos / 1000000 * 10 ^ (9 - 3) = nanos := by omega
      rw [hnanos]
    · split
      · rw [htext, readFraction?_digitsOf (by decide) (by decide) (by omega) hends]
        have hnanos : nanos / 1000 * 10 ^ (9 - 6) = nanos := by omega
        rw [hnanos]
      · rw [htext, readFraction?_digitsOf (by decide) (by decide) (by omega) hends]
        simp

/-! ### Points in time -/

/-- A point in time that a clock can show: within the calendar, and with a second too many only at
the end of a minute. -/
structure Valid (t : Timestamp) : Prop where
  nanos : t.nanos < 1000000000 ∨ t.nanos < 2000000000 ∧ t.seconds % 60 = 59
  year : (civilFromDays (t.seconds.fdiv 86400)).1.natAbs ≤ 262143

/-- The second of the day. -/
def secondOfDay (t : Timestamp) : Nat := (t.seconds - t.seconds.fdiv 86400 * 86400).toNat

/-- The second of the minute, as it is written. -/
def shownSecond (t : Timestamp) : Nat := t.secondOfDay % 60 + t.nanos / 1000000000

/-- The characters of a point in time. -/
theorem toList_text (t : Timestamp) :
    t.text.toList = (yearText (civilFromDays (t.seconds.fdiv 86400)).1).toList ++
      '-' :: (digitsOf 2 (civilFromDays (t.seconds.fdiv 86400)).2.1 ++
      '-' :: (digitsOf 2 (civilFromDays (t.seconds.fdiv 86400)).2.2 ++
      'T' :: (digitsOf 2 (t.secondOfDay / 3600) ++
      ':' :: (digitsOf 2 (t.secondOfDay / 60 % 60) ++
      ':' :: (digitsOf 2 t.shownSecond ++
        ((fractionText (t.nanos % 1000000000)).toList ++ ['Z'])))))) := by
  simp [text, textWith, digitsOf, secondOfDay, shownSecond]

theorem ends_fractionText (nanos : Nat) : Ends ((fractionText nanos).toList ++ ['Z']) := by
  have hpoint : ∀ s : String, Ends (("." ++ s).toList ++ ['Z']) := by
    intro s
    rw [String.toList_append, List.append_assoc]
    exact ends_cons (by decide) _
  rw [fractionText]
  split
  · exact ends_cons (by decide) _
  · split
    · exact hpoint _
    · split
      · exact hpoint _
      · exact hpoint _

theorem secondOfDay_lt (t : Timestamp) : t.secondOfDay < 86400 := by
  rw [secondOfDay, Int.fdiv_eq_ediv_of_nonneg _ (by decide)]
  omega

/-- A day and a second of it are a count of seconds. -/
theorem seconds_eq (t : Timestamp) :
    t.seconds.fdiv 86400 * 86400 + t.secondOfDay = t.seconds := by
  rw [secondOfDay, Int.fdiv_eq_ediv_of_nonneg _ (by decide)]
  omega

theorem expect?_cons (c : Char) (rest : List Char) : expect? c (c :: rest) = some rest := by
  rw [expect?, if_pos rfl]

/-- **What text of this shape is read as**: the numbers that were written, if there are such a day and
such a time. -/
theorem parse?_eq_some {text : String} {year : Int} {month day hour minute second nanos : Nat}
    {fraction : List Char}
    (htext : text.toList = (yearText year).toList ++ '-' :: (digitsOf 2 month ++
      '-' :: (digitsOf 2 day ++ 'T' :: (digitsOf 2 hour ++ ':' :: (digitsOf 2 minute ++
      ':' :: (digitsOf 2 second ++ fraction))))))
    (hmonth : month < 100) (hday : 1 ≤ day ∧ day < 100)
    (hexists : day ≤ Format.daysInMonth (year.emod 400).toNat month) (hyear : year.natAbs ≤ 262143)
    (htime : hour ≤ 23 ∧ minute ≤ 59 ∧ second ≤ 60) (hends : Ends fraction)
    (hfraction : readFraction? fraction = some (nanos, ['Z'])) :
    parse? text = some ⟨daysFromCivil year month day * 86400 +
      (((hour * 60 + minute) * 60 + min second 59 : Nat) : Int), nanos + (second - 59) * 1000000000⟩ := by
  have hhour : hour < 100 := by omega
  have hminute : minute < 100 := by omega
  have hsecond : second < 100 := by omega
  have hz : readOffset? (trimStart ['Z']) = some 0 := by decide
  have hreadYear := readYear?_yearText year
    (ends_cons (c := '-') (by decide) (digitsOf 2 month ++ '-' :: (digitsOf 2 day ++
      'T' :: (digitsOf 2 hour ++ ':' :: (digitsOf 2 minute ++ ':' :: (digitsOf 2 second ++ fraction))))))
  rw [← htext] at hreadYear
  have hexpect : ∀ c rest, expect? c (c :: rest) = some rest := by simp [expect?]
  rw [parse?]
  -- one number after the other, each followed by the character that is expected
  refine Option.bind_eq_some_iff.mpr ⟨_, hreadYear, ?_⟩
  refine Option.bind_eq_some_iff.mpr ⟨_, expect?_cons _ _, ?_⟩
  refine Option.bind_eq_some_iff.mpr ⟨_, readTwo hmonth (ends_cons (by decide) _), ?_⟩
  refine Option.bind_eq_some_iff.mpr ⟨_, expect?_cons _ _, ?_⟩
  refine Option.bind_eq_some_iff.mpr ⟨_, readTwo hday.2 (ends_cons (by decide) _), ?_⟩
  dsimp only
  -- the letter between date and time
  split
  · rename_i rest heq
    obtain ⟨-, rfl⟩ := List.cons.inj heq
    refine Option.bind_eq_some_iff.mpr ⟨_, rfl, ?_⟩
    refine Option.bind_eq_some_iff.mpr ⟨_, readTwo hhour (ends_cons (by decide) _), ?_⟩
    refine Option.bind_eq_some_iff.mpr ⟨_, expect?_cons _ _, ?_⟩
    refine Option.bind_eq_some_iff.mpr ⟨_, readTwo hminute (ends_cons (by decide) _), ?_⟩
    refine Option.bind_eq_some_iff.mpr ⟨_, expect?_cons _ _, ?_⟩
    refine Option.bind_eq_some_iff.mpr ⟨_, readTwo hsecond hends, ?_⟩
    refine Option.bind_eq_some_iff.mpr ⟨_, hfraction, ?_⟩
    refine Option.bind_eq_some_iff.mpr ⟨_, hz, ?_⟩
    dsimp only
    rw [if_neg (by omega), if_neg (by omega)]
    simp
  · rename_i heq
    exact absurd (List.cons.inj heq).1 (by decide)
  · rename_i heq
    exact absurd (List.cons.inj heq).1 (by decide)
  · rename_i hT _ _
    exact absurd rfl (hT _)

theorem daysInMonth_le (year month : Nat) : Format.daysInMonth year month ≤ 31 := by
  simp only [Format.daysInMonth]
  split <;> first | decide | (split <;> decide)

/-- **A point in time is read back.** -/
theorem parse?_text {t : Timestamp} (h : t.Valid) : parse? t.text = some t := by
  obtain ⟨hpositive, hexists⟩ := civilFromDays_valid (t.seconds.fdiv 86400)
  have hmonth := month_lt (t.seconds.fdiv 86400)
  have hlength := hexists.trans (daysInMonth_le _ _)
  have hday := secondOfDay_lt t
  have hleap := h.nanos
  have hyear := h.year
  have hcount := seconds_eq t
  -- a leap second is shown as second 60
  have hshown : t.shownSecond ≤ 60 := by
    rw [shownSecond]
    omega
  rw [parse?_eq_some (toList_text t) hmonth ⟨hpositive, by omega⟩ hexists hyear
    ⟨by omega, by omega, hshown⟩ (ends_fractionText _)
    (readFraction?_fractionText (Nat.mod_lt _ (by decide))), daysFromCivil_civilFromDays]
  have hseconds : t.seconds.fdiv 86400 * 86400 +
      (((t.secondOfDay / 3600 * 60 + t.secondOfDay / 60 % 60) * 60 + min t.shownSecond 59 : Nat) : Int) =
        t.seconds := by
    rw [shownSecond]
    omega
  -- it is read as second 59 with a billion nanoseconds more
  have hnanos : t.nanos % 1000000000 + (t.shownSecond - 59) * 1000000000 = t.nanos := by
    rw [shownSecond]
    omega
  rw [hseconds, hnanos]

end RequestGate.Timestamp
