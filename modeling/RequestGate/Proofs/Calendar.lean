import Mathlib.Algebra.Order.Group.Unbundled.Int
import Mathlib.Order.Monotone.Basic
import Mathlib.Tactic.IntervalCases
import RequestGate.Timestamp

/-!
# Days and dates

Dates are found from a count of days in two steps. An era of 400 years has 146097 days, so the era and
the day of the era are found by division. Within an era the years are of two lengths. Taking one day out
for each leap year makes all of them 365 days long, and the day that is left over
(`RequestGate.Calendar.flatDay`) grows with the day of the era. So it is enough to know what it is on the
first day of each of the 400 years, and on the last (`RequestGate.Calendar.flatDay_yearStart`).

In the end every count of days is a date (`RequestGate.Timestamp.civilFromDays_valid`), and is counted
back from it (`RequestGate.Timestamp.daysFromCivil_civilFromDays`).
-/

namespace RequestGate

namespace Calendar

/-- The first day of a year in its era. Years start in March. -/
def yearStart (year : Nat) : Nat := 365 * year + year / 4 - year / 100

/-- The day of the era with the leap days before it taken out. -/
def flatDay (day : Nat) : Nat := day - day / 1460 + day / 36524 - day / 146096

theorem flatDay_mono : Monotone flatDay := by
  refine monotone_nat_of_le_succ fun n => ?_
  rw [flatDay, flatDay]
  omega

/-- **Years start where they should**: there the years before make up 365 days each, and a day earlier
they do not yet. -/
theorem flatDay_yearStart : ∀ year < 400,
    365 * year ≤ flatDay (yearStart year) ∧
      (0 < year → flatDay (yearStart year - 1) < 365 * year) := by
  decide +kernel

/-- The year of a day of an era. -/
def yearOf (day : Nat) : Nat := flatDay day / 365

variable {day : Nat}

theorem yearOf_lt (h : day < 146097) : yearOf day < 400 := by
  rw [yearOf, flatDay]
  omega

theorem yearStart_yearOf_le (h : day < 146097) : yearStart (yearOf day) ≤ day := by
  have hyear : 365 * yearOf day ≤ flatDay day := Nat.mul_div_le _ _
  obtain ⟨-, hbefore⟩ := flatDay_yearStart _ (yearOf_lt h)
  by_contra hlt
  -- a day before the start of its year would belong to an earlier one
  have hmono : flatDay day ≤ flatDay (yearStart (yearOf day) - 1) := flatDay_mono (by omega)
  have hpos : 0 < yearOf day := by
    rcases Nat.eq_zero_or_pos (yearOf day) with hzero | hpos
    · rw [hzero] at hlt
      exact absurd (Nat.zero_le day) hlt
    · exact hpos
  have hlast := hbefore hpos
  omega

theorem lt_yearStart_succ (h : day < 146097) :
    day < yearStart (yearOf day + 1) ∨ yearOf day = 399 := by
  have hyear : flatDay day < 365 * (yearOf day + 1) := by
    rw [yearOf]
    omega
  have hlt := yearOf_lt h
  by_contra hnot
  have hnext : yearOf day + 1 < 400 := by omega
  obtain ⟨hstart, -⟩ := flatDay_yearStart _ hnext
  have hmono : flatDay (yearStart (yearOf day + 1)) ≤ flatDay day := flatDay_mono (by omega)
  omega

/-! ### Months -/

/-- The first day of a month in its year. Months are counted from March. -/
def monthStart (month : Nat) : Nat := (153 * month + 2) / 5

/-- The month of a day of the year. -/
def monthOf (day : Nat) : Nat := (5 * day + 2) / 153

theorem monthOf_lt (h : day < 366) : monthOf day < 12 := by
  rw [monthOf]
  omega

theorem monthStart_monthOf_le (day : Nat) : monthStart (monthOf day) ≤ day := by
  rw [monthStart, monthOf]
  omega

theorem lt_monthStart_succ (day : Nat) : day < monthStart (monthOf day + 1) := by
  rw [monthStart, monthOf]
  omega

/-- The number of a month that is counted from March. -/
def civilMonth (month : Nat) : Nat := (month + 2) % 12 + 1

/-- **Months are as long as their numbers say**; the last one has a day more in a leap year. -/
theorem monthStart_succ_le {month : Nat} (h : month < 12) (year : Nat)
    (hday : month = 11 → day = 365 → Format.isLeapYear year = true)
    (hlt : day < monthStart (month + 1)) (hle : day < 366) :
    day - monthStart month + 1 ≤ Format.daysInMonth year (civilMonth month) := by
  interval_cases month <;>
    simp only [monthStart, civilMonth, Format.daysInMonth] at hlt ⊢ <;> try omega
  -- February
  by_cases hlast : day = 365
  · simp [hday rfl hlast, hlast]
  · split <;> omega

/-! ### Dates -/

/-- A day by its era, the year of the era and the day of the year. -/
structure EraDay (days era : Int) (year day : Nat) : Prop where
  counted : days + 719468 = era * 146097 + (yearStart year + day : Nat)
  year_lt : year < 400
  day_lt : day < 366
  leap : day = 365 → Format.isLeapYear ((year + 1) % 400) = true

theorem isLeapYear_iff {year : Nat} :
    Format.isLeapYear year = true ↔ year % 4 = 0 ∧ (year % 100 ≠ 0 ∨ year % 400 = 0) := by
  simp [Format.isLeapYear]

/-- **Every count of days has its place** in an era and a year. -/
theorem exists_eraDay (days : Int) :
    EraDay days ((days + 719468) / 146097) (yearOf ((days + 719468) % 146097).toNat)
      (((days + 719468) % 146097).toNat - yearStart (yearOf ((days + 719468) % 146097).toNat)) := by
  have hlow := Int.emod_nonneg (days + 719468) (b := 146097) (by decide)
  have hhigh := Int.emod_lt_of_pos (days + 719468) (b := 146097) (by decide)
  have hlt : ((days + 719468) % 146097).toNat < 146097 := by omega
  generalize hday : ((days + 719468) % 146097).toNat = day at hlt
  have hyear := yearOf_lt hlt
  have hstart := yearStart_yearOf_le hlt
  have hnext := lt_yearStart_succ hlt
  generalize yearOf day = year at hyear hstart hnext
  refine ⟨?_, hyear, ?_, fun hlast => ?_⟩
  · omega
  · rw [yearStart] at hnext hstart ⊢
    omega
  · rw [isLeapYear_iff]
    rw [yearStart] at hnext hstart hlast
    rcases hnext with hnext | rfl
    · -- a year of 366 days has one leap day more behind it than it had at its start
      have hlong : year / 4 + (year + 1) / 100 < (year + 1) / 4 + year / 100 := by omega
      have hfour : (year + 1) % 4 = 0 := by omega
      have hhundred : (year + 1) % 100 ≠ 0 := by omega
      rcases Nat.lt_or_ge (year + 1) 400 with hsmall | hlarge
      · rw [Nat.mod_eq_of_lt hsmall]
        exact ⟨hfour, Or.inl hhundred⟩
      · omega
    · decide

end Calendar

namespace Timestamp

open Calendar

/-- A year that starts in January, after the start of its months January and February. -/
def civilYear (era : Int) (year month : Nat) : Int :=
  era * 400 + year + if month ≤ 2 then 1 else 0

theorem exists_civil (days : Int) :
    ∃ era year day, EraDay days era year day ∧
      civilFromDays days = (civilYear era year (civilMonth (monthOf day)), civilMonth (monthOf day),
        day - monthStart (monthOf day) + 1) := by
  have hfdiv : (days + 719468).fdiv 146097 = (days + 719468) / 146097 :=
    Int.fdiv_eq_ediv_of_nonneg _ (by decide)
  have hday : days + 719468 - (days + 719468) / 146097 * 146097 = (days + 719468) % 146097 := by
    omega
  refine ⟨_, _, _, exists_eraDay days, ?_⟩
  simp only [civilFromDays]
  rw [hfdiv, hday]
  rfl

/-- **A date is counted back.** -/
theorem daysFromCivil_civilFromDays (days : Int) :
    daysFromCivil (civilFromDays days).1 (civilFromDays days).2.1 (civilFromDays days).2.2 = days := by
  obtain ⟨era, year, day, h, hcivil⟩ := exists_civil days
  have hmonth := monthOf_lt h.day_lt
  have hstart := monthStart_monthOf_le day
  have hcounted := h.counted
  have hyear_lt := h.year_lt
  generalize monthOf day = month at hmonth hstart hcivil
  -- the year is started in March again, and the month is counted from there
  have hyear : (if civilMonth month ≤ 2 then civilYear era year (civilMonth month) - 1
      else civilYear era year (civilMonth month)) = era * 400 + year := by
    rw [civilYear]
    split <;> omega
  have hera : (era * 400 + year : Int).fdiv 400 = era := by
    rw [Int.fdiv_eq_ediv_of_nonneg _ (by decide)]
    omega
  have hmarch : (civilMonth month + 9) % 12 = month := by
    rw [civilMonth]
    omega
  have hday : (153 * month + 2) / 5 + (day - monthStart month + 1) - 1 = day := by
    rw [monthStart] at hstart ⊢
    omega
  have hsub : era * 400 + (year : Int) - era * 400 = year := by omega
  have hquarter : (year : Int).fdiv 4 = year / 4 := Int.fdiv_eq_ediv_of_nonneg _ (by decide)
  have hcentury : (year : Int).fdiv 100 = year / 100 := Int.fdiv_eq_ediv_of_nonneg _ (by decide)
  rw [hcivil]
  simp only [daysFromCivil, hyear, hera, hmarch, hday, hsub, hquarter, hcentury]
  rw [yearStart] at hcounted
  omega

/-- **A date exists.** -/
theorem civilFromDays_valid (days : Int) :
    1 ≤ (civilFromDays days).2.2 ∧
      (civilFromDays days).2.2 ≤ Format.daysInMonth ((civilFromDays days).1.emod 400).toNat
        (civilFromDays days).2.1 := by
  obtain ⟨era, year, day, h, hcivil⟩ := exists_civil days
  have hmonth := monthOf_lt h.day_lt
  have hnext := lt_monthStart_succ day
  have hyear_lt := h.year_lt
  rw [hcivil]
  refine ⟨Nat.le_add_left 1 _, monthStart_succ_le hmonth _ (fun hfebruary hlast => ?_) hnext h.day_lt⟩
  have hleap := h.leap hlast
  have hyear : ((civilYear era year (civilMonth (monthOf day))).emod 400).toNat = (year + 1) % 400 := by
    rw [hfebruary, civilYear, civilMonth]
    change ((era * 400 + year + 1) % 400).toNat = (year + 1) % 400
    omega
  rwa [hyear]

theorem month_lt (days : Int) : (civilFromDays days).2.1 < 100 := by
  obtain ⟨era, year, day, h, hcivil⟩ := exists_civil days
  have hmonth := monthOf_lt h.day_lt
  rw [hcivil]
  simp only [civilMonth]
  omega

end Timestamp

end RequestGate
