import RequestGate.Proofs.Number.Shortest

/-!
# Rounding keeps to powers of two

Within the range of the doubles, a power of two that is not below the least unit is a double itself. So a
number that has reached it is not rounded to anything below it (`RequestGate.Binary64.pow_le_of_ofRatio?`),
and if what it is rounded to is taken for a whole number, that is as large
(`RequestGate.Binary64.natAbs_of_toInt?`).
-/

namespace RequestGate.Binary64

variable {num den : ℕ} {x : Binary64} {negative : Bool}

/-- The absolute value. -/
def magnitude (x : Binary64) : ℚ := x.significand * 2 ^ x.exponent

/-- The nearest integer is not below an integer that has been reached. -/
theorem le_divNearestEven {m : ℕ} (hden : 0 < den) (h : (m : ℚ) ≤ num / den) :
    m ≤ divNearestEven num den := by
  rw [le_div_iff₀ (by exact_mod_cast hden)] at h
  have hquotient : m ≤ num / den := (Nat.le_div_iff_mul_le hden).mpr (by exact_mod_cast h)
  simp only [divNearestEven]
  repeat' split
  all_goals omega

/-- Whether the last bit is carried or not, a rounded quotient is the nearest number of units. -/
theorem magnitude_of_ofRatio? (hnum : num ≠ 0) (h : ofRatio? negative num den = some x) :
    x.magnitude = divNearestEven (inUnits num den (unitExponent num den)).1
      (inUnits num den (unitExponent num den)).2 * 2 ^ unitExponent num den := by
  have hparts : ∀ {significand exponent}, ofParts? negative significand exponent = some x →
      x.magnitude = significand * 2 ^ exponent := by
    intro significand exponent h
    rw [ofParts?] at h
    split at h
    · exact Option.some.inj h ▸ rfl
    · cases h
  rw [ofRatio?, if_neg hnum] at h
  simp only [Nat.pow_eq] at h
  split at h
  · rename_i hcarry
    rw [hparts h, hcarry, zpow_add₀ (by norm_num), zpow_one]
    push_cast
    ring
  · exact hparts h

/-- **Nothing is rounded to below a power of two that it has reached.** -/
theorem pow_le_of_ofRatio? {k : ℤ} (hk : -1074 ≤ k) (hden : 0 < den)
    (hpow : (2 : ℚ) ^ k ≤ num / den) (h : ofRatio? negative num den = some x) :
    (2 : ℚ) ^ k ≤ x.magnitude := by
  have hnum : num ≠ 0 := by
    rintro rfl
    rw [Nat.cast_zero, zero_div] at hpow
    exact absurd hpow (not_le.mpr (by positivity))
  obtain ⟨e, hunit, he, -⟩ := unitExponent_eq hnum hden
  have hround : ∀ m : ℕ, (m : ℚ) ≤ num / den / 2 ^ unitExponent num den → _ := fun m hm =>
    le_divNearestEven (inUnits_pos hden _) (hm.trans_eq (inUnits_eq num den _).symm)
  rw [magnitude_of_ofRatio? hnum h]
  generalize divNearestEven _ _ = significand at hround ⊢
  generalize unitExponent num den = unit at hunit hround ⊢
  rcases le_or_gt unit k with hle | hgt
  · -- the power is a number of units
    have hsplit : (2 : ℚ) ^ k = ((2 ^ (k - unit).toNat : ℕ) : ℚ) * 2 ^ unit := by
      rw [Nat.cast_pow, ← zpow_natCast, Int.toNat_of_nonneg (by omega), Nat.cast_ofNat,
        ← zpow_add₀ (by norm_num), Int.sub_add_cancel]
    have hunits : 2 ^ (k - unit).toNat ≤ significand := by
      refine hround _ ?_
      rwa [le_div_iff₀ (by positivity), ← hsplit]
    rw [hsplit]
    gcongr
  · -- the power is less than one unit, and there are many
    have hown : unit = e := by omega
    have hone : 1 ≤ significand := hround 1 (by rw [hown, Nat.cast_one]; linarith)
    have hone' : (1 : ℚ) ≤ significand := by exact_mod_cast hone
    calc (2 : ℚ) ^ k ≤ 2 ^ unit := zpow_le_zpow_right₀ (by norm_num) hgt.le
      _ = 1 * 2 ^ unit := (one_mul _).symm
      _ ≤ significand * 2 ^ unit := by gcongr

theorem pow_le_of_ofDecimal? {digits : ℕ} {k : ℤ} (hk : -1074 ≤ k) (hpow : (2 : ℚ) ^ k ≤ digits)
    (h : ofDecimal? negative digits 0 = some x) : (2 : ℚ) ^ k ≤ x.magnitude := by
  have hdigits : digits ≠ 0 := by
    rintro rfl
    exact absurd hpow (not_le.mpr (by positivity))
  rw [ofDecimal?, if_neg hdigits] at h
  dsimp only at h
  split at h
  · cases h
  · rw [if_neg (by omega), if_pos le_rfl, Int.toNat_zero, Nat.pow_eq, pow_zero, Nat.mul_one] at h
    exact pow_le_of_ofRatio? hk Nat.one_pos (by simpa using hpow) h

/-- The whole number that a double is taken for is as large as the double. -/
theorem natAbs_of_toInt? {n : ℤ} (h : x.toInt? = some n) : (n.natAbs : ℚ) = x.magnitude := by
  obtain ⟨hden, hvalue⟩ := absRatio_eq x
  simp only [toInt?, isIntegral, toRatio, Option.ite_none_right_eq_some, beq_iff_eq] at h
  obtain ⟨hintegral, hn⟩ := h
  obtain ⟨q, hq⟩ : x.absRatio.2 ∣ x.absRatio.1 := Nat.dvd_of_mod_eq_zero hintegral
  have habs : n.natAbs = q := by
    have hpos : (x.absRatio.2 : ℤ) ≠ 0 := by omega
    obtain rfl := Option.some.inj hn
    rw [hq, Nat.cast_mul]
    split
    · rw [← mul_neg, Int.mul_ediv_cancel_left _ hpos, Int.natAbs_neg, Int.natAbs_natCast]
    · rw [Int.mul_ediv_cancel_left _ hpos, Int.natAbs_natCast]
  have hpos : (x.absRatio.2 : ℚ) ≠ 0 := by exact_mod_cast hden.ne'
  rw [magnitude, ← hvalue, hq, habs, Nat.cast_mul, mul_div_cancel_left₀ _ hpos]

end RequestGate.Binary64
