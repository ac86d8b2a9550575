import Mathlib.Algebra.Order.Field.Power
import Mathlib.Tactic.FieldSimp
import Mathlib.Tactic.Linarith
import Mathlib.Tactic.NormNum
import Mathlib.Tactic.Positivity
import Mathlib.Tactic.Ring
import RequestGate.Number.Shortest
import RequestGate.Proofs.Text.Digits

/-!
# Rounding to the nearest double

A double names the numbers between the middles of the gaps to its neighbours
(`RequestGate.Binary64.Named`), and what it names is rounded to it
(`RequestGate.Binary64.ofRatio?_of_named`, `RequestGate.Binary64.ofDecimal?_of_named`). Rounding finds
the unit first, from the number and not from the double. That is the unit of the double, except just
below a power of two, where it is half as large and rounding carries into the next bit.
-/

namespace RequestGate.Binary64

variable {num den m : ℕ} {x : Binary64} {v : ℚ}

/-! ### Units -/

theorem cast_pow_toNat {e : ℤ} (b : ℕ) (he : 0 ≤ e) :
    ((Nat.pow b e.toNat : ℕ) : ℚ) = (b : ℚ) ^ e := by
  rw [Nat.pow_eq, Nat.cast_pow, ← zpow_natCast, Int.toNat_of_nonneg he]

theorem inUnits_pos (hden : 0 < den) (e : ℤ) : 0 < (inUnits num den e).2 := by
  rw [inUnits]
  split
  · exact Nat.mul_pos hden (Nat.pow_pos (by decide))
  · exact hden

/-- A quotient in other units is the quotient by the unit. -/
theorem inUnits_eq (num den : ℕ) (e : ℤ) :
    ((inUnits num den e).1 : ℚ) / (inUnits num den e).2 = num / den / 2 ^ e := by
  rw [inUnits]
  split
  · rename_i he
    rw [Nat.cast_mul, cast_pow_toNat 2 he, div_mul_eq_div_div]
    rfl
  · rename_i he
    have hneg : 0 ≤ -e := by omega
    rw [Nat.cast_mul, cast_pow_toNat 2 hneg, zpow_neg, mul_div_right_comm, ← div_eq_mul_inv]
    rfl

/-! ### The nearest integer -/

theorem divNearestEven_eq (hden : 0 < den) (hlow : 2 * (m * den) ≤ 2 * num + den)
    (hhigh : 2 * num ≤ 2 * (m * den) + den)
    (hodd : m % 2 = 1 → 2 * (m * den) < 2 * num + den ∧ 2 * num < 2 * (m * den) + den) :
    divNearestEven num den = m := by
  have hnum : den * (num / den) + num % den = num := Nat.div_add_mod num den
  have hr : num % den < den := Nat.mod_lt num hden
  rw [Nat.mul_comm den] at hnum
  simp only [divNearestEven]
  -- the quotient lies between `num / den` and the next number, and `m` can be neither below nor above
  rcases Nat.lt_trichotomy m (num / den) with hlt | heq | hgt
  · have hmul : (m + 1) * den ≤ num / den * den := Nat.mul_le_mul_right den hlt
    rw [Nat.add_mul] at hmul
    omega
  · rw [heq] at hlow hhigh hodd ⊢
    split
    · rfl
    · rename_i hnot
      have htie : 2 * (num % den) = den := by omega
      rw [if_pos htie]
      split
      · rfl
      · rename_i hparity
        have := hodd (by omega)
        omega
  · obtain ⟨k, rfl⟩ : ∃ k, m = num / den + 1 + k := ⟨m - (num / den + 1), by omega⟩
    rw [Nat.add_mul, Nat.add_mul, Nat.one_mul] at hlow hhigh hodd
    have hk : k = 0 := by
      by_contra hk
      have hmul : 1 * den ≤ k * den := Nat.mul_le_mul_right den (by omega)
      omega
    subst hk
    simp only [Nat.zero_mul, Nat.add_zero] at hlow hhigh hodd ⊢
    rw [if_neg (by omega)]
    split
    · rename_i htie
      rw [if_neg]
      intro hparity
      have := hodd (by omega)
      omega
    · rfl

/-- **Rounding to the nearest integer**, a half to the even one. -/
theorem divNearestEven_of_near (hden : 0 < den) (hlow : (m : ℚ) - 1 / 2 ≤ num / den)
    (hhigh : (num : ℚ) / den ≤ m + 1 / 2)
    (hodd : m % 2 = 1 → (m : ℚ) - 1 / 2 < num / den ∧ (num : ℚ) / den < m + 1 / 2) :
    divNearestEven num den = m := by
  have hpos : (0 : ℚ) < den := by exact_mod_cast hden
  rw [le_div_iff₀ hpos] at hlow
  rw [div_le_iff₀ hpos] at hhigh
  rw [lt_div_iff₀ hpos, div_lt_iff₀ hpos] at hodd
  refine divNearestEven_eq hden ?_ ?_ fun h => ?_
  · have hcast : (2 : ℚ) * (m * den) ≤ 2 * num + den := by linarith
    exact_mod_cast hcast
  · have hcast : (2 : ℚ) * num ≤ 2 * (m * den) + den := by linarith
    exact_mod_cast hcast
  · obtain ⟨h₁, h₂⟩ := hodd h
    have hcast₁ : (2 : ℚ) * (m * den) < 2 * num + den := by linarith
    have hcast₂ : (2 : ℚ) * num < 2 * (m * den) + den := by linarith
    exact ⟨by exact_mod_cast hcast₁, by exact_mod_cast hcast₂⟩

/-! ### The unit -/

/-- A number has 53 bits before the point in one unit at most. -/
theorem unit_le {e f : ℤ} (he : (2 : ℚ) ^ 52 ≤ v / 2 ^ e) (hf : v / 2 ^ f < 2 ^ 53) : e ≤ f := by
  by_contra hlt
  have hpow : (2 : ℚ) ^ (f + 1) ≤ 2 ^ e := zpow_le_zpow_right₀ (by norm_num) (by omega)
  rw [zpow_add₀ (by norm_num), zpow_one] at hpow
  rw [le_div_iff₀ (by positivity)] at he
  rw [div_lt_iff₀ (by positivity)] at hf
  linarith

theorem exists_log2 {n : ℕ} (hn : n ≠ 0) :
    (2 : ℚ) ^ (n.log2 : ℤ) ≤ n ∧ (n : ℚ) < 2 ^ (n.log2 : ℤ) * 2 := by
  have hle : ((2 ^ n.log2 : ℕ) : ℚ) ≤ n := by exact_mod_cast Nat.log2_self_le hn
  have hlt : (n : ℚ) < ((2 ^ (n.log2 + 1) : ℕ) : ℚ) := by exact_mod_cast Nat.lt_log2_self
  rw [Nat.cast_pow] at hle hlt
  rw [pow_succ] at hlt
  exact ⟨hle, hlt⟩

/-- The first guess is right, or one too large. -/
theorem guess_bounds (hnum : num ≠ 0) (hden : 0 < den) :
    (2 : ℚ) ^ 51 < num / den / 2 ^ ((num.log2 : ℤ) - den.log2 - 52) ∧
      (num : ℚ) / den / 2 ^ ((num.log2 : ℤ) - den.log2 - 52) < 2 ^ 53 := by
  obtain ⟨hnum₁, hnum₂⟩ := exists_log2 hnum
  obtain ⟨hden₁, hden₂⟩ := exists_log2 (Nat.ne_of_gt hden)
  -- the guess goes by leading bits alone, and is off by less than a factor of two
  have hunit : (2 : ℚ) ^ ((num.log2 : ℤ) - den.log2 - 52) * 2 ^ 52 * 2 ^ (den.log2 : ℤ) =
      2 ^ (num.log2 : ℤ) := by
    rw [← zpow_natCast, ← zpow_add₀ (by norm_num), ← zpow_add₀ (by norm_num)]
    congr 1
    push_cast
    ring
  have hpos : (0 : ℚ) < den := by exact_mod_cast hden
  have hunitpos : (0 : ℚ) < 2 ^ ((num.log2 : ℤ) - den.log2 - 52) := by positivity
  rw [div_div, lt_div_iff₀ (by positivity), div_lt_iff₀ (by positivity)]
  constructor
  · calc (2 : ℚ) ^ 51 * (den * 2 ^ ((num.log2 : ℤ) - den.log2 - 52))
        < 2 ^ 51 * ((2 ^ (den.log2 : ℤ) * 2) * 2 ^ ((num.log2 : ℤ) - den.log2 - 52)) := by gcongr
      _ = 2 ^ ((num.log2 : ℤ) - den.log2 - 52) * 2 ^ 52 * 2 ^ (den.log2 : ℤ) := by ring
      _ ≤ num := by rw [hunit]; exact hnum₁
  · calc (num : ℚ) < 2 ^ (num.log2 : ℤ) * 2 := hnum₂
      _ = 2 ^ 53 * (2 ^ (den.log2 : ℤ) * 2 ^ ((num.log2 : ℤ) - den.log2 - 52)) := by
          rw [← hunit]; ring
      _ ≤ 2 ^ 53 * (den * 2 ^ ((num.log2 : ℤ) - den.log2 - 52)) := by gcongr

/-- **The unit leaves 53 bits before the point**, or it is the least one. -/
theorem unitExponent_eq (hnum : num ≠ 0) (hden : 0 < den) :
    ∃ e : ℤ, unitExponent num den = max e (-1074) ∧ (2 : ℚ) ^ 52 ≤ num / den / 2 ^ e ∧
      (num : ℚ) / den / 2 ^ e < 2 ^ 53 := by
  obtain ⟨hlow, hhigh⟩ := guess_bounds hnum hden
  rw [unitExponent]
  generalize hguess : (num.log2 : ℤ) - den.log2 - 52 = guess at hlow hhigh ⊢
  have hpos : (0 : ℚ) < (inUnits num den guess).2 := by exact_mod_cast inUnits_pos hden guess
  have hscaled := inUnits_eq num den guess
  refine ⟨_, rfl, ?_⟩
  -- where the guess is too large, the next smaller unit doubles the quotient
  simp only [Nat.pow_eq]
  split
  · rename_i hless
    rw [Nat.div_lt_iff_lt_mul (inUnits_pos hden guess)] at hless
    have hcast : ((inUnits num den guess).1 : ℚ) < 2 ^ 52 * (inUnits num den guess).2 := by
      exact_mod_cast hless
    rw [← div_lt_iff₀ hpos, hscaled] at hcast
    rw [zpow_sub₀ (by norm_num), zpow_one, ← div_mul]
    constructor <;> linarith
  · rename_i hless
    rw [Nat.div_lt_iff_lt_mul (inUnits_pos hden guess), not_lt] at hless
    have hcast : (2 : ℚ) ^ 52 * (inUnits num den guess).2 ≤ (inUnits num den guess).1 := by
      exact_mod_cast hless
    rw [← le_div_iff₀ hpos, hscaled] at hcast
    exact ⟨hcast, hhigh⟩

/-! ### The nearest double -/

/-- Whether a number lies in the interval that rounds to `x`. -/
structure Named (x : Binary64) (v : ℚ) : Prop where
  low : (x.quarters.1 : ℚ) ≤ 4 * (v / 2 ^ x.exponent)
  high : 4 * (v / 2 ^ x.exponent) ≤ x.quarters.2
  strict : x.significand % 2 = 1 →
    (x.quarters.1 : ℚ) < 4 * (v / 2 ^ x.exponent) ∧ 4 * (v / 2 ^ x.exponent) < x.quarters.2

theorem ofParts?_self (x : Binary64) :
    ofParts? x.negative x.significand x.exponent = some x :=
  dif_pos x.canonical

/-- The ends of the interval; just above a power of two the lower one is twice as near. -/
theorem quarters_eq (hx : x.significand ≠ 0) :
    (x.quarters.2 : ℚ) = 4 * x.significand + 2 ∧
      (¬(x.significand = 2 ^ 52 ∧ -1074 < x.exponent) ∧
          (x.quarters.1 : ℚ) = 4 * x.significand - 2 ∨
        (x.significand = 2 ^ 52 ∧ -1074 < x.exponent) ∧
          (x.quarters.1 : ℚ) = 4 * x.significand - 1) := by
  simp only [quarters, Nat.pow_eq]
  refine ⟨by push_cast; ring, ?_⟩
  split
  · rename_i h
    refine Or.inr ⟨h, ?_⟩
    rw [Nat.cast_sub (by omega)]
    push_cast
    ring
  · rename_i h
    refine Or.inl ⟨h, ?_⟩
    rw [Nat.cast_sub (by omega)]
    push_cast
    ring

/-- In the unit of the double itself, a number that it names is rounded to its significand. -/
theorem divNearestEven_of_named (hx : x.significand ≠ 0) (hden : 0 < den)
    (h : x.Named (num / den)) :
    divNearestEven (inUnits num den x.exponent).1 (inUnits num den x.exponent).2 =
      x.significand := by
  obtain ⟨hlow, hhigh, hstrict⟩ := h
  obtain ⟨hupper, hlower⟩ := quarters_eq hx
  have hwide : (4 * x.significand - 2 : ℚ) ≤ x.quarters.1 := by
    rcases hlower with ⟨-, hlower⟩ | ⟨-, hlower⟩ <;> linarith
  rw [hupper] at hhigh hstrict
  rw [← inUnits_eq] at hlow hhigh hstrict
  refine divNearestEven_of_near (inUnits_pos hden _) (by linarith) (by linarith) fun hodd => ?_
  obtain ⟨hlow, hhigh⟩ := hstrict hodd
  exact ⟨by linarith, by linarith⟩

/-- **A named quotient is rounded to the double that it names.** -/
theorem ofRatio?_of_named (hx : x.significand ≠ 0) (hnum : num ≠ 0) (hden : 0 < den)
    (h : x.Named (num / den)) : ofRatio? x.negative num den = some x := by
  obtain ⟨e, hunit, he, he'⟩ := unitExponent_eq hnum hden
  obtain ⟨hsize, hleast, -, hfull⟩ := x.canonical
  rw [Nat.pow_eq] at hsize hfull
  have hround := divNearestEven_of_named hx hden h
  obtain ⟨hlow, hhigh, -⟩ := h
  obtain ⟨hupper, hlower⟩ := quarters_eq hx
  rw [hupper] at hhigh
  have hsize' : (x.significand : ℚ) + 1 ≤ 2 ^ 53 := by exact_mod_cast hsize
  -- in its own unit the double is found directly
  have hown : max e (-1074) = x.exponent → ofRatio? x.negative num den = some x := by
    intro hexponent
    rw [ofRatio?, if_neg hnum]
    simp only [hunit, hexponent, hround, Nat.pow_eq]
    rw [if_neg (by omega), ofParts?_self]
  rcases lt_or_ge ((num : ℚ) / den / 2 ^ x.exponent) (2 ^ 52) with hbelow | habove
  · rcases hlower with ⟨hnot, hlower⟩ | ⟨⟨hpower, hgreater⟩, hlower⟩
    · -- a number with fewer bits is rounded in the least unit
      have hexponent : x.exponent = -1074 := by
        by_contra hne
        have hbig := hfull.resolve_right hne
        have hless : (x.significand : ℚ) < 2 ^ 52 + 1 := by linarith
        have hless' : x.significand < 2 ^ 52 + 1 := by exact_mod_cast hless
        exact hnot ⟨by omega, by omega⟩
      have hle := unit_le he (f := x.exponent) (by linarith)
      exact hown (by omega)
    · -- just below a power of two the unit is half as large, and rounding carries into the next bit
      have hpower' : (x.significand : ℚ) = 2 ^ 52 := by exact_mod_cast hpower
      have hdouble : (num : ℚ) / den / 2 ^ (x.exponent - 1) = num / den / 2 ^ x.exponent * 2 := by
        rw [zpow_sub₀ (by norm_num), zpow_one, ← div_mul]
      have hle := unit_le he (f := x.exponent - 1) (by rw [hdouble]; linarith)
      have hge := unit_le (e := x.exponent - 1) (by rw [hdouble]; linarith) he'
      have hexponent : max e (-1074) = x.exponent - 1 := by omega
      have hcarry : divNearestEven (inUnits num den (x.exponent - 1)).1
          (inUnits num den (x.exponent - 1)).2 = 2 ^ 53 := by
        refine divNearestEven_of_near (inUnits_pos hden _) ?_ ?_ fun hodd => absurd hodd (by decide)
        · rw [inUnits_eq, hdouble]
          push_cast
          linarith
        · rw [inUnits_eq, hdouble]
          push_cast
          linarith
      rw [ofRatio?, if_neg hnum]
      simp only [hunit, hexponent, hcarry, Nat.pow_eq]
      rw [if_pos trivial, Int.sub_add_cancel, ← hpower, ofParts?_self]
  · have hle := unit_le he (f := x.exponent) (by linarith)
    have hge := unit_le habove he'
    exact hown (by omega)

/-! ### Decimals -/

/-- What a double names lies within the range of doubles. -/
theorem Named.bounds (hx : x.significand ≠ 0) (h : x.Named v) :
    (2 : ℚ) ^ (-1075 : ℤ) ≤ v ∧ v < 2 ^ (1024 : ℤ) := by
  obtain ⟨hsize, hleast, hmost, -⟩ := x.canonical
  rw [Nat.pow_eq] at hsize
  obtain ⟨hlow, hhigh, -⟩ := h
  obtain ⟨hupper, hlower⟩ := quarters_eq hx
  rw [hupper] at hhigh
  have hsize' : (x.significand : ℚ) + 1 ≤ 2 ^ 53 := by exact_mod_cast hsize
  have hone : (1 : ℚ) ≤ x.significand := by exact_mod_cast Nat.one_le_iff_ne_zero.mpr hx
  -- at a power of two the interval reaches only half as far down
  have hwide : (4 * x.significand - 2 : ℚ) ≤ x.quarters.1 := by
    rcases hlower with ⟨-, hlower⟩ | ⟨-, hlower⟩ <;> linarith
  have hhalf : (1 : ℚ) / 2 ≤ v / 2 ^ x.exponent := by linarith
  have hfull : v / 2 ^ x.exponent < 2 ^ 53 := by linarith
  rw [le_div_iff₀ (by positivity)] at hhalf
  rw [div_lt_iff₀ (by positivity)] at hfull
  constructor
  · calc (2 : ℚ) ^ (-1075 : ℤ) ≤ 2 ^ (x.exponent - 1) :=
          zpow_le_zpow_right₀ (by norm_num) (by omega)
      _ = 1 / 2 * 2 ^ x.exponent := by rw [zpow_sub₀ (by norm_num), zpow_one]; ring
      _ ≤ v := hhalf
  · calc v < 2 ^ 53 * 2 ^ x.exponent := hfull
      _ = 2 ^ (x.exponent + 53) := by rw [zpow_add₀ (by norm_num), mul_comm]; norm_cast
      _ ≤ 2 ^ (1024 : ℤ) := zpow_le_zpow_right₀ (by norm_num) (by omega)

/-- What a double names is not zero. -/
theorem Named.digits_ne_zero {digits : ℕ} {exponent : ℤ} (hx : x.significand ≠ 0)
    (h : x.Named (digits * 10 ^ exponent)) : digits ≠ 0 := by
  rintro rfl
  have hlow := (h.bounds hx).1
  rw [Nat.cast_zero, zero_mul] at hlow
  exact absurd hlow (not_le.mpr (by positivity))

/-- Doubles are less than `10 ^ 310`, and not less than `10 ^ -331` unless they are zero. -/
theorem pow_bounds :
    (2 : ℚ) ^ (1024 : ℤ) < 10 ^ (310 : ℤ) ∧ (10 : ℚ) ^ (-331 : ℤ) < 2 ^ (-1075 : ℤ) := by
  have hlarge : 2 ^ 1024 < 10 ^ 310 := by decide +kernel
  have hsmall : 2 ^ 1075 < 10 ^ 331 := by decide +kernel
  constructor
  · exact_mod_cast hlarge
  · rw [zpow_neg, zpow_neg]
    exact inv_strictAnti₀ (by positivity) (by exact_mod_cast hsmall)

/-- **A decimal is read as the double that it names.** -/
theorem ofDecimal?_of_named {digits : ℕ} {exponent : ℤ} (hx : x.significand ≠ 0)
    (h : x.Named (digits * 10 ^ exponent)) : ofDecimal? x.negative digits exponent = some x := by
  obtain ⟨hlow, hhigh⟩ := h.bounds hx
  have hdigits : digits ≠ 0 := h.digits_ne_zero hx
  obtain ⟨k, hlength, hk, hk'⟩ := Text.exists_length_toDigits hdigits
  have hcount : (toString digits).length = k + 1 := by
    rw [Nat.toString_eq_ofList_toDigits, String.length_ofList, hlength]
  have hkq : (10 : ℚ) ^ (k : ℤ) ≤ digits := by exact_mod_cast hk
  have hkq' : (digits : ℚ) < 10 ^ ((k : ℤ) + 1) := by exact_mod_cast hk'
  have hmost : (k : ℤ) + exponent < 310 := by
    refine (zpow_lt_zpow_iff_right₀ (a := (10 : ℚ)) (by norm_num)).mp ?_
    calc (10 : ℚ) ^ ((k : ℤ) + exponent) = 10 ^ (k : ℤ) * 10 ^ exponent :=
          zpow_add₀ (by norm_num) _ _
      _ ≤ digits * 10 ^ exponent := by gcongr
      _ < 2 ^ (1024 : ℤ) := hhigh
      _ < 10 ^ (310 : ℤ) := pow_bounds.1
  have hleast : -331 < (k : ℤ) + 1 + exponent := by
    refine (zpow_lt_zpow_iff_right₀ (a := (10 : ℚ)) (by norm_num)).mp ?_
    calc (10 : ℚ) ^ (-331 : ℤ) < 2 ^ (-1075 : ℤ) := pow_bounds.2
      _ ≤ digits * 10 ^ exponent := hlow
      _ < 10 ^ ((k : ℤ) + 1) * 10 ^ exponent := by gcongr
      _ = 10 ^ ((k : ℤ) + 1 + exponent) := (zpow_add₀ (by norm_num) _ _).symm
  -- a named decimal is neither too large nor too small to be expanded
  rw [ofDecimal?, if_neg hdigits]
  simp only [hcount]
  rw [if_neg (by push_cast; omega), if_neg (by push_cast; omega)]
  split
  · rename_i hexponent
    refine ofRatio?_of_named hx ?_ Nat.one_pos ?_
    · exact Nat.mul_ne_zero hdigits (Nat.ne_of_gt (Nat.pow_pos (by decide)))
    · rwa [Nat.cast_mul, cast_pow_toNat 10 hexponent, Nat.cast_one, div_one]
  · rename_i hexponent
    have hneg : 0 ≤ -exponent := by omega
    refine ofRatio?_of_named hx hdigits (Nat.pow_pos (by decide)) ?_
    rwa [cast_pow_toNat 10 hneg, zpow_neg, div_inv_eq_mul]

end RequestGate.Binary64
