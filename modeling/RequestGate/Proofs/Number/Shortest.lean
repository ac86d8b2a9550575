import RequestGate.Proofs.Number.Rounding

/-!
# The shortest decimal names its double

The search for a short decimal looks, for each number of digits, at the two decimals next to the double,
and takes only what names it (`RequestGate.Binary64.names_iff`). It ends with a find, because seventeen
digits are finer than the gaps between doubles (`RequestGate.Binary64.exists_names`). That rests on the
magnitude of the double, which is guessed from its bits and is not too large
(`RequestGate.Binary64.pow_magnitude_le`).
-/

namespace RequestGate.Binary64

variable {x : Binary64}

/-! ### Powers -/

theorem powRatio_pos {b : ℕ} (hb : 0 < b) (e : ℤ) :
    0 < (powRatio b e).1 ∧ 0 < (powRatio b e).2 := by
  rw [powRatio]
  split
  · exact ⟨Nat.pow_pos hb, Nat.one_pos⟩
  · exact ⟨Nat.one_pos, Nat.pow_pos hb⟩

theorem powRatio_eq (b : ℕ) (e : ℤ) :
    ((powRatio b e).1 : ℚ) / (powRatio b e).2 = (b : ℚ) ^ e := by
  rw [powRatio]
  split
  · rename_i he
    rw [cast_pow_toNat b he, Nat.cast_one, div_one]
  · rename_i he
    have hneg : 0 ≤ -e := by omega
    rw [cast_pow_toNat b hneg, Nat.cast_one, zpow_neg, one_div, inv_inv]

/-- Quotients are compared crosswise. -/
theorem mul_le_mul_iff_div {a b c d : ℕ} (hb : 0 < b) (hd : 0 < d) :
    a * d ≤ c * b ↔ (a : ℚ) / b ≤ c / d := by
  have hb' : (0 : ℚ) < b := by exact_mod_cast hb
  have hd' : (0 : ℚ) < d := by exact_mod_cast hd
  rw [div_le_div_iff₀ hb' hd']
  exact_mod_cast Iff.rfl

/-! ### Magnitude -/

section Logarithm

variable {p q : ℕ} {e l : ℤ}

/-- A power of two above a power of ten bounds the powers of ten that are below one of two. -/
theorem pow_ten_le_of_above (h : (10 : ℚ) ^ p ≤ 2 ^ q) (hq : q ≠ 0) (hl : 0 ≤ l)
    (he : e * q ≤ p * l) : (10 : ℚ) ^ e ≤ 2 ^ l := by
  refine (pow_le_pow_iff_left₀ (by positivity) (by positivity) hq).mp ?_
  calc ((10 : ℚ) ^ e) ^ q = 10 ^ (e * q) := by rw [zpow_mul, zpow_natCast]
    _ ≤ 10 ^ (p * l) := zpow_le_zpow_right₀ (by norm_num) he
    _ = (10 ^ p) ^ l := by rw [zpow_mul, zpow_natCast]
    _ ≤ (2 ^ q) ^ l := zpow_le_zpow_left₀ hl (by positivity) h
    _ = (2 ^ l) ^ q := by
      rw [← zpow_natCast, ← zpow_natCast, ← zpow_mul, ← zpow_mul, mul_comm]

/-- The same for negative exponents, where the power of two is the smaller one. -/
theorem pow_ten_le_of_below (h : (2 : ℚ) ^ q ≤ 10 ^ p) (hq : q ≠ 0) (hl : l ≤ 0)
    (he : e * q ≤ p * l) : (10 : ℚ) ^ e ≤ 2 ^ l := by
  refine (pow_le_pow_iff_left₀ (by positivity) (by positivity) hq).mp ?_
  have hinv : ((2 : ℚ) ^ q) ^ (-l) ≤ (10 ^ p) ^ (-l) :=
    zpow_le_zpow_left₀ (by omega) (by positivity) h
  calc ((10 : ℚ) ^ e) ^ q = 10 ^ (e * q) := by rw [zpow_mul, zpow_natCast]
    _ ≤ 10 ^ (p * l) := zpow_le_zpow_right₀ (by norm_num) he
    _ = (10 ^ p) ^ l := by rw [zpow_mul, zpow_natCast]
    _ = ((10 ^ p) ^ (-l))⁻¹ := by rw [zpow_neg, inv_inv]
    _ ≤ ((2 ^ q) ^ (-l))⁻¹ := inv_anti₀ (by positivity) hinv
    _ = (2 ^ q) ^ l := by rw [zpow_neg, inv_inv]
    _ = (2 ^ l) ^ q := by
      rw [← zpow_natCast, ← zpow_natCast, ← zpow_mul, ← zpow_mul, mul_comm]

/-- The guess at a decimal exponent is too large by one at most. -/
theorem pow_guess_le (hleast : -1074 ≤ l) (hmost : l ≤ 1023) :
    (10 : ℚ) ^ (l * 30103 / 100000 - 1) ≤ 2 ^ l := by
  -- both quotients of exponents are `log 2` to five digits, one from above and one from below
  rcases le_or_gt 0 l with hl | hl
  · have habove : 10 ^ 643 ≤ 2 ^ 2136 := by decide +kernel
    refine pow_ten_le_of_above (p := 643) (q := 2136) ?_ (by decide) hl (by push_cast; omega)
    exact_mod_cast habove
  · have hbelow : 2 ^ 485 ≤ 10 ^ 146 := by decide +kernel
    refine pow_ten_le_of_below (p := 146) (q := 485) ?_ (by decide) hl.le (by push_cast; omega)
    exact_mod_cast hbelow

end Logarithm

theorem absRatio_eq (x : Binary64) :
    0 < x.absRatio.2 ∧ (x.absRatio.1 : ℚ) / x.absRatio.2 = x.significand * 2 ^ x.exponent := by
  rw [absRatio]
  split
  · rename_i he
    refine ⟨Nat.one_pos, ?_⟩
    rw [Nat.cast_mul, cast_pow_toNat 2 he, Nat.cast_one, div_one]
    rfl
  · rename_i he
    have hneg : 0 ≤ -x.exponent := by omega
    refine ⟨Nat.pow_pos (by decide), ?_⟩
    rw [cast_pow_toNat 2 hneg, zpow_neg, div_inv_eq_mul]
    rfl

/-- **The magnitude of a double is not too large.** -/
theorem pow_magnitude_le (hx : x.significand ≠ 0) :
    (10 : ℚ) ^ x.decimalMagnitude ≤ x.significand * 2 ^ x.exponent := by
  obtain ⟨hden, hvalue⟩ := absRatio_eq x
  have hatLeast : ∀ e : ℤ, (powRatio 10 e).1 * x.absRatio.2 ≤ x.absRatio.1 * (powRatio 10 e).2 →
      (10 : ℚ) ^ e ≤ x.significand * 2 ^ x.exponent := by
    intro e he
    rw [mul_le_mul_iff_div (powRatio_pos (by decide) e).2 hden, powRatio_eq, hvalue] at he
    exact he
  simp only [decimalMagnitude]
  split
  · rename_i h
    exact hatLeast _ (of_decide_eq_true h)
  · split
    · rename_i h
      exact hatLeast _ (of_decide_eq_true h)
    · -- neither was tested, so the guess itself has to be good enough
      obtain ⟨hsize, hleast, hmost, -⟩ := x.canonical
      obtain ⟨hlog, -⟩ := exists_log2 hx
      have hbits : x.significand.log2 < 53 := (Nat.log2_lt hx).mpr hsize
      calc (10 : ℚ) ^ (((x.significand.log2 : ℤ) + x.exponent) * 30103 / 100000 - 1)
          ≤ 2 ^ ((x.significand.log2 : ℤ) + x.exponent) := pow_guess_le (by omega) (by omega)
        _ = 2 ^ (x.significand.log2 : ℤ) * 2 ^ x.exponent := zpow_add₀ (by norm_num) _ _
        _ ≤ x.significand * 2 ^ x.exponent := by gcongr

/-! ### Decimals that name a double -/

/-- The number that a decimal stands for. -/
def Decimal.value (d : Decimal) : ℚ := d.digits * 10 ^ d.exponent

/-- Trailing zeros may stand in the exponent. -/
theorem Decimal.value_strip (d : Decimal) : d.strip.value = d.value := by
  induction d using Decimal.strip.induct with
  | case1 d h ih =>
    have htens : ((d.digits / 10 : ℕ) : ℚ) * 10 = d.digits := by
      exact_mod_cast Nat.div_mul_cancel (Nat.dvd_of_mod_eq_zero h.2)
    rw [Decimal.strip, dif_pos h, ih, value, value, zpow_add₀ (by norm_num), zpow_one, ← htens]
    ring
  | case2 d h => rw [Decimal.strip, dif_neg h]

/-- One step of the decimal grid in quarters of the last place. -/
def quartersPerStep (x : Binary64) (place : ℤ) : ℚ := 4 * (10 ^ place / 2 ^ x.exponent)

theorem scale_pos (x : Binary64) (place : ℤ) : 0 < x.scale place :=
  Nat.mul_pos (powRatio_pos (by decide) _).1 (powRatio_pos (by decide) _).2

theorem step_pos (x : Binary64) (place : ℤ) : 0 < x.step place :=
  Nat.mul_pos (powRatio_pos (by decide) _).1 (powRatio_pos (by decide) _).2

theorem cast_step (x : Binary64) (place : ℤ) :
    (x.step place : ℚ) = x.quartersPerStep place * x.scale place := by
  have hunit := powRatio_eq 2 (x.exponent - 2)
  have hgrid := powRatio_eq 10 place
  have hunitpos : (0 : ℚ) < (powRatio 2 (x.exponent - 2)).2 := by
    exact_mod_cast (powRatio_pos (b := 2) (by decide) _).2
  have hgridpos : (0 : ℚ) < (powRatio 10 place).2 := by
    exact_mod_cast (powRatio_pos (b := 10) (by decide) _).2
  rw [div_eq_iff hunitpos.ne'] at hunit
  rw [div_eq_iff hgridpos.ne'] at hgrid
  rw [step, scale, quartersPerStep, Nat.cast_mul, Nat.cast_mul, hunit, hgrid,
    zpow_sub₀ (by norm_num)]
  field_simp
  norm_num
  ring

variable {place : ℤ} {a c : ℕ}

theorem le_step_iff :
    a * x.scale place ≤ c * x.step place ↔ (a : ℚ) ≤ c * x.quartersPerStep place := by
  have hpos : (0 : ℚ) < x.scale place := by exact_mod_cast scale_pos x place
  rw [← mul_le_mul_iff_left₀ hpos, mul_assoc, ← cast_step]
  exact_mod_cast Iff.rfl

theorem step_le_iff :
    c * x.step place ≤ a * x.scale place ↔ c * x.quartersPerStep place ≤ (a : ℚ) := by
  have hpos : (0 : ℚ) < x.scale place := by exact_mod_cast scale_pos x place
  rw [← mul_le_mul_iff_left₀ hpos, mul_assoc, ← cast_step]
  exact_mod_cast Iff.rfl

/-- A decimal on the grid, in quarters of the last place. -/
theorem grid_eq (x : Binary64) (place : ℤ) (c : ℕ) :
    4 * ((c : ℚ) * 10 ^ place / 2 ^ x.exponent) = c * x.quartersPerStep place := by
  rw [quartersPerStep]
  ring

/-- **The check is right.** -/
theorem names_iff : x.names place c = true ↔ x.Named (c * 10 ^ place) := by
  simp only [names]
  split
  · rename_i heven
    rw [Bool.and_eq_true, decide_eq_true_eq, decide_eq_true_eq, le_step_iff, step_le_iff, ← grid_eq]
    exact ⟨fun h => ⟨h.1, h.2, fun hodd => by omega⟩, fun h => ⟨h.low, h.high⟩⟩
  · rename_i hodd
    rw [Bool.and_eq_true, decide_eq_true_eq, decide_eq_true_eq, ← not_le, ← not_le, step_le_iff,
      le_step_iff, not_le, not_le, ← grid_eq]
    exact ⟨fun h => ⟨h.1.le, h.2.le, fun _ => h⟩, fun h => h.strict (by omega)⟩

/-- Inside the interval its ends do not matter. -/
theorem names_of_inside (hlow : x.quarters.1 < c * x.quartersPerStep place)
    (hhigh : c * x.quartersPerStep place < x.quarters.2) : x.names place c = true := by
  rw [← grid_eq] at hlow hhigh
  exact names_iff.mpr ⟨hlow.le, hhigh.le, fun _ => ⟨hlow, hhigh⟩⟩

/-- The steps of the grid up to the double. -/
def stepsBelow (x : Binary64) (place : ℤ) : ℕ :=
  4 * x.significand * x.scale place / x.step place

/-- What is found names the double, and what lies next to the double is found. -/
theorem nearestNaming?_cases (x : Binary64) (n : ℕ) :
    (x.nearestNaming? n = none ∧ x.names (x.lastPlace n) (x.stepsBelow (x.lastPlace n)) = false ∧
        x.names (x.lastPlace n) (x.stepsBelow (x.lastPlace n) + 1) = false) ∨
      ∃ c, x.names (x.lastPlace n) c = true ∧
        x.nearestNaming? n = some (Decimal.strip ⟨c, x.lastPlace n⟩) := by
  simp only [nearestNaming?, stepsBelow]
  generalize 4 * x.significand * x.scale (x.lastPlace n) / x.step (x.lastPlace n) = below
  cases hbelow : x.names (x.lastPlace n) below <;>
    cases habove : x.names (x.lastPlace n) (below + 1) <;> simp only
  · exact Or.inl ⟨trivial, trivial, trivial⟩
  · exact Or.inr ⟨_, habove, rfl⟩
  · exact Or.inr ⟨_, hbelow, rfl⟩
  · refine Or.inr ?_
    split
    · exact ⟨_, hbelow, rfl⟩
    · split
      · exact ⟨_, habove, rfl⟩
      · split
        · exact ⟨_, hbelow, rfl⟩
        · exact ⟨_, habove, rfl⟩

/-- The double lies between two neighbours of the grid. -/
theorem stepsBelow_bounds (x : Binary64) (place : ℤ) :
    x.stepsBelow place * x.quartersPerStep place ≤ 4 * x.significand ∧
      (4 * x.significand : ℚ) < ((x.stepsBelow place + 1 : ℕ) : ℚ) * x.quartersPerStep place := by
  have hlow : x.stepsBelow place * x.step place ≤ 4 * x.significand * x.scale place :=
    Nat.div_mul_le_self _ _
  have hhigh : ¬(x.stepsBelow place + 1) * x.step place ≤ 4 * x.significand * x.scale place :=
    Nat.not_le.mpr ((Nat.div_lt_iff_lt_mul (step_pos x place)).mp (Nat.lt_succ_self _))
  rw [step_le_iff] at hlow hhigh
  push_cast at hlow hhigh ⊢
  exact ⟨hlow, not_le.mp hhigh⟩

/-- Seventeen digits are finer than doubles. -/
theorem quartersPerStep_le (hx : x.significand ≠ 0) :
    x.quartersPerStep (x.lastPlace 17) * 10 ^ 16 ≤ 4 * x.significand := by
  have hmagnitude := pow_magnitude_le hx
  have hplace : (10 : ℚ) ^ x.lastPlace 17 * 10 ^ 16 = 10 ^ x.decimalMagnitude := by
    rw [← zpow_natCast, ← zpow_add₀ (by norm_num), lastPlace]
    congr 1
    push_cast
    ring
  rw [← hplace, ← div_le_iff₀ (by positivity)] at hmagnitude
  have hsteps : x.quartersPerStep (x.lastPlace 17) * 10 ^ 16 =
      4 * (10 ^ x.lastPlace 17 * 10 ^ 16 / 2 ^ x.exponent) := by
    rw [quartersPerStep]
    ring
  rw [hsteps]
  linarith

/-- **Seventeen digits suffice**: one of the two neighbours names the double. -/
theorem exists_names (hx : x.significand ≠ 0) :
    x.names (x.lastPlace 17) (x.stepsBelow (x.lastPlace 17)) = true ∨
      x.names (x.lastPlace 17) (x.stepsBelow (x.lastPlace 17) + 1) = true := by
  obtain ⟨hsize, -⟩ := x.canonical
  have hsize' : (x.significand : ℚ) < 2 ^ 53 := by exact_mod_cast hsize
  have hfine := quartersPerStep_le hx
  obtain ⟨hbelow, habove⟩ := stepsBelow_bounds x (x.lastPlace 17)
  have hnext : ((x.stepsBelow (x.lastPlace 17) + 1 : ℕ) : ℚ) * x.quartersPerStep (x.lastPlace 17) =
      x.stepsBelow (x.lastPlace 17) * x.quartersPerStep (x.lastPlace 17) +
        x.quartersPerStep (x.lastPlace 17) := by
    push_cast
    ring
  obtain ⟨hupper, ⟨-, hlower⟩ | ⟨⟨hpower, -⟩, hlower⟩⟩ := quarters_eq hx
  · -- a step is shorter than the interval, so it cannot reach across
    rcases lt_or_ge (4 * x.significand - 2 : ℚ)
      (x.stepsBelow (x.lastPlace 17) * x.quartersPerStep (x.lastPlace 17)) with hnear | hfar
    · refine Or.inl (names_of_inside ?_ ?_)
      · rwa [hlower]
      · rw [hupper]
        linarith
    · refine Or.inr (names_of_inside ?_ ?_)
      · rw [hlower]
        linarith
      · rw [hupper, hnext]
        linarith
  · -- below a power of two the interval is shorter, but the one above it is no shorter than a step
    have hpower' : (x.significand : ℚ) = 2 ^ 52 := by exact_mod_cast hpower
    refine Or.inr (names_of_inside ?_ ?_)
    · rw [hlower]
      linarith
    · rw [hupper, hnext]
      linarith

/-- **The shortest decimal names the double.** -/
theorem named_shortest (hx : x.significand ≠ 0) : x.Named x.shortest.value := by
  have hfound : ∃ d, (List.range 17).findSome? (fun n => x.nearestNaming? (n + 1)) = some d := by
    refine Option.isSome_iff_exists.mp (List.findSome?_isSome_iff.mpr ⟨16, by decide, ?_⟩)
    rcases nearestNaming?_cases x 17 with ⟨-, hbelow, habove⟩ | ⟨c, -, hc⟩
    · rcases exists_names hx with h | h
      · cases hbelow.symm.trans h
      · cases habove.symm.trans h
    · exact Option.isSome_iff_exists.mpr ⟨_, hc⟩
  obtain ⟨d, hd⟩ := hfound
  have hzero : ¬x.isZero = true := by simpa [isZero] using hx
  rw [shortest, if_neg hzero, hd, Option.getD_some]
  obtain ⟨n, -, hn⟩ := List.exists_of_findSome?_eq_some hd
  rcases nearestNaming?_cases x (n + 1) with ⟨hnone, -⟩ | ⟨c, hnames, hc⟩
  · cases hnone.symm.trans hn
  · obtain rfl := Option.some.inj (hc.symm.trans hn)
    rw [Decimal.value_strip]
    exact names_iff.mp hnames

end RequestGate.Binary64
