import RequestGate.Proofs.Json.Literal
import RequestGate.Proofs.Number.Shortest

/-!
# Numbers in text

The text of a number is a literal that denotes this number (`RequestGate.Number.exists_literal`),
except for whole numbers that are out of range. For a double that needs two facts: the literal shows its
shortest decimal, whichever of the layouts that is written in
(`RequestGate.Number.exists_shows_layout`), and a decimal that names a double is read as this double.
-/

namespace RequestGate

open Json Text

namespace Json

/-! ### Decimals that are shown -/

/-- The decimal that a literal shows. -/
def Literal.decimal (l : Literal) : Binary64.Decimal :=
  ⟨digitsValue (l.whole ++ l.fraction.getD []), l.exponent.getD 0 - (l.fraction.getD []).length⟩

/-- A literal with a point or an exponent denotes a double. -/
theorem Literal.value?_of_broken {l : Literal} (h : l.fraction ≠ none ∨ l.exponent ≠ none) :
    l.value? =
      (Binary64.ofDecimal? l.negative l.decimal.digits l.decimal.exponent).map .float := by
  obtain ⟨negative, whole, fraction, exponent⟩ := l
  cases fraction with
  | some digits => rfl
  | none =>
    cases exponent with
    | some n => rfl
    | none => exact absurd h (by simp)

theorem isDigit_of_mem_toDigits {c : Char} {n : Nat} (h : c ∈ Nat.toDigits 10 n) :
    c.isDigit = true :=
  Nat.isDigit_of_mem_toDigits (by decide) (by decide) h

theorem isDigit_of_mem_zeros {c : Char} {n : Nat} (h : c ∈ List.replicate n '0') :
    c.isDigit = true := by
  rw [List.eq_of_mem_replicate h]
  rfl

/-- Digits that start like a number that is not zero are no number with a zero in front. -/
theorem isWhole_of_head {cs : List Char} {n : Nat} (hn : n ≠ 0) (hdigits : ∀ c ∈ cs, c.isDigit = true)
    (hhead : cs.head? = (Nat.toDigits 10 n).head?) : IsWhole cs where
  digits := hdigits
  ne_nil := by
    rintro rfl
    exact Nat.toDigits_ne_nil (List.head?_eq_none_iff.mp hhead.symm)
  leading hzero := absurd (hhead.symm.trans hzero) (head?_toDigits hn)

theorem isWhole_toDigits (n : Nat) : IsWhole (Nat.toDigits 10 n) := by
  by_cases hn : n = 0
  · subst hn
    exact ⟨fun _ => isDigit_of_mem_toDigits, Nat.toDigits_ne_nil, fun _ => rfl⟩
  · exact isWhole_of_head hn (fun _ => isDigit_of_mem_toDigits) rfl

end Json

namespace Number

open Binary64 (Decimal)

/-! ### Layouts -/

variable {d : Decimal} {k : Nat}

theorem toList_zeros (n : Nat) : (zeros n).toList = List.replicate n '0' := String.toList_ofList

theorem toList_withPoint (digits : String) (n : Nat) :
    (withPoint digits n).toList = digits.toList.take n ++ '.' :: digits.toList.drop n := by
  simp [withPoint]

theorem toList_digits (n : Nat) : (toString n).toList = Nat.toDigits 10 n := by
  rw [Nat.toString_eq_ofList_toDigits, String.toList_ofList]

/-- Whether a literal shows a decimal, and has this text after its sign. -/
structure Shows (l : Literal) (d : Decimal) (body : List Char) : Prop where
  proper : l.Proper
  broken : l.fraction ≠ none ∨ l.exponent ≠ none
  value : l.decimal.value = d.value
  text : l.text = (if l.negative then ['-'] else []) ++ body

variable (negative : Bool) (hd : d.digits ≠ 0)
  (hcount : (Nat.toDigits 10 d.digits).length = k + 1)

include hd in
/-- Zeros behind the digits, and `.0`. -/
theorem shows_whole (hexponent : 0 ≤ d.exponent) :
    Shows
      ⟨negative, Nat.toDigits 10 d.digits ++ List.replicate d.exponent.toNat '0', some ['0'], none⟩ d
      (Nat.toDigits 10 d.digits ++ List.replicate d.exponent.toNat '0' ++ ['.', '0']) where
  proper :=
    { whole := isWhole_of_head hd
        (fun c hc => (List.mem_append.mp hc).elim isDigit_of_mem_toDigits isDigit_of_mem_zeros)
        (List.head?_append_of_ne_nil _ Nat.toDigits_ne_nil)
      fraction := by simp }
  broken := by simp
  value := by
    have hpower : ((10 ^ d.exponent.toNat : ℕ) : ℚ) = 10 ^ d.exponent :=
      Binary64.cast_pow_toNat 10 hexponent
    have hdigits : digitsValue (Nat.toDigits 10 d.digits ++
        List.replicate d.exponent.toNat '0' ++ ['0']) = d.digits * 10 ^ d.exponent.toNat * 10 := by
      rw [digitsValue_append, digitsValue_append_zeros, digitsValue_toDigits]
      rfl
    simp only [Decimal.value, Literal.decimal, Option.getD_some, Option.getD_none, hdigits,
      Nat.cast_mul, hpower]
    norm_num
    ring
  text := by simp [Literal.text, fractionText, powerText]

include hd hcount in
/-- A point among the digits, with or without an exponent. -/
theorem shows_split {j : Nat} (exponent : Option Int) (hj : j < k)
    (hexponent : exponent.getD 0 = d.exponent + (k - j)) :
    Shows
      ⟨negative, (Nat.toDigits 10 d.digits).take (j + 1),
        some ((Nat.toDigits 10 d.digits).drop (j + 1)), exponent⟩ d
      ((Nat.toDigits 10 d.digits).take (j + 1) ++ '.' :: (Nat.toDigits 10 d.digits).drop (j + 1) ++
        powerText exponent) where
  proper :=
    { whole := isWhole_of_head hd (fun c hc => isDigit_of_mem_toDigits (List.mem_of_mem_take hc))
        (by rw [List.head?_take, if_neg (Nat.succ_ne_zero j)])
      fraction := by
        rintro digits ⟨⟩
        refine ⟨?_, fun c hc => isDigit_of_mem_toDigits (List.mem_of_mem_drop hc)⟩
        rw [Ne, List.drop_eq_nil_iff, hcount]
        omega }
  broken := by simp
  value := by
    -- the digits behind the point make up for the exponent
    have hlength : exponent.getD 0 - ((Nat.toDigits 10 d.digits).drop (j + 1)).length =
        d.exponent := by
      rw [List.length_drop, hcount]
      omega
    simp only [Decimal.value, Literal.decimal, Option.getD_some, List.take_append_drop,
      digitsValue_toDigits, hlength]
  text := by simp [Literal.text, fractionText]

include hcount in
/-- Zeros between the point and the digits. -/
theorem shows_small {n : Nat} (hn : (n : Int) = -(d.exponent + k) - 1) :
    Shows ⟨negative, ['0'], some (List.replicate n '0' ++ Nat.toDigits 10 d.digits), none⟩ d
      ('0' :: '.' :: (List.replicate n '0' ++ Nat.toDigits 10 d.digits)) where
  proper :=
    { whole := isWhole_toDigits 0
      fraction := by
        rintro digits ⟨⟩
        refine ⟨List.append_ne_nil_of_right_ne_nil _ Nat.toDigits_ne_nil, fun c hc => ?_⟩
        exact (List.mem_append.mp hc).elim isDigit_of_mem_zeros isDigit_of_mem_toDigits }
  broken := by simp
  value := by
    have hlength : (0 : Int) - (List.replicate n '0' ++ Nat.toDigits 10 d.digits).length =
        d.exponent := by
      rw [List.length_append, List.length_replicate, hcount]
      omega
    -- leading zeros are digits, but add nothing to the value
    have hzeros : digitsValue (['0'] ++ List.replicate n '0') = 0 :=
      (digitsValue_append_zeros _ n).trans (Nat.zero_mul _)
    have hdigits : digitsValue (['0'] ++ (List.replicate n '0' ++ Nat.toDigits 10 d.digits)) =
        d.digits := by
      rw [← List.append_assoc, digitsValue_append, hzeros]
      exact digitsValue_toDigits d.digits
    simp only [Decimal.value, Literal.decimal, Option.getD_some, Option.getD_none, hdigits, hlength]
  text := by simp [Literal.text, fractionText, powerText]

/-- The digits alone, with an exponent. -/
theorem shows_power :
    Shows ⟨negative, Nat.toDigits 10 d.digits, none, some d.exponent⟩ d
      (Nat.toDigits 10 d.digits ++ powerText (some d.exponent)) where
  proper := { whole := isWhole_toDigits _, fraction := by simp }
  broken := by simp
  value := by simp [Decimal.value, Literal.decimal, digitsValue_toDigits]
  text := by simp [Literal.text, fractionText]

/-- The text of an exponent. -/
theorem toList_power (n : Int) :
    ((if n < 0 then "e-" else "e+") ++ toString n.natAbs).toList = powerText (some n) := by
  rw [String.toList_append, toList_digits, powerText]
  split <;> rfl

/-- **Every layout is a literal**, and shows the decimal that is laid out. -/
theorem exists_shows_layout (negative : Bool) (hd : d.digits ≠ 0) :
    ∃ l : Literal, Shows l d (jsonFloat.layout d).toList ∧ l.negative = negative := by
  obtain ⟨k, hcount, -⟩ := exists_length_toDigits hd
  have hlength : (toString d.digits).length = k + 1 := by
    rw [← String.length_toList, toList_digits, hcount]
  have hfirst : d.exponent + ((k + 1 : ℕ) : ℤ) - 1 = d.exponent + k := by omega
  simp only [FloatFormat.layout, hlength, hfirst]
  split
  · split
    · -- the last digit stands before the point
      rename_i hexponent
      rw [String.toList_append, String.toList_append, toList_digits, toList_zeros]
      exact ⟨_, shows_whole negative hd hexponent, rfl⟩
    · split
      · -- the first digit does, but not the last one
        rename_i hneg hpoint
        rw [toList_withPoint, toList_digits, ← List.append_nil (_ ++ _)]
        exact ⟨_, shows_split negative hd hcount none (by omega) (by simp; omega), rfl⟩
      · rename_i hneg hpoint
        rw [String.toList_append, String.toList_append, toList_digits, toList_zeros]
        exact ⟨_, shows_small negative hcount (by omega), rfl⟩
  · rw [String.append_assoc, String.toList_append, toList_power]
    by_cases hone : k = 0
    · subst hone
      rw [if_pos rfl, toList_digits, Nat.cast_zero, add_zero]
      exact ⟨_, shows_power negative, rfl⟩
    · rw [if_neg (by omega), toList_withPoint, toList_digits]
      exact ⟨_, shows_split negative hd hcount _ (by omega) (by simp), rfl⟩

/-! ### Numbers -/

theorem toList_toString (n : Int) :
    (toString n).toList = (if decide (n < 0) then ['-'] else []) ++ Nat.toDigits 10 n.natAbs := by
  cases n with
  | ofNat m =>
    rw [if_neg (by simp)]
    exact toList_digits m
  | negSucc m =>
    have htext : toString (Int.negSucc m) = "-" ++ toString (m + 1) := rfl
    rw [htext, String.toList_append, toList_digits, if_pos (by simp)]
    rfl

/-- Whole numbers are read from their text, as far as literals can denote them. -/
theorem exists_literal_int {n : Int} (h : InRange n) :
    ∃ l : Literal, l.Proper ∧ (int n).text.toList = l.text ∧ l.value? = some (int n) := by
  refine ⟨⟨decide (n < 0), Nat.toDigits 10 n.natAbs, none, none⟩,
    { whole := isWhole_toDigits _, fraction := by simp }, ?_, ?_⟩
  · rw [text, toList_toString]
    simp [Literal.text, fractionText, powerText]
  · have hvalue : (if decide (n < 0) then -(n.natAbs : Int) else (n.natAbs : Int)) = n := by
      simp only [decide_eq_true_eq]
      omega
    have hzero : ¬(decide (n < 0) = true ∧ n = 0) := by
      simp only [decide_eq_true_eq]
      omega
    simp only [Literal.value?, digitsValue_toDigits, hvalue]
    rw [if_pos ⟨h, hzero⟩]

/-- There is one zero of each sign. -/
theorem eq_zero_of_isZero {x : Binary64} (h : x.isZero = true) : x = .zero x.negative := by
  obtain ⟨negative, significand, exponent, hcanonical⟩ := x
  obtain rfl : significand = 0 := by simpa [Binary64.isZero] using h
  obtain ⟨-, -, -, hfull | rfl⟩ := hcanonical
  · simp at hfull
  · rfl

/-- **Doubles are read from their text.** -/
theorem exists_literal_float (x : Binary64) :
    ∃ l : Literal, l.Proper ∧ (float x).text.toList = l.text ∧ l.value? = some (float x) := by
  rw [text, FloatFormat.render]
  split
  · rename_i hzero
    refine ⟨⟨x.negative, ['0'], some ['0'], none⟩, ⟨isWhole_toDigits 0, by simp⟩, ?_, ?_⟩
    · cases x.negative <;> rfl
    · rw [eq_zero_of_isZero hzero]
      rfl
  · rename_i hzero
    have hx : x.significand ≠ 0 := by simpa [Binary64.isZero] using hzero
    have hnamed := Binary64.named_shortest hx
    obtain ⟨l, hl, hnegative⟩ := exists_shows_layout x.negative (hnamed.digits_ne_zero hx)
    refine ⟨l, hl.proper, ?_, ?_⟩
    · rw [hl.text, hnegative]
      cases x.negative <;> simp
    · rw [← hl.value] at hnamed
      rw [Literal.value?_of_broken hl.broken, hnegative, Binary64.ofDecimal?_of_named hx hnamed]
      rfl

/-- **Numbers are read from their text.** -/
theorem exists_literal {n : Number} (h : (Json.num n).WellFormed) :
    ∃ l : Literal, l.Proper ∧ n.text.toList = l.text ∧ l.value? = some n := by
  cases n with
  | int n => exact exists_literal_int h
  | float x => exact exists_literal_float x

end Number

end RequestGate
