import Mathlib.Data.Nat.Digits.Defs
import RequestGate.Proofs.Text.Blank

/-!
# Decimal digits

A number is written with its decimal digits, and read again up to the first character that is no digit
(`RequestGate.Text.takeWhile_digits`). The digits denote the number
(`RequestGate.Text.digitsValue_toDigits`), and only zero has a zero in front.
-/

namespace RequestGate.Text

/-- Whether a text consists of digits, and there is one. -/
structure IsDigits (cs : List Char) : Prop where
  digits : ∀ c ∈ cs, c.isDigit = true
  ne_nil : cs ≠ []

theorem isDigits_iff {cs : List Char} : IsDigits cs ↔ allDigits cs = true ∧ cs ≠ [] :=
  ⟨fun ⟨hdigits, hnil⟩ => ⟨List.all_eq_true.mpr hdigits, hnil⟩,
    fun ⟨hall, hnil⟩ => ⟨List.all_eq_true.mp hall, hnil⟩⟩

instance : DecidablePred IsDigits := fun cs =>
  decidable_of_iff (allDigits cs = true ∧ cs ≠ []) isDigits_iff.symm

/-! ### What digits denote -/

theorem digitsValue_append (a b : List Char) :
    digitsValue (a ++ b) = b.foldl (fun n c => n * 10 + (c.toNat - '0'.toNat)) (digitsValue a) := by
  rw [digitsValue, List.foldl_append, ← digitsValue]

theorem digitsValue_toDigits (n : Nat) : digitsValue (Nat.toDigits 10 n) = n := by
  have hvalue := Nat.ofDigitChars_ten_toDigits (n := n)
  simp only [Nat.ofDigitChars, Nat.mul_comm 10] at hvalue
  exact hvalue

theorem digitsValue_replicate (k : Nat) : digitsValue (List.replicate k '0') = 0 := by
  induction k with
  | zero => rfl
  | succ k ih =>
    rw [List.replicate_succ', digitsValue_append, ih]
    rfl

/-- Zeros behind a number multiply it. -/
theorem digitsValue_append_zeros (cs : List Char) (k : Nat) :
    digitsValue (cs ++ List.replicate k '0') = digitsValue cs * 10 ^ k := by
  induction k with
  | zero => simp
  | succ k ih =>
    rw [List.replicate_succ', ← List.append_assoc, digitsValue_append, ih, pow_succ, ← Nat.mul_assoc]
    rfl

/-- Only zero has a zero in front. -/
theorem head?_toDigits {n : Nat} (hn : n ≠ 0) : (Nat.toDigits 10 n).head? ≠ some '0' := by
  induction n using Nat.strongRecOn with
  | ind n ih =>
    rcases Nat.lt_or_ge n 10 with hlt | hge
    · have hone : ∀ d < 10, d ≠ 0 → some (Nat.digitChar d) ≠ some '0' := by decide
      rw [Nat.toDigits_of_lt_base hlt, List.head?_cons]
      exact hone n hlt hn
    · have hquotient : n / 10 ≠ 0 := by omega
      obtain ⟨first, others, hdigits⟩ :=
        List.exists_cons_of_ne_nil (Nat.toDigits_ne_nil (n := n / 10) (b := 10))
      have hfirst := ih (n / 10) (by omega) hquotient
      rw [Nat.toDigits_of_base_le (by decide) hge, hdigits, List.cons_append, List.head?_cons]
      rwa [hdigits, List.head?_cons] at hfirst

/-- A number has as many digits as its size asks for. -/
theorem exists_length_toDigits {n : Nat} (hn : n ≠ 0) :
    ∃ k, (Nat.toDigits 10 n).length = k + 1 ∧ 10 ^ k ≤ n ∧ n < 10 ^ (k + 1) := by
  induction n using Nat.strongRecOn with
  | ind n ih =>
    rcases Nat.lt_or_ge n 10 with hlt | hge
    · exact ⟨0, by rw [Nat.toDigits_of_lt_base hlt]; rfl, by omega, by omega⟩
    · obtain ⟨k, hlength, hlow, hhigh⟩ := ih (n / 10) (by omega) (by omega)
      refine ⟨k + 1, ?_, ?_, ?_⟩
      · rw [Nat.toDigits_of_base_le (by decide) hge, List.length_append, hlength]
        rfl
      · rw [pow_succ]
        omega
      · rw [pow_succ]
        omega

/-- **A number is read from its digits**, if it is in range. -/
theorem readNatBelow?_toDigits {n bound : Nat} (h : n < bound) :
    readNatBelow? bound (Nat.toDigits 10 n) = some n := by
  have hdigits : ∀ c ∈ Nat.toDigits 10 n, c.isDigit = true := fun c hc =>
    Nat.isDigit_of_mem_toDigits (by decide) (by decide) hc
  have hall : allDigits (Nat.toDigits 10 n) = true := List.all_eq_true.mpr hdigits
  have hsign : ∀ rest, Nat.toDigits 10 n ≠ '+' :: rest := fun rest heq =>
    absurd (hdigits '+' (by rw [heq]; exact List.mem_cons_self)) (by decide)
  rw [readNatBelow?]
  · simp [hall, Nat.toDigits_ne_nil, digitsValue_toDigits, h]
  · exact hsign

/-! ### Where a number ends -/

/-- Whether no digit comes next. -/
def Ends (rest : List Char) : Prop := ∀ c ∈ rest.head?, c.isDigit = false

theorem toNat_lt_of_isDigit {c : Char} (h : c.isDigit = true) : c.toNat < 128 := by
  simp only [Char.isDigit, Bool.and_eq_true, decide_eq_true_eq] at h
  have hnine : c.toNat ≤ '9'.toNat := h.2
  have hvalue : '9'.toNat = 57 := by decide
  omega

/-- A digit is no blank, and no sign. -/
theorem plain_of_isDigit {c : Char} (h : c.isDigit = true) :
    isBlank c = false ∧ c ≠ '-' ∧ c ≠ '+' := by
  exact forall_ascii
    (P := fun c => c.isDigit = true → isBlank c = false ∧ c ≠ '-' ∧ c ≠ '+')
    (by decide) (toNat_lt_of_isDigit h) h

theorem takeWhile_append_of_ends (cs : List Char) {rest : List Char} (hrest : Ends rest) :
    (cs ++ rest).takeWhile Char.isDigit = cs.takeWhile Char.isDigit := by
  induction cs with
  | nil =>
    cases rest with
    | nil => rfl
    | cons c rest => exact List.takeWhile_cons_of_neg (by simp [hrest c rfl])
  | cons c cs ih =>
    rw [List.cons_append, List.takeWhile_cons, List.takeWhile_cons, ih]

theorem dropWhile_append_of_ends (cs : List Char) {rest : List Char} (hrest : Ends rest) :
    (cs ++ rest).dropWhile Char.isDigit = cs.dropWhile Char.isDigit ++ rest := by
  induction cs with
  | nil =>
    cases rest with
    | nil => rfl
    | cons c rest => exact List.dropWhile_cons_of_neg (by simp [hrest c rfl])
  | cons c cs ih =>
    rw [List.cons_append, List.dropWhile_cons, List.dropWhile_cons, ih]
    split <;> rfl

/-- Digits are taken up to the first character that is none. -/
theorem takeWhile_digits {digits rest : List Char} (hdigits : ∀ c ∈ digits, c.isDigit = true)
    (hrest : Ends rest) : (digits ++ rest).takeWhile Char.isDigit = digits := by
  rw [takeWhile_append_of_ends digits hrest]
  exact List.takeWhile_eq_self_iff.mpr hdigits

theorem ends_cons {c : Char} (hc : c.isDigit = false) (rest : List Char) : Ends (c :: rest) := by
  intro d hd
  obtain rfl : c = d := by simpa using hd
  exact hc

end RequestGate.Text
