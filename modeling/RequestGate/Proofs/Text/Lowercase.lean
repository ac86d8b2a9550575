import Mathlib.Data.List.Basic
import Mathlib.Data.List.Count
import RequestGate.Proofs.Text.Blank
import RequestGate.Text.Lowercase

/-!
# Lower-casing around a dash

Lower-casing looks at more than one character at a time, because a capital sigma takes its final form
at the end of a word. It never looks across a dash, though: a dash ends a word. So text that is joined
with dashes is in lower case what its parts are in lower case, joined
(`RequestGate.Text.lowerAfter_append_dash`), and since nothing but a dash becomes a dash, as many
dashes come out as went in (`RequestGate.Text.count_dash_lowerAfter`).

On ASCII text, lower-casing is letter by letter (`RequestGate.Text.lowercase_of_ascii`).
-/

namespace RequestGate.Text

/-! ### A dash ends a word -/

theorem startsCased_cons (c : Char) (cs : List Char) :
    startsCased (c :: cs) =
      if inRanges caseIgnorableRanges c.toNat then startsCased cs
      else inRanges casedRanges c.toNat := by
  rw [startsCased, List.dropWhile_cons]
  by_cases h : inRanges caseIgnorableRanges c.toNat = true
  · rw [if_pos h, if_pos h]
    rfl
  · rw [if_neg h, if_neg h]

theorem startsCased_dash_cons (cs : List Char) : startsCased ('-' :: cs) = false := by
  have hignorable : inRanges caseIgnorableRanges '-'.toNat = false := by decide +kernel
  have hcased : inRanges casedRanges '-'.toNat = false := by decide
  rw [startsCased_cons, hignorable, hcased]
  rfl

/-- No letter is looked for beyond a dash. -/
theorem startsCased_append_dash (a b : List Char) :
    startsCased (a ++ '-' :: b) = startsCased a := by
  induction a with
  | nil => exact startsCased_dash_cons b
  | cons c a ih => rw [List.cons_append, startsCased_cons, startsCased_cons, ih]

/-- What has been passed before a dash makes no difference. -/
theorem lowerAfter_append_dash_left (before passed cs : List Char) :
    lowerAfter (before ++ '-' :: passed) cs = lowerAfter before cs := by
  induction cs generalizing before with
  | nil => rfl
  | cons c cs ih =>
    have hnext : lowerAfter (c :: (before ++ '-' :: passed)) cs = lowerAfter (c :: before) cs :=
      ih (c :: before)
    rw [lowerAfter, lowerAfter, hnext, startsCased_append_dash]

theorem lowerAfter_dash_cons (before cs : List Char) :
    lowerAfter before ('-' :: cs) = '-' :: lowerAfter [] cs := by
  have hdash : lowerChar '-' = ['-'] := by decide
  have hnext : lowerAfter ('-' :: before) cs = lowerAfter [] cs :=
    lowerAfter_append_dash_left [] before cs
  rw [lowerAfter, if_neg (by decide), hdash, hnext]
  rfl

/-- **The parts around a dash are lower-cased on their own.** -/
theorem lowerAfter_append_dash (before a b : List Char) :
    lowerAfter before (a ++ '-' :: b) = lowerAfter before a ++ '-' :: lowerAfter [] b := by
  induction a generalizing before with
  | nil => exact lowerAfter_dash_cons before b
  | cons c a ih =>
    rw [List.cons_append, lowerAfter, lowerAfter, ih, startsCased_append_dash, List.append_assoc]

/-! ### What one character becomes -/

theorem toNat_ofNat_le (n : Nat) : (Char.ofNat n).toNat = n ∨ (Char.ofNat n).toNat = 0 := by
  by_cases h : n.isValidChar
  · exact Or.inl (by rw [Char.ofNat, dif_pos h]; rfl)
  · exact Or.inr (by rw [Char.ofNat, dif_neg h]; rfl)

/-- Of the characters of ASCII only the dash becomes a dash. -/
theorem toLower_eq_dash_iff {c : Char} : c.toLower = '-' ↔ c = '-' := by
  rcases Nat.lt_or_ge c.toNat 128 with h | h
  · exact forall_ascii (P := fun c => c.toLower = '-' ↔ c = '-') (by decide) h
  · rw [toLower_of_not_ascii h]

/-- The partners in the table lie beyond the dash. -/
theorem dash_lt_shifted : ∀ r ∈ lowerRanges, 45 < (r.first : Int) + r.shift := by
  decide +kernel

/-- **Nothing but a dash becomes one.** -/
theorem count_dash_lowerChar (c : Char) : (lowerChar c).count '-' = [c].count '-' := by
  rw [lowerChar]
  split
  · -- a character of ASCII
    by_cases h : c = '-'
    · subst h
      decide
    · rw [List.count_singleton, List.count_singleton, beq_eq_false_iff_ne.mpr h,
        beq_eq_false_iff_ne.mpr (mt toLower_eq_dash_iff.mp h)]
  · rename_i hlarge
    have hc : c ≠ '-' := by
      rintro rfl
      exact hlarge (by decide)
    have hnone : [c].count '-' = 0 := by
      rw [List.count_singleton, beq_eq_false_iff_ne.mpr hc]
      rfl
    split
    · rename_i hdotted
      subst hdotted
      decide
    · dsimp only
      split
      · rename_i r hr
        have hfirst := List.find?_some hr
        have hmem := List.mem_of_find?_eq_some hr
        simp only [Bool.and_eq_true, decide_eq_true_eq] at hfirst
        have hbound := dash_lt_shifted r hmem
        rw [hnone, List.count_eq_zero, List.mem_singleton]
        intro h
        have hvalue := toNat_ofNat_le ((c.toNat : Int) + r.shift).toNat
        rw [← h] at hvalue
        have hdash : '-'.toNat = 45 := by decide
        omega
      · rfl

theorem length_lowerChar_pos (c : Char) : 0 < (lowerChar c).length := by
  rw [lowerChar]
  split
  · exact Nat.one_pos
  · split
    · exact Nat.succ_pos _
    · dsimp only
      split <;> exact Nat.one_pos

/-- **Lower-casing keeps the dashes**, and adds none. -/
theorem count_dash_lowerAfter (before cs : List Char) :
    (lowerAfter before cs).count '-' = cs.count '-' := by
  induction cs generalizing before with
  | nil => rfl
  | cons c cs ih =>
    have hhead : (if c = 'Σ' then
        if startsCased before && !startsCased cs then ['ς'] else ['σ']
        else lowerChar c).count '-' = [c].count '-' := by
      split
      · rename_i hsigma
        subst hsigma
        split <;> decide
      · exact count_dash_lowerChar c
    rw [lowerAfter, List.count_append, hhead, ih, ← List.count_append, List.singleton_append]

/-- **Lower-casing drops nothing.** -/
theorem length_le_length_lowerAfter (before cs : List Char) :
    cs.length ≤ (lowerAfter before cs).length := by
  induction cs generalizing before with
  | nil => exact Nat.le_refl _
  | cons c cs ih =>
    have hhead : 1 ≤ (if c = 'Σ' then
        if startsCased before && !startsCased cs then ['ς'] else ['σ']
        else lowerChar c).length := by
      split
      · split <;> exact Nat.le_refl _
      · exact length_lowerChar_pos c
    have htail := ih (c :: before)
    rw [lowerAfter, List.length_append, List.length_cons]
    omega

/-! ### ASCII -/

/-- Whether all characters are in ASCII. -/
def IsAscii (s : String) : Prop := ∀ c ∈ s.toList, c.toNat < 128

instance (s : String) : Decidable (IsAscii s) :=
  List.decidableBAll (fun c : Char => c.toNat < 128) s.toList

theorem lowerAfter_of_ascii (before : List Char) {cs : List Char} (h : ∀ c ∈ cs, c.toNat < 128) :
    lowerAfter before cs = cs.map Char.toLower := by
  induction cs generalizing before with
  | nil => rfl
  | cons c cs ih =>
    have hc : c.toNat < 128 := h c (by simp)
    have hsigma : c ≠ 'Σ' := by
      rintro rfl
      revert hc
      decide
    rw [lowerAfter, if_neg hsigma, lowerChar, if_pos hc,
      ih (c :: before) fun d hd => h d (List.mem_cons_of_mem c hd)]
    rfl

theorem lowercase_of_ascii {s : String} (h : IsAscii s) : lowercase s = asciiLower s := by
  rw [lowercase, asciiLower, lowerAfter_of_ascii [] h]

end RequestGate.Text
