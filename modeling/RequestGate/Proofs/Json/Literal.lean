import RequestGate.Json.Parser
import RequestGate.Json.Printer
import RequestGate.Proofs.Text.Digits

/-!
# Strings and literals in text

A string is written between quotes, with escapes, and read again up to the closing quote
(`RequestGate.Json.readString?_escaped`). A number literal has no closing quote: it is read as far as it
can go, so what follows must not look like more of it (`RequestGate.Json.Follows`). Alone, a literal is
read from its text part by part (`RequestGate.Json.readLiteral?_text`).
-/

namespace RequestGate

namespace Json

open Text

variable {cs rest tail : List Char}

/-! ### Strings -/

theorem hex4?_cons (a b c d : Char) (rest : List Char) :
    hex4? (a :: b :: c :: d :: rest) = (hex4? [a, b, c, d]).map fun p => (p.1, rest) := by
  simp [hex4?, Option.map_bind]

/-- The escape of a control character shows its code point. -/
theorem unicodeEscape?_control {c : Char} (h : c.toNat < 0x20) (rest : List Char) :
    unicodeEscape? ('0' :: '0' :: hexDigit (c.toNat / 16) :: hexDigit c.toNat :: rest) =
      some (c, rest) := by
  have hcodes : ∀ n < 0x20, hex4? ['0', '0', hexDigit (n / 16), hexDigit n] = some (n, []) := by
    decide
  rw [unicodeEscape?, hex4?_cons, hcodes _ h]
  simp only [Option.map_some, Option.bind_eq_bind, Option.bind_some]
  rw [if_neg (by omega), if_neg (by omega), Char.ofNat_toNat]

/-- **A character is read from its escape.** -/
theorem readStringFuel_escapeChar (c : Char) (fuel : Nat) (rest done : List Char) :
    readStringFuel (fuel + 1) (escapeChar c ++ rest) done = readStringFuel fuel rest (c :: done) := by
  by_cases hquote : c = '"'
  · subst hquote
    rfl
  by_cases hbackslash : c = '\\'
  · subst hbackslash
    rfl
  unfold escapeChar
  rw [if_neg hquote, if_neg hbackslash]
  -- the characters that have a letter of their own, as `escapeChar` goes through them
  split
  · rename_i h
    subst h
    rfl
  split
  · rename_i h
    subst h
    rfl
  split
  · rename_i h
    subst h
    rfl
  split
  · rename_i h
    subst h
    rfl
  split
  · rename_i h
    subst h
    rfl
  split
  · rename_i hcontrol
    simp [readStringFuel, unicodeEscape?_control hcontrol]
  · rename_i hprintable
    simp [readStringFuel, hquote, hbackslash, hprintable]

/-- Every character takes one unit of fuel, however long its escape is. -/
theorem readStringFuel_escaped (rest : List Char) {s : List Char} :
    ∀ {fuel : Nat} {done : List Char}, s.length < fuel →
      readStringFuel fuel (s.flatMap escapeChar ++ '"' :: rest) done =
        some (s.reverse ++ done, rest) := by
  induction s with
  | nil =>
    intro fuel done h
    obtain ⟨fuel, rfl⟩ := Nat.exists_eq_add_one_of_ne_zero (Nat.ne_of_gt h)
    rfl
  | cons c s ih =>
    intro fuel done h
    obtain ⟨fuel, rfl⟩ := Nat.exists_eq_add_one_of_ne_zero (Nat.ne_of_gt (Nat.zero_lt_of_lt h))
    rw [List.flatMap_cons, List.append_assoc, readStringFuel_escapeChar,
      ih (Nat.lt_of_succ_lt_succ h), List.reverse_cons, List.append_assoc]
    rfl

theorem escapeChar_ne_nil (c : Char) : escapeChar c ≠ [] := by
  simp only [escapeChar]
  repeat' split
  all_goals simp

theorem length_le_escaped (s : List Char) : s.length ≤ (s.flatMap escapeChar).length := by
  induction s with
  | nil => simp
  | cons c s ih =>
    have hc := List.length_pos_iff.mpr (escapeChar_ne_nil c)
    rw [List.flatMap_cons, List.length_append, List.length_cons]
    omega

/-- **A string is read up to its closing quote.** -/
theorem readString?_escaped (s rest : List Char) :
    readString? (s.flatMap escapeChar ++ '"' :: rest) = some (String.ofList s, rest) := by
  have hlength := length_le_escaped s
  rw [readString?, readStringFuel_escaped rest (by rw [List.length_append]; omega)]
  simp

/-! ### Numbers -/

/-- Whether what comes next is not part of a number. -/
def Follows (rest : List Char) : Prop :=
  ∀ c ∈ rest.head?, c.isDigit = false ∧ c ≠ '.' ∧ c ≠ 'e' ∧ c ≠ 'E'

theorem Follows.ends (h : Follows rest) : Ends rest := fun c hc => (h c hc).1

theorem follows_nil : Follows [] := by simp [Follows]

theorem readFraction?_of_no_point (h : ∀ c ∈ cs.head?, c ≠ '.') :
    readFraction? cs = some (none, cs) := by
  rw [readFraction?]
  rintro after rfl
  exact h '.' rfl rfl

theorem readExponent?_of_no_mark (h : ∀ c ∈ cs.head?, c ≠ 'e' ∧ c ≠ 'E') :
    readExponent? cs = some (none, cs) := by
  rw [readExponent?]
  · rintro after rfl
    exact (h 'e' rfl).1 rfl
  · rintro after rfl
    exact (h 'E' rfl).2 rfl

theorem readFraction?_append {fraction : Option (List Char)}
    (h : readFraction? cs = some (fraction, tail)) (hrest : Follows rest) :
    readFraction? (cs ++ rest) = some (fraction, tail ++ rest) := by
  cases cs with
  | nil =>
    obtain ⟨rfl, rfl⟩ := Prod.mk.inj (Option.some.inj h)
    exact readFraction?_of_no_point fun c hc => (hrest c hc).2.1
  | cons c cs =>
    by_cases hpoint : c = '.'
    · subst hpoint
      simp only [readFraction?] at h
      simp only [List.cons_append, readFraction?, takeWhile_append_of_ends cs hrest.ends,
        dropWhile_append_of_ends cs hrest.ends]
      split at h
      · cases h
      · rename_i hdigits
        obtain ⟨rfl, rfl⟩ := Prod.mk.inj (Option.some.inj h)
        rw [if_neg hdigits]
    · have hhead : ∀ d ∈ (c :: cs).head?, d ≠ '.' := by
        rintro d ⟨⟩
        exact hpoint
      rw [readFraction?_of_no_point hhead] at h
      obtain ⟨rfl, rfl⟩ := Prod.mk.inj (Option.some.inj h)
      exact readFraction?_of_no_point hhead

theorem splitSign_cons_append (c : Char) (cs rest : List Char) :
    splitSign (c :: cs ++ rest) = ((splitSign (c :: cs)).1, (splitSign (c :: cs)).2 ++ rest) := by
  by_cases hminus : c = '-'
  · subst hminus
    rfl
  by_cases hplus : c = '+'
  · subst hplus
    rfl
  have hsign : ∀ cs : List Char, splitSign (c :: cs) = (false, c :: cs) := by
    intro cs
    rw [splitSign]
    · rintro after heq
      exact hminus (List.cons.inj heq).1
    · rintro after heq
      exact hplus (List.cons.inj heq).1
  rw [List.cons_append, hsign, hsign]
  rfl

theorem readPower?_append {exponent : Option Int} (h : readPower? cs = some (exponent, tail))
    (hrest : Follows rest) : readPower? (cs ++ rest) = some (exponent, tail ++ rest) := by
  cases cs with
  | nil => cases h
  | cons c cs =>
    simp only [readPower?] at h
    simp only [readPower?, splitSign_cons_append, takeWhile_append_of_ends _ hrest.ends,
      dropWhile_append_of_ends _ hrest.ends]
    split at h
    · cases h
    · rename_i hdigits
      obtain ⟨rfl, rfl⟩ := Prod.mk.inj (Option.some.inj h)
      rw [if_neg hdigits]

theorem readExponent?_append {exponent : Option Int}
    (h : readExponent? cs = some (exponent, tail)) (hrest : Follows rest) :
    readExponent? (cs ++ rest) = some (exponent, tail ++ rest) := by
  cases cs with
  | nil =>
    obtain ⟨rfl, rfl⟩ := Prod.mk.inj (Option.some.inj h)
    exact readExponent?_of_no_mark fun c hc => (hrest c hc).2.2
  | cons c cs =>
    by_cases hmark : c = 'e' ∨ c = 'E'
    · rcases hmark with rfl | rfl
      · exact readPower?_append h hrest
      · exact readPower?_append h hrest
    · have hhead : ∀ d ∈ (c :: cs).head?, d ≠ 'e' ∧ d ≠ 'E' := by
        rintro d ⟨⟩
        exact not_or.mp hmark
      rw [readExponent?_of_no_mark hhead] at h
      obtain ⟨rfl, rfl⟩ := Prod.mk.inj (Option.some.inj h)
      exact readExponent?_of_no_mark hhead

theorem splitMinus_of_ne {c : Char} (h : c ≠ '-') (cs : List Char) :
    splitMinus (c :: cs) = (false, c :: cs) := by
  rw [splitMinus]
  rintro after heq
  exact h (List.cons.inj heq).1

theorem splitMinus_cons_append (c : Char) (cs rest : List Char) :
    splitMinus (c :: cs ++ rest) =
      ((splitMinus (c :: cs)).1, (splitMinus (c :: cs)).2 ++ rest) := by
  by_cases hminus : c = '-'
  · subst hminus
    rfl
  · rw [List.cons_append, splitMinus_of_ne hminus, splitMinus_of_ne hminus]
    rfl

/-- **A literal is read up to what follows.** -/
theorem readLiteral?_append {l : Literal} (h : readLiteral? cs = some (l, tail))
    (hrest : Follows rest) : readLiteral? (cs ++ rest) = some (l, tail ++ rest) := by
  cases cs with
  | nil => cases h
  | cons c cs =>
    simp only [readLiteral?] at h
    simp only [readLiteral?, splitMinus_cons_append, takeWhile_append_of_ends _ hrest.ends,
      dropWhile_append_of_ends _ hrest.ends]
    split at h
    · cases h
    · rename_i hwhole
      obtain ⟨⟨fraction, cs₁⟩, hfraction, h⟩ := Option.bind_eq_some_iff.mp h
      obtain ⟨⟨exponent, cs₂⟩, hexponent, h⟩ := Option.bind_eq_some_iff.mp h
      obtain ⟨rfl, rfl⟩ := Prod.mk.inj (Option.some.inj h)
      rw [if_neg hwhole]
      refine Option.bind_eq_some_iff.mpr ⟨_, readFraction?_append hfraction hrest, ?_⟩
      exact Option.bind_eq_some_iff.mpr ⟨_, readExponent?_append hexponent hrest, rfl⟩

/-- A literal starts with a minus or a digit. -/
theorem exists_cons_of_readLiteral? {l : Literal} (h : readLiteral? cs = some (l, rest)) :
    ∃ c tail, cs = c :: tail ∧ (c = '-' ∨ c.isDigit = true) := by
  cases cs with
  | nil => cases h
  | cons c tail =>
    refine ⟨c, tail, rfl, or_iff_not_imp_left.mpr fun hminus => ?_⟩
    by_contra hdigit
    rw [readLiteral?, splitMinus_of_ne hminus] at h
    simp only [List.takeWhile_cons_of_neg hdigit] at h
    cases h

/-! ### Literals in full -/

/-- Whether characters are the digits of a whole number, with no zero in front but its own. -/
structure IsWhole (cs : List Char) : Prop where
  digits : ∀ c ∈ cs, c.isDigit = true
  ne_nil : cs ≠ []
  leading : cs.head? = some '0' → cs = ['0']

/-- The text of a fraction. -/
def fractionText : Option (List Char) → List Char
  | none => []
  | some digits => '.' :: digits

/-- The text of an exponent, with its sign. -/
def powerText : Option Int → List Char
  | none => []
  | some n => 'e' :: (if n < 0 then '-' else '+') :: Nat.toDigits 10 n.natAbs

/-- The text of a literal. -/
def Literal.text (l : Literal) : List Char :=
  (if l.negative then ['-'] else []) ++ (l.whole ++ (fractionText l.fraction ++ powerText l.exponent))

/-- Whether the parts of a literal are what they are to be: a whole number, and one digit after a point
at least. -/
structure Literal.Proper (l : Literal) : Prop where
  whole : IsWhole l.whole
  fraction : ∀ digits ∈ l.fraction, digits ≠ [] ∧ ∀ c ∈ digits, c.isDigit = true

theorem readPower?_digits (negative : Bool) (n : Nat) :
    readPower? ((if negative then '-' else '+') :: Nat.toDigits 10 n) =
      some (some (if negative then -(n : Int) else n), []) := by
  have hdigits : ∀ c ∈ Nat.toDigits 10 n, c.isDigit = true := fun c hc =>
    Nat.isDigit_of_mem_toDigits (by decide) (by decide) hc
  have hsign : splitSign ((if negative then '-' else '+') :: Nat.toDigits 10 n) =
      (negative, Nat.toDigits 10 n) := by
    cases negative <;> rfl
  simp [readPower?, hsign, List.takeWhile_eq_self_iff.mpr hdigits,
    List.dropWhile_eq_nil_iff.mpr hdigits, Nat.toDigits_ne_nil, digitsValue_toDigits]

theorem readExponent?_powerText (exponent : Option Int) :
    readExponent? (powerText exponent) = some (exponent, []) := by
  cases exponent with
  | none => rfl
  | some n =>
    have hread := readPower?_digits (decide (n < 0)) n.natAbs
    simp only [decide_eq_true_eq] at hread
    have hvalue : (if n < 0 then -(n.natAbs : Int) else n.natAbs) = n := by omega
    rw [powerText, readExponent?, hread, hvalue]

/-- No digit and no point starts an exponent. -/
theorem powerText_head (exponent : Option Int) :
    ∀ c ∈ (powerText exponent).head?, c.isDigit = false ∧ c ≠ '.' := by
  cases exponent with
  | none => simp [powerText]
  | some n =>
    rintro c ⟨⟩
    decide

theorem readFraction?_fractionText {fraction : Option (List Char)}
    (h : ∀ digits ∈ fraction, digits ≠ [] ∧ ∀ c ∈ digits, c.isDigit = true)
    (hrest : ∀ c ∈ rest.head?, c.isDigit = false ∧ c ≠ '.') :
    readFraction? (fractionText fraction ++ rest) = some (fraction, rest) := by
  cases fraction with
  | none => exact readFraction?_of_no_point fun c hc => (hrest c hc).2
  | some digits =>
    obtain ⟨hne, hdigits⟩ := h digits rfl
    have hends : Ends rest := fun c hc => (hrest c hc).1
    rw [fractionText, List.cons_append, readFraction?]
    simp [takeWhile_digits hdigits hends, dropWhile_append_of_ends digits hends,
      List.dropWhile_eq_nil_iff.mpr hdigits, hne]

/-- What follows the whole number starts with no digit. -/
theorem ends_fractionText (fraction : Option (List Char)) (exponent : Option Int) :
    Ends (fractionText fraction ++ powerText exponent) := by
  cases fraction with
  | none => exact fun c hc => (powerText_head exponent c hc).1
  | some digits => exact ends_cons (by decide) _

/-- **A literal is read from its text.** -/
theorem readLiteral?_text {l : Literal} (h : l.Proper) : readLiteral? l.text = some (l, []) := by
  obtain ⟨negative, whole, fraction, exponent⟩ := l
  obtain ⟨⟨hdigits, hne, hleading⟩, hfraction⟩ := h
  have hends := ends_fractionText fraction exponent
  have hsplit : splitMinus ((if negative then ['-'] else []) ++
      (whole ++ (fractionText fraction ++ powerText exponent))) =
        (negative, whole ++ (fractionText fraction ++ powerText exponent)) := by
    cases negative with
    | true => rfl
    | false =>
      obtain ⟨first, others, rfl⟩ := List.exists_cons_of_ne_nil hne
      exact splitMinus_of_ne (plain_of_isDigit (hdigits first List.mem_cons_self)).2.1 _
  have hwhole : (whole.isEmpty || (whole.head? == some '0' && whole.length != 1)) = false := by
    by_cases hzero : whole.head? = some '0'
    · have hone : whole = ['0'] := hleading hzero
      rw [hone]
      rfl
    · simp [hne, hzero]
  have hread := readFraction?_fractionText hfraction (powerText_head exponent)
  simp [Literal.text, readLiteral?, hsplit, takeWhile_digits hdigits hends,
    dropWhile_append_of_ends whole hends, List.dropWhile_eq_nil_iff.mpr hdigits, hwhole, hread,
    readExponent?_powerText]

end Json

end RequestGate
