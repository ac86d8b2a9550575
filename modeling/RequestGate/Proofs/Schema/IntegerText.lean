import RequestGate.Proofs.Number.Magnitude
import RequestGate.Proofs.Number.Text
import RequestGate.Proofs.Schema.Conversions

/-!
# Text of whole numbers

Text with a sign and digits is tried as a whole number first, and if that is out of range, as a double.
The second attempt never gives a whole number: such a number is at least `2 ^ 63` in size, rounding keeps
it there (`RequestGate.Binary64.pow_le_of_ofRatio?`), and from there on a double is not taken for a whole
number. So the text of a whole number in range becomes this number, other text stays what it is, and
numbers survive being written (`RequestGate.Schema.coerce_integerText`).
-/

namespace RequestGate

namespace Text

/-! ### What the text denotes -/

/-- The number that digits denote, each by its place. -/
def placeValue (digits : List Char) : ℕ :=
  Nat.ofDigits 10 (digits.reverse.map fun c => c.toNat - '0'.toNat)

theorem digitsValue_eq_placeValue (digits : List Char) : digitsValue digits = placeValue digits := by
  rw [placeValue, Nat.ofDigits_eq_foldr, List.foldr_map, List.foldr_reverse, digitsValue]
  congr
  funext n c
  rw [Nat.cast_id, Nat.add_comm, Nat.mul_comm]

/-- The text of a whole number: digits, with an optional sign. -/
inductive IntegerText : List Char → ℤ → Prop
  | plain {digits : List Char} : IsDigits digits → IntegerText digits (placeValue digits)
  | plus {digits : List Char} : IsDigits digits → IntegerText ('+' :: digits) (placeValue digits)
  | minus {digits : List Char} : IsDigits digits → IntegerText ('-' :: digits) (-placeValue digits)

theorem splitSign_of_isDigits {digits : List Char} (h : IsDigits digits) :
    splitSign digits = (false, digits) := by
  obtain ⟨hdigits, hnil⟩ := h
  obtain ⟨c, cs, rfl⟩ := List.exists_cons_of_ne_nil hnil
  obtain ⟨-, hminus, hplus⟩ := plain_of_isDigit (hdigits c List.mem_cons_self)
  rw [splitSign.eq_def]
  split
  · exact absurd (List.cons.inj ‹_›).1 hminus
  · exact absurd (List.cons.inj ‹_›).1 hplus
  · rfl

/-- **A text of a whole number falls into its sign and its digits.** -/
theorem integerText_iff {cs : List Char} {n : ℤ} :
    IntegerText cs n ↔ IsDigits (splitSign cs).2 ∧
      n = if (splitSign cs).1 then -(digitsValue (splitSign cs).2 : ℤ)
        else digitsValue (splitSign cs).2 := by
  simp only [digitsValue_eq_placeValue]
  constructor
  · rintro (h | h | h)
    · rw [splitSign_of_isDigits h]
      exact ⟨h, rfl⟩
    · exact ⟨h, rfl⟩
    · exact ⟨h, rfl⟩
  · rintro ⟨h, rfl⟩
    rw [splitSign.eq_def] at h ⊢
    split at h
    · exact .minus h
    · exact .plus h
    · exact .plain h

instance (cs : List Char) (n : ℤ) : Decidable (IntegerText cs n) :=
  decidable_of_iff _ integerText_iff.symm

theorem integerText_toString (n : ℤ) : IntegerText (toString n).toList n := by
  have hdigits : IsDigits (Nat.toDigits 10 n.natAbs) :=
    ⟨fun _ => Json.isDigit_of_mem_toDigits, Nat.toDigits_ne_nil⟩
  have hvalue : placeValue (Nat.toDigits 10 n.natAbs) = n.natAbs := by
    rw [← digitsValue_eq_placeValue, digitsValue_toDigits]
  rw [Number.toList_toString]
  rcases lt_or_ge n 0 with hneg | hpos
  · rw [if_pos (by simpa using hneg)]
    have htext := IntegerText.minus hdigits
    rwa [hvalue, show -(n.natAbs : ℤ) = n by omega] at htext
  · rw [if_neg (by simpa using hpos)]
    have htext := IntegerText.plain hdigits
    rwa [hvalue, show (n.natAbs : ℤ) = n by omega] at htext

end Text

namespace Schema

open Json Text

variable {root : Json} {cs : List Char} {text : String} {negative : Bool} {n : ℤ}

/-! ### The attempts -/

theorem readInt?_of_integerText (h : IntegerText cs n) :
    readInt? cs = if Number.InRange n then some n else none := by
  obtain ⟨⟨hdigits, hnil⟩, rfl⟩ := integerText_iff.mp h
  have hall : allDigits (splitSign cs).2 = true := List.all_eq_true.mpr hdigits
  simp [readInt?, hnil, hall]

theorem readFloat?_of_isDigits (h : IsDigits (splitSign cs).2) :
    readFloat? cs = Binary64.ofDecimal? (splitSign cs).1 (digitsValue (splitSign cs).2) 0 := by
  obtain ⟨hdigits, hnil⟩ := h
  have hwhole := List.takeWhile_eq_self_iff.mpr hdigits
  have hrest := List.dropWhile_eq_nil_iff.mpr hdigits
  simp [readFloat?, hwhole, hrest, hnil]

/-- A number out of range has large digits. -/
theorem le_of_not_inRange {m : ℕ} (hrange : ¬Number.InRange (if negative then -(m : ℤ) else m)) :
    2 ^ 63 ≤ m := by
  have hleast : Number.leastInt = -9223372036854775808 := rfl
  have hbound : Number.intBound = 18446744073709551616 := rfl
  rw [Number.InRange, hleast, hbound] at hrange
  split at hrange <;> omega

/-- **The second attempt finds no whole number.** -/
theorem readNumber?_ne_int (h : IntegerText text.toList n) (hrange : ¬Number.InRange n) (i : ℤ) :
    readNumber? text ≠ some (.int i) := by
  intro hread
  rw [readNumber?, readInt?_of_integerText h, if_neg hrange] at hread
  obtain ⟨hdigits, rfl⟩ := integerText_iff.mp h
  rw [readFloat?_of_isDigits hdigits] at hread
  obtain ⟨x, hx, hint⟩ := Option.map_eq_some_iff.mp hread
  have hlarge : 2 ^ 63 ≤ digitsValue (splitSign text.toList).2 := le_of_not_inRange hrange
  split at hint
  · rename_i k hk
    split at hint
    · -- the double has reached the bound as the digits have, so it is not below it
      rename_i hsmall
      have hmagnitude : (2 : ℚ) ^ (63 : ℤ) ≤ x.magnitude :=
        Binary64.pow_le_of_ofDecimal? (by decide) (by exact_mod_cast hlarge) hx
      rw [← Binary64.natAbs_of_toInt? hk] at hmagnitude
      have hsize : 2 ^ 63 ≤ k.natAbs := by exact_mod_cast hmagnitude
      exact absurd hsmall (Nat.not_lt.mpr hsize)
    · cases hint
  · cases hint

/-! ### The conversions -/

/-- **Text of a whole number is converted exactly or not at all.** -/
theorem convert?_integer (h : IntegerText text.toList n) :
    convert? "integer" (.str text) = if Number.InRange n then some (ofInt n) else none := by
  have hscalar : convert? "integer" (.str text) =
      ((readNumber? text).filter isWhole).map .num := convert?_of_isScalar ⟨rfl, rfl⟩
  rw [hscalar]
  by_cases hrange : Number.InRange n
  · have hread : readNumber? text = some (.int n) := by
      rw [readNumber?, readInt?_of_integerText h, if_pos hrange]
    rw [hread, if_pos hrange]
    rfl
  · rw [if_neg hrange, Option.map_eq_none_iff, Option.filter_eq_none_iff]
    intro number hread
    cases number with
    | int i => exact absurd hread (readNumber?_ne_int h hrange i)
    | float x => exact Bool.false_ne_true

/-! ### One declared type -/

/-- The schema that declares one type and nothing else. -/
def ofType (t : String) : Json := .obj [("type", .str t)]

theorem shape_ofType {t : String} (ht : t ∈ scalarTypes) : shape (ofType t) = .scalar (some t) := by
  revert t
  decide

theorem coerce_ofType {t : String} {value : Json} (ht : t ∈ scalarTypes) (h : IsScalar value) :
    coerce root (ofType t) value = coerceTo [t] value := by
  have hplain : ∀ schemas, shape (ofType t) ≠ .allOf schemas := by
    rw [shape_ofType ht]
    exact fun _ => Shape.noConfusion
  have htypes : declaredTypes (ofType t) = [t] := rfl
  rw [coerce, levels, coerceWithin_of_isScalar (resolve_of_none rfl) hplain (by simpa [htypes] using ht) h,
    htypes]

theorem coerceTo_singleton {t : String} {value : Json} (h : hasType value t = false) :
    coerceTo [t] value = (convert? t value).getD value := by
  simp only [coerceTo, List.any_cons, List.any_nil, Bool.or_false, h, List.findSome?_singleton]
  rfl

/-- **Text of a whole number is converted exactly or not at all**: within the range of whole numbers it
becomes the number that it denotes, and beyond it stays text. So a whole number that is written is read
again as the same. -/
theorem coerce_integerText (root : Json) :
    (∀ text n, IntegerText text.toList n → coerce root (ofType "integer") (.str text) =
      if -2 ^ 63 ≤ n ∧ n < 2 ^ 64 then ofInt n else .str text) ∧
    ∀ n : ℤ, -2 ^ 63 ≤ n → n < 2 ^ 64 →
      coerce root (ofType "integer") (coerce root (ofType "string") (ofInt n)) = ofInt n := by
  have hread : ∀ text n, IntegerText text.toList n → coerce root (ofType "integer") (.str text) =
      if Number.InRange n then ofInt n else .str text := by
    intro text n h
    rw [coerce_ofType (by decide) ⟨rfl, rfl⟩, coerceTo_singleton rfl, convert?_integer h]
    split <;> rfl
  refine ⟨hread, fun n hlow hhigh => ?_⟩
  have hwrite : coerce root (ofType "string") (ofInt n) = .str (toString n) := by
    rw [coerce_ofType (by decide) ⟨rfl, rfl⟩, coerceTo_singleton rfl]
    rfl
  rw [hwrite, hread _ n (integerText_toString n), if_pos ⟨hlow, hhigh⟩]

/-- At the ends of the range: the greatest number with a sign and zeros in front, the text below the least
number, and the least number there and back. -/
theorem coerce_integerText_ends :
    coerce (.obj []) (ofType "integer") (.str "+00018446744073709551615") =
      ofInt 18446744073709551615 ∧
    coerce (.obj []) (ofType "integer") (.str "-9223372036854775809") = .str "-9223372036854775809" ∧
    coerce (.obj []) (ofType "integer") (coerce (.obj []) (ofType "string")
      (ofInt (-9223372036854775808))) = ofInt (-9223372036854775808) := by
  obtain ⟨hread, hagain⟩ := coerce_integerText (.obj [])
  refine ⟨?_, ?_, hagain _ (by decide) (by decide)⟩
  · exact (hread _ 18446744073709551615 (by decide)).trans (if_pos (by decide))
  · exact (hread _ (-9223372036854775809) (by decide)).trans (if_neg (by decide))

end Schema

end RequestGate
