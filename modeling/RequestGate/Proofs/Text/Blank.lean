import Mathlib.Data.List.TakeWhile
import RequestGate.Text.Basic

/-!
# Trimmed text and small letters

A header is trimmed and brought to small letters before anything else is done with it. Blanks are not
letters, so the two can be done in either order (`RequestGate.Text.trim_map_toLower`), and doing either
twice is doing it once. `RequestGate.Text.Trimmed` says of a text that there is nothing to trim.
-/

namespace RequestGate.Text

/-! ### Letters -/

/-- A property of all characters of ASCII, checked one by one. -/
theorem forall_ascii {P : Char → Prop} (h : ∀ n < 128, P (Char.ofNat n)) {c : Char}
    (hc : c.toNat < 128) : P c := by
  have hn := h c.toNat hc
  rwa [Char.ofNat_toNat] at hn

theorem toLower_of_not_ascii {c : Char} (h : 128 ≤ c.toNat) : c.toLower = c := by
  refine dif_neg ?_
  rintro ⟨-, hle⟩
  have hZ : c.toNat ≤ 'Z'.toNat := hle
  have hvalue : 'Z'.toNat = 90 := by decide
  omega

@[simp] theorem toLower_toLower (c : Char) : c.toLower.toLower = c.toLower := by
  rcases Nat.lt_or_ge c.toNat 128 with h | h
  · exact forall_ascii (P := fun c => c.toLower.toLower = c.toLower) (by decide) h
  · rw [toLower_of_not_ascii h, toLower_of_not_ascii h]

@[simp] theorem isBlank_toLower (c : Char) : isBlank c.toLower = isBlank c := by
  rcases Nat.lt_or_ge c.toNat 128 with h | h
  · exact forall_ascii (P := fun c => isBlank c.toLower = isBlank c) (by decide) h
  · rw [toLower_of_not_ascii h]

/-- Whether no letter of `A` to `Z` is among the characters. -/
def Lower (cs : List Char) : Prop := ∀ c ∈ cs, c.toLower = c

instance (cs : List Char) : Decidable (Lower cs) :=
  List.decidableBAll (fun c : Char => c.toLower = c) cs

theorem Lower.map_toLower {cs : List Char} (h : Lower cs) : cs.map Char.toLower = cs :=
  (List.map_congr_left h).trans (List.map_id cs)

theorem lower_map_toLower (cs : List Char) : Lower (cs.map Char.toLower) := by
  intro c hc
  obtain ⟨d, -, rfl⟩ := List.mem_map.mp hc
  exact toLower_toLower d

theorem Lower.sublist {a b : List Char} (h : Lower b) (hab : a.Sublist b) : Lower a :=
  fun c hc => h c (hab.subset hc)

theorem Lower.append {a b : List Char} (ha : Lower a) (hb : Lower b) : Lower (a ++ b) := by
  intro c hc
  rcases List.mem_append.mp hc with hc | hc
  · exact ha c hc
  · exact hb c hc

theorem asciiLower_ofList {cs : List Char} (h : Lower cs) :
    asciiLower (String.ofList cs) = String.ofList cs := by
  rw [asciiLower, String.toList_ofList, h.map_toLower]

theorem asciiLower_asciiLower (s : String) : asciiLower (asciiLower s) = asciiLower s :=
  asciiLower_ofList (lower_map_toLower s.toList)

/-! ### Trimming -/

/-- Whether there are no blanks at either end. -/
structure Trimmed (cs : List Char) : Prop where
  front : ∀ c ∈ cs.head?, isBlank c = false
  back : ∀ c ∈ cs.getLast?, isBlank c = false

theorem trimStart_sublist (cs : List Char) : (trimStart cs).Sublist cs :=
  List.dropWhile_sublist _

/-- What is left of a text that is trimmed at the end is a front part of it. -/
theorem trimEnd_front (cs : List Char) : trimEnd cs <+: cs := by
  have hsuffix : cs.reverse.dropWhile isBlank <:+ cs.reverse := List.dropWhile_suffix _
  rw [trimEnd, ← List.reverse_suffix, List.reverse_reverse]
  exact hsuffix

theorem trim_sublist (cs : List Char) : (trim cs).Sublist cs :=
  (trimEnd_front _).sublist.trans (trimStart_sublist cs)

theorem isBlank_of_head?_trimStart {cs : List Char} {c : Char} (h : c ∈ (trimStart cs).head?) :
    isBlank c = false := by
  have hnot := List.head?_dropWhile_not isBlank cs
  rw [trimStart] at h
  rw [h] at hnot
  exact hnot

theorem trimStart_of_front {cs : List Char} (h : ∀ c ∈ cs.head?, isBlank c = false) :
    trimStart cs = cs := by
  cases cs with
  | nil => rfl
  | cons c cs => rw [trimStart, List.dropWhile_cons_of_neg (by simp [h c rfl])]

theorem trimEnd_of_back {cs : List Char} (h : ∀ c ∈ cs.getLast?, isBlank c = false) :
    trimEnd cs = cs := by
  have hreverse : trimStart cs.reverse = cs.reverse := by
    refine trimStart_of_front fun c hc => h c ?_
    rwa [List.head?_reverse] at hc
  rw [trimEnd, ← trimStart, hreverse, List.reverse_reverse]

theorem Trimmed.trim_eq {cs : List Char} (h : Trimmed cs) : trim cs = cs := by
  rw [trim, trimStart_of_front h.front, trimEnd_of_back h.back]

theorem isBlank_of_getLast?_trimEnd {cs : List Char} {c : Char} (h : c ∈ (trimEnd cs).getLast?) :
    isBlank c = false := by
  rw [trimEnd, List.getLast?_reverse] at h
  exact isBlank_of_head?_trimStart h

/-- A front part that is not empty starts as the whole. -/
theorem head?_of_front {a b : List Char} (h : a <+: b) {c : Char} (hc : c ∈ a.head?) :
    c ∈ b.head? := by
  obtain ⟨rest, rfl⟩ := h
  cases a with
  | nil => cases hc
  | cons d a => exact hc

/-- **Trimming leaves nothing to trim.** -/
theorem trimmed_trim (cs : List Char) : Trimmed (trim cs) where
  front _ hc := isBlank_of_head?_trimStart (head?_of_front (trimEnd_front _) hc)
  back _ hc := isBlank_of_getLast?_trimEnd hc

theorem trimmed_iff {cs : List Char} : Trimmed cs ↔ trim cs = cs :=
  ⟨Trimmed.trim_eq, fun h => h ▸ trimmed_trim cs⟩

instance (cs : List Char) : Decidable (Trimmed cs) := decidable_of_iff (trim cs = cs) trimmed_iff.symm

theorem trimStart_map_toLower (cs : List Char) :
    trimStart (cs.map Char.toLower) = (trimStart cs).map Char.toLower := by
  have hblank : isBlank ∘ Char.toLower = isBlank := funext isBlank_toLower
  rw [trimStart, trimStart, List.dropWhile_map, hblank]

theorem trimEnd_map_toLower (cs : List Char) :
    trimEnd (cs.map Char.toLower) = (trimEnd cs).map Char.toLower := by
  have hreverse := trimStart_map_toLower cs.reverse
  rw [trimStart, trimStart] at hreverse
  rw [trimEnd, trimEnd, ← List.map_reverse, hreverse, List.map_reverse]

/-- **Blanks are not letters**, so they can be trimmed before or after. -/
theorem trim_map_toLower (cs : List Char) :
    trim (cs.map Char.toLower) = (trim cs).map Char.toLower := by
  rw [trim, trim, trimStart_map_toLower, trimEnd_map_toLower]

/-! ### Trimming around a character that is no blank -/

theorem trimStart_append_cons {c : Char} (hc : isBlank c = false) (a b : List Char) :
    trimStart (a ++ c :: b) = trimStart a ++ c :: b := by
  have hstop : (c :: b).dropWhile isBlank = c :: b := List.dropWhile_cons_of_neg (by simp [hc])
  rw [trimStart, trimStart, List.dropWhile_append]
  split
  · rename_i hempty
    rw [List.isEmpty_iff.mp hempty, hstop, List.nil_append]
  · rfl

theorem trimEnd_append_cons {c : Char} (hc : isBlank c = false) (a b : List Char) :
    trimEnd (a ++ c :: b) = a ++ c :: trimEnd b := by
  have hreverse : (a ++ c :: b).reverse = b.reverse ++ c :: a.reverse := by simp
  rw [trimEnd, ← trimStart, hreverse, trimStart_append_cons hc, trimEnd, ← trimStart]
  simp

/-- The two ends of a text are trimmed on their own. -/
theorem trim_append_cons {c : Char} (hc : isBlank c = false) (a b : List Char) :
    trim (a ++ c :: b) = trimStart a ++ c :: trimEnd b := by
  rw [trim, trimStart_append_cons hc, trimEnd_append_cons hc]

/-- A text that has been trimmed at the front can be trimmed as a whole. -/
theorem trim_trimStart (cs : List Char) : trim (trimStart cs) = trim cs := by
  rw [trim, trimStart_of_front fun _ hc => isBlank_of_head?_trimStart hc, trim]

theorem trim_eq_nil_iff {cs : List Char} : trim cs = [] ↔ trimStart cs = [] := by
  rw [trim]
  cases hcs : trimStart cs with
  | nil => exact iff_of_true rfl rfl
  | cons c rest =>
    have hhead : c ∈ (trimStart cs).head? := by rw [hcs]; rfl
    have hc := isBlank_of_head?_trimStart hhead
    have hend : trimEnd (c :: rest) = c :: trimEnd rest := trimEnd_append_cons hc [] rest
    rw [hend]
    exact iff_of_false (List.cons_ne_nil _ _) (List.cons_ne_nil _ _)

/-- What a front part leads with, the whole leads with. -/
theorem head?_trimStart_of_front {a b : List Char} {c : Char} (h : a <+: b)
    (hc : c ∈ (trimStart a).head?) : c ∈ (trimStart b).head? := by
  obtain ⟨tail, rfl⟩ := h
  obtain ⟨piece, hpiece⟩ := List.head?_eq_some_iff.mp hc
  rw [trimStart] at hpiece
  rw [trimStart, List.dropWhile_append, hpiece]
  rfl

end RequestGate.Text
