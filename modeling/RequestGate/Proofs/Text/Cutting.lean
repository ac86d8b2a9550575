import Mathlib.Data.List.Basic
import RequestGate.Text.Basic

/-!
# Cutting text at a separator

Text that is joined with a separator can be cut again, and the pieces of a whole are the pieces of
its parts (`RequestGate.Text.splitOn_append_sep`). So what is joined from several parts, each of
which may hold the separator itself, determines the list of all pieces and nothing more: not where
one part ends and the next begins. If no part holds the separator, then the parts are the pieces
(`RequestGate.Text.split_join`).
-/

namespace RequestGate.Text

variable {sep : Char}

theorem splitOn_cons_sep (sep : Char) (cs : List Char) :
    splitOn sep (sep :: cs) = [] :: splitOn sep cs := by
  rw [splitOn, if_pos rfl]

theorem splitOn_cons_of_ne {c : Char} (h : c ≠ sep) (cs : List Char) :
    ∃ piece pieces, splitOn sep cs = piece :: pieces ∧
      splitOn sep (c :: cs) = (c :: piece) :: pieces := by
  obtain ⟨piece, pieces, hcs⟩ := List.exists_cons_of_ne_nil (splitOn_ne_nil sep cs)
  refine ⟨piece, pieces, hcs, ?_⟩
  rw [splitOn, if_neg h, hcs]

/-- **The pieces of a whole** are those of its parts. -/
theorem splitOn_append_sep (sep : Char) (a b : List Char) :
    splitOn sep (a ++ sep :: b) = splitOn sep a ++ splitOn sep b := by
  induction a with
  | nil => exact splitOn_cons_sep sep b
  | cons c a ih =>
    by_cases h : c = sep
    · subst h
      rw [List.cons_append, splitOn_cons_sep, splitOn_cons_sep, ih, List.cons_append]
    · obtain ⟨piece, pieces, ha, hca⟩ := splitOn_cons_of_ne h a
      obtain ⟨piece', pieces', hab, hcab⟩ := splitOn_cons_of_ne h (a ++ sep :: b)
      rw [ih, ha, List.cons_append] at hab
      obtain ⟨rfl, rfl⟩ := List.cons.inj hab
      rw [List.cons_append, hcab, hca, List.cons_append]

theorem splitOn_injective (sep : Char) : Function.Injective (splitOn sep) :=
  Function.LeftInverse.injective (joinWith_splitOn sep)

/-- There is one piece more than there are separators. -/
theorem length_splitOn (sep : Char) (cs : List Char) :
    (splitOn sep cs).length = cs.count sep + 1 := by
  induction cs with
  | nil => rfl
  | cons c cs ih =>
    by_cases h : c = sep
    · subst h
      rw [splitOn_cons_sep, List.length_cons, ih, List.count_cons_self]
    · obtain ⟨piece, pieces, hcs, hccs⟩ := splitOn_cons_of_ne h cs
      rw [hcs] at ih
      rw [hccs, List.length_cons, ← List.length_cons (a := piece), ih, List.count_cons_of_ne h]

/-- Text without the separator is one piece. -/
theorem splitOn_of_not_mem {cs : List Char} (h : sep ∉ cs) : splitOn sep cs = [cs] := by
  have hlength : (splitOn sep cs).length = 1 := by
    rw [length_splitOn, List.count_eq_zero_of_not_mem h]
  obtain ⟨piece, hpiece⟩ := List.length_eq_one_iff.mp hlength
  have hjoin := joinWith_splitOn sep cs
  rw [hpiece] at hjoin
  rw [hpiece, ← hjoin]
  rfl

/-- **No piece holds the separator.** -/
theorem not_mem_of_mem_splitOn {cs piece : List Char} (h : piece ∈ splitOn sep cs) : sep ∉ piece := by
  induction cs generalizing piece with
  | nil => simp_all [splitOn]
  | cons c cs ih =>
    by_cases hc : c = sep
    · subst hc
      rw [splitOn_cons_sep] at h
      rcases List.mem_cons.mp h with rfl | h
      · exact List.not_mem_nil
      · exact ih h
    · obtain ⟨first, pieces, hcs, hccs⟩ := splitOn_cons_of_ne hc cs
      rw [hccs] at h
      rw [hcs] at ih
      rcases List.mem_cons.mp h with rfl | h
      · exact List.not_mem_cons_of_ne_of_not_mem (Ne.symm hc) (ih (by simp))
      · exact ih (List.mem_cons_of_mem _ h)

theorem joinWith_cons_of_ne_nil {pieces : List (List Char)} (h : pieces ≠ []) (piece : List Char) :
    joinWith sep (piece :: pieces) = piece ++ sep :: joinWith sep pieces := by
  cases pieces with
  | nil => exact absurd rfl h
  | cons next rest => rfl

/-- **Cutting a joined text** gives the pieces back, if none of them holds the separator. -/
theorem splitOn_joinWith {pieces : List (List Char)} (hne : pieces ≠ [])
    (h : ∀ piece ∈ pieces, sep ∉ piece) : splitOn sep (joinWith sep pieces) = pieces := by
  induction pieces with
  | nil => exact absurd rfl hne
  | cons piece pieces ih =>
    have hpiece : splitOn sep piece = [piece] := splitOn_of_not_mem (h piece (by simp))
    by_cases hrest : pieces = []
    · subst hrest
      exact hpiece
    · rw [joinWith_cons_of_ne_nil hrest, splitOn_append_sep, hpiece,
        ih hrest fun next hnext => h next (List.mem_cons_of_mem _ hnext), List.singleton_append]

/-- Strings, joined with a separator between neighbours. -/
def join (sep : Char) (items : List String) : String :=
  (String.singleton sep).intercalate items

theorem toList_join (sep : Char) (items : List String) :
    (join sep items).toList = joinWith sep (items.map String.toList) := by
  induction items with
  | nil => rfl
  | cons item items ih =>
    cases items with
    | nil => simp [join, joinWith]
    | cons next rest =>
      rw [join, String.intercalate_cons_cons, ← join, String.toList_append, String.toList_append, ih]
      simp [joinWith]

/-- What is joined starts with the first item. -/
theorem join_cons (sep : Char) (item : String) (items : List String) :
    join sep (item :: items) = item ++ join sep ("" :: items) := by
  rw [join, join, ← String.intercalate_cons_append, String.append_empty]

theorem join_cons_cons (sep : Char) (item next : String) (items : List String) :
    join sep (item :: next :: items) = item ++ String.singleton sep ++ join sep (next :: items) :=
  String.intercalate_cons_cons

theorem split_join {items : List String} (hne : items ≠ []) (h : ∀ item ∈ items, sep ∉ item.toList) :
    split sep (join sep items) = items := by
  rw [split, toList_join, splitOn_joinWith (by simpa using hne) (by simpa using h), List.map_map]
  exact List.map_id'' (fun item => String.ofList_toList) items

theorem join_split (sep : Char) (s : String) : join sep (split sep s) = s := by
  have hpieces : (split sep s).map String.toList = splitOn sep s.toList := by
    rw [split, List.map_map]
    exact List.map_id'' (fun piece => String.toList_ofList) _
  rw [← String.toList_inj, toList_join, hpieces, joinWith_splitOn]

theorem not_mem_of_mem_split {s item : String} (h : item ∈ split sep s) : sep ∉ item.toList := by
  obtain ⟨piece, hpiece, rfl⟩ := List.mem_map.mp h
  rw [String.toList_ofList]
  exact not_mem_of_mem_splitOn hpiece

/-- Only of nothing, or of one empty string, nothing is joined. -/
theorem join_eq_empty_iff {items : List String} :
    join sep items = "" ↔ items = [] ∨ items = [""] := by
  rw [← String.toList_inj, toList_join]
  match items with
  | [] => simp [joinWith]
  | [item] => simp [joinWith]
  | item :: next :: rest => simp [joinWith]

/-! ### What a text starts with -/

theorem dropStart?_eq_some_iff {start cs rest : List Char} :
    dropStart? start cs = some rest ↔ cs = start ++ rest := by
  induction start generalizing cs with
  | nil => simp [dropStart?]
  | cons s start ih =>
    cases cs with
    | nil => simp [dropStart?]
    | cons c cs =>
      by_cases h : s = c
      · simp [dropStart?, h, ih]
      · simp [dropStart?, h, Ne.symm h]

theorem startsWith_iff {start cs : List Char} : startsWith start cs = true ↔ start <+: cs := by
  rw [startsWith, Option.isSome_iff_exists]
  exact exists_congr fun rest => dropStart?_eq_some_iff.trans eq_comm

end RequestGate.Text
