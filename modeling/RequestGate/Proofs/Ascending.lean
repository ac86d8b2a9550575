import Mathlib.Data.List.Induction
import Mathlib.Data.String.Basic
import RequestGate.Options
import RequestGate.Proofs.Entries

/-!
# Tables with ascending keys

The tables of an artifact are kept in the order of their keys. `RequestGate.Entries.insertSorted` puts
every entry in its place, so a table that is filled by it is `RequestGate.Entries.Ascending` from the
first entry to the last. A table in that order is not changed by filling another one from it
(`RequestGate.Entries.Ascending.refill`): every key is greater than all that were there before, and goes
to the end. That is why an artifact which is read back has the tables that were written.
-/

namespace RequestGate

namespace Entries

universe u v

variable {α : Type u} {ι : Type v} {entries : Entries α}

/-- Whether the keys ascend. -/
def Ascending (entries : Entries α) : Prop :=
  (keys entries).Pairwise (· < ·)

theorem ascending_nil : Ascending ([] : Entries α) := List.Pairwise.nil

theorem Ascending.distinct (h : Ascending entries) : Distinct entries :=
  h.imp fun hlt => ne_of_lt hlt

theorem mem_keys_insertSorted {key other : String} {value : α} :
    other ∈ keys (insertSorted entries key value) ↔ other = key ∨ other ∈ keys entries := by
  rw [← contains_iff, contains, get?_insertSorted, ← contains_iff, contains]
  by_cases h : key = other
  · simp [h]
  · simp [h, Ne.symm h]

/-- **Sorted insertion keeps the order.** -/
theorem Ascending.insertSorted (h : Ascending entries) (key : String) (value : α) :
    Ascending (insertSorted entries key value) := by
  induction entries with
  | nil => exact List.pairwise_singleton _ _
  | cons entry rest ih =>
    obtain ⟨k, v⟩ := entry
    obtain ⟨hk, hrest⟩ := List.pairwise_cons.mp h
    simp only [Entries.insertSorted]
    split
    · rename_i heq
      exact List.pairwise_cons.mpr ⟨fun l hl => heq ▸ hk l hl, hrest⟩
    · rename_i hne
      split
      · rename_i hlt
        refine List.pairwise_cons.mpr ⟨fun l hl => ?_, h⟩
        rcases List.mem_cons.mp hl with rfl | hl
        · exact hlt
        · exact hlt.trans (hk l hl)
      · rename_i hge
        refine List.pairwise_cons.mpr ⟨fun l hl => ?_, ih hrest⟩
        rcases mem_keys_insertSorted.mp hl with rfl | hl
        · exact lt_of_le_of_ne (not_lt.mp hge) hne
        · exact hk l hl

/-- A table that is filled by sorted insertion is in order. -/
theorem ascending_foldl_insertSorted (key : ι → String) (value : ι → α) (items : List ι) :
    Ascending (items.foldl (fun t i => insertSorted t (key i) (value i)) []) := by
  induction items using List.reverseRecOn with
  | nil => exact ascending_nil
  | append_singleton items i ih =>
    rw [List.foldl_concat]
    exact ih.insertSorted (key i) (value i)

/-- **Of several values under one key the last is found** in a table that is filled by insertion. -/
theorem get?_foldl_insertSorted (key : ι → String) (value : ι → α) (items : List ι) (k : String) :
    get? (items.foldl (fun t i => insertSorted t (key i) (value i)) []) k =
      (items.reverse.find? fun i => key i == k).map value := by
  induction items using List.reverseRecOn with
  | nil => rfl
  | append_singleton items i ih =>
    rw [List.foldl_concat, get?_insertSorted, ih, List.reverse_concat]
    by_cases hk : key i = k
    · rw [if_pos hk, List.find?_cons_of_pos (by simpa using hk), Option.map_some]
    · rw [if_neg hk, List.find?_cons_of_neg (by simpa using hk)]

theorem mem_keys_foldl_insertSorted {key : ι → String} {value : ι → α} {items : List ι}
    {k : String} :
    k ∈ keys (items.foldl (fun t i => insertSorted t (key i) (value i)) []) ↔
      ∃ i ∈ items, key i = k := by
  rw [← contains_iff, contains, get?_foldl_insertSorted, Option.isSome_map, List.find?_isSome]
  simp

/-- A key that is greater than all others goes to the end. -/
theorem insertSorted_of_forall_lt {key : String} (value : α) (h : ∀ k ∈ keys entries, k < key) :
    insertSorted entries key value = entries ++ [(key, value)] := by
  induction entries with
  | nil => rfl
  | cons entry rest ih =>
    obtain ⟨k, v⟩ := entry
    have hk : k < key := h k (by simp)
    rw [insertSorted, if_neg (ne_of_lt hk), if_neg (not_lt.mpr (le_of_lt hk)),
      ih fun l hl => h l (List.mem_cons_of_mem k hl), List.cons_append]

/-- **A table in order is the one that is filled from it.** -/
theorem Ascending.refill (h : Ascending entries) :
    entries.foldl (fun t e => Entries.insertSorted t e.1 e.2) [] = entries := by
  induction entries using List.reverseRecOn with
  | nil => rfl
  | append_singleton front last ih =>
    have hkeys : (keys front ++ [last.1]).Pairwise (· < ·) := by
      rwa [Ascending, keys, List.map_append] at h
    obtain ⟨hfront, -, hlast⟩ := List.pairwise_append.mp hkeys
    rw [List.foldl_concat, ih hfront,
      insertSorted_of_forall_lt last.2 fun k hk => hlast k hk last.1 (by simp)]

/-! ### Tables without repeated keys -/

theorem insert_of_not_mem {key : String} (value : α) (h : key ∉ keys entries) :
    insert entries key value = entries ++ [(key, value)] := by
  induction entries with
  | nil => rfl
  | cons entry rest ih =>
    obtain ⟨k, v⟩ := entry
    have hk : k ≠ key := fun hc => h (by simp [hc])
    rw [insert, if_neg hk, ih fun hmem => h (List.mem_cons_of_mem k hmem), List.cons_append]

/-- **A table without repeated keys is the one that is made from its list.** -/
theorem Distinct.ofList_eq (h : Distinct entries) : ofList entries = entries := by
  induction entries using List.reverseRecOn with
  | nil => rfl
  | append_singleton front last ih =>
    have hkeys : (keys front ++ [last.1]).Nodup := by
      rwa [Distinct, keys, List.map_append] at h
    obtain ⟨hfront, -, hlast⟩ := List.nodup_append.mp hkeys
    have hnew : last.1 ∉ keys front := fun hmem => hlast _ hmem _ (by simp) rfl
    have hold : Entries.insertAll [] front = front := ih hfront
    rw [ofList, Entries.insertAll, List.foldl_concat, ← Entries.insertAll, hold,
      insert_of_not_mem last.2 hnew]

end Entries

/-! ### Ascending lists -/

/-- What is sorted ascends. -/
theorem pairwise_sortedDistinct (names : List String) :
    (sortedDistinct names).Pairwise (· < ·) :=
  Entries.ascending_foldl_insertSorted id (fun _ => ()) names

/-- **Sorting loses nothing**, and brings nothing new. -/
theorem mem_sortedDistinct {names : List String} {name : String} :
    name ∈ sortedDistinct names ↔ name ∈ names := by
  exact Entries.mem_keys_foldl_insertSorted.trans exists_eq_right

/-- Lists with the same members are sorted to the same list. -/
theorem sortedDistinct_congr {names others : List String}
    (h : ∀ name, name ∈ names ↔ name ∈ others) : sortedDistinct names = sortedDistinct others := by
  have hnames := pairwise_sortedDistinct names
  have hothers := pairwise_sortedDistinct others
  have hperm : (sortedDistinct names).Perm (sortedDistinct others) := by
    refine (List.perm_ext_iff_of_nodup (hnames.imp ne_of_lt) (hothers.imp ne_of_lt)).mpr fun name => ?_
    rw [mem_sortedDistinct, mem_sortedDistinct, h]
  exact hperm.eq_of_pairwise (fun a b _ _ hab hba => absurd hba hab.asymm) hnames hothers

/-- **Sorting changes nothing that is sorted.** -/
theorem sortedDistinct_of_pairwise {names : List String} (h : names.Pairwise (· < ·)) :
    sortedDistinct names = names := by
  have hkeys : Entries.keys (names.map fun name => (name, ())) = names := by
    simp [Entries.keys, Function.comp_def]
  have hascending : Entries.Ascending (names.map fun name => (name, ())) := by
    rwa [Entries.Ascending, hkeys]
  have hrefill := hascending.refill
  rw [List.foldl_map] at hrefill
  rw [sortedDistinct, hrefill, hkeys]

end RequestGate
