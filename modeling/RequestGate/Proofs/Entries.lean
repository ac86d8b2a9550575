import Mathlib.Data.List.Nodup
import Mathlib.Data.List.Perm.Basic
import RequestGate.Entries

/-!
# The keys of a table

What the operations of `RequestGate.Entries` do to the keys of a table, and what a look-up finds
afterwards. Two facts carry the later arguments. No operation invents a key: `insert` and
`insertSorted` add the one that they are given, `modify` and `mapValues` keep all keys in their
places. And `RequestGate.Entries.swapRemove`, which lets the last entry jump into the gap, is on the
keys nothing worse than `List.erase` followed by a permutation
(`RequestGate.Entries.keys_swapRemove_perm`), so a table without repeated keys stays one.
-/

namespace RequestGate.Entries

universe u v

variable {α : Type u} {β : Type v}

@[simp] theorem keys_nil : keys ([] : Entries α) = [] := rfl

@[simp] theorem keys_cons (k : String) (v : α) (rest : Entries α) :
    keys ((k, v) :: rest) = k :: keys rest := rfl

/-! ### Look-up -/

theorem get?_eq_none_iff {entries : Entries α} {key : String} :
    get? entries key = none ↔ key ∉ keys entries := by
  induction entries with
  | nil => simp
  | cons entry rest ih =>
    obtain ⟨k, v⟩ := entry
    by_cases h : k = key
    · simp [get?_cons, h]
    · simp [get?_cons, h, ih, Ne.symm h]

theorem contains_iff {entries : Entries α} {key : String} :
    contains entries key = true ↔ key ∈ keys entries := by
  rw [contains, ← not_iff_not, ← get?_eq_none_iff]
  simp

theorem mem_of_get? {entries : Entries α} {key : String} {value : α}
    (h : get? entries key = some value) : (key, value) ∈ entries := by
  induction entries with
  | nil => simp at h
  | cons entry rest ih =>
    obtain ⟨k, v⟩ := entry
    rw [get?_cons] at h
    split at h
    · rename_i hk
      obtain rfl : v = value := by simpa using h
      simp [hk]
    · exact List.mem_cons_of_mem _ (ih h)

/-- **In a table without repeated keys every entry can be looked up.** -/
theorem get?_of_mem {entries : Entries α} {key : String} {value : α} (hd : Distinct entries)
    (h : (key, value) ∈ entries) : get? entries key = some value := by
  induction entries with
  | nil => simp at h
  | cons entry rest ih =>
    obtain ⟨k, v⟩ := entry
    obtain ⟨hk, hrest⟩ := List.nodup_cons.mp hd
    rcases List.mem_cons.mp h with heq | hmem
    · obtain ⟨rfl, rfl⟩ := Prod.mk.inj heq
      simp [get?_cons]
    · have hkey : key ∈ keys rest := List.mem_map_of_mem (f := Prod.fst) hmem
      have hne : k ≠ key := fun hc => hk (hc ▸ hkey)
      rw [get?_cons, if_neg hne]
      exact ih hrest hmem

/-- Of two values with one key the first is found. -/
theorem get?_append (entries more : Entries α) (key : String) :
    get? (entries ++ more) key = (get? entries key).or (get? more key) := by
  induction entries with
  | nil => rfl
  | cons entry rest ih =>
    rw [List.cons_append, get?_cons, get?_cons, ih]
    split <;> rfl

theorem get?_insert (entries : Entries α) (key other : String) (value : α) :
    get? (insert entries key value) other =
      if key = other then some value else get? entries other := by
  split
  · rename_i h
    rw [← h, get?_insert_self]
  · rename_i h
    exact get?_insert_of_ne entries value h

/-- Of two values that are put under one key the second stays. -/
@[simp] theorem insert_insert (entries : Entries α) (key : String) (first second : α) :
    insert (insert entries key first) key second = insert entries key second := by
  induction entries with
  | nil => simp [insert]
  | cons entry rest ih =>
    obtain ⟨k, v⟩ := entry
    by_cases h : k = key <;> simp [insert, h, ih]

/-- Of several values with one key the last is found, and else what was there before. -/
theorem get?_insertAll (entries more : Entries α) (key : String) :
    get? (insertAll entries more) key =
      ((more.filter fun e => e.1 == key).getLast?.map Prod.snd).or (get? entries key) := by
  induction more generalizing entries with
  | nil => rfl
  | cons entry more ih =>
    rw [insertAll, List.foldl_cons, ← insertAll, ih, get?_insert, List.filter_cons]
    by_cases hkey : entry.1 = key
    · rw [if_pos hkey, if_pos (beq_iff_eq.mpr hkey), List.getLast?_cons]
      cases (more.filter fun e => e.1 == key).getLast? <;> rfl
    · rw [if_neg hkey, if_neg (mt beq_iff_eq.mp hkey)]

theorem get?_ofList (entries : List (String × α)) (key : String) :
    get? (ofList entries) key = (entries.filter fun e => e.1 == key).getLast?.map Prod.snd := by
  rw [ofList, get?_insertAll, get?_nil, Option.or_none]

/-- Of several items with one name the last is found in a table that is made from them. -/
theorem get?_ofList_map {ι : Type*} (name : ι → String) (value : ι → α) (items : List ι) (key : String) :
    get? (ofList (items.map fun i => (name i, value i))) key =
      (items.reverse.find? fun i => name i == key).map value := by
  rw [get?_ofList, List.filter_map, List.getLast?_map, Option.map_map, List.getLast?_filter]
  rfl

/-- Of two lists that a table is filled from, the later one counts first. -/
theorem get?_ofList_append (entries more : List (String × α)) (key : String) :
    get? (ofList (entries ++ more)) key = (get? (ofList more) key).or (get? (ofList entries) key) := by
  rw [get?_ofList, get?_ofList, get?_ofList, List.filter_append, List.getLast?_append, Option.map_or]

/-- What is looked up is the first entry with the key. -/
theorem get?_eq_map_find? (entries : Entries α) (key : String) :
    get? entries key = (entries.find? fun e => e.1 == key).map Prod.snd := by
  induction entries with
  | nil => rfl
  | cons entry rest ih =>
    rw [get?_cons, List.find?_cons]
    by_cases hkey : entry.1 = key
    · rw [if_pos hkey, beq_iff_eq.mpr hkey, Option.map_some]
    · rw [if_neg hkey, beq_eq_false_iff_ne.mpr hkey, ih]

theorem get?_insertSorted (entries : Entries α) (key other : String) (value : α) :
    get? (insertSorted entries key value) other =
      if key = other then some value else get? entries other := by
  induction entries with
  | nil => rfl
  | cons entry rest ih =>
    obtain ⟨k, v⟩ := entry
    simp only [insertSorted]
    split
    · rename_i hk
      subst hk
      by_cases ho : k = other <;> simp [get?_cons, ho]
    · rename_i hk
      split
      · rfl
      · rw [get?_cons, ih]
        by_cases ho : k = other
        · simp [ho, get?_cons, Ne.symm (ho ▸ hk)]
        · simp [ho, get?_cons]

theorem get?_modify_of_ne (entries : Entries α) {key other : String} (f : α → α)
    (h : key ≠ other) : get? (modify entries key f) other = get? entries other := by
  induction entries with
  | nil => rfl
  | cons entry rest ih =>
    obtain ⟨k, v⟩ := entry
    simp only [modify]
    split
    · rename_i hk
      simp [get?_cons, hk, h]
    · rw [get?_cons, get?_cons, ih]

theorem get?_modify_self (entries : Entries α) (key : String) (f : α → α) :
    get? (modify entries key f) key = (get? entries key).map f := by
  induction entries with
  | nil => rfl
  | cons entry rest ih =>
    obtain ⟨k, v⟩ := entry
    by_cases h : k = key <;> simp [modify, get?_cons, h, ih]

theorem modify_of_get? {entries : Entries α} {key : String} {value : α}
    (h : get? entries key = some value) (f : α → α) :
    modify entries key f = insert entries key (f value) := by
  induction entries with
  | nil => cases h
  | cons entry rest ih =>
    obtain ⟨k, v⟩ := entry
    rw [get?_cons] at h
    rw [modify, insert]
    split
    · rename_i hk
      rw [if_pos hk] at h
      rw [Option.some.inj h]
    · rename_i hk
      rw [if_neg hk] at h
      rw [ih h]

theorem modify_eq_self {entries : Entries α} {key : String} {f : α → α}
    (h : ∀ v, get? entries key = some v → f v = v) : modify entries key f = entries := by
  induction entries with
  | nil => rfl
  | cons entry rest ih =>
    obtain ⟨k, v⟩ := entry
    rw [modify]
    split
    · rename_i hk
      rw [h v (by rw [get?_cons, if_pos hk])]
    · rename_i hk
      rw [ih fun w hw => h w (by rw [get?_cons, if_neg hk, hw])]

/-- What is looked up after a value has been rewritten. -/
theorem get?_modify (entries : Entries α) (key other : String) (f : α → α) :
    get? (modify entries key f) other =
      if other = key then (get? entries key).map f else get? entries other := by
  split
  · rename_i h
    rw [h, get?_modify_self]
  · rename_i h
    exact get?_modify_of_ne entries f (Ne.symm h)

theorem get?_mapValues (f : α → β) (entries : Entries α) (key : String) :
    get? (mapValues f entries) key = (get? entries key).map f := by
  induction entries with
  | nil => rfl
  | cons entry rest ih =>
    obtain ⟨k, v⟩ := entry
    have ih' : get? (rest.map fun e => (e.1, f e.2)) key = (get? rest key).map f := ih
    by_cases h : k = key <;> simp [mapValues, get?_cons, h, ih']

/-- A filter that lets every value under a key through does not touch what is found there. -/
theorem get?_filter_of_forall {entries : Entries α} {keep : String × α → Bool} {key : String}
    (h : ∀ value, keep (key, value) = true) : get? (entries.filter keep) key = get? entries key := by
  induction entries with
  | nil => rfl
  | cons entry rest ih =>
    obtain ⟨k, v⟩ := entry
    rw [List.filter_cons, get?_cons]
    by_cases hk : k = key
    · rw [if_pos hk, if_pos (hk ▸ h v), get?_cons, if_pos hk]
    · rw [if_neg hk]
      split
      · rw [get?_cons, if_neg hk, ih]
      · exact ih

section Modifications

variable {γ : Type*} {name : γ → String} {f : γ → α → α} {items : List γ} {item : γ}

theorem get?_foldl_modify_of_not_mem {key : String} (h : key ∉ items.map name) (entries : Entries α) :
    get? (items.foldl (fun table x => modify table (name x) (f x)) entries) key = get? entries key := by
  induction items generalizing entries with
  | nil => rfl
  | cons x items ih =>
    obtain ⟨hx, hitems⟩ := List.ne_and_not_mem_of_not_mem_cons h
    rw [List.foldl_cons, ih hitems, get?_modify_of_ne _ _ (Ne.symm hx)]

/-- Of modifications under different keys each has its effect. -/
theorem get?_foldl_modify (hd : (items.map name).Nodup) (h : item ∈ items) (entries : Entries α) :
    get? (items.foldl (fun table x => modify table (name x) (f x)) entries) (name item) =
      (get? entries (name item)).map (f item) := by
  induction items generalizing entries with
  | nil => cases h
  | cons x items ih =>
    obtain ⟨hx, hitems⟩ := List.nodup_cons.mp hd
    rw [List.foldl_cons]
    rcases List.mem_cons.mp h with rfl | hmem
    · rw [get?_foldl_modify_of_not_mem hx, get?_modify_self]
    · have hne : name x ≠ name item := fun hname => hx (hname ▸ List.mem_map_of_mem hmem)
      rw [ih hitems hmem, get?_modify_of_ne _ _ hne]

end Modifications

/-- What a sorted insertion leaves in a table: the new entry and some of the old ones. -/
theorem mem_insertSorted {entries : Entries α} {key : String} {value : α} {e : String × α}
    (h : e ∈ insertSorted entries key value) : e = (key, value) ∨ e ∈ entries := by
  induction entries with
  | nil => simpa [insertSorted] using h
  | cons entry rest ih =>
    obtain ⟨k, v⟩ := entry
    simp only [insertSorted] at h
    split at h
    · rename_i hk
      rcases List.mem_cons.mp h with rfl | hm
      · exact Or.inl (by rw [hk])
      · exact Or.inr (List.mem_cons_of_mem _ hm)
    · split at h
      · simpa using h
      · rcases List.mem_cons.mp h with rfl | hm
        · exact Or.inr (by simp)
        · exact (ih hm).imp_right (List.mem_cons_of_mem _)

/-! ### Keys -/

@[simp] theorem keys_modify (entries : Entries α) (key : String) (f : α → α) :
    keys (modify entries key f) = keys entries := by
  induction entries with
  | nil => rfl
  | cons entry rest ih =>
    obtain ⟨k, v⟩ := entry
    simp only [modify]
    split
    · rfl
    · rw [keys_cons, keys_cons, ih]

/-- Inserting leaves the keys alone, or appends the one that is new. -/
theorem keys_insert (entries : Entries α) (key : String) (value : α) :
    keys (insert entries key value) =
      if key ∈ keys entries then keys entries else keys entries ++ [key] := by
  induction entries with
  | nil => rfl
  | cons entry rest ih =>
    obtain ⟨k, v⟩ := entry
    simp only [insert]
    split
    · rename_i h
      simp [h]
    · rename_i h
      rw [keys_cons, keys_cons, ih]
      by_cases hk : key ∈ keys rest
      · simp [hk]
      · simp [hk, Ne.symm h]

@[simp] theorem mem_keys_insert {entries : Entries α} {key other : String} {value : α} :
    other ∈ keys (insert entries key value) ↔ other = key ∨ other ∈ keys entries := by
  rw [keys_insert]
  split
  · rename_i h
    exact ⟨Or.inr, fun hor => hor.elim (fun he => he ▸ h) id⟩
  · rw [List.mem_append, List.mem_singleton, or_comm]

/-- The keys of the entries with a value of some kind, after one of another kind has been replaced. -/
theorem mem_keys_filter_insert {entries : Entries α} {key other : String} {value : α}
    {keep : α → Bool} (h : ∀ old, get? entries key = some old → keep old = false) :
    other ∈ keys ((insert entries key value).filter fun e => keep e.2) ↔
      key = other ∧ keep value = true ∨ other ∈ keys (entries.filter fun e => keep e.2) := by
  induction entries with
  | nil => cases hvalue : keep value <;> simp [insert, hvalue, eq_comm]
  | cons entry rest ih =>
    obtain ⟨k, v⟩ := entry
    by_cases hk : k = key
    · subst hk
      have hold : keep v = false := h v (by rw [get?_cons, if_pos rfl])
      cases hvalue : keep value <;> simp [insert, hvalue, hold, eq_comm]
    · have ih := ih fun old hold => h old (by rwa [get?_cons, if_neg hk])
      cases hv : keep v
      · simpa [insert, List.filter_cons, hk, hv] using ih
      · simp only [insert, hk, if_false, List.filter_cons, hv, if_true, keys_cons, List.mem_cons, ih]
        exact or_left_comm

theorem Distinct.insert {entries : Entries α} (h : Distinct entries) (key : String) (value : α) :
    Distinct (insert entries key value) := by
  rw [Distinct, keys_insert]
  split
  · exact h
  · rename_i hk
    exact List.Nodup.append h (List.nodup_singleton key) (by simpa using hk)

theorem Distinct.insertAll {entries : Entries α} (h : Distinct entries) (more : Entries α) :
    Distinct (insertAll entries more) := by
  induction more generalizing entries with
  | nil => exact h
  | cons entry more ih => exact ih (h.insert entry.1 entry.2)

/-- A table that is made from a list repeats no key. -/
theorem distinct_ofList (entries : List (String × α)) : Distinct (ofList entries) := by
  have hnil : Distinct ([] : Entries α) := List.nodup_nil
  exact hnil.insertAll entries

/-- **Removing moves entries but loses only one**: up to a permutation, the keys that are left are
the old ones without the first occurrence of `key`. -/
theorem keys_swapRemove_perm (entries : Entries α) (key : String) :
    (keys (swapRemove entries key)).Perm ((keys entries).erase key) := by
  induction entries with
  | nil => exact .nil
  | cons entry rest ih =>
    obtain ⟨k, v⟩ := entry
    simp only [swapRemove]
    split
    · rename_i h
      subst h
      rw [keys_cons, List.erase_cons_head]
      -- the gap is filled by the last entry, if there is one
      rcases List.eq_nil_or_concat rest with rfl | ⟨front, last, rfl⟩
      · exact .nil
      · simpa [keys] using (List.perm_append_singleton last.1 (keys front)).symm
    · rename_i h
      rw [keys_cons, keys_cons, List.erase_cons_tail (by simpa using h)]
      exact ih.cons k

theorem Distinct.swapRemove {entries : Entries α} (h : Distinct entries) (key : String) :
    Distinct (swapRemove entries key) :=
  (keys_swapRemove_perm entries key).nodup_iff.mpr (List.Nodup.erase key h)

theorem mem_keys_swapRemove {entries : Entries α} (h : Distinct entries) {key other : String} :
    other ∈ keys (swapRemove entries key) ↔ other ≠ key ∧ other ∈ keys entries :=
  (keys_swapRemove_perm entries key).mem_iff.trans (List.Nodup.mem_erase_iff h)

/-! ### Another order -/

/-- Related results are both missing, or both there. -/
theorem rel_cases {S : α → β → Prop} {x : Option α} {y : Option β} (h : Option.Rel S x y) :
    x = none ∧ y = none ∨ ∃ v w, x = some v ∧ y = some w ∧ S v w := by
  cases h with
  | none => exact Or.inl ⟨rfl, rfl⟩
  | some h => exact Or.inr ⟨_, _, rfl, rfl, h⟩

theorem rel_imp {S T : α → β → Prop} {x : Option α} {y : Option β} (h : Option.Rel S x y)
    (hST : ∀ v w, S v w → T v w) : Option.Rel T x y := by
  cases h with
  | none => exact .none
  | some h => exact .some (hST _ _ h)

theorem rel_bind {γ δ : Type*} {S : α → β → Prop} {T : γ → δ → Prop} {x : Option α} {y : Option β}
    {f : α → Option γ} {g : β → Option δ} (h : Option.Rel S x y)
    (hfg : ∀ v w, S v w → Option.Rel T (f v) (g w)) : Option.Rel T (x.bind f) (y.bind g) := by
  cases h with
  | none => exact .none
  | some h => exact hfg _ _ h

theorem map_eq_of_forall₂ {γ : Type*} {f : α → γ} {g : β → γ} {l : List α} {l' : List β}
    (h : List.Forall₂ (fun a b => f a = g b) l l') : l.map f = l'.map g := by
  rw [← List.forall₂_eq_eq_eq, List.forall₂_map_left_iff, List.forall₂_map_right_iff]
  exact h

/-- Whether two lists have related elements in some order. -/
def InSomeOrder {α : Type u} {β : Type v} (S : α → β → Prop) (l : List α) (l' : List β) : Prop :=
  ∃ ordered : List α, l.Perm ordered ∧ List.Forall₂ S ordered l'

section InSomeOrder

variable {γ δ : Type*} {S : α → β → Prop} {l : List α} {l' : List β}

theorem InSomeOrder.of_forall₂ (h : List.Forall₂ S l l') : InSomeOrder S l l' := ⟨l, .refl l, h⟩

theorem InSomeOrder.length_eq (h : InSomeOrder S l l') : l.length = l'.length :=
  let ⟨_, hperm, hrel⟩ := h
  hperm.length_eq.trans hrel.length_eq

theorem InSomeOrder.isEmpty_eq (h : InSomeOrder S l l') : l.isEmpty = l'.isEmpty := by
  rw [Bool.eq_iff_iff, List.isEmpty_iff_length_eq_zero, List.isEmpty_iff_length_eq_zero, h.length_eq]

/-- What is listed for each element is listed for all, in some order. -/
theorem InSomeOrder.perm_flatMap {f : α → List γ} {g : β → List γ} (h : InSomeOrder S l l')
    (hfg : ∀ a b, S a b → (f a).Perm (g b)) : (l.flatMap f).Perm (l'.flatMap g) := by
  obtain ⟨ordered, hperm, hrel⟩ := h
  refine (hperm.flatMap_right f).trans ?_
  clear hperm
  induction hrel with
  | nil => exact .nil
  | cons hhead _ ih =>
    rw [List.flatMap_cons, List.flatMap_cons]
    exact (hfg _ _ hhead).append ih

theorem InSomeOrder.filterMap {T : γ → δ → Prop} {f : α → Option γ} {g : β → Option δ}
    (h : InSomeOrder S l l') (hfg : ∀ a b, S a b → Option.Rel T (f a) (g b)) :
    InSomeOrder T (l.filterMap f) (l'.filterMap g) := by
  obtain ⟨ordered, hperm, hrel⟩ := h
  exact ⟨_, hperm.filterMap f, List.rel_filterMap (fun a b hab => hfg a b hab) hrel⟩

theorem InSomeOrder.filter {p : α → Bool} {q : β → Bool} (h : InSomeOrder S l l')
    (hpq : ∀ a b, S a b → p a = q b) : InSomeOrder S (l.filter p) (l'.filter q) := by
  obtain ⟨ordered, hperm, hrel⟩ := h
  exact ⟨_, hperm.filter p, List.rel_filter (fun a b hab => Bool.eq_iff_iff.mp (hpq a b hab)) hrel⟩

end InSomeOrder

/-- Whether two tables have the same keys in some order, with related values. -/
def Permuted (R : String → α → β → Prop) (entries : Entries α) (others : Entries β) : Prop :=
  InSomeOrder (fun e o => e.1 = o.1 ∧ R e.1 e.2 o.2) entries others

variable {R : String → α → β → Prop} {entries ordered : Entries α} {others : Entries β}

theorem forall₂_get? (h : List.Forall₂ (fun e o => e.1 = o.1 ∧ R e.1 e.2 o.2) entries others)
    (key : String) : Option.Rel (R key) (get? entries key) (get? others key) := by
  induction h with
  | nil => exact .none
  | @cons e o entries others hhead _ ih =>
    obtain ⟨k, v⟩ := e
    obtain ⟨k', v'⟩ := o
    obtain ⟨rfl, hvalue⟩ := hhead
    rw [get?_cons, get?_cons]
    split
    · rename_i hkey
      exact .some (hkey ▸ hvalue)
    · exact ih

theorem get?_perm (hperm : entries.Perm ordered) (hd : Distinct entries) (key : String) :
    get? entries key = get? ordered key := by
  have hd' : Distinct ordered := (hperm.map Prod.fst).nodup_iff.mp hd
  refine Option.ext fun v => ⟨fun hv => ?_, fun hv => ?_⟩
  · exact get?_of_mem hd' (hperm.mem_iff.mp (mem_of_get? hv))
  · exact get?_of_mem hd (hperm.mem_iff.mpr (mem_of_get? hv))

theorem Permuted.keys_perm (h : entries.Permuted R others) : (keys entries).Perm (keys others) := by
  obtain ⟨ordered, hperm, hvalues⟩ := h
  have hkeys : keys ordered = keys others := map_eq_of_forall₂ (hvalues.imp fun _ _ hm => hm.1)
  exact hkeys ▸ hperm.map Prod.fst

/-- **The order of a table does not matter to a look-up**, if no key is repeated. -/
theorem Permuted.get? (h : entries.Permuted R others) (hd : Distinct entries) (key : String) :
    Option.Rel (R key) (get? entries key) (get? others key) := by
  obtain ⟨ordered, hperm, hvalues⟩ := h
  rw [get?_perm hperm hd]
  exact forall₂_get? hvalues key

/-- Tables have the same keys with related values if they have the same entries under some map. -/
theorem Permuted.of_map_perm {γ : Type*} {f : String × α → γ} {g : String × β → γ}
    (h : (entries.map f).Perm (others.map g))
    (hrel : ∀ e ∈ entries, ∀ o ∈ others, f e = g o → e.1 = o.1 ∧ R e.1 e.2 o.2) :
    entries.Permuted R others := by
  have hself : List.Forall₂ (fun t e => t = f e ∧ e ∈ entries) (entries.map f) entries :=
    List.forall₂_map_left_iff.mpr (List.forall₂_same.mpr fun e he => ⟨rfl, he⟩)
  obtain ⟨ordered, hordered, hperm⟩ := List.perm_comp_forall₂ h.symm hself
  refine ⟨ordered, hperm.symm, ?_⟩
  have hflip := (List.forall₂_map_left_iff.mp hordered).flip
  refine List.forall₂_iff_get.mpr ⟨hflip.length_eq, fun i hi hi' => ?_⟩
  obtain ⟨heq, hmem⟩ := hflip.get hi hi'
  exact hrel _ hmem _ (List.get_mem others ⟨i, hi'⟩) heq.symm

end RequestGate.Entries
