import RequestGate.Json.Record
import RequestGate.Proofs.Ascending

/-!
# Well-formed values

A value that is read loses its repeated keys (`RequestGate.Json.collapse`), and a well-formed one has
none to lose (`RequestGate.Json.WellFormed.collapse_eq`). The operations on tables add no key a second
time and bring in no value of their own, so an object that is changed by them stays well formed.
-/

namespace RequestGate

namespace Entries

universe u

variable {α : Type u} {entries : Entries α} {key : String} {e : String × α}

theorem mem_insert {value : α} (h : e ∈ insert entries key value) :
    e = (key, value) ∨ e ∈ entries := by
  induction entries with
  | nil => simpa [insert] using h
  | cons entry rest ih =>
    obtain ⟨k, v⟩ := entry
    simp only [insert] at h
    split at h
    · rename_i hk
      rcases List.mem_cons.mp h with rfl | hm
      · exact Or.inl (by rw [hk])
      · exact Or.inr (List.mem_cons_of_mem _ hm)
    · rcases List.mem_cons.mp h with rfl | hm
      · exact Or.inr (by simp)
      · exact (ih hm).imp_right (List.mem_cons_of_mem _)

theorem mem_insertAll {more : Entries α} (h : e ∈ insertAll entries more) :
    e ∈ entries ∨ e ∈ more := by
  induction more generalizing entries with
  | nil => exact Or.inl h
  | cons entry more ih =>
    rcases ih h with h | h
    · rcases mem_insert h with rfl | h
      · exact Or.inr (by simp)
      · exact Or.inl h
    · exact Or.inr (List.mem_cons_of_mem _ h)

theorem mem_of_mem_ofList {all : List (String × α)} (h : e ∈ ofList all) : e ∈ all :=
  (mem_insertAll h).resolve_left List.not_mem_nil

theorem keys_map {β : Type*} {g : String × α → String × β} (hg : ∀ entry, (g entry).1 = entry.1) :
    keys (entries.map g) = keys entries := by
  rw [keys, keys, List.map_map]
  exact List.map_congr_left fun entry _ => hg entry

/-- Entries that are left out or rewritten under their keys leave no key twice. -/
theorem keys_filterMap_sublist {β : Type*} {g : String × α → Option (String × β)}
    (hg : ∀ entry new, g entry = some new → new.1 = entry.1) :
    (keys (entries.filterMap g)).Sublist (keys entries) := by
  induction entries with
  | nil => exact List.Sublist.refl _
  | cons entry rest ih =>
    rw [List.filterMap_cons]
    cases hnew : g entry with
    | none => exact ih.cons _
    | some new =>
      rw [keys_cons, keys_cons, hg entry new hnew]
      exact ih.cons_cons _

theorem mem_of_mem_swapRemove (h : e ∈ swapRemove entries key) : e ∈ entries := by
  induction entries with
  | nil => cases h
  | cons entry rest ih =>
    obtain ⟨k, v⟩ := entry
    simp only [swapRemove] at h
    split at h
    · rcases List.eq_nil_or_concat rest with rfl | ⟨front, last, rfl⟩
      · cases h
      · simp only [List.concat_eq_append, List.getLast?_concat, List.dropLast_concat,
          List.mem_cons] at h
        rcases h with rfl | hm
        · simp
        · simp [hm]
    · rcases List.mem_cons.mp h with rfl | hm
      · simp
      · exact List.mem_cons_of_mem _ (ih hm)

/-- **Removing takes one key out of a table** and leaves what stands under the others. -/
theorem get?_swapRemove (hd : Distinct entries) (key other : String) :
    get? (swapRemove entries key) other = if key = other then none else get? entries other := by
  split
  · rename_i h
    rw [get?_eq_none_iff, mem_keys_swapRemove hd]
    exact fun hmem => hmem.1 h.symm
  · rename_i h
    cases hold : get? entries other with
    | none =>
      rw [get?_eq_none_iff, mem_keys_swapRemove hd]
      exact fun hmem => get?_eq_none_iff.mp hold hmem.2
    | some value =>
      have hmem : other ∈ keys (swapRemove entries key) :=
        (mem_keys_swapRemove hd).mpr ⟨Ne.symm h, contains_iff.mp (by rw [contains, hold]; rfl)⟩
      obtain ⟨found, hfound⟩ := Option.isSome_iff_exists.mp (contains_iff.mpr hmem)
      have hentry := get?_of_mem hd (mem_of_mem_swapRemove (mem_of_get? hfound))
      rw [hfound, ← hold, hentry]

theorem mem_modify {f : α → α} (h : e ∈ modify entries key f) :
    e ∈ entries ∨ ∃ v, (key, v) ∈ entries ∧ e = (key, f v) := by
  induction entries with
  | nil => cases h
  | cons entry rest ih =>
    obtain ⟨k, v⟩ := entry
    simp only [modify] at h
    split at h
    · rename_i hk
      subst hk
      rcases List.mem_cons.mp h with rfl | hm
      · exact Or.inr ⟨v, by simp, rfl⟩
      · exact Or.inl (List.mem_cons_of_mem _ hm)
    · rcases List.mem_cons.mp h with rfl | hm
      · exact Or.inl (by simp)
      · rcases ih hm with hold | ⟨v', hv', rfl⟩
        · exact Or.inl (List.mem_cons_of_mem _ hold)
        · exact Or.inr ⟨v', List.mem_cons_of_mem _ hv', rfl⟩

end Entries

namespace Json

mutual

/-- Whether a value is well formed can be found out by looking at all its parts. -/
def decidableWellFormed : (value : Json) → Decidable value.WellFormed
  | .num (.int n) => inferInstanceAs (Decidable (Number.InRange n))
  | .num (.float _) => inferInstanceAs (Decidable True)
  | .null => inferInstanceAs (Decidable True)
  | .bool _ => inferInstanceAs (Decidable True)
  | .str _ => inferInstanceAs (Decidable True)
  | .arr items => decidableWellFormedList items
  | .obj members =>
    have : Decidable (WellFormedMembers members) := decidableWellFormedMembers members
    inferInstanceAs (Decidable ((Entries.keys members).Nodup ∧ WellFormedMembers members))

/-- The same for a list of values. -/
def decidableWellFormedList : (items : List Json) → Decidable (WellFormedList items)
  | [] => inferInstanceAs (Decidable True)
  | a :: as =>
    have : Decidable a.WellFormed := decidableWellFormed a
    have : Decidable (WellFormedList as) := decidableWellFormedList as
    inferInstanceAs (Decidable (a.WellFormed ∧ WellFormedList as))

/-- The same for the values of members. -/
def decidableWellFormedMembers :
    (members : List (String × Json)) → Decidable (WellFormedMembers members)
  | [] => inferInstanceAs (Decidable True)
  | (_, a) :: as =>
    have : Decidable a.WellFormed := decidableWellFormed a
    have : Decidable (WellFormedMembers as) := decidableWellFormedMembers as
    inferInstanceAs (Decidable (a.WellFormed ∧ WellFormedMembers as))

end

instance : DecidablePred WellFormed := decidableWellFormed

theorem wellFormedList_iff {items : List Json} :
    WellFormedList items ↔ ∀ a ∈ items, a.WellFormed := by
  induction items with
  | nil => simp [WellFormedList]
  | cons a items ih => simp [WellFormedList, ih]

theorem wellFormedMembers_iff {members : Entries Json} :
    WellFormedMembers members ↔ ∀ e ∈ members, e.2.WellFormed := by
  induction members with
  | nil => simp [WellFormedMembers]
  | cons e members ih => simp [WellFormedMembers, ih]

@[simp] theorem wellFormed_str (s : String) : (str s).WellFormed := trivial

@[simp] theorem wellFormed_bool (b : Bool) : (bool b).WellFormed := trivial

theorem wellFormed_obj_iff {members : Entries Json} :
    (obj members).WellFormed ↔ Entries.Distinct members ∧ ∀ e ∈ members, e.2.WellFormed := by
  rw [WellFormed, wellFormedMembers_iff]

@[simp] theorem wellFormed_ofStrings (items : List String) : (ofStrings items).WellFormed := by
  refine wellFormedList_iff.mpr fun a ha => ?_
  obtain ⟨s, -, rfl⟩ := List.mem_map.mp ha
  exact wellFormed_str s

theorem WellFormedMembers.of_mem {members : Entries Json} (h : WellFormedMembers members)
    {key : String} {value : Json} (hmem : (key, value) ∈ members) : value.WellFormed :=
  wellFormedMembers_iff.mp h _ hmem

theorem WellFormed.distinct {value : Json} (h : value.WellFormed) :
    Entries.Distinct (value.obj?.getD []) := by
  cases value with
  | obj members => exact h.1
  | _ => exact List.nodup_nil

theorem WellFormed.of_mem {value : Json} (h : value.WellFormed) {key : String} {member : Json}
    (hmem : (key, member) ∈ value.obj?.getD []) : member.WellFormed := by
  cases value with
  | obj members => exact h.2.of_mem hmem
  | _ => simp [obj?] at hmem

theorem get?_eq (value : Json) (key : String) :
    value.get? key = Entries.get? (value.obj?.getD []) key := by
  cases value <;> rfl

/-- A member of a well-formed value is well formed. -/
theorem WellFormed.get? {value member : Json} {key : String} (h : value.WellFormed)
    (hget : value.get? key = some member) : member.WellFormed := by
  rw [get?_eq] at hget
  exact h.of_mem (Entries.mem_of_get? hget)

theorem get?_of_getObj? {value : Json} {key : String} {members : Entries Json}
    (h : value.getObj? key = some members) : value.get? key = some (.obj members) := by
  obtain ⟨found, hfound, hobj⟩ := Option.bind_eq_some_iff.mp h
  cases found <;> simp only [obj?, reduceCtorEq, Option.some.injEq] at hobj
  exact hobj ▸ hfound

theorem get?_of_getArr? {value : Json} {key : String} {items : List Json}
    (h : value.getArr? key = some items) : value.get? key = some (.arr items) := by
  obtain ⟨found, hfound, harr⟩ := Option.bind_eq_some_iff.mp h
  cases found <;> simp only [arr?, reduceCtorEq, Option.some.injEq] at harr
  exact harr ▸ hfound

theorem get?_of_getStr? {value : Json} {key text : String} (h : value.getStr? key = some text) :
    value.get? key = some (.str text) := by
  obtain ⟨found, hfound, hstr⟩ := Option.bind_eq_some_iff.mp h
  cases found <;> cases hstr
  exact hfound

/-! ### Repeated keys -/

mutual

/-- **A well-formed value has no repeated keys to lose.** -/
theorem WellFormed.collapse_eq : ∀ {value : Json}, value.WellFormed → value.collapse = value
  | .null, _ | .bool _, _ | .num _, _ | .str _, _ => rfl
  | .arr items, h => by rw [collapse, WellFormedList.collapse_eq h]
  | .obj members, h => by
    rw [collapse, WellFormedMembers.collapse_eq h.2, h.1.ofList_eq]

theorem WellFormedList.collapse_eq :
    ∀ {items : List Json}, WellFormedList items → collapseList items = items
  | [], _ => rfl
  | a :: items, h => by
    rw [collapseList, WellFormed.collapse_eq h.1, WellFormedList.collapse_eq h.2]

theorem WellFormedMembers.collapse_eq :
    ∀ {members : Entries Json}, WellFormedMembers members → collapseMembers members = members
  | [], _ => rfl
  | (k, a) :: members, h => by
    rw [collapseMembers, WellFormed.collapse_eq h.1, WellFormedMembers.collapse_eq h.2]

end

/-! ### Tables that are changed -/

variable {members : Entries Json} {key : String}

theorem wellFormed_insert {value : Json} (h : (obj members).WellFormed) (hvalue : value.WellFormed) :
    (obj (Entries.insert members key value)).WellFormed := by
  refine ⟨h.1.insert key value, wellFormedMembers_iff.mpr fun e he => ?_⟩
  rcases Entries.mem_insert he with rfl | hold
  · exact hvalue
  · exact wellFormedMembers_iff.mp h.2 e hold

theorem wellFormed_insertAll {more : Entries Json} (h : (obj members).WellFormed)
    (hmore : ∀ e ∈ more, e.2.WellFormed) : (obj (Entries.insertAll members more)).WellFormed := by
  refine ⟨h.1.insertAll more, wellFormedMembers_iff.mpr fun e he => ?_⟩
  exact (Entries.mem_insertAll he).elim (wellFormedMembers_iff.mp h.2 e) (hmore e)

theorem wellFormed_swapRemove (h : (obj members).WellFormed) (key : String) :
    (obj (Entries.swapRemove members key)).WellFormed :=
  ⟨h.1.swapRemove key, wellFormedMembers_iff.mpr fun e he =>
    wellFormedMembers_iff.mp h.2 e (Entries.mem_of_mem_swapRemove he)⟩

theorem wellFormed_modify {f : Json → Json} (h : (obj members).WellFormed)
    (hf : ∀ value, value.WellFormed → (f value).WellFormed) :
    (obj (Entries.modify members key f)).WellFormed := by
  refine ⟨?_, wellFormedMembers_iff.mpr fun e he => ?_⟩
  · rw [Entries.Distinct, Entries.keys_modify]
    exact h.1
  · rcases Entries.mem_modify he with hold | ⟨v, hv, rfl⟩
    · exact wellFormedMembers_iff.mp h.2 e hold
    · exact hf v (h.2.of_mem hv)

/-- A table without repeated keys is well formed if its values are. -/
theorem wellFormed_table {α : Type} {write : α → Json} {entries : Entries α}
    (hd : Entries.Distinct entries) (h : ∀ e ∈ entries, (write e.2).WellFormed) :
    (obj (Entries.mapValues write entries)).WellFormed := by
  refine ⟨?_, wellFormedMembers_iff.mpr fun e he => ?_⟩
  · rw [Entries.Distinct, Entries.keys, Entries.mapValues, List.map_map]
    exact hd
  · obtain ⟨old, hold, rfl⟩ := List.mem_map.mp he
    exact h old hold

theorem wellFormed_mapValues {f : Json → Json} (h : (obj members).WellFormed)
    (hf : ∀ value, value.WellFormed → (f value).WellFormed) :
    (obj (Entries.mapValues f members)).WellFormed :=
  wellFormed_table h.1 fun e he => hf e.2 (wellFormedMembers_iff.mp h.2 e he)

end Json

end RequestGate
