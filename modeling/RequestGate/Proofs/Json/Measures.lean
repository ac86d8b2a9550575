import Mathlib.Algebra.GroupWithZero.Nat
import RequestGate.Proofs.Json.WellFormed

/-!
# The parts of a value

The children of a value are its items or the values of its members. They are smaller than the value
and less deep, and those of a well-formed value are well formed. Recursions over schemas go down in
size, and those over instances in depth.
-/

namespace RequestGate.Json

/-- The items of an array, or the values of the members of an object. -/
def children : Json → List Json
  | .arr items => items
  | .obj members => members.map Prod.snd
  | _ => []

variable {value a : Json} {items : List Json} {members : Entries Json} {key : String}

theorem size_pos (value : Json) : 0 < value.size := by
  cases value <;> simp [size]

theorem size_le_sizeList (h : a ∈ items) : a.size ≤ sizeList items := by
  induction items with
  | nil => cases h
  | cons b items ih =>
    rw [sizeList]
    rcases List.mem_cons.mp h with rfl | h
    · exact Nat.le_add_right _ _
    · exact (ih h).trans (Nat.le_add_left _ _)

theorem size_le_sizeMembers {e : String × Json} (h : e ∈ members) :
    e.2.size ≤ sizeMembers members := by
  induction members with
  | nil => cases h
  | cons b members ih =>
    rw [sizeMembers]
    rcases List.mem_cons.mp h with rfl | h
    · exact Nat.le_add_right _ _
    · exact (ih h).trans (Nat.le_add_left _ _)

theorem sizeList_eq (items : List Json) : sizeList items = (items.map size).sum := by
  induction items with
  | nil => rfl
  | cons a items ih => rw [sizeList, ih, List.map_cons, List.sum_cons]

theorem sizeMembers_eq (members : Entries Json) :
    sizeMembers members = (members.map fun m => m.2.size).sum := by
  induction members with
  | nil => rfl
  | cons m members ih => rw [sizeMembers, ih, List.map_cons, List.sum_cons]

/-- **A child is smaller.** -/
theorem size_lt_of_mem_children (h : a ∈ value.children) : a.size < value.size := by
  cases value with
  | arr items =>
    rw [size]
    exact Nat.lt_succ_of_le (size_le_sizeList h)
  | obj members =>
    obtain ⟨e, he, rfl⟩ := List.mem_map.mp h
    rw [size]
    exact Nat.lt_succ_of_le (size_le_sizeMembers he)
  | _ => cases h

theorem depth_le_depthList (h : a ∈ items) : a.depth ≤ depthList items := by
  induction items with
  | nil => cases h
  | cons b items ih =>
    rw [depthList]
    rcases List.mem_cons.mp h with rfl | h
    · exact Nat.le_max_left _ _
    · exact (ih h).trans (Nat.le_max_right _ _)

theorem depth_le_depthMembers {e : String × Json} (h : e ∈ members) :
    e.2.depth ≤ depthMembers members := by
  induction members with
  | nil => cases h
  | cons b members ih =>
    rw [depthMembers]
    rcases List.mem_cons.mp h with rfl | h
    · exact Nat.le_max_left _ _
    · exact (ih h).trans (Nat.le_max_right _ _)

/-- **A child is less deep.** -/
theorem depth_lt_of_mem_children (h : a ∈ value.children) : a.depth < value.depth := by
  cases value with
  | arr items =>
    rw [depth]
    exact Nat.lt_succ_of_le (depth_le_depthList h)
  | obj members =>
    obtain ⟨e, he, rfl⟩ := List.mem_map.mp h
    rw [depth]
    exact Nat.lt_succ_of_le (depth_le_depthMembers he)
  | _ => cases h

theorem WellFormed.of_mem_children (hv : value.WellFormed) (h : a ∈ value.children) :
    a.WellFormed := by
  cases value with
  | arr items => exact wellFormedList_iff.mp hv a h
  | obj members =>
    obtain ⟨e, he, rfl⟩ := List.mem_map.mp h
    exact wellFormedMembers_iff.mp hv.2 e he
  | _ => cases h

theorem mem_children_of_get? (h : value.get? key = some a) : a ∈ value.children := by
  cases value with
  | obj members => exact List.mem_map_of_mem (f := Prod.snd) (Entries.mem_of_get? h)
  | _ => cases h

/-! ### Everything within a value -/

mutual

/-- A value and everything within it. -/
def subvalues : Json → List Json
  | .arr items => .arr items :: subvaluesList items
  | .obj members => .obj members :: subvaluesMembers members
  | value => [value]

/-- Everything within the items of a list. -/
def subvaluesList : List Json → List Json
  | [] => []
  | a :: as => subvalues a ++ subvaluesList as

/-- Everything within the values of members. -/
def subvaluesMembers : List (String × Json) → List Json
  | [] => []
  | (_, a) :: as => subvalues a ++ subvaluesMembers as

end

mutual

/-- **The size of a value** is the number of values within it. -/
theorem length_subvalues : ∀ value : Json, value.subvalues.length = value.size
  | .arr items => by simp [subvalues, size, length_subvaluesList items]
  | .obj members => by simp [subvalues, size, length_subvaluesMembers members]
  | .null | .bool _ | .num _ | .str _ => rfl

theorem length_subvaluesList : ∀ items : List Json, (subvaluesList items).length = sizeList items
  | [] => rfl
  | a :: as => by simp [subvaluesList, sizeList, length_subvalues a, length_subvaluesList as]

theorem length_subvaluesMembers :
    ∀ members : List (String × Json), (subvaluesMembers members).length = sizeMembers members
  | [] => rfl
  | (_, a) :: as => by
    simp [subvaluesMembers, sizeMembers, length_subvalues a, length_subvaluesMembers as]

end

theorem mem_subvalues_self (value : Json) : value ∈ value.subvalues := by
  cases value <;> simp [subvalues]

theorem mem_subvaluesList_iff : a ∈ subvaluesList items ↔ ∃ b ∈ items, a ∈ b.subvalues := by
  induction items with
  | nil => simp [subvaluesList]
  | cons b items ih => simp [subvaluesList, ih]

theorem mem_subvaluesMembers_iff :
    a ∈ subvaluesMembers members ↔ ∃ b ∈ members.map Prod.snd, a ∈ b.subvalues := by
  induction members with
  | nil => simp [subvaluesMembers]
  | cons e members ih => simp only [subvaluesMembers, List.mem_append, ih, List.map_cons,
      List.mem_cons, exists_eq_or_imp]

theorem mem_subvalues_iff :
    a ∈ value.subvalues ↔ a = value ∨ ∃ b ∈ value.children, a ∈ b.subvalues := by
  cases value with
  | arr items => simp [subvalues, children, mem_subvaluesList_iff]
  | obj members => simp [subvalues, children, mem_subvaluesMembers_iff]
  | _ => simp [subvalues, children]

/-- The children of what is within a value are within it too. -/
theorem mem_subvalues_of_mem_children {root : Json} (hvalue : value ∈ root.subvalues)
    (h : a ∈ value.children) : a ∈ root.subvalues := by
  rcases mem_subvalues_iff.mp hvalue with rfl | ⟨b, hb, hvalue⟩
  · exact mem_subvalues_iff.mpr (Or.inr ⟨a, h, mem_subvalues_self a⟩)
  · exact mem_subvalues_iff.mpr (Or.inr ⟨b, hb, mem_subvalues_of_mem_children hvalue h⟩)
termination_by root.size
decreasing_by exact size_lt_of_mem_children hb

theorem mem_subvalues_of_get? {root : Json} (hvalue : value ∈ root.subvalues)
    (h : value.get? key = some a) : a ∈ root.subvalues :=
  mem_subvalues_of_mem_children hvalue (mem_children_of_get? h)

/-- What is within a part of a value is within it too. -/
theorem mem_subvalues_trans {root : Json} (hvalue : value ∈ root.subvalues) (h : a ∈ value.subvalues) :
    a ∈ root.subvalues := by
  rcases mem_subvalues_iff.mp hvalue with rfl | ⟨b, hb, hvalue⟩
  · exact h
  · exact mem_subvalues_iff.mpr (Or.inr ⟨b, hb, mem_subvalues_trans hvalue h⟩)
termination_by root.size
decreasing_by exact size_lt_of_mem_children hb

theorem WellFormed.of_mem_subvalues {root : Json} (hroot : root.WellFormed)
    (h : a ∈ root.subvalues) : a.WellFormed := by
  rcases mem_subvalues_iff.mp h with rfl | ⟨b, hb, h⟩
  · exact hroot
  · exact (hroot.of_mem_children hb).of_mem_subvalues h
termination_by root.size
decreasing_by exact size_lt_of_mem_children hb

end RequestGate.Json
