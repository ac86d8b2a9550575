import RequestGate.Proofs.Json.Measures
import RequestGate.Schema.Coerce

/-!
# Coerced values are well formed

Coercion makes numbers of text, and takes a whole number for one only if it is in range; all else that
it makes of a value is a part of the value, or holds the value as its only item. So a well-formed value
stays well formed, whatever it is coerced towards (`RequestGate.Schema.wellFormed_coerceWithin`).
-/

namespace RequestGate.Schema

open Json

variable {root schema value a : Json} {members : Entries Json} {items : List Json}
  {f : Json → Json → Json} {type : String} {n : Nat}

/-! ### Conversions -/

theorem inRange_of_readInt? {cs : List Char} {i : Int} (h : readInt? cs = some i) :
    Number.InRange i := by
  rw [readInt?] at h
  generalize Text.splitSign cs = parts at h
  dsimp only at h
  generalize (if parts.1 = true then -(Text.digitsValue parts.2 : Int)
    else Text.digitsValue parts.2) = k at h
  split at h
  · cases h
  · split at h
    · rename_i hrange
      exact Option.some.inj h ▸ hrange
    · cases h

theorem inRange_of_natAbs_lt {i : Int} (h : i.natAbs < Nat.pow 2 63) : Number.InRange i := by
  have hpow : Nat.pow 2 63 = 9223372036854775808 := rfl
  have hleast : Number.leastInt = -9223372036854775808 := rfl
  have hbound : Number.intBound = 18446744073709551616 := rfl
  constructor <;> omega

theorem inRange_of_readNumber? {text : String} {i : Int} (h : readNumber? text = some (.int i)) :
    Number.InRange i := by
  rw [readNumber?] at h
  split at h
  · rename_i k hread
    obtain rfl := Number.int.inj (Option.some.inj h)
    exact inRange_of_readInt? hread
  · obtain ⟨x, -, hx⟩ := Option.map_eq_some_iff.mp h
    split at hx
    · split at hx
      · rename_i hsize
        obtain rfl := Number.int.inj hx
        exact inRange_of_natAbs_lt hsize
      · cases hx
    · cases hx

theorem wellFormed_of_toNumber? {number : Number} (h : toNumber? value = some number) :
    (num number).WellFormed := by
  cases number with
  | float x => trivial
  | int i =>
    cases value with
    | str s => exact inRange_of_readNumber? h
    | bool b =>
      obtain rfl := Number.int.inj (Option.some.inj h)
      cases b <;> decide
    | null =>
      obtain rfl := Number.int.inj (Option.some.inj h)
      decide
    | _ => cases h

theorem wellFormed_convertScalar? (h : value.WellFormed)
    (hconvert : convertScalar? type value = some a) : a.WellFormed := by
  rw [convertScalar?.eq_def] at hconvert
  split at hconvert
  · obtain ⟨number, hnumber, rfl⟩ := Option.map_eq_some_iff.mp hconvert
    exact wellFormed_of_toNumber? hnumber
  · obtain ⟨number, hnumber, rfl⟩ := Option.map_eq_some_iff.mp hconvert
    exact wellFormed_of_toNumber? (Option.filter_eq_some_iff.mp hnumber).1
  · split at hconvert <;> simp only [Option.some.injEq, reduceCtorEq] at hconvert <;>
      exact hconvert ▸ trivial
  · split at hconvert
    all_goals try split at hconvert
    all_goals try split at hconvert
    all_goals simp only [Option.some.injEq, reduceCtorEq] at hconvert
    all_goals exact hconvert ▸ trivial
  · split at hconvert
    all_goals try split at hconvert
    all_goals simp only [Option.some.injEq, reduceCtorEq] at hconvert
    all_goals exact hconvert ▸ trivial
  · split at hconvert
    · cases hconvert
    · obtain rfl := Option.some.inj hconvert
      exact ⟨h, trivial⟩
  · cases hconvert

mutual

theorem wellFormed_convert? : ∀ {value : Json}, value.WellFormed → convert? type value = some a →
    a.WellFormed
  | .arr items, h, hconvert => by
    rw [convert?] at hconvert
    split at hconvert
    · cases hconvert
    · exact wellFormed_convertOnly? h hconvert
  | .null, h, hconvert | .bool _, h, hconvert | .num _, h, hconvert | .str _, h, hconvert
  | .obj _, h, hconvert => by
    rw [convert?] at hconvert
    · exact wellFormed_convertScalar? h hconvert
    · exact fun _ => Json.noConfusion

theorem wellFormed_convertOnly? : ∀ {items : List Json}, WellFormedList items →
    convertOnly? type items = some a → a.WellFormed
  | [item], h, hconvert => by
    rw [convertOnly?] at hconvert
    split at hconvert
    · exact Option.some.inj hconvert ▸ h.1
    · exact wellFormed_convert? h.1 hconvert
  | [], _, hconvert => by cases hconvert
  | _ :: _ :: _, _, hconvert => by cases hconvert

end

theorem wellFormed_coerceTo {types : List String} (h : value.WellFormed) :
    (coerceTo types value).WellFormed := by
  rw [coerceTo]
  split
  · exact h
  · cases hfound : types.findSome? fun t => convert? t value with
    | none => exact h
    | some a =>
      obtain ⟨t, -, hconvert⟩ := List.exists_of_findSome?_eq_some hfound
      exact wellFormed_convert? h hconvert

/-! ### Parts -/

theorem wellFormed_mapItems (h : (arr items).WellFormed)
    (hf : ∀ sub, itemSchema? schema = some sub → ∀ a, a.WellFormed → (f sub a).WellFormed) :
    (arr (mapItems schema f items)).WellFormed := by
  rw [mapItems]
  cases hsub : itemSchema? schema with
  | none => exact h
  | some sub =>
    refine wellFormedList_iff.mpr fun a ha => ?_
    obtain ⟨b, hb, rfl⟩ := List.mem_map.mp ha
    exact hf sub hsub b (wellFormedList_iff.mp h b hb)

theorem wellFormed_mapDeclared (h : (obj members).WellFormed)
    (hf : ∀ sub a, a.WellFormed → (f sub a).WellFormed) :
    (obj (mapDeclared root schema f members)).WellFormed := by
  refine wellFormed_obj_iff.mpr ⟨?_, fun e he => ?_⟩
  · rw [Entries.Distinct, mapDeclared, Entries.keys_map fun e => by dsimp only; split <;> rfl]
    exact h.1
  · obtain ⟨e, hmem, rfl⟩ := List.mem_map.mp he
    have hvalue := wellFormedMembers_iff.mp h.2 e hmem
    dsimp only
    split
    · exact hf _ _ hvalue
    · exact hvalue

theorem wellFormed_mapChildren (h : value.WellFormed)
    (hf : ∀ sub a, a.WellFormed → (f sub a).WellFormed) :
    (mapChildren root schema f value).WellFormed := by
  cases value with
  | obj members => exact wellFormed_mapDeclared h hf
  | arr items => exact wellFormed_mapItems h fun sub _ => hf sub
  | _ => exact h

/-- **What is coerced stays well formed.** -/
theorem wellFormed_coerceWithin : ∀ {n : Nat} {schema value : Json}, value.WellFormed →
    (coerceWithin root n schema value).WellFormed := by
  intro n
  induction n with
  | zero => exact fun h => h
  | succ n ih =>
    intro schema value h
    rw [coerceWithin]
    split
    · exact h
    · split
      · -- every member of the composition has its turn
        exact List.foldlRecOn (motive := Json.WellFormed) _ _ h fun value hvalue m _ => ih hvalue
      · exact wellFormed_mapChildren (wellFormed_coerceTo h) fun sub a => ih

end RequestGate.Schema
