import RequestGate.Proofs.Json.WellFormed
import RequestGate.Schema.Normalize

/-!
# The Draft 7 form of well-formed schemas

Bringing a schema to Draft 7 moves members about and widens types and values, but it repeats no key:
every change is one of the operations on tables. So the form of a well-formed schema is well formed
(`RequestGate.Schema.wellFormed_normalize`). The induction goes over values, lists and tables at once,
as `RequestGate.Schema.normalize` does.
-/

namespace RequestGate.Schema

open Json

variable {members : Entries Json}

theorem wellFormed_append {items : List Json} (h : WellFormedList items) (last : Json)
    (hlast : last.WellFormed) : (Json.arr (items ++ [last])).WellFormed := by
  refine wellFormedList_iff.mpr fun a ha => ?_
  rcases List.mem_append.mp ha with ha | ha
  · exact wellFormedList_iff.mp h a ha
  · exact List.mem_singleton.mp ha ▸ hlast

theorem wellFormed_widenType {value : Json} (h : value.WellFormed) : (widenType value).WellFormed := by
  cases value with
  | str t =>
    rw [widenType]
    split
    · trivial
    · exact ⟨trivial, trivial, trivial⟩
  | arr types =>
    rw [widenType]
    split
    · exact h
    · exact wellFormed_append h _ trivial
  | _ => exact h

theorem wellFormed_widenEnum {value : Json} (h : value.WellFormed) : (widenEnum value).WellFormed := by
  cases value with
  | arr values =>
    rw [widenEnum]
    split
    · exact h
    · exact wellFormed_append h _ trivial
  | _ => exact h

theorem wellFormed_replaceNullable (h : (obj members).WellFormed) :
    (obj (replaceNullable members)).WellFormed := by
  rw [replaceNullable]
  split
  · exact h
  · have hrest := wellFormed_swapRemove h "nullable"
    dsimp only
    split
    · exact wellFormed_modify (wellFormed_modify hrest fun _ => wellFormed_widenType) fun _ =>
        wellFormed_widenEnum
    · exact hrest

theorem wellFormed_replaceExclusive (exclusive inclusive : String) (h : (obj members).WellFormed) :
    (obj (replaceExclusive exclusive inclusive members)).WellFormed := by
  rw [replaceExclusive]
  split
  · split
    · rename_i limit hlimit
      exact wellFormed_insert (wellFormed_swapRemove h inclusive)
        (h.2.of_mem (Entries.mem_of_get? hlimit))
    · exact wellFormed_swapRemove h exclusive
  · exact wellFormed_swapRemove h exclusive
  · exact h

theorem wellFormed_replaceKeywords (h : (obj members).WellFormed) :
    (obj (replaceKeywords members)).WellFormed :=
  wellFormed_replaceExclusive _ _ (wellFormed_replaceExclusive _ _ (wellFormed_replaceNullable h))

theorem keys_normalizeMembers (members : Entries Json) :
    Entries.keys (normalizeMembers members) = Entries.keys members := by
  induction members with
  | nil => rfl
  | cons e rest ih =>
    obtain ⟨k, v⟩ := e
    rw [normalizeMembers, Entries.keys_cons, Entries.keys_cons, ih]

theorem keys_normalizeTable (members : Entries Json) :
    Entries.keys (normalizeTable members) = Entries.keys members := by
  induction members with
  | nil => rfl
  | cons e rest ih =>
    obtain ⟨k, v⟩ := e
    rw [normalizeTable, Entries.keys_cons, Entries.keys_cons, ih]

theorem distinct_normalizeMembers (h : Entries.Distinct members) :
    Entries.Distinct (normalizeMembers members) := by
  rwa [Entries.Distinct, keys_normalizeMembers]

theorem distinct_normalizeTable (h : Entries.Distinct members) :
    Entries.Distinct (normalizeTable members) := by
  rwa [Entries.Distinct, keys_normalizeTable]

mutual

/-- **The Draft 7 form of a well-formed schema is well formed.** -/
theorem wellFormed_normalize : ∀ schema : Json, schema.WellFormed → (normalize schema).WellFormed
  | .obj members, h => by
    rw [normalize]
    exact wellFormed_replaceKeywords
      ⟨distinct_normalizeMembers h.1, wellFormed_normalizeMembers members h.2⟩
  | .null, h | .bool _, h | .num _, h | .str _, h | .arr _, h => by simpa only [normalize] using h

theorem wellFormed_normalizeMembers : ∀ members : Entries Json,
    WellFormedMembers members → WellFormedMembers (normalizeMembers members)
  | [], _ => trivial
  | (k, v) :: rest, h => by
    rw [normalizeMembers]
    exact ⟨wellFormed_normalizeUnder (nesting k) v h.1, wellFormed_normalizeMembers rest h.2⟩

theorem wellFormed_normalizeUnder (n : Nesting) : ∀ value : Json,
    value.WellFormed → (normalizeUnder n value).WellFormed
  | .arr items, h => by
    rw [normalizeUnder]
    split
    · exact wellFormed_normalizeList items h
    · exact h
  | .obj members, h => by
    cases n with
    | oneOrMany =>
      rw [normalizeUnder]
      exact wellFormed_replaceKeywords
        ⟨distinct_normalizeMembers h.1, wellFormed_normalizeMembers members h.2⟩
    | table =>
      rw [normalizeUnder]
      exact ⟨distinct_normalizeTable h.1, wellFormed_normalizeTable members h.2⟩
    | many => simpa only [normalizeUnder] using h
    | nothing => simpa only [normalizeUnder] using h
  | .null, h | .bool _, h | .num _, h | .str _, h => by simpa only [normalizeUnder] using h

theorem wellFormed_normalizeList : ∀ items : List Json,
    WellFormedList items → WellFormedList (normalizeList items)
  | [], _ => trivial
  | a :: items, h => by
    rw [normalizeList]
    exact ⟨wellFormed_normalize a h.1, wellFormed_normalizeList items h.2⟩

theorem wellFormed_normalizeTable : ∀ members : Entries Json,
    WellFormedMembers members → WellFormedMembers (normalizeTable members)
  | [], _ => trivial
  | (_, a) :: rest, h => by
    rw [normalizeTable]
    exact ⟨wellFormed_normalize a h.1, wellFormed_normalizeTable rest h.2⟩

end

theorem wellFormed_normalizeMembers_obj (h : (obj members).WellFormed) :
    (obj (normalizeMembers members)).WellFormed :=
  ⟨distinct_normalizeMembers h.1, wellFormed_normalizeMembers members h.2⟩

end RequestGate.Schema
