import RequestGate.Proofs.Schema.Coercion
import RequestGate.Proofs.Schema.Shape
import RequestGate.Schema.Defaults

/-!
# What filling in defaults does to a value

Filling goes through the declared properties of an object one by one. Since none is declared twice, the
outcome can be said at once: what is there is filled by the schema of its property, and what is missing
gets its default (`RequestGate.Schema.get?_fillProperties`). Nothing is taken away, no value changes its
kind, and a well-formed value stays well formed (`RequestGate.Schema.wellFormed_fillWithin`).
-/

namespace RequestGate.Schema

variable {root schema s value filled : Json} {members declared : Entries Json} {name : String}
  {f : Json → Json → Json} {p : String × Json} {n : Nat}

/-! ### One property, and all of them -/

theorem get?_fillProperty_of_ne (h : p.1 ≠ name) :
    Entries.get? (fillProperty root f members p) name = Entries.get? members name := by
  rw [fillProperty]
  split
  · exact Entries.get?_modify_of_ne _ _ h
  · split
    · exact Entries.get?_insert_of_ne _ _ h
    · rfl

theorem get?_fillProperty_self :
    Entries.get? (fillProperty root f members p) p.1 =
      match Entries.get? members p.1 with
      | some a => some (f p.2 a)
      | none => declaredDefault? root p.2 := by
  rw [fillProperty, Entries.contains]
  cases hget : Entries.get? members p.1 with
  | some a => simp [Entries.get?_modify_self, hget]
  | none =>
    cases hdefault : declaredDefault? root p.2 with
    | none => simp [hget]
    | some d => simp

/-- **What stands where after filling.** -/
theorem get?_fillProperties (hd : Entries.Distinct declared) (members : Entries Json)
    (name : String) :
    Entries.get? (declared.foldl (fillProperty root f) members) name =
      match Entries.get? members name, Entries.get? declared name with
      | some a, some sub => some (f sub a)
      | some a, none => some a
      | none, some sub => declaredDefault? root sub
      | none, none => none := by
  induction declared generalizing members with
  | nil => cases hget : Entries.get? members name <;> simp [hget]
  | cons p declared ih =>
    obtain ⟨hp, hrest⟩ := List.nodup_cons.mp hd
    rw [List.foldl_cons, ih hrest]
    by_cases h : p.1 = name
    · -- the property is filled now and not declared again
      have hnone : Entries.get? declared name = none :=
        Entries.get?_eq_none_iff.mpr (h ▸ hp)
      rw [← h, get?_fillProperty_self, h, hnone, Entries.get?_cons, if_pos h]
      cases Entries.get? members name with
      | some a => rfl
      | none => cases hdefault : declaredDefault? root p.2 <;> simp [hdefault]
    · rw [get?_fillProperty_of_ne h, Entries.get?_cons, if_neg h]

/-- Whatever an object has, it keeps. -/
theorem mem_keys_fillProperties (hd : Entries.Distinct declared)
    (h : name ∈ Entries.keys members) :
    name ∈ Entries.keys (declared.foldl (fillProperty root f) members) := by
  rw [← Entries.contains_iff, Entries.contains] at h ⊢
  rw [get?_fillProperties hd]
  obtain ⟨a, ha⟩ := Option.isSome_iff_exists.mp h
  cases hsub : Entries.get? declared name <;> simp [ha]

/-! ### All levels -/

/-- A value with its parts filled by a function, after the schema that it stands under. -/
def fillParts (root schema : Json) (f : Json → Json → Json) : Json → Json
  | .obj members => .obj ((properties root schema).foldl (fillProperty root f) members)
  | .arr items => .arr (mapItems schema f items)
  | value => value

theorem fillWithin_succ (h : resolve root schema = some s) :
    fillWithin root (n + 1) schema value = fillParts root s (fillWithin root n) value := by
  rw [fillWithin, h]
  cases value <;> rfl

theorem fillWithin_of_dangling (h : resolve root schema = none) :
    fillWithin root n schema value = value := by
  cases n with
  | zero => rfl
  | succ n => rw [fillWithin, h]

/-- **What is missing is put in**, if there is a default for it. -/
theorem get?_fillWithin_of_missing {sub : Json} (hs : resolve root schema = some s)
    (hsub : Entries.get? (properties root s) name = some sub)
    (hmissing : Entries.get? members name = none) :
    (fillWithin root (n + 1) schema (.obj members)).get? name = declaredDefault? root sub := by
  rw [fillWithin_succ hs, fillParts, Json.get?_obj, get?_fillProperties (distinct_properties root s),
    hmissing, hsub]

/-- Filling leaves a scalar alone. -/
theorem fillParts_of_scalar (hobj : value.isObj = false) (harr : value.isArr = false) :
    fillParts root s f value = value := by
  cases value with
  | obj members => cases hobj
  | arr items => cases harr
  | _ => rfl

/-- Filling changes no type. -/
theorem hasType_fillParts (type : String) :
    hasType (fillParts root s f value) type = hasType value type := by
  cases value with
  | arr items => by_cases h : type = "array" <;> simp [fillParts, hasType, h]
  | obj members => by_cases h : type = "object" <;> simp [fillParts, hasType, h]
  | _ => rfl

theorem wellFormed_declaredDefault? (hroot : root.WellFormed) (hschema : schema.WellFormed)
    (h : declaredDefault? root schema = some value) : value.WellFormed := by
  obtain ⟨s, hs, hget⟩ := Option.bind_eq_some_iff.mp h
  exact (wellFormed_resolve hroot hschema hs).get? hget

theorem wellFormed_fillProperty (hroot : root.WellFormed) (hp : p.2.WellFormed)
    (hf : ∀ value, value.WellFormed → (f p.2 value).WellFormed)
    (h : (Json.obj members).WellFormed) : (Json.obj (fillProperty root f members p)).WellFormed := by
  rw [fillProperty]
  split
  · exact Json.wellFormed_modify h hf
  · split
    · rename_i d hdefault
      exact Json.wellFormed_insert h (wellFormed_declaredDefault? hroot hp hdefault)
    · exact h

/-- **A well-formed value stays well formed.** -/
theorem wellFormed_fillWithin (hroot : root.WellFormed) :
    ∀ {n : Nat} {schema value : Json}, schema.WellFormed → value.WellFormed →
      (fillWithin root n schema value).WellFormed := by
  intro n
  induction n with
  | zero => exact fun _ h => h
  | succ n ih =>
    intro schema value hschema hvalue
    cases hs : resolve root schema with
    | none => rwa [fillWithin_of_dangling hs]
    | some s =>
      rw [fillWithin_succ hs]
      have hws := wellFormed_resolve hroot hschema hs
      cases value with
      | obj members =>
        refine List.foldlRecOn (motive := fun members => (Json.obj members).WellFormed) _ _ hvalue
          fun members hmembers p hp => ?_
        have hsub := wellFormed_of_mem_properties hroot hws p hp
        exact wellFormed_fillProperty hroot hsub (fun value => ih hsub) hmembers
      | arr items =>
        exact wellFormed_mapItems hvalue fun sub hsub a =>
          ih (hws.get? (Option.filter_eq_some_iff.mp hsub).1)
      | _ => exact hvalue

end RequestGate.Schema
