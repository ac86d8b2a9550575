import RequestGate.Proofs.Schema.Shape
import RequestGate.Schema.Defaults

/-!
# Schemas without defaults

A schema may get a default from far away: from what it refers to, from a member of its composition, or
from its properties. `RequestGate.Schema.Reaches` are all of these, and `RequestGate.Schema.NoDefault`
says that none of them declares one. Then there is nothing to fill in, with one exception that the
library makes on purpose: an object schema has an outermost default even if it is empty
(`RequestGate.Schema.eq_empty_of_defaultWithin`). The empty object itself is left alone by all
stages.
-/

namespace RequestGate.Schema

variable {root s t u schema value : Json} {n : Nat}

/-- The schemas that a default may come from. -/
inductive Reaches (root : Json) : (s t : Json) → Prop where
  | refl {s : Json} : Reaches root s s
  | reference {s t u : Json} {reference : String} (href : reference? s = some reference)
      (htarget : target? root reference = some t) (h : Reaches root t u) : Reaches root s u
  | member {s t u : Json} (hmember : t ∈ (shape s).members) (h : Reaches root t u) : Reaches root s u
  | property {s u : Json} {table : Entries Json} {e : String × Json}
      (hshape : shape s = .object (some table)) (he : e ∈ table) (h : Reaches root e.2 u) :
      Reaches root s u

theorem Reaches.trans (h : Reaches root s t) (h' : Reaches root t u) : Reaches root s u := by
  induction h with
  | refl => exact h'
  | reference href htarget _ ih => exact .reference href htarget (ih h')
  | member hmember _ ih => exact .member hmember (ih h')
  | property hshape he _ ih => exact .property hshape he (ih h')

theorem Reaches.of_follow : ∀ {n : Nat} {schema s : Json}, follow root n schema = some s →
    Reaches root schema s := by
  intro n
  induction n with
  | zero => exact fun h => by cases h
  | succ n ih =>
    intro schema s h
    rw [follow] at h
    split at h
    · rename_i href
      obtain ⟨next, htarget, h⟩ := Option.bind_eq_some_iff.mp h
      exact .reference href htarget (ih h)
    · obtain rfl := Option.some.inj h
      exact .refl

/-- A declared property is reached. -/
theorem Reaches.of_mem_properties {e : String × Json} (he : e ∈ properties root schema) :
    Reaches root schema e.2 := by
  refine collectProperties_induction (P := fun known => ∀ e ∈ known, Reaches root schema e.2)
    (Q := fun s => Reaches root schema s) ?_ (fun s t hs ht => hs.trans (.of_follow ht))
    (fun s t hs ht => hs.trans (.member ht .refl)) .refl (fun e he => by cases he) e he
  intro s table known hs hshape hknown e he
  exact (mem_addNew he).elim (hknown e) fun he => hs.trans (.property hshape he .refl)

/-- Nothing that a schema could get a default from declares one. -/
def NoDefault (root schema : Json) : Prop :=
  ∀ s, Reaches root schema s → s.get? "default" = none

theorem NoDefault.of_reaches (h : NoDefault root schema) (hs : Reaches root schema s) :
    NoDefault root s :=
  fun _ ht => h _ (hs.trans ht)

/-- To see that there are no defaults it is enough to know where a schema can lead. -/
theorem noDefault_of_closed {P : Json → Prop} (hstart : P schema)
    (hreference : ∀ s reference t, P s → reference? s = some reference →
      target? root reference = some t → P t)
    (hmember : ∀ s t, P s → t ∈ (shape s).members → P t)
    (hproperty : ∀ s table, P s → shape s = .object (some table) → ∀ e ∈ table, P e.2)
    (hnone : ∀ s, P s → s.get? "default" = none) : NoDefault root schema := by
  have hreached : ∀ s t, Reaches root s t → P s → P t := by
    intro s t h
    induction h with
    | refl => exact id
    | reference href htarget _ ih => exact fun hs => ih (hreference _ _ _ hs href htarget)
    | member hmem _ ih => exact fun hs => ih (hmember _ _ hs hmem)
    | property hshape he _ ih => exact fun hs => ih (hproperty _ _ hs hshape _ he)
  exact fun s hs => hnone s (hreached schema s hs hstart)

theorem NoDefault.declaredDefault? (h : NoDefault root schema) :
    declaredDefault? root schema = none := by
  rw [Schema.declaredDefault?]
  cases hs : resolve root schema with
  | none => rfl
  | some s => exact h s (.of_follow hs)

/-- **Where no default is declared, none is found**, except that an outermost object has the empty
one. -/
theorem eq_empty_of_defaultWithin : ∀ {n : Nat} {outermost : Bool} {schema value : Json},
    NoDefault root schema → defaultWithin root n outermost schema = some value →
      outermost = true ∧ value = .obj [] := by
  intro n
  induction n with
  | zero => exact fun _ h => by cases h
  | succ n ih =>
    intro outermost schema value hnone h
    rw [defaultWithin, hnone schema .refl] at h
    dsimp only at h
    split at h
    · rename_i reference hshape
      obtain ⟨t, htarget, h⟩ := Option.bind_eq_some_iff.mp h
      have hreached := Reaches.reference (reference?_of_shape hshape) htarget .refl
      exact absurd (ih (hnone.of_reaches hreached) h).1 (by decide)
    · rename_i table hshape
      generalize hmembers : List.filterMap _ table = members at h
      obtain rfl : members = [] := by
        refine hmembers ▸ List.filterMap_eq_nil_iff.mpr fun p hp => ?_
        cases hp' : defaultWithin root n false p.2 with
        | none => rfl
        | some found =>
          exact absurd (ih (hnone.of_reaches (.property hshape hp .refl)) hp').1 (by decide)
      -- with no member to add, only the outermost object is put in all the same
      cases outermost with
      | false => simp at h
      | true => exact ⟨rfl, by simpa using h.symm⟩
    · obtain ⟨m, hm, h⟩ := List.exists_of_findSome?_eq_some h
      exact absurd (ih (hnone.of_reaches (.member hm .refl)) h).1 (by decide)

/-! ### The empty object -/

/-- Coercion leaves the empty object alone. -/
theorem coerceWithin_empty : ∀ (n : Nat) (schema : Json),
    coerceWithin root n schema (.obj []) = .obj [] := by
  -- there is no type that an object is converted to
  have hto : ∀ types, coerceTo types (.obj []) = .obj [] := by
    intro types
    rw [coerceTo]
    split
    · rfl
    · have hnone : types.findSome? (fun t => convert? t (.obj [])) = none := by
        refine List.findSome?_eq_none_iff.mpr fun t _ => ?_
        unfold convert? convertScalar?
        split <;> simp [toNumber?]
      rw [hnone, Option.getD_none]
  intro n
  induction n with
  | zero => exact fun _ => rfl
  | succ n ih =>
    intro schema
    rw [coerceWithin]
    split
    · rfl
    · split
      · exact List.foldlRecOn (motive := fun value => value = Json.obj []) _ _ rfl
          fun value hvalue m _ => by rw [hvalue, ih]
      · rw [hto]
        rfl

/-- **There is nothing to fill into the empty object.** -/
theorem NoDefault.fillDefaults_empty (h : NoDefault root schema) :
    fillDefaults root schema (.obj []) = .obj [] := by
  rw [fillDefaults, levels, fillWithin]
  cases hs : resolve root schema with
  | none => rfl
  | some s =>
    refine congrArg Json.obj ?_
    refine List.foldlRecOn (motive := fun members => members = []) _ _ rfl fun members hmembers e he => ?_
    have hnone := (h.of_reaches ((Reaches.of_follow hs).trans (.of_mem_properties he))).declaredDefault?
    rw [hmembers, fillProperty, hnone]
    rfl

end RequestGate.Schema
