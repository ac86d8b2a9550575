import RequestGate.Proofs.Draft7.Ensured
import RequestGate.Proofs.Schema.Shape

/-!
# Schemas that stages and engine read alike

The stages before the engine go from a schema to those of its properties and of its items, and follow
references where they meet them. `RequestGate.Schema.Along` speaks of all schemas that they come upon.
At one that is no composition they see what the engine sees: a declared property is one that the schema
holds the member to (`RequestGate.Schema.holdsMember_of_properties`).
-/

namespace RequestGate.Schema

open Draft7

variable {root schema part sub s t : Json} {members table : Entries Json} {name : String}
  {P : Json → Prop}

theorem HoldsMember.mem_subvalues (h : HoldsMember name schema part)
    (hschema : schema ∈ root.subvalues) : part ∈ root.subvalues := by
  obtain ⟨members, rfl, -⟩ := h.exists_members
  exact mem_subvalues_of_mem_subschemas hschema h.mem_subschemas

theorem HoldsItems.mem_subvalues (h : HoldsItems schema part)
    (hschema : schema ∈ root.subvalues) : part ∈ root.subvalues := by
  obtain ⟨members, rfl, -⟩ := h.exists_members
  exact mem_subvalues_of_mem_subschemas hschema h.mem_subschemas

/-- Whether the engine follows references from one schema to another. -/
inductive Leads (root : Json) : (s t : Json) → Prop where
  | refl {s : Json} : Leads root s s
  | step {s next t : Json} {reference : String} (href : reference? s = some reference)
      (htarget : resolve? root reference = some next) (h : Leads root next t) : Leads root s t

theorem Leads.ensures (h : Leads root s t) (hensures : Ensures root P t) : Ensures root P s := by
  induction h with
  | refl => exact hensures
  | step href htarget _ ih =>
    obtain ⟨n, hn⟩ := ih hensures
    exact ⟨n + 1, .reference href htarget hn⟩

theorem Leads.mem_subvalues (h : Leads root s t) (hs : s ∈ root.subvalues) : t ∈ root.subvalues := by
  induction h with
  | refl => exact hs
  | step _ htarget _ ih => exact ih (mem_subvalues_of_resolve? htarget)

/-- Whether every schema has a property that is come upon along properties and items, and is one that
the engine follows references to as well. -/
def Along (root : Json) (P : Json → Prop) : (levels : Nat) → (schema : Json) → Prop
  | 0, _ => True
  | levels + 1, schema =>
    ∀ s, resolve root schema = some s →
      Leads root schema s ∧ P s ∧
      (∀ name sub, Entries.get? (properties root s) name = some sub → Along root P levels sub) ∧
      ∀ sub, itemSchema? s = some sub → Along root P levels sub

/-! ### Schemas that are no compositions -/

theorem exists_members_of_shape (h : shape s = .object (some table)) :
    ∃ members, s = .obj members ∧ tableUnder members "properties" = table := by
  have hget := Json.get?_of_getObj? (getObj?_of_shape h)
  cases s with
  | obj members =>
    refine ⟨members, rfl, ?_⟩
    rw [tableUnder, ← Json.get?_obj, hget, Option.bind_some, Json.obj?, Option.getD_some]
  | _ => cases hget

theorem exists_table_of_properties (href : reference? s = none) (hmembers : (shape s).members = [])
    (h : properties root s ≠ []) : ∃ table, shape s = .object (some table) := by
  by_contra hnone
  exact h (properties_eq_nil href hmembers fun table hshape => hnone ⟨table, hshape⟩)

/-- What a schema declares is what it has under `properties`. -/
theorem exists_own_property (href : reference? s = none) (hmembers : (shape s).members = [])
    (hs : s.WellFormed) (hsub : Entries.get? (properties root s) name = some sub) :
    ∃ members, s = .obj members ∧
      Entries.get? (tableUnder members "properties") name = some sub := by
  obtain ⟨table, hshape⟩ :=
    exists_table_of_properties href hmembers (List.ne_nil_of_mem (Entries.mem_of_get? hsub))
  obtain ⟨members, rfl, htable⟩ := exists_members_of_shape hshape
  rw [properties_of_shape href hs hshape, ← htable] at hsub
  exact ⟨members, rfl, hsub⟩

/-- A schema holds the members of a value to the properties that it declares. -/
theorem holdsMember_of_properties (href : reference? s = none) (hmembers : (shape s).members = [])
    (hs : s.WellFormed) (hsub : Entries.get? (properties root s) name = some sub) :
    HoldsMember name s sub := by
  obtain ⟨members, rfl, hget⟩ := exists_own_property href hmembers hs hsub
  exact .property href hget

/-- A schema holds the items of a value to the one that it gives for them. -/
theorem holdsItems_of_itemSchema? (href : reference? s = none) (hsub : itemSchema? s = some sub) :
    HoldsItems s sub := by
  obtain ⟨hget, hobj⟩ := Option.filter_eq_some_iff.mp hsub
  cases s with
  | obj members =>
    refine .intro href hget ?_
    cases sub <;> simp [Json.isObj, Json.isArr] at hobj ⊢
  | _ => cases hget

/-- What follows for a single schema follows for all that are come upon. -/
theorem Along.mono {Q : Json → Prop} (hroot : root.WellFormed)
    (himp : ∀ s ∈ root.subvalues, reference? s = none → P s → (shape s).members = [] ∧ Q s) :
    ∀ {levels : Nat} {schema : Json}, schema ∈ root.subvalues → Along root P levels schema →
      Along root Q levels schema := by
  intro levels
  induction levels with
  | zero => exact fun _ _ => trivial
  | succ levels ih =>
    intro schema hschema h s hs
    obtain ⟨hleads, hP, hparts, hitems⟩ := h s hs
    have href := reference?_of_follow hs
    have hmem := hleads.mem_subvalues hschema
    obtain ⟨hmembers, hQ⟩ := himp s hmem href hP
    refine ⟨hleads, hQ, fun name sub hsub => ih ?_ (hparts name sub hsub),
      fun sub hsub => ih ?_ (hitems sub hsub)⟩
    · have hholds := holdsMember_of_properties href hmembers (hroot.of_mem_subvalues hmem) hsub
      exact hholds.mem_subvalues hmem
    · exact (holdsItems_of_itemSchema? href hsub).mem_subvalues hmem

theorem along_of_no_parts (href : reference? s = none) (hmembers : (shape s).members = [])
    (hproperties : s.get? "properties" = none) (hitems : s.get? "items" = none) (hP : P s)
    (levels : Nat) : Along root P levels s := by
  have hnil : properties root s = [] := properties_eq_nil href hmembers fun table hshape => by
    simp [Json.get?_of_getObj? (getObj?_of_shape hshape)] at hproperties
  cases levels with
  | zero => trivial
  | succ levels =>
    intro t ht
    obtain rfl := Option.some.inj ((resolve_of_none href).symm.trans ht)
    refine ⟨.refl, hP, fun name sub hsub => ?_, fun sub hsub => ?_⟩
    · rw [hnil] at hsub
      cases hsub
    · rw [itemSchema?, hitems] at hsub
      cases hsub

end RequestGate.Schema
