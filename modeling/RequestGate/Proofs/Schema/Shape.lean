import RequestGate.Proofs.Operation.WellFormed
import RequestGate.Schema.Coerce

/-!
# What the view of a schema shows

The stages before the engine look at a schema through references and compositions, and what they find
there are parts of the schema and of the root. So the properties that are declared are those of the
schemas that are found on the way, none is declared twice
(`RequestGate.Schema.distinct_properties`), and an object schema has its own
(`RequestGate.Schema.properties_of_shape`).
-/

namespace RequestGate.Schema

variable {root schema s t sub : Json} {known more table : Entries Json} {name : String}

/-! ### References -/

theorem reference?_of_follow {steps : Nat} {schema s : Json} (h : follow root steps schema = some s) :
    reference? s = none := by
  induction steps generalizing schema with
  | zero => cases h
  | succ steps ih =>
    rw [follow] at h
    split at h
    · obtain ⟨next, -, hnext⟩ := Option.bind_eq_some_iff.mp h
      exact ih hnext
    · rename_i hnone
      exact Option.some.inj h ▸ hnone

theorem resolve_of_none {s : Json} (h : reference? s = none) : resolve root s = some s := by
  rw [resolve, maxHops, follow, h]

theorem wellFormed_target? {reference : String} (hroot : root.WellFormed)
    (h : target? root reference = some s) : s.WellFormed := by
  rw [target?] at h
  split at h
  · exact Pointer.wellFormed_lookup? hroot h
  · cases h

theorem wellFormed_follow (hroot : root.WellFormed) : ∀ {steps : Nat} {schema s : Json},
    schema.WellFormed → follow root steps schema = some s → s.WellFormed := by
  intro steps
  induction steps with
  | zero => exact fun _ h => by cases h
  | succ steps ih =>
    intro schema s hschema h
    rw [follow] at h
    split at h
    · obtain ⟨next, hnext, h⟩ := Option.bind_eq_some_iff.mp h
      exact ih (wellFormed_target? hroot hnext) h
    · exact Option.some.inj h ▸ hschema

/-- What a schema stands for is well formed. -/
theorem wellFormed_resolve (hroot : root.WellFormed) (hschema : schema.WellFormed)
    (h : resolve root schema = some s) : s.WellFormed :=
  wellFormed_follow hroot hschema h

/-! ### Compositions and objects -/

theorem plainShape_cases (s : Json) :
    plainShape s = .object (s.getObj? "properties") ∨
      (plainShape s).members = [] ∧ ∀ table, plainShape s ≠ .object table := by
  rw [plainShape]
  split
  · exact Or.inl rfl
  · exact Or.inr ⟨rfl, fun _ => Shape.noConfusion⟩
  · split
    · exact Or.inl rfl
    · refine Or.inr ⟨?_, fun table => ?_⟩ <;> split
      · rfl
      · rfl
      · exact Shape.noConfusion
      · exact Shape.noConfusion
  · exact Or.inr ⟨rfl, fun _ => Shape.noConfusion⟩

/-- A schema is seen as an object with what is under `properties`, or as something else with the members
of a composition, which are under its keyword. -/
theorem shape_cases (s : Json) :
    shape s = .object (s.getObj? "properties") ∨
      (∀ table, shape s ≠ .object table) ∧ ((shape s).members = [] ∨
        ∃ keyword ∈ ["allOf", "oneOf", "anyOf"], s.getArr? keyword = some (shape s).members) := by
  rw [shape]
  split
  · exact Or.inr ⟨fun _ => Shape.noConfusion, Or.inl rfl⟩
  · split
    · exact Or.inr ⟨fun _ => Shape.noConfusion, Or.inr ⟨"allOf", by simp, ‹_›⟩⟩
    · split
      · exact Or.inr ⟨fun _ => Shape.noConfusion, Or.inr ⟨"oneOf", by simp, ‹_›⟩⟩
      · split
        · exact Or.inr ⟨fun _ => Shape.noConfusion, Or.inr ⟨"anyOf", by simp, ‹_›⟩⟩
        · exact (plainShape_cases s).imp_right fun ⟨hmembers, hobject⟩ => ⟨hobject, Or.inl hmembers⟩

theorem reference?_of_shape {reference : String} (h : shape s = .reference reference) :
    reference? s = some reference := by
  rw [shape] at h
  split at h
  · rename_i href
    exact Shape.reference.inj h ▸ href
  · exfalso
    split at h
    · cases h
    · split at h
      · cases h
      · split at h
        · cases h
        · unfold plainShape at h
          repeat' split at h
          all_goals cases h

/-- The table of an object schema is the one under `properties`. -/
theorem getObj?_of_shape {s : Json} {table : Entries Json} (h : shape s = .object (some table)) :
    s.getObj? "properties" = some table := by
  rcases shape_cases s with hshape | ⟨hnot, -⟩
  · exact Shape.object.inj (hshape.symm.trans h)
  · exact absurd h (hnot _)

/-- The members of a composition are part of the schema. -/
theorem exists_keyword_of_mem_members (h : t ∈ (shape s).members) :
    ∃ keyword ∈ ["allOf", "oneOf", "anyOf"], ∃ schemas, s.getArr? keyword = some schemas ∧
      t ∈ schemas := by
  rcases shape_cases s with hshape | ⟨-, hnil | ⟨keyword, hkeyword, hget⟩⟩
  · rw [hshape] at h
    cases h
  · rw [hnil] at h
    cases h
  · exact ⟨keyword, hkeyword, _, hget, h⟩

theorem wellFormed_of_mem_members (hs : s.WellFormed) (h : t ∈ (shape s).members) : t.WellFormed := by
  obtain ⟨keyword, -, schemas, hget, hmem⟩ := exists_keyword_of_mem_members h
  exact Json.wellFormedList_iff.mp (hs.get? (Json.get?_of_getArr? hget)) t hmem

/-! ### Declared properties -/

theorem mem_addNew {known more : Entries Json} {e : String × Json} (h : e ∈ addNew known more) :
    e ∈ known ∨ e ∈ more := by
  induction more generalizing known with
  | nil => exact Or.inl h
  | cons p more ih =>
    rw [addNew, List.foldl_cons] at h
    rcases ih h with hknown | hmore
    · split at hknown
      · exact Or.inl hknown
      · exact (List.mem_append.mp hknown).imp_right fun hp => by simp_all
    · exact Or.inr (List.mem_cons_of_mem _ hmore)

/-- Properties with new names are all added. -/
theorem addNew_of_distinct {table known : Entries Json} (hd : Entries.Distinct (known ++ table)) :
    addNew known table = known ++ table := by
  induction table generalizing known with
  | nil => simp [addNew]
  | cons e table ih =>
    have hnew : Entries.contains known e.1 = false := by
      rw [Bool.eq_false_iff, Ne, Entries.contains_iff]
      intro hmem
      rw [Entries.Distinct, Entries.keys, List.map_append] at hd
      exact (List.nodup_append.mp hd).2.2 e.1 hmem e.1 (by simp) rfl
    rw [addNew, List.foldl_cons, hnew]
    have hnext : Entries.Distinct ((known ++ [e]) ++ table) := by simpa using hd
    have hrest := ih hnext
    rw [addNew] at hrest
    simpa using hrest

theorem distinct_addNew (h : Entries.Distinct known) : Entries.Distinct (addNew known more) := by
  induction more generalizing known with
  | nil => exact h
  | cons p more ih =>
    rw [addNew, List.foldl_cons]
    refine ih ?_
    split
    · exact h
    · rename_i hnew
      rw [Entries.contains_iff] at hnew
      rw [Entries.Distinct, Entries.keys, List.map_append]
      exact List.Nodup.append h (List.nodup_singleton _) (by simpa [Entries.keys] using hnew)

/-- An invariant of the properties collected so far, which adding those of a schema keeps. -/
theorem collectProperties_induction {P : Entries Json → Prop} {Q : Json → Prop}
    (hadd : ∀ s table known, Q s → shape s = .object (some table) → P known → P (addNew known table))
    (hresolve : ∀ s t, Q s → resolve root s = some t → Q t)
    (hmembers : ∀ s t, Q s → t ∈ (shape s).members → Q t) :
    ∀ {levels : Nat} {known : Entries Json} {schema : Json}, Q schema → P known →
      P (collectProperties root levels known schema) := by
  intro levels
  induction levels with
  | zero => exact fun _ h => h
  | succ levels ih =>
    intro known schema hschema hknown
    rw [collectProperties]
    cases hs : resolve root schema with
    | none => exact hknown
    | some s =>
      have hQ := hresolve schema s hschema hs
      simp only
      split
      · rename_i table hshape
        exact hadd s table known hQ hshape hknown
      · exact List.foldlRecOn _ _ hknown fun known hknown t ht => ih (hmembers s t hQ ht) hknown

/-- **No property is declared twice.** -/
theorem distinct_properties (root schema : Json) : Entries.Distinct (properties root schema) :=
  collectProperties_induction (P := Entries.Distinct) (Q := fun _ => True)
    (fun _ _ _ _ _ => distinct_addNew) (fun _ _ _ _ => trivial) (fun _ _ _ _ => trivial) trivial
    List.nodup_nil

/-- **What is declared is well formed.** -/
theorem wellFormed_of_mem_properties (hroot : root.WellFormed) (hschema : schema.WellFormed) :
    ∀ e ∈ properties root schema, e.2.WellFormed := by
  refine collectProperties_induction (P := fun known => ∀ e ∈ known, e.2.WellFormed)
    (Q := Json.WellFormed) ?_ (fun _ _ => wellFormed_resolve hroot)
    (fun _ _ => wellFormed_of_mem_members) hschema (by simp)
  intro s table known hs hshape hknown e he
  rcases mem_addNew he with he | he
  · exact hknown e he
  · have htable := hs.get? (Json.get?_of_getObj? (getObj?_of_shape hshape))
    exact Json.wellFormedMembers_iff.mp htable.2 e he

/-- The properties of an object schema are its own. -/
theorem properties_of_shape {s : Json} {table : Entries Json} (href : reference? s = none)
    (hs : s.WellFormed) (h : shape s = .object (some table)) : properties root s = table := by
  have hd : Entries.Distinct table := (hs.get? (Json.get?_of_getObj? (getObj?_of_shape h))).1
  rw [properties, levels, collectProperties, resolve_of_none href]
  simp only [h]
  exact addNew_of_distinct (show Entries.Distinct ([] ++ table) from hd)

theorem mem_of_get?_properties {s sub : Json} {table : Entries Json} (href : reference? s = none)
    (hshape : shape s = .object (some table)) (h : Entries.get? (properties root s) name = some sub) :
    (name, sub) ∈ table := by
  have hmem := Entries.mem_of_get? h
  rw [properties, levels, collectProperties, resolve_of_none href] at hmem
  simp only [hshape] at hmem
  exact (mem_addNew hmem).resolve_left List.not_mem_nil

/-- A schema that is neither an object nor a composition has no properties. -/
theorem properties_eq_nil {s : Json} (href : reference? s = none) (hmembers : (shape s).members = [])
    (h : ∀ table, shape s ≠ .object (some table)) : properties root s = [] := by
  rw [properties, levels, collectProperties, resolve_of_none href]
  simp only [hmembers, List.foldl_nil]

/-! ### Defaults -/

/-- The default of a schema is well formed, wherever it is found. -/
theorem wellFormed_defaultWithin (hroot : root.WellFormed) :
    ∀ {n : Nat} {outermost : Bool} {schema value : Json}, schema.WellFormed →
      defaultWithin root n outermost schema = some value → value.WellFormed := by
  intro n
  induction n with
  | zero => exact fun _ h => by cases h
  | succ n ih =>
    intro outermost schema value hschema h
    rw [defaultWithin] at h
    split at h
    · rename_i found hget
      exact Option.some.inj h ▸ hschema.get? hget
    · split at h
      · obtain ⟨t, ht, h⟩ := Option.bind_eq_some_iff.mp h
        exact ih (wellFormed_target? hroot ht) h
      · -- an object of the defaults of its properties, under their names
        rename_i properties hshape
        have htable : (Json.obj properties).WellFormed :=
          hschema.get? (Json.get?_of_getObj? (getObj?_of_shape hshape))
        dsimp only at h
        split at h
        · obtain rfl := Option.some.inj h
          refine Json.wellFormed_obj_iff.mpr ⟨?_, fun e he => ?_⟩
          · refine (Entries.keys_filterMap_sublist fun p e he => ?_).nodup htable.1
            split at he <;> cases he
            rfl
          · obtain ⟨p, hp, he⟩ := List.mem_filterMap.mp he
            split at he <;> cases he
            exact ih (Json.wellFormedMembers_iff.mp htable.2 p hp) ‹_›
        · cases h
      · obtain ⟨m, hm, h⟩ := List.exists_of_findSome?_eq_some h
        exact ih (wellFormed_of_mem_members hschema hm) h

end RequestGate.Schema
