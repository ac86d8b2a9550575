import RequestGate.Proofs.Schema.Conversions

/-!
# The type that a schema declares for a scalar

Where a schema has a type of its own, a scalar is converted to it, except beside `allOf`: there only the
members are asked. `RequestGate.Schema.deciders` are the schemas that are asked in the end, and a scalar
is converted towards one after the other (`RequestGate.Schema.coerceWithin_eq_convertAll`). So the own
type is met if there is no `allOf`, and beside `allOf` exactly if the members see to it without it
(`RequestGate.Schema.hasType_coerce_iff`).
-/

namespace RequestGate.Schema

open Json

variable {root schema s value : Json} {t : String} {types : List String} {n : Nat}

/-! ### The schemas that are asked -/

/-- The schemas that convert a scalar: what the schema stands for, or those of the members of its
`allOf`. -/
def deciders (root : Json) : (levels : Nat) → (schema : Json) → List Json
  | 0, _ => []
  | levels + 1, schema =>
    match resolve root schema with
    | none => []
    | some s =>
      match shape s with
      | .allOf schemas => schemas.flatMap (deciders root levels)
      | _ => [s]

/-- Converts a value towards one schema after the other. -/
def convertAll (schemas : List Json) (value : Json) : Json :=
  schemas.foldl (fun value s => coerceTo (declaredTypes s) value) value

theorem isScalar_convertAll {schemas : List Json}
    (htypes : ∀ s ∈ schemas, ∀ u ∈ declaredTypes s, u ∈ scalarTypes) (h : IsScalar value) :
    IsScalar (convertAll schemas value) :=
  List.foldlRecOn schemas _ h fun _ h s hs => isScalar_coerceTo (htypes s hs) h

/-- Members whose deciders settle the value settle it together. -/
theorem foldl_eq_convertAll {f : Json → Json → Json} {g : Json → List Json} {schemas : List Json}
    (hf : ∀ m ∈ schemas, ∀ value, IsScalar value → f value m = convertAll (g m) value)
    (htypes : ∀ m ∈ schemas, ∀ d ∈ g m, ∀ u ∈ declaredTypes d, u ∈ scalarTypes)
    (h : IsScalar value) : schemas.foldl f value = convertAll (schemas.flatMap g) value := by
  induction schemas generalizing value with
  | nil => rfl
  | cons m schemas ih =>
    rw [List.foldl_cons, List.flatMap_cons, convertAll, List.foldl_append,
      hf m List.mem_cons_self value h]
    exact ih (fun m' hm' => hf m' (List.mem_cons_of_mem m hm'))
      (fun m' hm' => htypes m' (List.mem_cons_of_mem m hm'))
      (isScalar_convertAll (htypes m List.mem_cons_self) h)

/-- **A scalar is converted by the deciders alone**, in their order. -/
theorem coerceWithin_eq_convertAll
    (htypes : ∀ d ∈ deciders root n schema, ∀ u ∈ declaredTypes d, u ∈ scalarTypes)
    (h : IsScalar value) :
    coerceWithin root n schema value = convertAll (deciders root n schema) value := by
  induction n generalizing schema value with
  | zero => rfl
  | succ n ih =>
    rw [deciders] at htypes ⊢
    split at htypes
    · rename_i hs
      rw [coerceWithin, hs]
      rfl
    · rename_i s hs
      split at htypes
      · rename_i schemas hshape
        rw [coerceWithin_of_allOf hs hshape]
        have hmembers : ∀ m ∈ schemas, ∀ d ∈ deciders root n m, ∀ u ∈ declaredTypes d,
            u ∈ scalarTypes :=
          fun m hm d hd => htypes d (List.mem_flatMap.mpr ⟨m, hm, hd⟩)
        exact foldl_eq_convertAll (fun m hm value => ih (hmembers m hm)) hmembers h
      · rename_i hshape
        exact coerceWithin_of_isScalar hs hshape (htypes s List.mem_cons_self) h n

/-! ### One type -/

/-- A conversion towards one type at most leaves a value that has it alone. -/
theorem coerceTo_of_hasType (hsame : ∀ u ∈ types, u = t) (h : hasType value t = true) :
    coerceTo types value = value := by
  by_cases hnil : types = []
  · rw [hnil, coerceTo_nil]
  · obtain ⟨u, hu⟩ := List.exists_mem_of_ne_nil types hnil
    exact coerceTo_of_hasOneOf ⟨u, hu, (hsame u hu).symm ▸ h⟩

theorem hasType_coerceTo (hsame : ∀ u ∈ types, u = t) (hnil : types ≠ [])
    (hconvert : (convert? t value).isSome = true) : hasType (coerceTo types value) t = true := by
  rcases coerceTo_cases types value with ⟨u, hu, htype⟩ | ⟨-, hnone⟩
  · exact hsame u hu ▸ htype
  · obtain ⟨u, hu⟩ := List.exists_mem_of_ne_nil types hnil
    rw [← hsame u hu, hnone u hu] at hconvert
    cases hconvert

theorem convertAll_of_hasType {schemas : List Json}
    (hsame : ∀ s ∈ schemas, ∀ u ∈ declaredTypes s, u = t) (h : hasType value t = true) :
    convertAll schemas value = value :=
  List.foldlRecOn schemas _ (motive := fun w => w = value) rfl fun _ hw s hs =>
    hw.symm ▸ coerceTo_of_hasType (hsame s hs) h

/-- **Where schemas ask for one type at most**, a value that can be converted to it gets it exactly if
one of them asks. -/
theorem hasType_convertAll_iff {schemas : List Json}
    (hsame : ∀ s ∈ schemas, ∀ u ∈ declaredTypes s, u = t)
    (hbefore : hasType value t = false) (hconvert : (convert? t value).isSome = true) :
    hasType (convertAll schemas value) t = true ↔ ∃ s ∈ schemas, declaredTypes s ≠ [] := by
  induction schemas with
  | nil => simp [convertAll, hbefore]
  | cons s schemas ih =>
    obtain ⟨hown, hrest⟩ := List.forall_mem_cons.mp hsame
    rw [convertAll, List.foldl_cons, ← convertAll, List.exists_mem_cons_iff]
    by_cases hnil : declaredTypes s = []
    · rw [hnil, coerceTo_nil, ih hrest]
      exact (or_iff_right fun h => h rfl).symm
    · have htype := hasType_coerceTo hown hnil hconvert
      rw [convertAll_of_hasType hrest htype]
      exact iff_of_true htype (Or.inl hnil)

/-! ### The own type -/

/-- A scalar that can be converted to a type does not have it yet. -/
theorem hasType_eq_false_of_convert? (ht : t ∈ scalarTypes) (hvalue : IsScalar value)
    (h : (convert? t value).isSome = true) : hasType value t = false := by
  rw [convert?_of_isScalar hvalue] at h
  simp only [scalarTypes, List.mem_cons, List.not_mem_nil, or_false] at ht
  cases value with
  | arr items => cases hvalue.1
  | obj members => cases hvalue.2
  | _ => rcases ht with rfl | rfl | rfl | rfl | rfl <;> first | rfl | cases h

/-- The bare composition of the members. -/
def allOf (members : List Json) : Json := .obj [("allOf", .arr members)]

theorem coerce_of_allOf {members : List Json} (hs : resolve root schema = some s)
    (hshape : shape s = .allOf members) (value : Json) :
    coerce root schema value = coerce root (allOf members) value := by
  rw [coerce, coerce, levels, coerceWithin_of_allOf hs hshape,
    coerceWithin_of_allOf (resolve_of_none rfl) rfl]

/-- **The type of its own that a schema has for a scalar** is met unless there is an `allOf`, and beside
`allOf` exactly if the members on their own see to it. Where these ask for no other type, one of them
has to ask for this one. -/
theorem hasType_coerce_iff (hs : resolve root schema = some s) (htype : declaredTypes s = [t])
    (ht : t ∈ scalarTypes) (hvalue : IsScalar value) (hconvert : (convert? t value).isSome = true) :
    (hasType (coerce root schema value) t = true ↔
      ∀ members, shape s = .allOf members → hasType (coerce root (allOf members) value) t = true) ∧
    ((∀ d ∈ deciders root levels schema, ∀ u ∈ declaredTypes d, u = t) →
      (hasType (coerce root schema value) t = true ↔
        ∃ d ∈ deciders root levels schema, declaredTypes d ≠ [])) := by
  constructor
  · by_cases hall : ∃ members, shape s = .allOf members
    · obtain ⟨members, hshape⟩ := hall
      rw [coerce_of_allOf hs hshape, hshape]
      simp only [Shape.allOf.injEq, forall_eq']
    · have hnot : ∀ members, shape s ≠ .allOf members := fun members h => hall ⟨members, h⟩
      refine iff_of_true ?_ fun members h => absurd h (hnot members)
      rw [coerce, levels, coerceWithin_of_isScalar hs hnot (by simpa [htype] using ht) hvalue, htype]
      exact hasType_coerceTo (by simp) (by simp) hconvert
  · intro hsame
    rw [coerce, coerceWithin_eq_convertAll (fun d hd u hu => hsame d hd u hu ▸ ht) hvalue]
    exact hasType_convertAll_iff hsame (hasType_eq_false_of_convert? ht hvalue hconvert) hconvert

/-- A count that refers to another one beside its type, and has a bound. -/
def referringCount : Json :=
  .obj [("type", .str "integer"),
    ("allOf", .arr [.obj [("$ref", .str "#/Count")], .obj [("minimum", ofInt 1)]])]

theorem hasType_coerce_iff_referringCount :
    hasType (coerce listingRoot referringCount (.str "5")) "integer" = true ∧
    hasType (coerce listingRoot (allOf [.obj [("$ref", .str "#/Count")],
      .obj [("minimum", ofInt 1)]]) (.str "5")) "integer" = true := by
  obtain ⟨hmembers, hone⟩ :=
    @hasType_coerce_iff listingRoot referringCount referringCount (.str "5") "integer"
      (by decide) (by decide) (by decide) (by decide) (by decide)
  have htype := (hone (by decide)).mpr (by decide)
  exact ⟨htype, hmembers.mp htype _ (by decide)⟩

/-- A count whose members have a bound only. -/
def boundedCount : Json :=
  .obj [("type", .str "integer"), ("allOf", .arr [.obj [("minimum", ofInt 1)]])]

/-- **Beside `allOf` the own type can be lost**, though it is the one that the schema demands. -/
theorem boundedCount_stays_text :
    resolve (.obj []) boundedCount = some boundedCount ∧ declaredTypes boundedCount = ["integer"] ∧
    effectiveType (.obj []) boundedCount = some "integer" ∧
    convert? "integer" (.str "5") = some (ofInt 5) ∧
    coerce (.obj []) boundedCount (.str "5") = .str "5" ∧
    hasType (coerce (.obj []) boundedCount (.str "5")) "integer" = false := by
  decide

end RequestGate.Schema
