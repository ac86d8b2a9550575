import Mathlib.Logic.Function.Basic
import RequestGate.Draft7.Compile
import RequestGate.Proofs.Schema.Conversions

/-!
# Schemas that convert nothing

Which schemas leave every value as it is? Without `allOf` the own types of a schema come first: they
convert nothing if there are none, or if they are so many that every value that could be converted has
one already (`RequestGate.Schema.Idle`). Then come the schemas of the properties and of the items.
`RequestGate.Schema.Inert` asks this of all schemas that coercion comes to, and none of it is asked in
vain: a schema that leaves every value alone is inert (`RequestGate.Schema.coerceWithin_eq_self_iff`).

The direction that is not plain to see is the one for `allOf`. Its members have their turns one after the
other, and one might undo what another has done. But a conversion ends in a value that is not converted
any further, so two different values become one, and nothing that comes later can tell them apart again.
This is why the proof is about schemas that keep different values different
(`RequestGate.Schema.eq_self_of_injective`).

Alternatives are not asked for types, but for properties they are. So a schema of alternatives leaves
scalars and arrays alone, and objects exactly if all properties that the alternatives declare have inert
schemas (`RequestGate.Schema.coerce_alternatives_iff`).
-/

namespace RequestGate.Schema

open Json Function

variable {root schema s value : Json} {types : List String} {t : String} {n : Nat}
  {f : Json → Json → Json}

/-! ### Types -/

/-- The types that all values with conversions have one of. -/
def sourceTypes : List String := ["null", "string", "boolean", "number", "array"]

/-- Whether types convert no value: none of them is a type, or there is one for every value that can be
converted at all. -/
def Idle (types : List String) : Prop :=
  (∀ t ∈ types, t ∉ Draft7.knownTypes) ∨ ∀ t ∈ sourceTypes, t ∈ types

instance (types : List String) : Decidable (Idle types) := inferInstanceAs (Decidable (_ ∨ _))

theorem hasType_of_not_known (ht : t ∉ Draft7.knownTypes) (value : Json) :
    hasType value t = false := by
  simp only [Draft7.knownTypes, List.mem_cons, List.not_mem_nil, or_false, not_or] at ht
  rw [hasType.eq_def]
  split <;> simp_all

theorem convertScalar?_of_not_known (ht : t ∉ Draft7.knownTypes) (value : Json) :
    convertScalar? t value = none := by
  simp only [Draft7.knownTypes, List.mem_cons, List.not_mem_nil, or_false, not_or] at ht
  rw [convertScalar?.eq_def]
  split <;> simp_all

mutual

/-- Nothing is converted to what is no type. -/
theorem convert?_of_not_known (ht : t ∉ Draft7.knownTypes) : ∀ value : Json, convert? t value = none
  | .arr items => by
    rw [convert?, convertOnly?_of_not_known ht items, ite_self]
  | .null | .bool _ | .num _ | .str _ | .obj _ => by
    rw [convert?]
    · exact convertScalar?_of_not_known ht _
    · exact fun _ => Json.noConfusion

theorem convertOnly?_of_not_known (ht : t ∉ Draft7.knownTypes) :
    ∀ items : List Json, convertOnly? t items = none
  | [item] => by
    rw [convertOnly?, hasType_of_not_known ht, if_neg Bool.false_ne_true, convert?_of_not_known ht item]
  | [] => rfl
  | _ :: _ :: _ => rfl

end

/-- An object is converted to nothing. -/
theorem convert?_obj (t : String) (members : Entries Json) : convert? t (.obj members) = none := by
  rw [convert?, convertScalar?.eq_def]
  · split <;> simp [toNumber?]
  · exact fun _ => Json.noConfusion

/-- What none of the types can be had of stays as it is. -/
theorem coerceTo_of_convert?_eq_none (h : ∀ t ∈ types, convert? t value = none) :
    coerceTo types value = value := by
  rw [coerceTo, List.findSome?_eq_none_iff.mpr h, Option.getD_none, ite_self]

/-- What is converted has one of the types afterwards, so it is not converted again. -/
theorem coerceTo_coerceTo (types : List String) (value : Json) :
    coerceTo types (coerceTo types value) = coerceTo types value := by
  rcases coerceTo_cases types value with htype | ⟨hsame, -⟩
  · exact coerceTo_of_hasOneOf htype
  · rw [hsame, hsame]

/-- A value that stays as it is, though one of the types can be had, has one of them. -/
theorem hasOneOf_of_coerceTo_eq_self (h : coerceTo types value = value) (ht : t ∈ types)
    (hconvert : (convert? t value).isSome = true) : HasOneOf types value := by
  rcases coerceTo_cases types value with htype | ⟨-, hnone⟩
  · exact h ▸ htype
  · rw [hnone t ht] at hconvert
    cases hconvert

/-- Whether a type is the only one that a value has. -/
def OnlyType (t : String) (value : Json) : Prop := ∀ u, hasType value u = true → u = t

theorem OnlyType.mem (h : OnlyType t value) (htypes : HasOneOf types value) : t ∈ types := by
  obtain ⟨u, hu, htype⟩ := htypes
  exact h u htype ▸ hu

/-- A number that is not whole. -/
def oneHalf : Json := .num (.float ⟨false, Nat.pow 2 52, -53, by decide⟩)

theorem onlyType_samples :
    OnlyType "null" .null ∧ OnlyType "string" (.str "") ∧ OnlyType "boolean" (.bool false) ∧
      OnlyType "number" oneHalf ∧ ∀ items, OnlyType "array" (.arr items) := by
  have hhalf : Number.isIntegral (.float ⟨false, Nat.pow 2 52, -53, by decide⟩) = false := by decide
  refine ⟨?_, ?_, ?_, ?_, fun items => ?_⟩ <;>
    · intro u hu
      rw [hasType.eq_def] at hu
      split at hu <;> simp_all [oneHalf]

/-- **Types leave every value alone** exactly if they are idle. -/
theorem coerceTo_eq_self_iff : (∀ value, coerceTo types value = value) ↔ Idle types := by
  constructor
  · intro h
    have hmem : ∀ {t u : String} {value : Json}, t ∈ types → OnlyType u value →
        (convert? t value).isSome = true → u ∈ types := fun ht honly hconvert =>
      honly.mem (hasOneOf_of_coerceTo_eq_self (h _) ht hconvert)
    obtain ⟨honlyNull, honlyText, honlyFlag, honlyHalf, honlyArray⟩ := onlyType_samples
    refine or_iff_not_imp_left.mpr fun hknown => ?_
    push Not at hknown
    obtain ⟨t, ht, hknown⟩ := hknown
    -- `null` can be converted to most types, and to an object after an array of one has been unwrapped
    have hnull : "null" ∈ types := by
      simp only [Draft7.knownTypes, List.mem_cons, List.not_mem_nil, or_false] at hknown
      rcases hknown with rfl | rfl | rfl | rfl | rfl | rfl | rfl
      · exact hmem ht honlyNull rfl
      · exact hmem ht honlyNull rfl
      · exact hmem ht honlyNull rfl
      · exact ht
      · exact hmem ht honlyNull rfl
      · exact hmem (hmem ht (honlyArray [.obj []]) rfl) honlyNull rfl
      · exact hmem ht honlyNull rfl
    have htext : "string" ∈ types := hmem hnull honlyText rfl
    intro u hu
    simp only [sourceTypes, List.mem_cons, List.not_mem_nil, or_false] at hu
    rcases hu with rfl | rfl | rfl | rfl | rfl
    · exact hnull
    · exact htext
    · exact hmem hnull honlyFlag rfl
    · exact hmem htext honlyHalf rfl
    · exact hmem hnull (honlyArray [.str ""]) rfl
  · rintro (hnone | hall) value
    · exact coerceTo_of_convert?_eq_none fun t ht => convert?_of_not_known (hnone t ht) value
    · have hhas : ∀ t ∈ sourceTypes, hasType value t = true → coerceTo types value = value :=
        fun t ht htype => coerceTo_of_hasOneOf ⟨t, hall t ht, htype⟩
      cases value with
      | null => exact hhas "null" (by decide) rfl
      | bool b => exact hhas "boolean" (by decide) rfl
      | num number => exact hhas "number" (by decide) rfl
      | str text => exact hhas "string" (by decide) rfl
      | arr items => exact hhas "array" (by decide) rfl
      | obj members => exact coerceTo_of_convert?_eq_none fun t _ => convert?_obj t members

/-! ### Parts -/

/-- A value is left alone by what is done to its parts exactly if these are. -/
theorem mapChildren_eq_self_iff :
    mapChildren root s f value = value ↔ ∀ p ∈ parts root s value, f p.1 p.2 = p.2 := by
  refine ⟨fun h p hp => ?_, mapChildren_eq_self⟩
  cases value with
  | obj members =>
    obtain ⟨⟨name, child⟩, he, hpart⟩ := List.mem_filterMap.mp hp
    obtain ⟨sub, hsub, rfl⟩ := Option.map_eq_some_iff.mp hpart
    have hsame := List.map_inj_left.mp ((Json.obj.inj h).trans (List.map_id members).symm) _ he
    dsimp only at hsame
    rw [show Entries.get? (properties root s) name = some sub from hsub] at hsame
    exact congrArg Prod.snd hsame
  | arr items =>
    rw [parts] at hp
    cases hsub : itemSchema? s with
    | none =>
      rw [hsub] at hp
      cases hp
    | some sub =>
      rw [hsub] at hp
      obtain ⟨item, hitem, rfl⟩ := List.mem_map.mp hp
      rw [mapChildren, mapItems, hsub] at h
      exact List.map_inj_left.mp ((Json.arr.inj h).trans (List.map_id items).symm) item hitem
  | _ => cases hp

theorem mapChildren_singleton {p : String × Json} (hp : p ∈ properties root s) (a : Json) :
    mapChildren root s f (.obj [(p.1, a)]) = .obj [(p.1, f p.2 a)] := by
  have hget := Entries.get?_of_mem (distinct_properties root s) hp
  simp [mapChildren, mapDeclared, hget]

theorem mapChildren_single_item {sub : Json} (hsub : itemSchema? s = some sub) (a : Json) :
    mapChildren root s f (.arr [a]) = .arr [f sub a] := by
  simp [mapChildren, mapItems, hsub]

/-- What is done to parts leaves every value alone exactly if every schema does for which there are
parts. -/
theorem forall_mapChildren_eq_self_iff :
    (∀ value, mapChildren root s f value = value) ↔
      (∀ p ∈ properties root s, ∀ a, f p.2 a = a) ∧ ∀ sub ∈ itemSchema? s, ∀ a, f sub a = a := by
  constructor
  · -- a value with one child shows what is done to that child
    refine fun h => ⟨fun p hp a => ?_, fun sub hsub a => ?_⟩
    · have hsame := (mapChildren_singleton hp a).symm.trans (h _)
      simpa using hsame
    · have hsame := (mapChildren_single_item hsub a).symm.trans (h _)
      simpa using hsame
  · rintro ⟨hproperties, hitems⟩ value
    refine mapChildren_eq_self fun p hp => ?_
    cases value with
    | obj members =>
      obtain ⟨e, -, hpart⟩ := List.mem_filterMap.mp hp
      obtain ⟨sub, hsub, rfl⟩ := Option.map_eq_some_iff.mp hpart
      exact hproperties _ (Entries.mem_of_get? hsub) e.2
    | arr items =>
      rw [parts] at hp
      cases hsub : itemSchema? s with
      | none =>
        rw [hsub] at hp
        cases hp
      | some sub =>
        rw [hsub] at hp
        obtain ⟨item, -, rfl⟩ := List.mem_map.mp hp
        exact hitems sub hsub item
    | _ => cases hp

/-! ### All levels -/

/-- Whether a schema of some shape converts nothing, given which further schemas do not. -/
def InertAs (root : Json) (inert : Json → Prop) (s : Json) : Shape → Prop
  | .allOf schemas => ∀ m ∈ schemas, inert m
  | _ => Idle (declaredTypes s) ∧ (∀ p ∈ properties root s, inert p.2) ∧
      ∀ sub ∈ itemSchema? s, inert sub

instance (root : Json) (inert : Json → Prop) [DecidablePred inert] (s : Json) :
    (shape : Shape) → Decidable (InertAs root inert s shape)
  | .allOf schemas => inferInstanceAs (Decidable (∀ m ∈ schemas, inert m))
  | .reference _ | .oneOf _ | .anyOf _ | .array _ | .object _ | .scalar _ =>
    inferInstanceAs (Decidable (Idle (declaredTypes s) ∧ (∀ p ∈ properties root s, inert p.2) ∧
      ∀ sub ∈ itemSchema? s, inert sub))

/-- Whether no schema that coercion comes to from a schema converts anything. -/
def Inert (root : Json) : (levels : Nat) → (schema : Json) → Prop
  | 0, _ => True
  | levels + 1, schema =>
    ∀ s ∈ resolve root schema, InertAs root (Inert root levels) s (shape s)

instance decidableInert (root : Json) :
    (levels : Nat) → (schema : Json) → Decidable (Inert root levels schema)
  | 0, _ => inferInstanceAs (Decidable True)
  | levels + 1, schema =>
    have : DecidablePred (Inert root levels) := decidableInert root levels
    inferInstanceAs (Decidable (∀ s ∈ resolve root schema, InertAs _ _ s (shape s)))

theorem inertAs_of_not_allOf {inert : Json → Prop} (hshape : ∀ schemas, shape s ≠ .allOf schemas) :
    InertAs root inert s (shape s) ↔
      Idle (declaredTypes s) ∧ (∀ p ∈ properties root s, inert p.2) ∧
        ∀ sub ∈ itemSchema? s, inert sub := by
  cases h : shape s with
  | allOf schemas => exact absurd h (hshape schemas)
  | _ => exact Iff.rfl

/-- Types in front of which different values stay different convert nothing: a conversion would make the
value and what becomes of it one. -/
theorem coerceTo_eq_self_of_injective
    (h : Injective fun value => mapChildren root s f (coerceTo types value)) (value : Json) :
    coerceTo types value = value :=
  h (by simp only [coerceTo_coerceTo])

/-- If different values stay different through all turns, they do through every single one. -/
theorem foldl_eq_self_of_injective {g : Json → Json → Json} {schemas : List Json}
    (hg : ∀ m, Injective (g m) → ∀ value, g m value = value)
    (h : Injective fun value => schemas.foldl (fun value m => g m value) value) :
    ∀ m ∈ schemas, ∀ value, g m value = value := by
  induction schemas with
  | nil => exact fun m hm => absurd hm List.not_mem_nil
  | cons m schemas ih =>
    -- what the first turn makes equal stays equal, so the first turn is injective by itself
    have hfirst : ∀ value, g m value = value :=
      hg m fun a b hab => h (by simp only [List.foldl_cons, hab])
    refine List.forall_mem_cons.mpr ⟨hfirst, ih ?_⟩
    simpa only [List.foldl_cons, hfirst] using h

theorem foldl_eq_self {g : Json → Json → Json} {schemas : List Json}
    (h : ∀ m ∈ schemas, ∀ value, g m value = value) (value : Json) :
    schemas.foldl (fun value m => g m value) value = value :=
  List.foldlRecOn (motive := fun w => w = value) schemas _ rfl fun w hw m hm => (h m hm w).trans hw

/-- **A schema that keeps different values different leaves every value alone.** -/
theorem eq_self_of_injective (n : Nat) : ∀ schema, Injective (coerceWithin root n schema) →
    ∀ value, coerceWithin root n schema value = value := by
  induction n with
  | zero => exact fun _ _ _ => rfl
  | succ n ih =>
    intro schema h
    cases hs : resolve root schema with
    | none => exact fun value => by rw [coerceWithin, hs]
    | some s =>
      by_cases hall : ∃ schemas, shape s = .allOf schemas
      · obtain ⟨schemas, hshape⟩ := hall
        have hstep := funext (coerceWithin_of_allOf hs hshape n)
        rw [hstep] at h ⊢
        exact foldl_eq_self (foldl_eq_self_of_injective ih h)
      · have hstep := funext (coerceWithin_of_not_allOf hs (not_exists.mp hall) n)
        rw [hstep] at h ⊢
        have htypes := coerceTo_eq_self_of_injective h
        simp only [htypes] at h ⊢
        -- two values of a part are told apart by the objects, or the arrays, that hold nothing else
        refine forall_mapChildren_eq_self_iff.mpr
          ⟨fun p hp => ih p.2 fun a b hab => ?_, fun sub hsub => ih sub fun a b hab => ?_⟩
        · have hobj := @h (.obj [(p.1, a)]) (.obj [(p.1, b)])
            (by simp only [mapChildren_singleton hp, hab])
          simpa using hobj
        · have harr := @h (.arr [a]) (.arr [b])
            (by simp only [mapChildren_single_item hsub, hab])
          simpa using harr

/-- **A schema leaves every value alone** exactly if no schema that coercion comes to converts
anything. -/
theorem coerceWithin_eq_self_iff :
    (∀ value, coerceWithin root n schema value = value) ↔ Inert root n schema := by
  induction n generalizing schema with
  | zero => exact iff_of_true (fun _ => rfl) trivial
  | succ n ih =>
    cases hs : resolve root schema with
    | none =>
      refine iff_of_true (fun value => by rw [coerceWithin, hs]) fun s h => ?_
      rw [hs] at h
      cases h
    | some s =>
      have hinert : Inert root (n + 1) schema ↔ InertAs root (Inert root n) s (shape s) := by
        simp only [Inert, hs, Option.mem_some_iff, forall_eq']
      rw [hinert]
      by_cases hall : ∃ schemas, shape s = .allOf schemas
      · obtain ⟨schemas, hshape⟩ := hall
        rw [hshape, InertAs]
        -- `h` is about all members together, so the induction cannot be applied to one: injectivity can
        simp only [coerceWithin_of_allOf hs hshape, ← ih]
        refine ⟨fun h => foldl_eq_self_of_injective (eq_self_of_injective n) ?_, foldl_eq_self⟩
        exact (show LeftInverse id _ from h).injective
      · have hshape := not_exists.mp hall
        rw [inertAs_of_not_allOf hshape, ← coerceTo_eq_self_iff]
        simp only [coerceWithin_of_not_allOf hs hshape, ← ih, ← forall_mapChildren_eq_self_iff]
        constructor
        · intro h
          have htypes := coerceTo_eq_self_of_injective (show LeftInverse id _ from h).injective
          simp only [htypes] at h
          exact ⟨htypes, h⟩
        · rintro ⟨htypes, hparts⟩ value
          rw [htypes, hparts]

/-! ### Alternatives -/

theorem shape_ne_allOf_of_alternatives
    (h : (∃ schemas, shape s = .anyOf schemas) ∨ ∃ schemas, shape s = .oneOf schemas)
    (schemas : List Json) : shape s ≠ .allOf schemas := by
  rcases h with ⟨_, h⟩ | ⟨_, h⟩ <;> rw [h] <;> exact Shape.noConfusion

/-- Without a schema for items only the members of an object are parts. -/
theorem forall_parts_iff (hitems : itemSchema? s = none) {P : Json → Json → Prop} :
    (∀ p ∈ parts root s value, P p.1 p.2) ↔
      ∀ own, value = .obj own → ∀ e ∈ own, ∀ sub, property? root s e.1 = some sub → P sub e.2 := by
  cases value with
  | obj members =>
    simp only [parts, List.mem_filterMap, Option.map_eq_some_iff, Json.obj.injEq, forall_eq']
    exact ⟨fun h e he sub hsub => h _ ⟨e, he, sub, hsub, rfl⟩,
      by rintro h _ ⟨e, he, sub, hsub, rfl⟩; exact h e he sub hsub⟩
  | _ => simp [parts, hitems]

/-- **What is left alone under alternatives.** Of a schema with `anyOf` or `oneOf`, without a type and a
schema for items of its own, a value is left alone exactly if it is no object, or an object in which
every member that some alternative declares is left alone by the schema declared for it. The schema
leaves all values alone exactly if no property that an alternative declares leads to a conversion. -/
theorem coerce_alternatives_iff (hs : resolve root schema = some s)
    (hshape : (∃ schemas, shape s = .anyOf schemas) ∨ ∃ schemas, shape s = .oneOf schemas)
    (htypes : declaredTypes s = []) (hitems : itemSchema? s = none) :
    (∀ value, coerce root schema value = value ↔
      ∀ own, value = .obj own → ∀ e ∈ own, ∀ sub, property? root s e.1 = some sub →
        coerceWithin root maxHops sub e.2 = e.2) ∧
    ((∀ value, coerce root schema value = value) ↔
      ∀ p ∈ properties root s, Inert root maxHops p.2) := by
  have hstep : ∀ value, coerce root schema value =
      mapChildren root s (coerceWithin root maxHops) value := fun value => by
    rw [coerce, levels, coerceWithin_of_not_allOf hs (shape_ne_allOf_of_alternatives hshape), htypes,
      coerceTo_nil]
  constructor
  · intro value
    rw [hstep, mapChildren_eq_self_iff]
    exact forall_parts_iff (P := fun sub a => coerceWithin root maxHops sub a = a) hitems
  · simp only [hstep, forall_mapChildren_eq_self_iff, coerceWithin_eq_self_iff, hitems, Option.mem_def,
      reduceCtorEq, false_implies, implies_true, and_true]

/-- A contact is a mail address or a fax number, of which only the latter is an object. -/
def contactSchema : Json :=
  .obj [("oneOf", .arr
    [.obj [("type", .str "object"),
      ("properties", .obj [("mail", .obj [("format", .str "email")])])],
     .obj [("type", .str "object"),
      ("properties", .obj [("fax", .obj [("properties", .obj [("number", .obj [])])])])]])]

/-- Contacts are left alone, and so is everything else. -/
theorem coerce_alternatives_iff_contact :
    (∀ p ∈ properties contactSchema contactSchema, Inert contactSchema maxHops p.2) ∧
    (∀ value, coerce contactSchema contactSchema value = value) ∧
    ∀ sub, property? contactSchema contactSchema "mail" = some sub →
      coerceWithin contactSchema maxHops sub (.num (.int 5)) = .num (.int 5) := by
  have hiff := @coerce_alternatives_iff contactSchema contactSchema contactSchema
    (resolve_of_none rfl) (Or.inr ⟨_, rfl⟩) rfl rfl
  have hinert : ∀ p ∈ properties contactSchema contactSchema, Inert contactSchema maxHops p.2 := by
    decide
  have hall := hiff.2.mpr hinert
  exact ⟨hinert, hall, (hiff.1 (.obj [("mail", .num (.int 5))])).mp (hall _) _ rfl _
    (List.mem_singleton_self _)⟩

/-- A range is given by whole numbers, or by a name. -/
def rangeSchema : Json :=
  .obj [("anyOf", .arr
    [.obj [("type", .str "object"),
      ("properties", .obj [("from", .obj [("type", .str "integer")])])],
     .obj [("type", .str "object"), ("properties", .obj [("from", .obj [("type", .str "string")])])],
     .obj [("type", .str "string")]])]

/-- **A member is converted under alternatives**, though one of them takes it as it is. A name is not. -/
theorem range_converted :
    resolve (.obj []) rangeSchema = some rangeSchema ∧
    (∃ schemas, shape rangeSchema = .anyOf schemas) ∧ declaredTypes rangeSchema = [] ∧
    rangeSchema.get? "type" = none ∧ rangeSchema.get? "items" = none ∧
    coerce (.obj []) rangeSchema (.str "5") = .str "5" ∧
    coerce (.obj []) rangeSchema (.obj [("from", .str "5")]) = .obj [("from", .num (.int 5))] :=
  ⟨by decide, ⟨_, rfl⟩, by decide⟩

end RequestGate.Schema
