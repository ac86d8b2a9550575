import RequestGate.Proofs.Schema.Shape

/-!
# What a conversion makes of a value

A value is converted at every schema that coercion comes to, be it behind references, among the members
of `allOf`, or in the properties and items. A conversion keeps a value that has one of the declared types.
It gives any other value one of them, or leaves it alone because none of them can be had
(`RequestGate.Schema.coerceTo_cases`). A scalar has no parts, so where there is no `allOf` that is all
that happens to it (`RequestGate.Schema.coerceWithin_of_isScalar`).

`RequestGate.Schema.coerceLogged` is coercion (`RequestGate.Schema.fst_coerceLogged`) that keeps a log of
the conversions, each with the schema that asked for it and with the value before and after. Nothing else
happens in a run, so a value that suits every schema on the way comes out as it was
(`RequestGate.Schema.coerce_typed`).
-/

namespace RequestGate.Schema

open Json

variable {root schema s value a : Json} {type t : String} {types : List String} {n : Nat}

/-! ### One type -/

theorem isWhole_of_filter {number : Number} (h : (toNumber? value).filter isWhole = some number) :
    number.isIntegral = true := by
  obtain ⟨-, hwhole⟩ := Option.filter_eq_some_iff.mp h
  cases number with
  | int n => rfl
  | float x => cases hwhole

/-- What a scalar or an object is converted to has the type. -/
theorem hasType_convertScalar? (h : convertScalar? type value = some a) :
    hasType a type = true := by
  rw [convertScalar?.eq_def] at h
  split at h
  · obtain ⟨number, -, rfl⟩ := Option.map_eq_some_iff.mp h
    rfl
  · obtain ⟨number, hnumber, rfl⟩ := Option.map_eq_some_iff.mp h
    exact isWhole_of_filter hnumber
  -- the other types make a value of their own kind, or none
  all_goals
    repeat' split at h
    all_goals simp only [Option.some.injEq, reduceCtorEq] at h
    all_goals exact h ▸ rfl

mutual

/-- **What a value is converted to has the type**, however deep the item lies that it is made from. -/
theorem hasType_convert? : ∀ {value : Json}, convert? type value = some a → hasType a type = true
  | .arr items, h => by
    rw [convert?] at h
    split at h
    · cases h
    · exact hasType_convertOnly? h
  | .null, h | .bool _, h | .num _, h | .str _, h | .obj _, h => by
    rw [convert?] at h
    · exact hasType_convertScalar? h
    · exact fun _ => Json.noConfusion

theorem hasType_convertOnly? : ∀ {items : List Json}, convertOnly? type items = some a →
    hasType a type = true
  | [item], h => by
    rw [convertOnly?] at h
    split at h
    · rename_i hitem
      exact Option.some.inj h ▸ hitem
    · exact hasType_convert? h
  | [], h => by cases h
  | _ :: _ :: _, h => by cases h

end

/-! ### Several types -/

/-- Whether a value has one of the types. -/
def HasOneOf (types : List String) (value : Json) : Prop := ∃ t ∈ types, hasType value t = true

instance (types : List String) (value : Json) : Decidable (HasOneOf types value) :=
  inferInstanceAs (Decidable (∃ t ∈ types, _))

theorem coerceTo_of_hasOneOf (h : HasOneOf types value) : coerceTo types value = value :=
  if_pos (List.any_eq_true.mpr h)

@[simp] theorem coerceTo_nil (value : Json) : coerceTo [] value = value := rfl

/-- **What one conversion does**: the value has one of the types afterwards, or it is what it was
because none of them can be had. -/
theorem coerceTo_cases (types : List String) (value : Json) :
    HasOneOf types (coerceTo types value) ∨
      coerceTo types value = value ∧ ∀ t ∈ types, convert? t value = none := by
  by_cases hany : HasOneOf types value
  · exact Or.inl ((coerceTo_of_hasOneOf hany).symm ▸ hany)
  · rw [coerceTo, if_neg fun h => hany (List.any_eq_true.mp h)]
    cases hfound : types.findSome? fun t => convert? t value with
    | some a =>
      obtain ⟨t, ht, hconvert⟩ := List.exists_of_findSome?_eq_some hfound
      exact Or.inl ⟨t, ht, hasType_convert? hconvert⟩
    | none => exact Or.inr ⟨rfl, List.findSome?_eq_none_iff.mp hfound⟩

/-! ### Parts -/

/-- The parts of a value that a schema says something about, each with the schema for it. -/
def parts (root s : Json) : Json → List (Json × Json)
  | .obj members => members.filterMap fun e => (property? root s e.1).map fun sub => (sub, e.2)
  | .arr items => (itemSchema? s).elim [] fun sub => items.map fun item => (sub, item)
  | _ => []

/-- Parts that stay as they are leave the value as it is. -/
theorem mapChildren_eq_self {f : Json → Json → Json} (h : ∀ p ∈ parts root s value, f p.1 p.2 = p.2) :
    mapChildren root s f value = value := by
  cases value with
  | obj members =>
    refine congrArg Json.obj ((List.map_congr_left fun e he => ?_).trans (List.map_id members))
    obtain ⟨name, child⟩ := e
    dsimp only
    split
    · rename_i sub hsub
      have hpart : (sub, child) ∈ parts root s (.obj members) :=
        List.mem_filterMap.mpr ⟨_, he, congrArg (Option.map _) hsub⟩
      exact congrArg (Prod.mk name) (h _ hpart)
    · rfl
  | arr items =>
    rw [mapChildren, mapItems]
    split
    · rename_i sub hsub
      refine congrArg Json.arr ((List.map_congr_left fun item hitem => ?_).trans (List.map_id items))
      have hpart : (sub, item) ∈ parts root s (.arr items) := by
        rw [parts, hsub]
        exact List.mem_map_of_mem hitem
      exact h _ hpart
    · rfl
  | _ => rfl

/-! ### One schema -/

theorem coerceWithin_of_allOf {schemas : List Json} (hs : resolve root schema = some s)
    (hshape : shape s = .allOf schemas) (n : Nat) (value : Json) :
    coerceWithin root (n + 1) schema value =
      schemas.foldl (fun value m => coerceWithin root n m value) value := by
  rw [coerceWithin, hs]
  simp only [hshape]

theorem coerceWithin_of_not_allOf (hs : resolve root schema = some s)
    (hshape : ∀ schemas, shape s ≠ .allOf schemas) (n : Nat) (value : Json) :
    coerceWithin root (n + 1) schema value =
      mapChildren root s (coerceWithin root n) (coerceTo (declaredTypes s) value) := by
  rw [coerceWithin, hs]
  simp only

/-! ### Scalars -/

/-- The types of scalars. -/
def scalarTypes : List String := ["integer", "number", "boolean", "null", "string"]

/-- Whether a value is neither an array nor an object. -/
def IsScalar (value : Json) : Prop := value.isArr = false ∧ value.isObj = false

instance (value : Json) : Decidable (IsScalar value) := inferInstanceAs (Decidable (_ ∧ _))

theorem isScalar_of_hasType (ht : t ∈ scalarTypes) (h : hasType value t = true) : IsScalar value := by
  simp only [scalarTypes, List.mem_cons, List.not_mem_nil, or_false] at ht
  cases value with
  | arr items => rcases ht with rfl | rfl | rfl | rfl | rfl <;> cases h
  | obj members => rcases ht with rfl | rfl | rfl | rfl | rfl <;> cases h
  | _ => exact ⟨rfl, rfl⟩

theorem mapChildren_of_isScalar {f : Json → Json → Json} (h : IsScalar value) :
    mapChildren root s f value = value := by
  cases value with
  | arr items => cases h.1
  | obj members => cases h.2
  | _ => rfl

theorem convert?_of_isScalar (h : IsScalar value) : convert? t value = convertScalar? t value := by
  cases value with
  | arr items => cases h.1
  | _ => rw [convert?]; exact fun _ => Json.noConfusion

theorem isScalar_coerceTo (htypes : ∀ t ∈ types, t ∈ scalarTypes) (h : IsScalar value) :
    IsScalar (coerceTo types value) := by
  rcases coerceTo_cases types value with ⟨t, ht, htype⟩ | ⟨hsame, -⟩
  · exact isScalar_of_hasType (htypes t ht) htype
  · rwa [hsame]

/-- **A scalar is converted once**, where there is no `allOf`. -/
theorem coerceWithin_of_isScalar (hs : resolve root schema = some s)
    (hshape : ∀ schemas, shape s ≠ .allOf schemas) (htypes : ∀ t ∈ declaredTypes s, t ∈ scalarTypes)
    (h : IsScalar value) (n : Nat) :
    coerceWithin root (n + 1) schema value = coerceTo (declaredTypes s) value := by
  rw [coerceWithin_of_not_allOf hs hshape]
  exact mapChildren_of_isScalar (isScalar_coerceTo htypes h)

/-! ### The log of a run -/

/-- A conversion: the schema that asks for it, and the value before and after. -/
structure Conversion where
  node : Json
  before : Json
  after : Json
deriving DecidableEq

/-- Lets schemas have their turns at a value, each with what the one before has left. -/
def thread (f : Json → Json → Json × List Conversion) : List Json → Json →
    Json × List Conversion
  | [], value => (value, [])
  | m :: schemas, value =>
    let (next, log) := f m value
    let (last, more) := thread f schemas next
    (last, log ++ more)

/-- `coerceWithin`, with a log of all conversions. -/
def coerceLogged (root : Json) : (levels : Nat) → (schema value : Json) → Json × List Conversion
  | 0, _, value => (value, [])
  | levels + 1, schema, value =>
    match resolve root schema with
    | none => (value, [])
    | some s =>
      match shape s with
      | .allOf schemas => thread (coerceLogged root levels) schemas value
      | _ =>
        let after := coerceTo (declaredTypes s) value
        (mapChildren root s (fun sub part => (coerceLogged root levels sub part).1) after,
          ⟨s, value, after⟩ ::
            (parts root s after).flatMap fun p => (coerceLogged root levels p.1 p.2).2)

/-- The conversions of a run. -/
def conversions (root schema value : Json) : List Conversion :=
  (coerceLogged root levels schema value).2

section Thread

variable {f : Json → Json → Json × List Conversion} {schemas : List Json} {c : Conversion}

theorem fst_thread (f : Json → Json → Json × List Conversion) (schemas : List Json) (value : Json) :
    (thread f schemas value).1 = schemas.foldl (fun value m => (f m value).1) value := by
  induction schemas generalizing value with
  | nil => rfl
  | cons m schemas ih => exact ih (f m value).1

theorem exists_of_mem_thread (h : c ∈ (thread f schemas value).2) :
    ∃ m ∈ schemas, ∃ w, c ∈ (f m w).2 := by
  induction schemas generalizing value with
  | nil => cases h
  | cons m schemas ih =>
    rcases List.mem_append.mp h with h | h
    · exact ⟨m, List.mem_cons_self, value, h⟩
    · obtain ⟨m', hm', w, hw⟩ := ih h
      exact ⟨m', List.mem_cons_of_mem m hm', w, hw⟩

/-- A value that every turn leaves alone is left alone by all of them. -/
theorem thread_eq_self {P : Conversion → Prop}
    (hf : ∀ m value, (∀ c ∈ (f m value).2, P c) → (f m value).1 = value)
    (h : ∀ c ∈ (thread f schemas value).2, P c) : (thread f schemas value).1 = value := by
  induction schemas generalizing value with
  | nil => rfl
  | cons m schemas ih =>
    have hfirst : (f m value).1 = value :=
      hf m value fun c hc => h c (List.mem_append_left _ hc)
    have hrest : (thread f schemas (f m value).1).1 = (f m value).1 :=
      ih fun c hc => h c (List.mem_append_right _ hc)
    exact hrest.trans hfirst

end Thread

/-- **The log is one of coercion.** -/
theorem fst_coerceLogged (root : Json) (n : Nat) :
    ∀ schema value, (coerceLogged root n schema value).1 = coerceWithin root n schema value := by
  induction n with
  | zero => exact fun _ _ => rfl
  | succ n ih =>
    intro schema value
    rw [coerceLogged]
    split
    · rename_i hs
      rw [coerceWithin, hs]
    · rename_i s hs
      split
      · rename_i schemas hshape
        rw [fst_thread, coerceWithin_of_allOf hs hshape]
        simp only [ih]
      · rename_i hshape
        have hsame : (fun sub part => (coerceLogged root n sub part).1) = coerceWithin root n := by
          funext sub part
          exact ih sub part
        rw [coerceWithin_of_not_allOf hs hshape, ← hsame]

/-- Every conversion of a run is one towards the types of its schema. -/
theorem after_of_mem_coerceLogged {c : Conversion} (h : c ∈ (coerceLogged root n schema value).2) :
    c.after = coerceTo (declaredTypes c.node) c.before := by
  induction n generalizing schema value with
  | zero => cases h
  | succ n ih =>
    rw [coerceLogged] at h
    split at h
    · cases h
    · split at h
      · obtain ⟨m, -, w, hw⟩ := exists_of_mem_thread h
        exact ih hw
      · rcases List.mem_cons.mp h with rfl | h
        · rfl
        · obtain ⟨p, -, hp⟩ := List.mem_flatMap.mp h
          exact ih hp

/-- **A run in which no conversion changes anything** gives the value back. -/
theorem coerceLogged_eq_self (h : ∀ c ∈ (coerceLogged root n schema value).2, c.after = c.before) :
    (coerceLogged root n schema value).1 = value := by
  induction n generalizing schema value with
  | zero => rfl
  | succ n ih =>
    rw [coerceLogged] at h ⊢
    split at h
    · rfl
    · split at h
      · exact thread_eq_self (fun m value hm => ih hm) h
      · rename_i s _ _ _
        have hown : coerceTo (declaredTypes s) value = value := h _ List.mem_cons_self
        rw [hown] at h ⊢
        refine mapChildren_eq_self fun p hp => ih fun c hc => h c (List.mem_cons_of_mem _ ?_)
        exact List.mem_flatMap.mpr ⟨p, hp, hc⟩

/-- **Coercion keeps what is well typed, and otherwise ends in a declared type.** A value that has, at
every schema of the run with types, one of these types comes out as it was. And whatever is coerced,
every conversion of the run towards types ends in one of them, or changes nothing because the value can
be converted to none of them. -/
theorem coerce_typed (root schema value : Json) :
    ((∀ c ∈ conversions root schema value, declaredTypes c.node ≠ [] →
        HasOneOf (declaredTypes c.node) c.before) →
      coerce root schema value = value) ∧
    ∀ c ∈ conversions root schema value, declaredTypes c.node ≠ [] →
      HasOneOf (declaredTypes c.node) c.after ∨
        c.after = c.before ∧ ∀ t ∈ declaredTypes c.node, convert? t c.before = none := by
  constructor
  · intro htyped
    rw [coerce, ← fst_coerceLogged]
    refine coerceLogged_eq_self fun c hc => ?_
    rw [after_of_mem_coerceLogged hc]
    by_cases hnone : declaredTypes c.node = []
    · rw [hnone, coerceTo_nil]
    · exact coerceTo_of_hasOneOf (htyped c hc hnone)
  · intro c hc _
    rw [after_of_mem_coerceLogged hc]
    exact coerceTo_cases (declaredTypes c.node) c.before

/-- A schema for listings, which refers to another one and has parts. -/
def listingRoot : Json := .obj [("Count", .obj [("type", .str "integer")])]

def listingSchema : Json :=
  .obj [("type", .str "object"), ("properties", .obj
    [("limit", .obj [("allOf", .arr [.obj [("$ref", .str "#/Count")], .obj [("minimum", ofInt 1)]])]),
     ("labels", .obj [("type", .str "array"),
        ("items", .obj [("type", ofStrings ["string", "null"])])])])]

/-- The limit of a listing is converted where the reference leads to. -/
def limitConversion : Conversion :=
  ⟨.obj [("type", .str "integer")], .str "5", ofInt 5⟩

theorem coerce_typed_listing :
    coerce listingRoot listingSchema
        (.obj [("limit", ofInt 5), ("labels", .arr [.str "new", .null]), ("note", .null)]) =
      .obj [("limit", ofInt 5), ("labels", .arr [.str "new", .null]), ("note", .null)] ∧
    limitConversion ∈ conversions listingRoot listingSchema (.obj [("limit", .str "5")]) ∧
    HasOneOf ["integer"] limitConversion.after := by
  have hmem : limitConversion ∈
      conversions listingRoot listingSchema (.obj [("limit", .str "5")]) := by decide
  refine ⟨(coerce_typed _ _ _).1 (by decide), hmem, ?_⟩
  rcases (coerce_typed _ _ _).2 limitConversion hmem (by decide) with htype | ⟨hsame, -⟩
  · exact htype
  · exact absurd hsame (by decide)

end RequestGate.Schema
