import RequestGate.Proofs.Draft7.Verdict
import RequestGate.Proofs.Schema.Normalize

/-!
# The Draft 7 form of a schema means the same

OpenAPI 3.0 writes schemas in a dialect of its own, and the engine reads Draft 7. The file proves that
`RequestGate.Schema.normalize` loses nothing in between: a schema without references, nested to any
depth, lets through the same values under the OpenAPI reading as its form does under the reading of
Draft 7, and the engine finds just those to be without violations
(`RequestGate.Schema.valid_iff_allViolations_normalize`).

* First, what stands under a keyword of the form (`RequestGate.Schema.get?_normalMembers`). Removing a
  keyword moves another one about, so this rests on the keys being distinct.
* Then one schema, with further schemas left to a test: the keywords that hold no schemas
  (`RequestGate.Schema.valueHolds_normalMembers`), those that go by name and those that combine.
* Then the induction over schemas within schemas.
-/

namespace RequestGate

namespace Schema

variable {members : Entries Json} {exclusive inclusive keyword : String}

/-! ### The keywords of one schema -/

/-- Whether `null` is let through. -/
def IsNullable (members : Entries Json) : Prop :=
  Entries.get? members "nullable" = some (.bool true)

instance (members : Entries Json) : Decidable (IsNullable members) :=
  inferInstanceAs (Decidable (_ = _))

theorem get?_replaceNullable (hd : Entries.Distinct members) (keyword : String) :
    Entries.get? (replaceNullable members) keyword =
      if keyword = "nullable" then none
      else if IsNullable members ∧ keyword = "type" then (Entries.get? members "type").map widenType
      else if IsNullable members ∧ keyword = "enum" then (Entries.get? members "enum").map widenEnum
      else Entries.get? members keyword := by
  have hrest := Entries.get?_swapRemove hd "nullable"
  rw [replaceNullable]
  split
  · rename_i hget
    have hnot : ¬ IsNullable members := by simp [IsNullable, hget]
    by_cases hkeyword : keyword = "nullable"
    · simp [hkeyword, hget]
    · simp [hkeyword, hnot]
  · rename_i nullable hget
    dsimp only
    split
    · -- the two keywords are widened one after the other, neither changes the other
      rename_i hset
      have hyes : IsNullable members := by rw [IsNullable, hget, hset]
      by_cases htype : keyword = "type"
      · subst htype
        rw [Entries.get?_modify_of_ne _ _ (by decide), Entries.get?_modify_self, hrest]
        simp [hyes]
      · by_cases henum : keyword = "enum"
        · subst henum
          rw [Entries.get?_modify_self, Entries.get?_modify_of_ne _ _ (by decide), hrest]
          simp [hyes]
        · rw [Entries.get?_modify_of_ne _ _ (Ne.symm henum),
            Entries.get?_modify_of_ne _ _ (Ne.symm htype), hrest]
          simp [htype, henum, eq_comm (a := "nullable")]
    · rename_i hset
      have hnot : ¬ IsNullable members := fun h => hset (Option.some.inj (hget.symm.trans h))
      simp [hnot, hrest, eq_comm (a := "nullable")]

theorem get?_replaceExclusive_of_ne (exclusive inclusive : String) (hd : Entries.Distinct members)
    (h : keyword ≠ exclusive) :
    Entries.get? (replaceExclusive exclusive inclusive members) keyword =
      if keyword = inclusive ∧ Entries.get? members exclusive = some (.bool true) then none
      else Entries.get? members keyword := by
  rw [replaceExclusive]
  split
  · rename_i hset
    cases hlimit : Entries.get? members inclusive with
    | some limit =>
      simp only [hset, Entries.get?_insert, Entries.get?_swapRemove hd, eq_comm (b := keyword)]
      simp [h]
    | none =>
      simp only [hset, Entries.get?_swapRemove hd, eq_comm (b := keyword)]
      by_cases hinclusive : keyword = inclusive
      · simp [hinclusive, hlimit]
      · simp [h, hinclusive]
  · rename_i hset
    simp [hset, Entries.get?_swapRemove hd, Ne.symm h]
  · rename_i htrue _
    rw [if_neg fun hset => htrue hset.2]

/-- The flag gives way to the bound, and what is no flag stays. -/
theorem get?_replaceExclusive_self (exclusive inclusive : String) (hd : Entries.Distinct members) :
    Entries.get? (replaceExclusive exclusive inclusive members) exclusive =
      if Entries.get? members exclusive = some (.bool true) then Entries.get? members inclusive
      else if Entries.get? members exclusive = some (.bool false) then none
      else Entries.get? members exclusive := by
  rw [replaceExclusive]
  split
  · rename_i hset
    cases hlimit : Entries.get? members inclusive with
    | some limit => simp [hset]
    | none => simp [hset, Entries.get?_swapRemove hd]
  · rename_i hset
    simp [hset, Entries.get?_swapRemove hd]
  · rename_i htrue hfalse
    rw [if_neg htrue, if_neg hfalse]

theorem get?_replaceExclusive (exclusive inclusive : String) (hd : Entries.Distinct members)
    (hflag : ∀ v, Entries.get? members exclusive = some v → ∃ b, v = .bool b) (keyword : String) :
    Entries.get? (replaceExclusive exclusive inclusive members) keyword =
      if keyword = exclusive then
        if Entries.get? members exclusive = some (.bool true) then Entries.get? members inclusive
        else none
      else if keyword = inclusive ∧ Entries.get? members exclusive = some (.bool true) then none
      else Entries.get? members keyword := by
  split
  · rename_i hkeyword
    rw [hkeyword, get?_replaceExclusive_self exclusive inclusive hd]
    cases hget : Entries.get? members exclusive with
    | none => simp
    | some v =>
      obtain ⟨b, rfl⟩ := hflag v hget
      cases b <;> simp
  · rename_i hkeyword
    exact get?_replaceExclusive_of_ne exclusive inclusive hd hkeyword

/-- Replacing keywords leaves the others as they are once `nullable` is gone. -/
theorem get?_replaceKeywords_of_not_bound (hw : (Json.obj members).WellFormed)
    (h : keyword ∉ ["minimum", "maximum", "exclusiveMinimum", "exclusiveMaximum"]) :
    Entries.get? (replaceKeywords members) keyword =
      Entries.get? (replaceNullable members) keyword := by
  simp only [List.mem_cons, List.not_mem_nil, or_false, not_or] at h
  obtain ⟨hmin, hmax, hexMin, hexMax⟩ := h
  have hnullable := wellFormed_replaceNullable hw
  have hminimum := wellFormed_replaceExclusive "exclusiveMinimum" "minimum" hnullable
  rw [replaceKeywords, get?_replaceExclusive_of_ne _ _ hminimum.1 hexMax,
    if_neg fun hinclusive => hmax hinclusive.1, get?_replaceExclusive_of_ne _ _ hnullable.1 hexMin,
    if_neg fun hinclusive => hmin hinclusive.1]

/-- **What stands where in the Draft 7 form** of a table whose flags are Boolean. -/
theorem get?_replaceKeywords (hw : (Json.obj members).WellFormed)
    (hflags : ∀ flag ∈ ["exclusiveMinimum", "exclusiveMaximum"], ∀ v,
      Entries.get? members flag = some v → ∃ b, v = .bool b) (keyword : String) :
    Entries.get? (replaceKeywords members) keyword =
      if keyword = "exclusiveMaximum" then
        if Entries.get? members "exclusiveMaximum" = some (.bool true) then
          Entries.get? members "maximum"
        else none
      else if keyword = "maximum" ∧ Entries.get? members "exclusiveMaximum" = some (.bool true) then
        none
      else if keyword = "exclusiveMinimum" then
        if Entries.get? members "exclusiveMinimum" = some (.bool true) then
          Entries.get? members "minimum"
        else none
      else if keyword = "minimum" ∧ Entries.get? members "exclusiveMinimum" = some (.bool true) then
        none
      else Entries.get? (replaceNullable members) keyword := by
  have hnullable := wellFormed_replaceNullable hw
  have hminimum := wellFormed_replaceExclusive "exclusiveMinimum" "minimum" hnullable
  have hget := get?_replaceNullable hw.1
  -- the keywords are replaced in this order: `nullable`, the minimum, the maximum
  have hlower := get?_replaceExclusive "exclusiveMinimum" "minimum" hnullable.1
    (by simpa [hget] using hflags "exclusiveMinimum" (by simp))
  have hupper := get?_replaceExclusive "exclusiveMaximum" "maximum" hminimum.1
    (by simpa [hget, hlower] using hflags "exclusiveMaximum" (by simp)) keyword
  rw [replaceKeywords, hupper]
  simp [hlower, hget]

theorem normalizeTable_eq (table : Entries Json) :
    normalizeTable table = Entries.mapValues normalize table := by
  induction table with
  | nil => rfl
  | cons e table ih =>
    obtain ⟨k, s⟩ := e
    rw [normalizeTable, ih]
    rfl

theorem normalizeList_eq (schemas : List Json) :
    normalizeList schemas = schemas.map normalize := by
  induction schemas with
  | nil => rfl
  | cons s schemas ih => rw [normalizeList, ih, List.map_cons]

theorem get?_normalizeMembers (members : Entries Json) (keyword : String) :
    Entries.get? (normalizeMembers members) keyword =
      (Entries.get? members keyword).map (normalizeUnder (nesting keyword)) := by
  induction members with
  | nil => rfl
  | cons e members ih =>
    obtain ⟨k, v⟩ := e
    rw [normalizeMembers, Entries.get?_cons, Entries.get?_cons, ih]
    split
    · rename_i h
      rw [h, Option.map_some]
    · rfl

/-- Values of keywords that hold no schemas stay. -/
theorem normalizeUnder_nothing (value : Json) : normalizeUnder .nothing value = value := by
  cases value <;> simp [normalizeUnder]

@[simp] theorem isArr_normalizeUnder (value : Json) :
    (normalizeUnder .oneOrMany value).isArr = value.isArr := by
  cases value <;> simp [normalizeUnder, Json.isArr]

theorem get?_normalizeMembers_of_nothing (h : nesting keyword = .nothing) :
    Entries.get? (normalizeMembers members) keyword = Entries.get? members keyword := by
  rw [get?_normalizeMembers, h, funext normalizeUnder_nothing]
  exact Option.map_id'

/-! ### Values of keywords -/

variable {value : Json}

theorem hasType_null_iff : hasType value "null" = true ↔ value = .null := by
  cases value <;> simp [hasType]

/-- Widened types let through `null` and what the types let through. -/
theorem exists_hasType_widenType {types : Json}
    (hform : (∃ t, types = .str t) ∨ ∃ ts, types = .arr ts) :
    (∃ t ∈ Draft7.typeNames (widenType types), hasType value t = true) ↔
      value = .null ∨ ∃ t ∈ Draft7.typeNames types, hasType value t = true := by
  rcases hform with ⟨t, rfl⟩ | ⟨ts, rfl⟩
  · by_cases ht : t = "null"
    · subst ht
      simp [widenType, Draft7.typeNames, hasType_null_iff]
    · simp [widenType, ht, Draft7.typeNames, Json.str?, hasType_null_iff, or_comm]
  · by_cases hts : .str "null" ∈ ts
    · have hmem : "null" ∈ ts.filterMap Json.str? := List.mem_filterMap.mpr ⟨_, hts, rfl⟩
      rw [widenType, if_pos (List.contains_iff_mem.mpr hts), or_iff_right_of_imp]
      rintro rfl
      exact ⟨"null", hmem, rfl⟩
    · rw [widenType, if_neg fun h => hts (List.contains_iff_mem.mp h)]
      simp only [Draft7.typeNames, List.filterMap_append, List.mem_append, or_and_right, exists_or]
      simp [Json.str?, hasType_null_iff, or_comm]

theorem equal_null_iff : Draft7.equal value .null = true ↔ value = .null := by
  cases value <;> simp [Draft7.equal]

/-- Widened values let through `null` and what the values let through. -/
theorem exists_equal_widenEnum {items : List Json} :
    (∃ a ∈ ((widenEnum (.arr items)).arr?).getD [], Draft7.equal value a = true) ↔
      value = .null ∨ ∃ a ∈ items, Draft7.equal value a = true := by
  by_cases hitems : .null ∈ items
  · rw [widenEnum, if_pos (List.contains_iff_mem.mpr hitems), or_iff_right_of_imp]
    · rfl
    · rintro rfl
      exact ⟨.null, hitems, rfl⟩
  · rw [widenEnum, if_neg fun h => hitems (List.contains_iff_mem.mp h)]
    simp only [Json.arr?, Option.getD_some, List.mem_append, or_and_right, exists_or]
    simp [equal_null_iff, or_comm]

/-- A weaker bound holds where a stronger one does. -/
theorem boundHolds_mono {holds weaker : Ordering → Bool} {bound : Json}
    (hweaker : ∀ o, holds o = true → weaker o = true)
    (h : Draft7.boundHolds holds bound value = true) :
    Draft7.boundHolds weaker bound value = true := by
  cases bound with
  | num b =>
    cases value with
    | num n => exact hweaker _ h
    | _ => rfl
  | _ => rfl

/-- A Boolean flag and the bound beside it mean what the two bounds of the Draft 7 form mean. -/
theorem bounds_iff {normal : Entries Json} {holds weaker : Ordering → Bool} (value : Json)
    (hweaker : ∀ o, holds o = true → weaker o = true)
    (hinclusive : Entries.get? normal inclusive =
      if Entries.get? members exclusive = some (.bool true) then none
      else Entries.get? members inclusive)
    (hexclusive : Entries.get? normal exclusive =
      if Entries.get? members exclusive = some (.bool true) then Entries.get? members inclusive
      else none) :
    ((∀ bound, Entries.get? normal inclusive = some bound →
        Draft7.boundHolds weaker bound value = true) ∧
      ∀ bound, Entries.get? normal exclusive = some bound →
        Draft7.boundHolds holds bound value = true) ↔
      ∀ bound, Entries.get? members inclusive = some bound →
        Draft7.boundHolds weaker bound value = true ∧
          (Entries.get? members exclusive = some (.bool true) →
            Draft7.boundHolds holds bound value = true) := by
  by_cases hset : Entries.get? members exclusive = some (.bool true)
  · simp only [hinclusive, hexclusive, hset, if_true, reduceCtorEq, false_implies, implies_true,
      true_and, true_implies]
    exact forall₂_congr fun bound _ => ⟨fun h => ⟨boundHolds_mono hweaker h, h⟩, And.right⟩
  · simp [hinclusive, hexclusive, hset]

/-! ### One schema -/

/-- The members of the Draft 7 form of a schema. -/
def normalMembers (members : Entries Json) : Entries Json :=
  replaceKeywords (normalizeMembers members)

/-- The keywords that change. -/
def changed : List String :=
  ["nullable", "type", "enum", "minimum", "maximum", "exclusiveMinimum", "exclusiveMaximum"]

variable {s : Json}

section Normal

variable (hw : (Json.obj members).WellFormed)

include hw

/-- What stands where once `nullable` is gone and the schemas inside have their Draft 7 forms. -/
theorem get?_replaceNullable_normalizeMembers (keyword : String) :
    Entries.get? (replaceNullable (normalizeMembers members)) keyword =
      if keyword = "nullable" then none
      else if IsNullable members ∧ keyword = "type" then (Entries.get? members "type").map widenType
      else if IsNullable members ∧ keyword = "enum" then (Entries.get? members "enum").map widenEnum
      else (Entries.get? members keyword).map (normalizeUnder (nesting keyword)) := by
  have hnullable : IsNullable (normalizeMembers members) ↔ IsNullable members := by
    rw [IsNullable, IsNullable, get?_normalizeMembers_of_nothing rfl]
  have hnothing : ∀ keyword, nesting keyword = .nothing →
      Entries.get? (normalizeMembers members) keyword = Entries.get? members keyword :=
    fun _ => get?_normalizeMembers_of_nothing
  have htype := hnothing "type" rfl
  have henum := hnothing "enum" rfl
  rw [get?_replaceNullable (wellFormed_normalizeMembers_obj hw).1]
  simp only [hnullable, htype, henum, get?_normalizeMembers members keyword]

/-- What stands in the Draft 7 form under a keyword that is no bound. -/
theorem get?_normalMembers_of_not_bound
    (h : keyword ∉ ["minimum", "maximum", "exclusiveMinimum", "exclusiveMaximum"]) :
    Entries.get? (normalMembers members) keyword =
      if keyword = "nullable" then none
      else if IsNullable members ∧ keyword = "type" then (Entries.get? members "type").map widenType
      else if IsNullable members ∧ keyword = "enum" then (Entries.get? members "enum").map widenEnum
      else (Entries.get? members keyword).map (normalizeUnder (nesting keyword)) := by
  rw [normalMembers, get?_replaceKeywords_of_not_bound (wellFormed_normalizeMembers_obj hw) h,
    get?_replaceNullable_normalizeMembers hw]

/-- All other keywords stay, and the schemas that they hold are brought to their Draft 7 forms. -/
theorem get?_normalMembers_of_not_changed (h : keyword ∉ changed) :
    Entries.get? (normalMembers members) keyword =
      (Entries.get? members keyword).map (normalizeUnder (nesting keyword)) := by
  simp only [changed, List.mem_cons, List.not_mem_nil, or_false, not_or] at h
  rw [get?_normalMembers_of_not_bound hw (by simp [h])]
  simp [h]

theorem get?_type_normalMembers :
    Entries.get? (normalMembers members) "type" =
      if IsNullable members then (Entries.get? members "type").map widenType
      else Entries.get? members "type" := by
  rw [get?_normalMembers_of_not_bound hw (by decide)]
  simp [show nesting "type" = .nothing from rfl, funext normalizeUnder_nothing]

theorem get?_enum_normalMembers :
    Entries.get? (normalMembers members) "enum" =
      if IsNullable members then (Entries.get? members "enum").map widenEnum
      else Entries.get? members "enum" := by
  rw [get?_normalMembers_of_not_bound hw (by decide)]
  simp [show nesting "enum" = .nothing from rfl, funext normalizeUnder_nothing]

theorem tableUnder_normalMembers (hkeyword : nesting keyword = .table) (h : keyword ∉ changed) :
    tableUnder (normalMembers members) keyword =
      Entries.mapValues normalize (tableUnder members keyword) := by
  rw [tableUnder, tableUnder, get?_normalMembers_of_not_changed hw h, hkeyword]
  cases Entries.get? members keyword with
  | none => rfl
  | some value =>
    cases value with
    | obj table => simp [normalizeUnder, normalizeTable_eq, Json.obj?]
    | _ => simp [normalizeUnder, Json.obj?, Entries.mapValues]

theorem listUnder_normalMembers
    (hkeyword : nesting keyword = .oneOrMany ∨ nesting keyword = .many) (h : keyword ∉ changed) :
    listUnder (normalMembers members) keyword = (listUnder members keyword).map normalize := by
  rw [listUnder, listUnder, get?_normalMembers_of_not_changed hw h]
  cases Entries.get? members keyword with
  | none => rfl
  | some value =>
    cases value with
    | arr schemas => simp [normalizeUnder, hkeyword, normalizeList_eq, Json.arr?]
    | obj table => rcases hkeyword with hkeyword | hkeyword <;> simp [normalizeUnder, hkeyword, Json.arr?]
    | _ => simp [normalizeUnder, Json.arr?]

theorem describes_normalMembers_iff {name : String} :
    Describes (normalMembers members) name ↔ Describes members name := by
  rw [Describes, Describes, tableUnder_normalMembers hw rfl (by decide),
    tableUnder_normalMembers hw rfl (by decide)]
  simp [Entries.mapValues, Entries.keys]

variable {test other : Json → Json → Prop}
  (hlink : ∀ s ∈ subschemas members, ∀ a, test s a ↔ other (normalize s) a)
  (hsingle : ∀ s a, other (normalizeUnder .oneOrMany s) a ↔ other (normalize s) a)

include hlink hsingle

theorem membersHold_normalMembers :
    MembersHold other (normalMembers members) value ↔ MembersHold test members value := by
  rw [membersHold_iff, membersHold_iff]
  refine and_congr ?_ (and_congr ?_ ?_)
  · simp only [tableUnder_normalMembers hw (show nesting "properties" = .table from rfl)
      (by decide),
      Entries.get?_mapValues, Option.map_eq_some_iff]
    constructor
    · intro h name s a hs ha
      exact (hlink s (mem_subschemas_of_mem_table rfl (Entries.mem_of_get? hs)) a).mpr
        (h name _ a ⟨s, hs, rfl⟩ ha)
    · rintro h name _ a ⟨s, hs, rfl⟩ ha
      exact (hlink s (mem_subschemas_of_mem_table rfl (Entries.mem_of_get? hs)) a).mp
        (h name s a hs ha)
  · simp only [tableUnder_normalMembers hw
      (show nesting "patternProperties" = .table from rfl) (by decide),
      Entries.mapValues, List.forall_mem_map]
    refine forall₂_congr fun e he => forall₂_congr fun pattern _ => ?_
    simp only [← hlink e.2 (mem_subschemas_of_mem_table rfl he)]
  · simp only [get?_normalMembers_of_not_changed hw
      (show "additionalProperties" ∉ changed by decide), describes_normalMembers_iff hw,
      Option.map_eq_some_iff, forall_exists_index, and_imp, forall_apply_eq_imp_iff₂]
    refine forall₂_congr fun s hs => ?_
    simp only [show nesting "additionalProperties" = .oneOrMany from rfl, hsingle,
      ← hlink s (mem_subschemas_of_single rfl hs)]

theorem partsHold_normalMembers :
    PartsHold other (normalMembers members) value ↔ PartsHold test members value := by
  have hmany : ∀ keyword, nesting keyword = .many → ∀ s ∈ listUnder members keyword,
      (test s value ↔ other (normalize s) value) := fun keyword hkeyword s hs =>
    hlink s (mem_subschemas_of_mem_list hkeyword hs) value
  have hget : ∀ keyword, keyword ∉ changed → ∀ P : Json → Prop,
      (∀ v, Entries.get? (normalMembers members) keyword = some v → P v) ↔
        ∀ v, Entries.get? members keyword = some v → P (normalizeUnder (nesting keyword) v) := by
    intro keyword hkeyword P
    simp only [get?_normalMembers_of_not_changed hw hkeyword, Option.map_eq_some_iff,
      forall_exists_index, and_imp, forall_apply_eq_imp_iff₂]
  rw [partsHold_iff, partsHold_iff]
  refine and_congr ?_ (and_congr ?_ (and_congr ?_ (and_congr ?_ (and_congr ?_ ?_))))
  · rw [hget "items" (by decide)]
    refine forall₂_congr fun s hs => ?_
    simp only [show nesting "items" = .oneOrMany from rfl, isArr_normalizeUnder, hsingle,
      ← hlink s (mem_subschemas_of_single rfl hs)]
  · -- a tuple keeps its length, so each item keeps its schema
    have htuple : ∀ schemas, Entries.get? members "items" = some (.arr schemas) → ∀ own : List Json,
        (∀ p ∈ own.zip (schemas.map normalize), other p.2 p.1) ↔
          ∀ p ∈ own.zip schemas, test p.2 p.1 := by
      intro schemas hs own
      rw [List.zip_map_right, List.forall_mem_map]
      refine forall₂_congr fun p hp => (hlink p.2 ?_ p.1).symm
      exact mem_subschemas_of_get? hs (List.mem_cons_of_mem _ (List.of_mem_zip hp).2)
    constructor
    · intro h schemas hs own hown
      refine (htuple schemas hs own).mp (h (schemas.map normalize) ?_ own hown)
      rw [get?_normalMembers_of_not_changed hw (by decide), hs]
      simp [show nesting "items" = .oneOrMany from rfl, normalizeUnder, normalizeList_eq]
    · intro h forms hforms own hown
      rw [get?_normalMembers_of_not_changed hw (by decide)] at hforms
      obtain ⟨v, hv, hnormal⟩ := Option.map_eq_some_iff.mp hforms
      rw [show nesting "items" = .oneOrMany from rfl] at hnormal
      cases v with
      | arr schemas =>
        rw [normalizeUnder, if_pos (Or.inl rfl), normalizeList_eq] at hnormal
        obtain rfl := Json.arr.inj hnormal
        exact (htuple schemas hv own).mpr (h schemas hv own hown)
      | _ => simp [normalizeUnder] at hnormal
  · rw [listUnder_normalMembers hw (Or.inr rfl) (by decide), List.forall_mem_map]
    exact forall₂_congr fun s hs => (hmany "allOf" rfl s hs).symm
  · rw [hget "anyOf" (by decide), listUnder_normalMembers hw (Or.inr rfl) (by decide)]
    simp only [List.mem_map, exists_exists_and_eq_and]
    exact forall₂_congr fun _ _ => exists_congr fun s =>
      and_congr_right fun hs => (hmany "anyOf" rfl s hs).symm
  · rw [hget "oneOf" (by decide), listUnder_normalMembers hw (Or.inr rfl) (by decide)]
    simp only [exactlyOne_map]
    exact forall₂_congr fun _ _ => exactlyOne_congr fun s hs => (hmany "oneOf" rfl s hs).symm
  · rw [hget "not" (by decide)]
    refine forall₂_congr fun s hs => ?_
    simp only [show nesting "not" = .oneOrMany from rfl, hsingle,
      ← hlink s (mem_subschemas_of_single rfl hs)]

end Normal

section InForm

variable (hw : (Json.obj members).WellFormed) (hform : InForm members)

include hw hform

/-- What stands where in the Draft 7 form. -/
theorem get?_normalMembers (keyword : String) :
    Entries.get? (normalMembers members) keyword =
      if keyword = "exclusiveMaximum" then
        if Entries.get? members "exclusiveMaximum" = some (.bool true) then
          Entries.get? members "maximum"
        else none
      else if keyword = "maximum" ∧ Entries.get? members "exclusiveMaximum" = some (.bool true) then
        none
      else if keyword = "exclusiveMinimum" then
        if Entries.get? members "exclusiveMinimum" = some (.bool true) then
          Entries.get? members "minimum"
        else none
      else if keyword = "minimum" ∧ Entries.get? members "exclusiveMinimum" = some (.bool true) then
        none
      else if keyword = "nullable" then none
      else if IsNullable members ∧ keyword = "type" then (Entries.get? members "type").map widenType
      else if IsNullable members ∧ keyword = "enum" then (Entries.get? members "enum").map widenEnum
      else (Entries.get? members keyword).map (normalizeUnder (nesting keyword)) := by
  have hnothing : ∀ keyword, nesting keyword = .nothing →
      Entries.get? (normalizeMembers members) keyword = Entries.get? members keyword :=
    fun _ => get?_normalizeMembers_of_nothing
  have hminimum := hnothing "minimum" rfl
  have hmaximum := hnothing "maximum" rfl
  have hexMinimum := hnothing "exclusiveMinimum" rfl
  have hexMaximum := hnothing "exclusiveMaximum" rfl
  have hflags : ∀ flag ∈ ["exclusiveMinimum", "exclusiveMaximum"], ∀ v,
      Entries.get? (normalizeMembers members) flag = some v → ∃ b, v = .bool b := by
    simpa [hexMinimum, hexMaximum] using hform.flags
  rw [normalMembers, get?_replaceKeywords (wellFormed_normalizeMembers_obj hw) hflags,
    get?_replaceNullable_normalizeMembers hw]
  simp only [hminimum, hmaximum, hexMinimum, hexMaximum]

theorem type_normalMembers_iff :
    (∀ types, Entries.get? (normalMembers members) "type" = some types →
        ∃ t ∈ Draft7.typeNames types, hasType value t = true) ↔
      ∀ types, Entries.get? members "type" = some types →
        (IsNullable members ∧ value = .null) ∨ ∃ t ∈ Draft7.typeNames types, hasType value t = true := by
  by_cases hn : IsNullable members
  · rw [get?_type_normalMembers hw, if_pos hn]
    simp only [Option.map_eq_some_iff, forall_exists_index, and_imp, forall_apply_eq_imp_iff₂]
    refine forall₂_congr fun types htypes => ?_
    rw [exists_hasType_widenType (hform.type types htypes)]
    simp [hn]
  · rw [get?_type_normalMembers hw, if_neg hn]
    simp [hn]

theorem enum_normalMembers_iff :
    (∀ values, Entries.get? (normalMembers members) "enum" = some values →
        ∃ a ∈ listUnder (normalMembers members) "enum", Draft7.equal value a = true) ↔
      ∀ values, Entries.get? members "enum" = some values →
        (IsNullable members ∧ value = .null) ∨
          ∃ a ∈ listUnder members "enum", Draft7.equal value a = true := by
  by_cases hn : IsNullable members
  · rw [listUnder, listUnder, get?_enum_normalMembers hw, if_pos hn]
    simp only [Option.map_eq_some_iff, forall_exists_index, and_imp, forall_apply_eq_imp_iff₂]
    refine forall₂_congr fun values hvalues => ?_
    obtain ⟨items, rfl⟩ := hform.enum values hvalues
    simp only [hvalues, Option.map_some, Option.bind_some, exists_equal_widenEnum]
    simp [hn, Json.arr?]
  · rw [listUnder, listUnder, get?_enum_normalMembers hw, if_neg hn]
    simp [hn]

theorem valueHolds_normalMembers :
    ValueHolds .draft7 (normalMembers members) value ↔ ValueHolds .openApi members value := by
  have hflag : ∀ flag, ¬ Dialect.Flagged .draft7 (normalMembers members) flag :=
    fun flag hf => by cases hf.1
  have hset : ∀ flag, Dialect.Flagged .openApi members flag ↔
      Entries.get? members flag = some (.bool true) := fun flag => and_iff_right rfl
  have hrequired : listUnder (normalMembers members) "required" = listUnder members "required" := by
    rw [listUnder, listUnder, get?_normalMembers_of_not_changed hw (by decide)]
    simp [show nesting "required" = .nothing from rfl, funext normalizeUnder_nothing]
  -- a bound that a flag makes exclusive moves to the other keyword
  have hminimum : Entries.get? (normalMembers members) "minimum" =
      if Entries.get? members "exclusiveMinimum" = some (.bool true) then none
      else Entries.get? members "minimum" := by
    rw [get?_normalMembers hw hform]
    simp [show nesting "minimum" = .nothing from rfl, funext normalizeUnder_nothing]
  have hmaximum : Entries.get? (normalMembers members) "maximum" =
      if Entries.get? members "exclusiveMaximum" = some (.bool true) then none
      else Entries.get? members "maximum" := by
    rw [get?_normalMembers hw hform]
    simp [show nesting "maximum" = .nothing from rfl, funext normalizeUnder_nothing]
  -- what lies strictly beyond a bound does not lie on the wrong side of it
  have habove : ∀ o : Ordering, (o == .gt) = true → Draft7.notLess o = true :=
    fun o ho => by rw [beq_iff_eq.mp ho]; rfl
  have hbelow : ∀ o : Ordering, (o == .lt) = true → Draft7.notGreater o = true :=
    fun o ho => by rw [beq_iff_eq.mp ho]; rfl
  have hlower := bounds_iff value habove hminimum
    (by simp [get?_normalMembers hw hform] :
      Entries.get? (normalMembers members) "exclusiveMinimum" = _)
  have hupper := bounds_iff value hbelow hmaximum
    (by simp [get?_normalMembers hw hform] :
      Entries.get? (normalMembers members) "exclusiveMaximum" = _)
  rw [valueHolds_iff, valueHolds_iff]
  simp only [hflag, hset, hrequired, false_and, false_or, false_implies, and_true, true_implies,
    reduceCtorEq, true_and]
  rw [type_normalMembers_iff hw hform, enum_normalMembers_iff hw hform, ← hlower, ← hupper]
  simp only [IsNullable, and_assoc]

end InForm

/-! ### Schemas within schemas -/

theorem normalize_obj (members : Entries Json) :
    normalize (.obj members) = .obj (normalMembers members) := by
  rw [normalize, normalMembers]

theorem normalize_leaf (h : s.isObj = false) : normalize s = s := by
  cases s with
  | obj members => cases h
  | _ => simp [normalize]

/-- The schemas under a keyword of the Draft 7 form are the forms of those that were there. -/
theorem mem_heldUnder_normalizeUnder {n : Nesting}
    (h : s ∈ heldUnder n (normalizeUnder n value)) :
    s.isObj = false ∨ ∃ part ∈ heldUnder n value, s = normalize part := by
  cases n with
  | oneOrMany =>
    cases value with
    | arr schemas =>
      rw [normalizeUnder, if_pos (Or.inl rfl), normalizeList_eq] at h
      rcases List.mem_cons.mp h with rfl | h
      · -- the tuple itself
        exact Or.inl rfl
      · obtain ⟨part, hpart, rfl⟩ := List.mem_map.mp h
        exact Or.inr ⟨part, List.mem_cons_of_mem _ hpart, rfl⟩
    | obj members =>
      rw [normalizeUnder_oneOrMany_obj, normalize_obj] at h
      refine Or.inr ⟨.obj members, List.mem_singleton.mpr rfl, ?_⟩
      rw [normalize_obj]
      exact List.mem_singleton.mp h
    | _ =>
      simp only [normalizeUnder, heldUnder, List.mem_singleton] at h
      exact Or.inl (h ▸ rfl)
  | many =>
    cases value with
    | arr schemas =>
      rw [normalizeUnder, if_pos (Or.inr rfl), normalizeList_eq] at h
      obtain ⟨part, hpart, rfl⟩ := List.mem_map.mp h
      exact Or.inr ⟨part, hpart, rfl⟩
    | _ => simp [normalizeUnder, heldUnder] at h
  | table =>
    cases value with
    | obj table =>
      simp only [normalizeUnder, normalizeTable_eq, heldUnder, Entries.mapValues, List.map_map] at h
      obtain ⟨e, he, rfl⟩ := List.mem_map.mp h
      exact Or.inr ⟨e.2, List.mem_map_of_mem (f := Prod.snd) he, rfl⟩
    | _ => simp [normalizeUnder, heldUnder] at h
  | nothing => cases value <;> simp [heldUnder] at h

/-- **The Draft 7 form of a plain schema** is a plain schema of Draft 7. -/
theorem plain_normalize {schema : Json} (h : Plain .openApi schema) (hw : schema.WellFormed) :
    Plain .draft7 (normalize schema) := by
  induction h with
  | leaf hobj =>
    rw [normalize_leaf hobj]
    exact .leaf hobj
  | @obj members keywords form _ ih =>
    rw [normalize_obj]
    have hw' : (Json.obj (normalMembers members)).WellFormed :=
      normalize_obj members ▸ wellFormed_normalize (.obj members) hw
    refine .obj (fun k hk => ?_) (fun hd => by cases hd) fun s hs => ?_
    · obtain ⟨v, hv⟩ := Option.isSome_iff_exists.mp (Entries.contains_iff.mpr hk)
      by_cases hchanged : k ∈ changed
      · -- of these only `nullable` is no keyword of Draft 7, and it is gone
        simp only [changed, List.mem_cons, List.not_mem_nil, or_false] at hchanged
        rcases hchanged with rfl | rfl | rfl | rfl | rfl | rfl | rfl
        · simp [get?_normalMembers hw (form rfl)] at hv
        all_goals decide
      · rw [get?_normalMembers_of_not_changed hw hchanged] at hv
        obtain ⟨old, hold, -⟩ := Option.map_eq_some_iff.mp hv
        have hkey := keywords k (Entries.contains_iff.mp (by rw [Entries.contains, hold]; rfl))
        refine (List.mem_cons.mp hkey).resolve_left ?_
        rintro rfl
        exact hchanged (by decide)
    · obtain ⟨⟨k, v⟩, he, hs⟩ := List.mem_flatMap.mp hs
      have hchanged : k ∉ changed := by
        intro hchanged
        simp only [changed, List.mem_cons, List.not_mem_nil, or_false] at hchanged
        rcases hchanged with rfl | rfl | rfl | rfl | rfl | rfl | rfl <;> cases v <;> cases hs
      have hv := Entries.get?_of_mem hw'.1 he
      rw [get?_normalMembers_of_not_changed hw hchanged] at hv
      obtain ⟨old, hold, rfl⟩ := Option.map_eq_some_iff.mp hv
      rcases mem_heldUnder_normalizeUnder hs with hobj | ⟨part, hpart, rfl⟩
      · exact .leaf hobj
      · have hmem := mem_subschemas_of_get? hold hpart
        exact ih part hmem (wellFormed_of_mem_subschemas hw hmem)

/-- **Both readings agree**: a value is valid under the OpenAPI reading of a schema if and only if it
is valid under the Draft 7 reading of its form. -/
theorem valid_normalize {schema : Json} (h : Plain .openApi schema) (hw : schema.WellFormed) :
    Valid .draft7 (normalize schema) value ↔ Valid .openApi schema value := by
  have hsingle : ∀ s a,
      Valid .draft7 (normalizeUnder .oneOrMany s) a ↔ Valid .draft7 (normalize s) a := by
    intro s a
    cases s with
    | obj members => rw [normalizeUnder_oneOrMany_obj]
    | arr schemas => simp [normalizeUnder, normalize, Valid]
    | _ => simp [normalizeUnder, normalize]
  induction h generalizing value with
  | leaf hobj => rw [normalize_leaf hobj, valid_leaf_iff hobj, valid_leaf_iff hobj]
  | @obj members keywords form _ ih =>
    have hlink : ∀ s ∈ subschemas members, ∀ a,
        Valid .openApi s a ↔ Valid .draft7 (normalize s) a :=
      fun s hs a => (ih s hs (wellFormed_of_mem_subschemas hw hs)).symm
    rw [normalize_obj, valid_obj_iff, valid_obj_iff, keywordsHold_iff, keywordsHold_iff]
    exact and_congr (valueHolds_normalMembers hw (form rfl))
      (and_congr (membersHold_normalMembers hw hlink hsingle)
        (partsHold_normalMembers hw hlink hsingle))

/-- **Bringing a schema to Draft 7 keeps its meaning.** For every schema of OpenAPI without references,
a value is valid under the OpenAPI reading if and only if it is valid under the Draft 7 reading of the
form, and if and only if the engine has nothing against it. -/
theorem valid_iff_allViolations_normalize (formats : Draft7.Formats) {schema : Json}
    (h : Plain .openApi schema) (hw : schema.WellFormed) :
    (∀ value, Valid .openApi schema value ↔ Valid .draft7 (normalize schema) value) ∧
      ∀ value, value.WellFormed →
        (Valid .openApi schema value ↔
          Draft7.allViolations formats (normalize schema) value = []) := by
  refine ⟨fun value => (valid_normalize h hw).symm, fun value hv => ?_⟩
  rw [← valid_normalize h hw]
  exact (Draft7.accepts_iff_valid (plain_normalize h hw) (wellFormed_normalize schema hw)
    (Draft7.size_lt_stepsFor _ value) hv).symm

/-- A bound that may not be reached, and a value that may be `null`. -/
def ageMembers : Entries Json :=
  [("type", .str "integer"), ("nullable", .bool true), ("minimum", .num (.int 0)),
    ("exclusiveMinimum", .bool true)]

/-- An object with such a property, and one that is called like a flag. -/
def petMembers : Entries Json :=
  [("type", .str "object"),
    ("properties", .obj [("age", .obj ageMembers), ("nullable", .obj [("enum", .arr [.bool true])])]),
    ("additionalProperties", .bool false)]

theorem wellFormed_petMembers : (Json.obj petMembers).WellFormed := by decide

theorem plain_petMembers : Plain .openApi (.obj petMembers) := by
  have hage : Plain .openApi (.obj ageMembers) := by
    have hparts : subschemas ageMembers = [] := by decide
    refine .obj (by decide) (fun _ => ⟨?_, ?_, ?_⟩) (by simp [hparts])
    · exact fun types htypes => Or.inl ⟨"integer", (Option.some.inj htypes).symm⟩
    · exact fun values hvalues => by cases hvalues
    · intro flag hflag v hv
      rcases List.mem_pair.mp hflag with rfl | rfl
      · exact ⟨true, (Option.some.inj hv).symm⟩
      · cases hv
  have hflag : Plain .openApi (.obj [("enum", .arr [.bool true])]) := by
    have hparts : subschemas [("enum", .arr [.bool true])] = [] := by decide
    refine .obj (by decide) (fun _ => ⟨?_, ?_, ?_⟩) (by simp [hparts])
    · exact fun types htypes => by cases htypes
    · exact fun values hvalues => ⟨[.bool true], (Option.some.inj hvalues).symm⟩
    · intro flag hflag v hv
      rcases List.mem_pair.mp hflag with rfl | rfl <;> cases hv
  have hparts : subschemas petMembers =
      [.obj ageMembers, .obj [("enum", .arr [.bool true])], .bool false] := by decide
  refine .obj (by decide) (fun _ => ⟨?_, ?_, ?_⟩) ?_
  · exact fun types htypes => Or.inl ⟨"object", (Option.some.inj htypes).symm⟩
  · exact fun values hvalues => by cases hvalues
  · intro flag hflag v hv
    rcases List.mem_pair.mp hflag with rfl | rfl <;> cases hv
  · rw [hparts]
    exact List.forall_mem_cons.mpr ⟨hage, List.forall_mem_cons.mpr
      ⟨hflag, List.forall_mem_cons.mpr ⟨.leaf rfl, List.forall_mem_nil _⟩⟩⟩

/-- `null` is an age and zero is none. -/
theorem valid_petMembers :
    (Json.obj petMembers).WellFormed ∧ Plain .openApi (.obj petMembers) ∧
      Valid .openApi (.obj petMembers) (.obj [("age", .null), ("nullable", .bool true)]) ∧
      ¬ Valid .openApi (.obj petMembers) (.obj [("age", .num (.int 0))]) := by
  have h := (valid_iff_allViolations_normalize .builtin plain_petMembers wellFormed_petMembers).2
  refine ⟨wellFormed_petMembers, plain_petMembers, (h _ ?_).mpr (List.isEmpty_iff.mp (by decide)),
    fun hvalid => ?_⟩
  · simp [Json.WellFormed, Json.WellFormedMembers, Entries.Distinct]
  · have hnil := List.isEmpty_iff.mpr ((h _ ?_).mp hvalid)
    · exact absurd hnil (by decide)
    · simp [Json.WellFormed, Json.WellFormedMembers, Entries.Distinct, Number.InRange,
        Number.leastInt, Number.intBound]

end Schema

end RequestGate
