import RequestGate.Draft7.Validate
import RequestGate.Proofs.Json.Measures
import RequestGate.Schema.Normalize

/-!
# What schemas mean

A schema says which values are valid. `RequestGate.Schema.KeywordsHold` lists what its keywords demand
of a value, one field for each, where further schemas are left to a test. It reads keywords in one of
two dialects. They differ in three flags of OpenAPI 3.0: `nullable: true` lets `null` pass the types
and the values of its own schema, and a Boolean `exclusiveMinimum` or `exclusiveMaximum` that is `true`
makes the bound beside it strict. In Draft 7 the first means nothing, and the other two are bounds
themselves.

A schema without references is read by tying the test back to the reading
(`RequestGate.Schema.Valid`). The recursion goes into the schemas that are held by keywords
(`RequestGate.Schema.subschemas`), and it is the only one: what a keyword demands never depends on how
an engine goes about it.
-/

namespace RequestGate.Schema

/-! ### Parts of a schema -/

/-- The object under a keyword, empty if there is none. -/
def tableUnder (members : Entries Json) (keyword : String) : Entries Json :=
  ((Entries.get? members keyword).bind Json.obj?).getD []

/-- The array under a keyword, empty if there is none. -/
def listUnder (members : Entries Json) (keyword : String) : List Json :=
  ((Entries.get? members keyword).bind Json.arr?).getD []

/-- Whether a name has a schema of its own, under `properties` or by a pattern. -/
def Describes (members : Entries Json) (name : String) : Prop :=
  name ∈ Entries.keys (tableUnder members "properties") ∨
    ∃ e ∈ tableUnder members "patternProperties", ∃ pattern,
      Pattern.parse? e.1 = some pattern ∧ pattern.matchesIn name = true

/-- The schemas in the value of a keyword. A tuple of schemas counts as one too. -/
def heldUnder : Nesting → Json → List Json
  | .oneOrMany, .arr schemas => .arr schemas :: schemas
  | .oneOrMany, schema => [schema]
  | .many, .arr schemas => schemas
  | .table, .obj table => table.map Prod.snd
  | _, _ => []

/-- The schemas that the keywords of a schema hold. -/
def subschemas (members : Entries Json) : List Json :=
  members.flatMap fun (keyword, value) => heldUnder (nesting keyword) value

variable {members : Entries Json} {keyword : String} {s value : Json}

theorem mem_heldUnder {n : Nesting} (h : s ∈ heldUnder n value) : s = value ∨ s ∈ value.children := by
  cases n with
  | oneOrMany =>
    cases value with
    | arr schemas => exact List.mem_cons.mp h
    | _ => exact Or.inl (List.mem_singleton.mp h)
  | many =>
    cases value with
    | arr schemas => exact Or.inr h
    | _ => cases h
  | table =>
    cases value with
    | obj table => exact Or.inr h
    | _ => cases h
  | nothing => cases value <;> cases h

theorem exists_child_of_mem_subschemas (h : s ∈ subschemas members) :
    ∃ value ∈ (Json.obj members).children, s = value ∨ s ∈ value.children := by
  obtain ⟨⟨keyword, value⟩, he, hs⟩ := List.mem_flatMap.mp h
  exact ⟨value, List.mem_map_of_mem (f := Prod.snd) he, mem_heldUnder hs⟩

/-- **Recursion into schemas comes to an end.** -/
theorem size_lt_of_mem_subschemas (h : s ∈ subschemas members) : s.size < (Json.obj members).size := by
  obtain ⟨value, hvalue, rfl | hs⟩ := exists_child_of_mem_subschemas h
  · exact Json.size_lt_of_mem_children hvalue
  · exact (Json.size_lt_of_mem_children hs).trans (Json.size_lt_of_mem_children hvalue)

theorem wellFormed_of_mem_subschemas (hw : (Json.obj members).WellFormed)
    (h : s ∈ subschemas members) : s.WellFormed := by
  obtain ⟨value, hvalue, rfl | hs⟩ := exists_child_of_mem_subschemas h
  · exact hw.of_mem_children hvalue
  · exact (hw.of_mem_children hvalue).of_mem_children hs

theorem mem_subschemas_of_get? (h : Entries.get? members keyword = some value)
    (hs : s ∈ heldUnder (nesting keyword) value) : s ∈ subschemas members :=
  List.mem_flatMap.mpr ⟨_, Entries.mem_of_get? h, hs⟩

theorem mem_tableUnder {e : String × Json} :
    e ∈ tableUnder members keyword ↔
      ∃ table, Entries.get? members keyword = some (.obj table) ∧ e ∈ table := by
  rw [tableUnder]
  cases Entries.get? members keyword with
  | none => simp
  | some value => cases value <;> simp [Json.obj?]

theorem mem_listUnder :
    s ∈ listUnder members keyword ↔
      ∃ items, Entries.get? members keyword = some (.arr items) ∧ s ∈ items := by
  rw [listUnder]
  cases Entries.get? members keyword with
  | none => simp
  | some value => cases value <;> simp [Json.arr?]

theorem mem_subschemas_of_mem_table (hkeyword : nesting keyword = .table) {e : String × Json}
    (h : e ∈ tableUnder members keyword) : e.2 ∈ subschemas members := by
  obtain ⟨table, hget, hmem⟩ := mem_tableUnder.mp h
  refine mem_subschemas_of_get? hget ?_
  rw [hkeyword]
  exact List.mem_map_of_mem (f := Prod.snd) hmem

theorem mem_subschemas_of_mem_list (hkeyword : nesting keyword = .many)
    (h : s ∈ listUnder members keyword) : s ∈ subschemas members := by
  obtain ⟨schemas, hget, hmem⟩ := mem_listUnder.mp h
  refine mem_subschemas_of_get? hget ?_
  rw [hkeyword]
  exact hmem

theorem mem_subschemas_of_single (hkeyword : nesting keyword = .oneOrMany)
    (h : Entries.get? members keyword = some s) : s ∈ subschemas members := by
  refine mem_subschemas_of_get? h ?_
  rw [hkeyword]
  cases s <;> simp [heldUnder]

/-! ### Keywords -/

/-- The dialects of schemas. -/
inductive Dialect where
  | openApi
  | draft7
deriving DecidableEq

/-- Whether a flag of OpenAPI is set. -/
def Dialect.Flagged (d : Dialect) (members : Entries Json) (flag : String) : Prop :=
  d = .openApi ∧ Entries.get? members flag = some (.bool true)

/-- Whether one item of a list satisfies a condition, and no other does. -/
def ExactlyOne {α : Type*} (P : α → Prop) (items : List α) : Prop :=
  ∃ before a after, items = before ++ a :: after ∧ P a ∧ ∀ b ∈ before ++ after, ¬ P b

theorem exactlyOne_congr {α : Type*} {P Q : α → Prop} {items : List α}
    (h : ∀ a ∈ items, P a ↔ Q a) : ExactlyOne P items ↔ ExactlyOne Q items := by
  refine exists_congr fun before => exists_congr fun a => exists_congr fun after => ?_
  refine and_congr_right fun hsplit => and_congr (h a (by simp [hsplit])) ?_
  refine forall₂_congr fun b hb => not_congr (h b ?_)
  rcases List.mem_append.mp hb with hb | hb <;> simp [hsplit, hb]

theorem exactlyOne_map {α β : Type*} {P : β → Prop} {f : α → β} {items : List α} :
    ExactlyOne P (items.map f) ↔ ExactlyOne (fun a => P (f a)) items := by
  constructor
  · rintro ⟨before, b, after, hsplit, hb, hothers⟩
    obtain ⟨front, rest, rfl, rfl, hrest⟩ := List.map_eq_append_iff.mp hsplit
    obtain ⟨a, back, rfl, rfl, rfl⟩ := List.map_eq_cons_iff.mp hrest
    refine ⟨front, a, back, rfl, hb, ?_⟩
    intro c hc
    refine hothers (f c) ?_
    rw [← List.map_append]
    exact List.mem_map_of_mem hc
  · rintro ⟨before, a, after, rfl, ha, hothers⟩
    refine ⟨before.map f, f a, after.map f, by simp, ha, ?_⟩
    rw [← List.map_append]
    exact List.forall_mem_map.mpr fun c hc => hothers c hc

/-- What the keywords that hold no schemas demand of a value. -/
@[mk_iff]
structure ValueHolds (d : Dialect) (members : Entries Json) (value : Json) : Prop where
  type : ∀ types, Entries.get? members "type" = some types →
    (d.Flagged members "nullable" ∧ value = .null) ∨
      ∃ t ∈ Draft7.typeNames types, hasType value t = true
  enum : ∀ values, Entries.get? members "enum" = some values →
    (d.Flagged members "nullable" ∧ value = .null) ∨
      ∃ a ∈ listUnder members "enum", Draft7.equal value a = true
  minimum : ∀ bound, Entries.get? members "minimum" = some bound →
    Draft7.boundHolds Draft7.notLess bound value = true ∧
      (d.Flagged members "exclusiveMinimum" → Draft7.boundHolds (· == .gt) bound value = true)
  exclusiveMinimum : d = .draft7 → ∀ bound, Entries.get? members "exclusiveMinimum" = some bound →
    Draft7.boundHolds (· == .gt) bound value = true
  maximum : ∀ bound, Entries.get? members "maximum" = some bound →
    Draft7.boundHolds Draft7.notGreater bound value = true ∧
      (d.Flagged members "exclusiveMaximum" → Draft7.boundHolds (· == .lt) bound value = true)
  exclusiveMaximum : d = .draft7 → ∀ bound, Entries.get? members "exclusiveMaximum" = some bound →
    Draft7.boundHolds (· == .lt) bound value = true
  required : ∀ name, .str name ∈ listUnder members "required" → ∀ own, value = .obj own →
    name ∈ Entries.keys own

/-- What the keywords that go by name demand of the members of an object. -/
@[mk_iff]
structure MembersHold (test : Json → Json → Prop) (members : Entries Json) (value : Json) : Prop where
  properties : ∀ name s a, Entries.get? (tableUnder members "properties") name = some s →
    value.get? name = some a → test s a
  patternProperties : ∀ e ∈ tableUnder members "patternProperties", ∀ pattern,
    Pattern.parse? e.1 = some pattern → ∀ name a, value.get? name = some a →
      pattern.matchesIn name = true → test e.2 a
  additionalProperties : ∀ s, Entries.get? members "additionalProperties" = some s →
    ∀ name a, value.get? name = some a → ¬ Describes members name → test s a

/-- What the keywords for items demand of a value, and those that combine schemas. -/
@[mk_iff]
structure PartsHold (test : Json → Json → Prop) (members : Entries Json) (value : Json) : Prop where
  /-- One schema for all items. -/
  items : ∀ s, Entries.get? members "items" = some s → s.isArr = false →
    ∀ own, value = .arr own → ∀ a ∈ own, test s a
  /-- A schema for each of the first items. -/
  tuple : ∀ schemas, Entries.get? members "items" = some (.arr schemas) →
    ∀ own, value = .arr own → ∀ p ∈ own.zip schemas, test p.2 p.1
  allOf : ∀ s ∈ listUnder members "allOf", test s value
  anyOf : ∀ schemas, Entries.get? members "anyOf" = some schemas →
    ∃ s ∈ listUnder members "anyOf", test s value
  oneOf : ∀ schemas, Entries.get? members "oneOf" = some schemas →
    ExactlyOne (fun s => test s value) (listUnder members "oneOf")
  not : ∀ s, Entries.get? members "not" = some s → ¬ test s value

/-- What the keywords of a schema demand of a value. -/
@[mk_iff]
structure KeywordsHold (d : Dialect) (test : Json → Json → Prop) (members : Entries Json)
    (value : Json) : Prop extends
  ValueHolds d members value, MembersHold test members value, PartsHold test members value

/-! ### Tests that agree -/

/-- The schemas that a schema holds its own value to. -/
def combined (members : Entries Json) : List Json :=
  listUnder members "allOf" ++ listUnder members "anyOf" ++ listUnder members "oneOf" ++
    (Entries.get? members "not").toList

theorem mem_subschemas_of_mem_combined (h : s ∈ combined members) : s ∈ subschemas members := by
  simp only [combined, List.mem_append, Option.mem_toList] at h
  rcases h with ((h | h) | h) | h
  · exact mem_subschemas_of_mem_list rfl h
  · exact mem_subschemas_of_mem_list rfl h
  · exact mem_subschemas_of_mem_list rfl h
  · exact mem_subschemas_of_single rfl h

/-- Whether two tests agree on all that the keywords of a schema ask of a value. -/
structure Agree (test other : Json → Json → Prop) (members : Entries Json) (value : Json) : Prop where
  here : ∀ s ∈ combined members, test s value ↔ other s value
  inside : ∀ s ∈ subschemas members, ∀ a ∈ value.children, test s a ↔ other s a

variable {d : Dialect} {test other : Json → Json → Prop}

theorem Agree.symm (h : Agree test other members value) : Agree other test members value :=
  ⟨fun s hs => (h.here s hs).symm, fun s hs a ha => (h.inside s hs a ha).symm⟩

theorem Agree.membersHold (h : Agree test other members value)
    (hold : MembersHold test members value) : MembersHold other members value where
  properties name s a hs ha :=
    (h.inside s (mem_subschemas_of_mem_table rfl (Entries.mem_of_get? hs)) a
      (Json.mem_children_of_get? ha)).mp (hold.properties name s a hs ha)
  patternProperties e he pattern hp name a ha hm :=
    (h.inside e.2 (mem_subschemas_of_mem_table rfl he) a (Json.mem_children_of_get? ha)).mp
      (hold.patternProperties e he pattern hp name a ha hm)
  additionalProperties s hs name a ha hn :=
    (h.inside s (mem_subschemas_of_single rfl hs) a (Json.mem_children_of_get? ha)).mp
      (hold.additionalProperties s hs name a ha hn)

theorem Agree.partsHold (h : Agree test other members value)
    (hold : PartsHold test members value) : PartsHold other members value where
  items s hs harr own hown a ha :=
    (h.inside s (mem_subschemas_of_single rfl hs) a (hown ▸ ha)).mp
      (hold.items s hs harr own hown a ha)
  tuple schemas hs own hown p hp :=
    have hsub : p.2 ∈ subschemas members := mem_subschemas_of_get? hs
      (List.mem_cons_of_mem _ (List.of_mem_zip hp).2)
    (h.inside p.2 hsub p.1 (hown ▸ (List.of_mem_zip hp).1)).mp (hold.tuple schemas hs own hown p hp)
  allOf s hs := (h.here s (by simp [combined, hs])).mp (hold.allOf s hs)
  anyOf schemas hget :=
    have ⟨s, hs, ht⟩ := hold.anyOf schemas hget
    ⟨s, hs, (h.here s (by simp [combined, hs])).mp ht⟩
  oneOf schemas hget :=
    (exactlyOne_congr fun s hs => h.here s (by simp [combined, hs])).mp (hold.oneOf schemas hget)
  not s hs hother := hold.not s hs ((h.here s (by simp [combined, hs])).mpr hother)

theorem Agree.keywordsHold (h : Agree test other members value)
    (hold : KeywordsHold d test members value) : KeywordsHold d other members value where
  toValueHolds := hold.toValueHolds
  toMembersHold := h.membersHold hold.toMembersHold
  toPartsHold := h.partsHold hold.toPartsHold

/-- **What keywords demand depends on the verdicts about the schemas they hold alone.** -/
theorem keywordsHold_congr (h : Agree test other members value) :
    KeywordsHold d test members value ↔ KeywordsHold d other members value :=
  ⟨h.keywordsHold, h.symm.keywordsHold⟩

/-! ### Which schema a part is held to -/

/-- Whether a schema holds a member of a value to another schema. -/
inductive HoldsMember (name : String) : (schema part : Json) → Prop where
  | property {members : Entries Json} {part : Json} (href : reference? (.obj members) = none)
      (hget : Entries.get? (tableUnder members "properties") name = some part) :
      HoldsMember name (.obj members) part
  | pattern {members : Entries Json} {e : String × Json} {pattern : Pattern}
      (href : reference? (.obj members) = none) (he : e ∈ tableUnder members "patternProperties")
      (hpattern : Pattern.parse? e.1 = some pattern) (hmatch : pattern.matchesIn name = true) :
      HoldsMember name (.obj members) e.2
  | additional {members : Entries Json} {part : Json} (href : reference? (.obj members) = none)
      (hget : Entries.get? members "additionalProperties" = some part)
      (hnot : ¬ Describes members name) : HoldsMember name (.obj members) part

/-- Whether a schema holds the items of a value to another schema. -/
inductive HoldsItems : (schema part : Json) → Prop where
  | intro {members : Entries Json} {part : Json} (href : reference? (.obj members) = none)
      (hget : Entries.get? members "items" = some part) (harr : part.isArr = false) :
      HoldsItems (.obj members) part

theorem HoldsMember.exists_members {schema part : Json} {name : String}
    (h : HoldsMember name schema part) :
    ∃ members, schema = .obj members ∧ reference? (.obj members) = none := by
  cases h with
  | property href => exact ⟨_, rfl, href⟩
  | pattern href => exact ⟨_, rfl, href⟩
  | additional href => exact ⟨_, rfl, href⟩

theorem HoldsItems.exists_members {schema part : Json} (h : HoldsItems schema part) :
    ∃ members, schema = .obj members ∧ reference? (.obj members) = none := by
  cases h with
  | intro href => exact ⟨_, rfl, href⟩

theorem HoldsMember.mem_subschemas {name : String} {part : Json}
    (h : HoldsMember name (.obj members) part) : part ∈ subschemas members := by
  cases h with
  | property _ hget => exact mem_subschemas_of_mem_table rfl (Entries.mem_of_get? hget)
  | pattern _ he => exact mem_subschemas_of_mem_table rfl he
  | additional _ hget => exact mem_subschemas_of_single rfl hget

theorem HoldsItems.mem_subschemas {part : Json} (h : HoldsItems (.obj members) part) :
    part ∈ subschemas members := by
  cases h with
  | intro _ hget => exact mem_subschemas_of_single rfl hget

/-- **The three keywords that go by name** ask of each member what it is held to. -/
theorem membersHold_iff_holdsMember (href : reference? (.obj members) = none) :
    MembersHold test members value ↔
      ∀ name a, value.get? name = some a → ∀ part, HoldsMember name (.obj members) part →
        test part a := by
  constructor
  · rintro hold name a ha part (⟨-, hget⟩ | ⟨-, he, hpattern, hmatch⟩ | ⟨-, hget, hnot⟩)
    · exact hold.properties name part a hget ha
    · exact hold.patternProperties _ he _ hpattern name a ha hmatch
    · exact hold.additionalProperties part hget name a ha hnot
  · intro h
    exact ⟨fun name s a hget ha => h name a ha s (.property href hget),
      fun e he pattern hpattern name a ha hmatch =>
        h name a ha e.2 (.pattern href he hpattern hmatch),
      fun s hget name a ha hnot => h name a ha s (.additional href hget hnot)⟩

/-! ### Schemas -/

/-- **The reading of a schema**: whether a value is valid. What is neither an object nor a Boolean is
no schema, and demands nothing. -/
def Valid (d : Dialect) : (schema value : Json) → Prop
  | .bool allowed, _ => allowed = true
  | .obj members, value =>
    KeywordsHold d (fun s a => ∃ _ : s ∈ subschemas members, Valid d s a) members value
  | _, _ => True
termination_by schema => schema.size
decreasing_by exact size_lt_of_mem_subschemas ‹_›

/-- A value is valid if the keywords hold, with further schemas read in the same way. -/
theorem valid_obj_iff : Valid d (.obj members) value ↔ KeywordsHold d (Valid d) members value := by
  rw [Valid]
  have hagree : ∀ s ∈ subschemas members, ∀ a,
      (∃ _ : s ∈ subschemas members, Valid d s a) ↔ Valid d s a :=
    fun s hs a => exists_prop_of_true hs
  exact keywordsHold_congr
    ⟨fun s hs => hagree s (mem_subschemas_of_mem_combined hs) value, fun s hs a _ => hagree s hs a⟩

@[simp] theorem valid_bool_iff {allowed : Bool} :
    Valid d (.bool allowed) value ↔ allowed = true := by
  rw [Valid]

/-- What is no schema is satisfied by everything. -/
theorem valid_leaf_iff {schema : Json} (hobj : schema.isObj = false) :
    Valid d schema value ↔ schema ≠ .bool false := by
  cases schema with
  | obj members => cases hobj
  | bool allowed => simp
  | _ => simp [Valid]

/-! ### Schemas without references -/

/-- The keywords that the reading knows in both dialects. -/
def sharedKeywords : List String :=
  ["type", "enum", "minimum", "maximum", "exclusiveMinimum", "exclusiveMaximum", "required",
    "properties", "patternProperties", "additionalProperties", "items", "allOf", "anyOf", "oneOf",
    "not"]

/-- The keywords that the reading knows. -/
def Dialect.keywords : Dialect → List String
  | .openApi => "nullable" :: sharedKeywords
  | .draft7 => sharedKeywords

/-- The form that OpenAPI wants some keywords in. -/
structure InForm (members : Entries Json) : Prop where
  type : ∀ types, Entries.get? members "type" = some types →
    (∃ t, types = .str t) ∨ ∃ ts, types = .arr ts
  enum : ∀ values, Entries.get? members "enum" = some values → ∃ items, values = .arr items
  flags : ∀ flag ∈ ["exclusiveMinimum", "exclusiveMaximum"], ∀ v,
    Entries.get? members flag = some v → ∃ b, v = .bool b

/-- A schema is plain if it is built of the keywords of a dialect. -/
inductive Plain (d : Dialect) : Json → Prop where
  | leaf {schema : Json} (h : schema.isObj = false) : Plain d schema
  | obj {members : Entries Json} (keywords : ∀ k ∈ Entries.keys members, k ∈ d.keywords)
      (form : d = .openApi → InForm members) (parts : ∀ s ∈ subschemas members, Plain d s) :
      Plain d (.obj members)

end RequestGate.Schema
