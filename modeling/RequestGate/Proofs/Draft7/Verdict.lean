import RequestGate.Proofs.Schema.Meaning

/-!
# Verdicts of the engine

The engine lists violations in an order and with places, because a refusal is worded from them. For
the question whether there are any, neither matters: the verdict on a schema and a value is the same
wherever a check stands (`RequestGate.Draft7.sameVerdicts_violations`), and it is what the keywords of
the schema demand (`RequestGate.Draft7.keywordsHold_iff`). The one place where this is not plain to see
is that `additionalProperties`, unless it lets everything through, takes the checking of all members out
of the hands of the keywords `properties` and `patternProperties`
(`RequestGate.Draft7.membersHold_iff`).

A check is bounded by a number of steps. For a schema without references as many are enough as it has
parts, and then the engine finds no violation exactly if the value is valid
(`RequestGate.Draft7.accepts_iff_valid`).
-/

namespace RequestGate.Draft7

open Schema

variable {formats : Formats} {root : Json} {n : Nat} {check other : Check} {place p q : Place}
  {siblings own members : Entries Json} {s value : Json} {keyword : String}

@[simp] theorem Place.demand_eq_nil_iff {condition : Bool} {detail : Detail} :
    place.demand condition detail = [] ↔ condition = true := by
  cases condition <;> simp [Place.demand]

/-! ### Verdicts do not depend on the place -/

/-- Whether two checks come to the same verdicts, wherever they stand. -/
def SameVerdicts (check other : Check) : Prop :=
  ∀ s p q value, check s p value = [] ↔ other s q value = []

theorem requiredViolations_congr :
    requiredViolations p s members = [] ↔ requiredViolations q s members = [] := by
  cases s <;> simp [requiredViolations, List.flatMap_eq_nil_iff]

theorem contentViolations_congr {text : String} :
    contentViolations p siblings keyword text = [] ↔
      contentViolations q siblings keyword text = [] := by
  simp only [contentViolations]
  split
  · split
    · split <;> simp
    · rfl
  · split
    · simp
    · rfl
  · split
    · split <;> simp
    · rfl
  · rfl

section Congruence

variable (h : SameVerdicts check other)

include h

theorem accepts_congr : accepts check = accepts other := by
  funext s value
  rw [accepts, accepts, Bool.eq_iff_iff, List.isEmpty_iff, List.isEmpty_iff]
  exact h s _ _ value

theorem propertyViolations_congr :
    propertyViolations check p siblings members = [] ↔
      propertyViolations other q siblings members = [] := by
  simp only [propertyViolations, List.flatMap_eq_nil_iff]
  refine forall₂_congr fun e _ => ?_
  cases Entries.get? members e.1 with
  | none => rfl
  | some a => exact h _ _ _ _

theorem patternViolations_congr :
    patternViolations check p siblings members = [] ↔
      patternViolations other q siblings members = [] := by
  simp only [patternViolations, List.flatMap_eq_nil_iff]
  refine forall₂_congr fun e _ => forall₂_congr fun m _ => ?_
  split
  · exact h _ _ _ _
  · rfl

theorem additionalViolations_congr :
    additionalViolations check p siblings s members = [] ↔
      additionalViolations other q siblings s members = [] := by
  simp only [additionalViolations]
  split
  · rfl
  · split
    · cases members <;> simp
    · simp only [List.append_eq_nil_iff, List.flatMap_eq_nil_iff, Place.demand_eq_nil_iff]
      refine and_congr_left' (forall₂_congr fun m _ => and_congr (and_congr ?_ ?_) ?_)
      · split
        · exact h _ _ _ _
        · rfl
      · exact forall₂_congr fun _ _ => h _ _ _ _
      · split
        · rfl
        · exact h _ _ _ _

theorem dependencyViolations_congr :
    dependencyViolations check p siblings members = [] ↔
      dependencyViolations other q siblings members = [] := by
  simp only [dependencyViolations, List.flatMap_eq_nil_iff]
  refine forall₂_congr fun e _ => ?_
  split
  · split
    · exact requiredViolations_congr
    · exact h _ _ _ _
  · rfl

theorem nameViolations_congr :
    nameViolations check p s members = [] ↔ nameViolations other q s members = [] := by
  simp only [nameViolations]
  split
  · rfl
  · simp
  · simp only [List.flatMap_eq_nil_iff]
    exact forall₂_congr fun _ _ => h _ _ _ _

theorem itemViolations_congr {start : Nat} {items : List Json} :
    itemViolations check p s start items = [] ↔ itemViolations other q s start items = [] := by
  simp only [itemViolations, List.flatMap_eq_nil_iff]
  exact forall₂_congr fun _ _ => h _ _ _ _

theorem itemsViolations_congr {items : List Json} :
    itemsViolations check p s items = [] ↔ itemsViolations other q s items = [] := by
  simp only [itemsViolations]
  split
  · simp only [List.flatMap_eq_nil_iff]
    exact forall₂_congr fun _ _ => h _ _ _ _
  · rfl
  · exact itemViolations_congr h

theorem extraItemViolations_congr {items : List Json} :
    extraItemViolations check p siblings s items = [] ↔
      extraItemViolations other q siblings s items = [] := by
  simp only [extraItemViolations]
  split
  · split
    · simp
    · exact itemViolations_congr h
    · rfl
  · rfl

theorem conditionalViolations_congr :
    conditionalViolations check p siblings s value = [] ↔
      conditionalViolations other q siblings s value = [] := by
  simp only [conditionalViolations, accepts_congr h]
  split <;> split <;> first | exact h _ _ _ _ | rfl

/-- **The verdict on a keyword** rests on the verdicts about further schemas alone. -/
theorem keywordViolations_congr {demand : Json} :
    keywordViolations formats check siblings p value keyword demand = [] ↔
      keywordViolations formats other siblings q value keyword demand = [] := by
  unfold keywordViolations
  split <;> try simp only [Place.demand_eq_nil_iff, accepts_congr h]
  -- what is left holds further schemas, or looks at its siblings
  · cases demand <;> simp
  · exact contentViolations_congr
  · exact contentViolations_congr
  · exact itemsViolations_congr h
  · exact extraItemViolations_congr h
  · exact requiredViolations_congr
  · split
    · rfl
    · exact propertyViolations_congr h
  · split
    · rfl
    · exact patternViolations_congr h
  · exact additionalViolations_congr h
  · exact dependencyViolations_congr h
  · exact nameViolations_congr h
  · simp only [List.flatMap_eq_nil_iff]
    exact forall₂_congr fun _ _ => h _ _ _ _
  · exact conditionalViolations_congr h

end Congruence

/-- **Verdicts do not depend on where a check stands.** -/
theorem sameVerdicts_violations (formats : Formats) (root : Json) (n : Nat) :
    SameVerdicts (violations formats root n) (violations formats root n) := by
  induction n with
  | zero => exact fun _ _ _ _ => Iff.rfl
  | succ n ih =>
    intro s p q value
    simp only [violations]
    split
    · rfl
    · simp
    · split
      · split
        · exact ih _ _ _ _
        · rfl
      · simp only [List.flatMap_eq_nil_iff]
        exact forall₂_congr fun _ _ => keywordViolations_congr ih
    · rfl

/-- Whether the engine has nothing against a value within a number of steps. -/
def Accepts (formats : Formats) (root : Json) (n : Nat) (s value : Json) : Prop :=
  violations formats root n s Place.root value = []

theorem violations_eq_nil_iff :
    violations formats root n s place value = [] ↔ Accepts formats root n s value :=
  sameVerdicts_violations formats root n s place Place.root value

/-! ### Objects -/

/-- Whether a check comes to the verdicts of a test. -/
structure Decides (check : Check) (test : Json → Json → Prop) : Prop where
  check_iff : ∀ s p a, check s p a = [] ↔ test s a
  /-- What is no schema is satisfied by everything, and so is `true`. -/
  leaf_iff : ∀ s a, s.isObj = false → (test s a ↔ s ≠ .bool false)

variable {test : Json → Json → Prop}

theorem get?_tableUnder (members : Entries Json) (keyword name : String) :
    Entries.get? (tableUnder members keyword) name =
      ((Entries.get? members keyword).bind Json.obj?).bind fun table => Entries.get? table name := by
  rw [tableUnder]
  cases (Entries.get? members keyword).bind Json.obj? <;> rfl

theorem mem_patternsOf {e : String × Pattern × Json} :
    e ∈ patternsOf members ↔
      (e.1, e.2.2) ∈ tableUnder members "patternProperties" ∧ Pattern.parse? e.1 = some e.2.1 := by
  obtain ⟨text, pattern, s⟩ := e
  rw [patternsOf, tableUnder]
  cases hget : Entries.get? members "patternProperties" with
  | none => simp
  | some table =>
    cases table with
    | obj table =>
      simp only [List.mem_filterMap, Option.map_eq_some_iff, Prod.mk.injEq, Prod.exists,
        Option.bind_some, Json.obj?, Option.getD_some]
      constructor
      · rintro ⟨_, _, hmem, _, hparse, rfl, rfl, rfl⟩
        exact ⟨hmem, hparse⟩
      · rintro ⟨hmem, hparse⟩
        exact ⟨text, s, hmem, pattern, hparse, rfl, rfl, rfl⟩
    | _ => simp [Json.obj?]

/-- The names that the engine knows are those that the schema describes. -/
theorem known_iff {name : String} :
    (((Entries.get? members "properties").bind Json.obj?).any
        (fun table => Entries.contains table name) ||
      !((patternsOf members).filter fun e => e.2.1.matchesIn name).isEmpty) = true ↔
      Describes members name := by
  rw [Bool.or_eq_true, Describes]
  refine or_congr ?_ ?_
  · rw [tableUnder, ← Entries.contains_iff]
    cases (Entries.get? members "properties").bind Json.obj? <;> simp [Entries.contains]
  · rw [Bool.not_eq_true', ← Bool.not_eq_true, List.isEmpty_iff, List.filter_eq_nil_iff]
    push Not
    constructor
    · rintro ⟨e, he, hmatch⟩
      obtain ⟨hmem, hparse⟩ := mem_patternsOf.mp he
      exact ⟨_, hmem, e.2.1, hparse, hmatch⟩
    · rintro ⟨e, he, pattern, hparse, hmatch⟩
      exact ⟨(e.1, pattern, e.2), mem_patternsOf.mpr ⟨he, hparse⟩, hmatch⟩

theorem propertyViolations_eq_nil_iff (h : Decides check test) {table : Entries Json}
    (hd : Entries.Distinct table) :
    propertyViolations check place table own = [] ↔
      ∀ name s a, Entries.get? table name = some s → Entries.get? own name = some a → test s a := by
  rw [propertyViolations, List.flatMap_eq_nil_iff]
  constructor
  · intro hall name s a hs ha
    have hentry := hall (name, s) (Entries.mem_of_get? hs)
    simp only [ha] at hentry
    exact (h.check_iff _ _ _).mp hentry
  · rintro hall ⟨name, s⟩ he
    cases ha : Entries.get? own name with
    | none => simp [ha]
    | some a =>
      simp only [ha]
      exact (h.check_iff _ _ _).mpr (hall name s a (Entries.get?_of_mem hd he) ha)

theorem patternViolations_eq_nil_iff (h : Decides check test) (hd : Entries.Distinct own) :
    patternViolations check place members own = [] ↔
      ∀ e ∈ tableUnder members "patternProperties", ∀ pattern, Pattern.parse? e.1 = some pattern →
        ∀ name a, Entries.get? own name = some a → pattern.matchesIn name = true → test e.2 a := by
  rw [patternViolations]
  simp only [List.flatMap_eq_nil_iff]
  constructor
  · intro hall e he pattern hparse name a ha hmatch
    have hentry := hall (e.1, pattern, e.2) (mem_patternsOf.mpr ⟨he, hparse⟩) (name, a)
      (Entries.mem_of_get? ha)
    rw [if_pos hmatch] at hentry
    exact (h.check_iff _ _ _).mp hentry
  · intro hall e he m hm
    obtain ⟨hmem, hparse⟩ := mem_patternsOf.mp he
    split
    · rename_i hmatch
      exact (h.check_iff _ _ _).mpr (hall _ hmem _ hparse m.1 m.2 (Entries.get?_of_mem hd hm) hmatch)
    · rfl

/-- **Member by member**: the schema of the property, those of the patterns that match, and for what is
not described the one of additional members. -/
theorem additionalViolations_eq_nil_iff (h : Decides check test) {extra : Json}
    (hextra : extra ≠ .bool true) :
    additionalViolations check place members extra own = [] ↔
      ∀ m ∈ own,
        (∀ s, Entries.get? (tableUnder members "properties") m.1 = some s → test s m.2) ∧
        (∀ e ∈ patternsOf members, e.2.1.matchesIn m.1 = true → test e.2.2 m.2) ∧
        (¬ Describes members m.1 → test extra m.2) := by
  have hnever : extra = .bool false → ∀ a, ¬ test extra a := fun hfalse a ht =>
    (h.leaf_iff extra a (by rw [hfalse]; rfl)).mp ht hfalse
  simp only [additionalViolations, if_neg hextra]
  split
  · -- nothing is described and nothing is allowed
    rename_i hclosed
    simp only [Bool.and_eq_true, decide_eq_true_eq, Option.isNone_iff_eq_none,
      Bool.not_eq_true', Entries.contains, Option.isSome_eq_false_iff] at hclosed
    obtain ⟨hfalse, hproperties, hpatterns⟩ := hclosed
    have hnothing : ∀ name, ¬ Describes members name := by
      intro name
      simp [Describes, tableUnder, hproperties, hpatterns]
    cases own with
    | nil => simp
    | cons m own =>
      simp only [List.mem_cons, reduceCtorEq, false_iff, not_forall]
      exact ⟨m, Or.inl rfl, fun hm => hnever hfalse _ (hm.2.2 (hnothing m.1))⟩
  · simp only [List.append_eq_nil_iff, List.flatMap_eq_nil_iff, Place.demand_eq_nil_iff,
      ← get?_tableUnder, List.mem_filter, and_imp, forall_and, h.check_iff]
    rw [and_assoc, and_assoc]
    refine and_congr (forall₂_congr fun m _ => ?_) (and_congr Iff.rfl ?_)
    · cases Entries.get? (tableUnder members "properties") m.1 with
      | none => simp
      | some s => simp [h.check_iff]
    by_cases hfalse : extra = .bool false
    · -- what is not described is listed as unexpected
      have hkeys : (∀ m ∈ own, Describes members m.1) ↔ ∀ k ∈ Entries.keys own, Describes members k := by
        simp [Entries.keys]
      simp only [hfalse, decide_true, Bool.or_true, if_true, List.isEmpty_iff,
        List.filter_eq_nil_iff, Bool.not_eq_true', Bool.not_eq_false, known_iff, implies_true,
        true_and, ← hkeys]
      refine forall₂_congr fun m _ => ⟨fun hm hnot => absurd hm hnot, fun hm => ?_⟩
      exact not_not.mp fun hnot => hnever hfalse _ (hfalse ▸ hm hnot)
    · -- what is not described is checked
      simp only [decide_eq_false hfalse, Bool.or_false, if_neg hfalse, List.isEmpty_nil, and_true,
        known_iff]
      refine forall₂_congr fun m _ => ?_
      split
      · rename_i hknown
        rw [decide_eq_false hfalse, Bool.or_false, known_iff] at hknown
        exact ⟨fun _ hnot => absurd hknown hnot, fun _ => rfl⟩
      · rename_i hunknown
        rw [decide_eq_false hfalse, Bool.or_false, known_iff] at hunknown
        rw [h.check_iff]
        exact ⟨fun ht _ => ht, fun hm => hm hunknown⟩

theorem exactlyOne_iff {α : Type} {f : α → Bool} {items : List α} :
    exactlyOne f items = true ↔ ExactlyOne (fun a => f a = true) items := by
  rw [exactlyOne, beq_iff_eq, List.length_eq_one_iff]
  simp only [List.filter_eq_cons_iff, List.filter_eq_nil_iff]
  constructor
  · rintro ⟨a, before, after, hsplit, hbefore, ha, hafter⟩
    exact ⟨before, a, after, hsplit, ha, List.forall_mem_append.mpr ⟨hbefore, hafter⟩⟩
  · rintro ⟨before, a, after, hsplit, ha, hothers⟩
    obtain ⟨hbefore, hafter⟩ := List.forall_mem_append.mp hothers
    exact ⟨a, before, after, hsplit, hbefore, ha, hafter⟩

theorem accepts_iff (h : Decides check test) : accepts check s value = true ↔ test s value := by
  rw [accepts, List.isEmpty_iff, h.check_iff]

theorem additionalTakesOver_iff :
    additionalTakesOver members = true ↔
      ∃ extra, Entries.get? members "additionalProperties" = some extra ∧
        (extra = .bool false ∨ extra.isObj = true) := by
  rw [additionalTakesOver]
  cases Entries.get? members "additionalProperties" with
  | none => simp
  | some extra =>
    cases extra with
    | bool allowed => cases allowed <;> simp [Json.isObj]
    | _ => simp [Json.isObj]

theorem additionalViolations_of_membersHold (h : Decides check test)
    (hown : Entries.Distinct own) (hold : MembersHold test members (.obj own)) {extra : Json}
    (hget : Entries.get? members "additionalProperties" = some extra) :
    additionalViolations check place members extra own = [] := by
  by_cases hextra : extra = .bool true
  · simp [additionalViolations, hextra]
  · refine (additionalViolations_eq_nil_iff h hextra).mpr fun m hm => ?_
    have ha : (Json.obj own).get? m.1 = some m.2 := Entries.get?_of_mem hown hm
    refine ⟨fun s hs => hold.properties m.1 s m.2 hs ha, fun e he hmatch => ?_,
      hold.additionalProperties extra hget m.1 m.2 ha⟩
    obtain ⟨hmem, hparse⟩ := mem_patternsOf.mp he
    exact hold.patternProperties _ hmem e.2.1 hparse m.1 m.2 ha hmatch

theorem membersHold_of_additionalViolations (h : Decides check test) {extra : Json}
    (hget : Entries.get? members "additionalProperties" = some extra) (hextra : extra ≠ .bool true)
    (hnil : additionalViolations check place members extra own = []) :
    MembersHold test members (.obj own) := by
  have hall := (additionalViolations_eq_nil_iff h hextra).mp hnil
  refine ⟨fun name s a hs ha => ?_, fun e he pattern hparse name a ha hmatch => ?_,
    fun s hs name a ha hnot => ?_⟩
  · exact (hall (name, a) (Entries.mem_of_get? ha)).1 s hs
  · exact (hall (name, a) (Entries.mem_of_get? ha)).2.1 (e.1, pattern, e.2)
      (mem_patternsOf.mpr ⟨he, hparse⟩) hmatch
  · obtain rfl := Option.some.inj (hget.symm.trans hs)
    exact (hall (name, a) (Entries.mem_of_get? ha)).2.2 hnot

theorem keywordViolations_properties (demand : Json) :
    keywordViolations formats check members place (.obj own) "properties" demand =
      if additionalTakesOver members then []
      else propertyViolations check (place.under "properties") ((demand.obj?).getD []) own := rfl

theorem keywordViolations_patternProperties (demand : Json) :
    keywordViolations formats check members place (.obj own) "patternProperties" demand =
      if additionalTakesOver members then []
      else patternViolations check (place.under "patternProperties") members own := rfl

theorem keywordViolations_additionalProperties (demand : Json) :
    keywordViolations formats check members place (.obj own) "additionalProperties" demand =
      additionalViolations check place members demand own := rfl

/-- **The three keywords that go by name**, whichever of them does the checking. -/
theorem membersHold_iff (h : Decides check test)
    (htable : Entries.Distinct (tableUnder members "properties")) (hown : Entries.Distinct own) :
    (∀ keyword ∈ ["properties", "patternProperties", "additionalProperties"],
        ∀ demand, Entries.get? members keyword = some demand →
          keywordViolations formats check members place (.obj own) keyword demand = []) ↔
      MembersHold test members (.obj own) := by
  simp only [List.mem_cons, List.not_mem_nil, or_false, forall_eq_or_imp, forall_eq,
    keywordViolations_properties, keywordViolations_patternProperties,
    keywordViolations_additionalProperties]
  by_cases htakes : additionalTakesOver members = true
  · obtain ⟨extra, hget, hkind⟩ := additionalTakesOver_iff.mp htakes
    have hextra : extra ≠ .bool true := by
      rintro rfl
      simp [Json.isObj] at hkind
    simp only [htakes, if_true, implies_true, true_and, hget, Option.some.injEq, forall_eq']
    exact ⟨membersHold_of_additionalViolations h hget hextra,
      fun hold => additionalViolations_of_membersHold h hown hold hget⟩
  · -- additional members are let through, so the other two keywords check for themselves
    simp only [htakes, Bool.false_eq_true, if_false]
    have hproperties : (∀ demand, Entries.get? members "properties" = some demand →
        propertyViolations check (place.under "properties") ((demand.obj?).getD []) own = []) ↔
          propertyViolations check (place.under "properties") (tableUnder members "properties") own =
            [] := by
      rw [tableUnder]
      cases Entries.get? members "properties" <;> simp [propertyViolations]
    have hpatterns : (∀ demand, Entries.get? members "patternProperties" = some demand →
        patternViolations check (place.under "patternProperties") members own = []) ↔
          patternViolations check (place.under "patternProperties") members own = [] := by
      cases hget : Entries.get? members "patternProperties" <;>
        simp [patternViolations, patternsOf, hget]
    rw [hproperties, hpatterns, propertyViolations_eq_nil_iff h htable,
      patternViolations_eq_nil_iff h hown]
    constructor
    · rintro ⟨hp, hq, -⟩
      refine ⟨hp, hq, fun extra hget _ a _ _ => (h.leaf_iff extra a ?_).mpr ?_⟩
      · exact Bool.eq_false_iff.mpr fun hobj =>
          htakes (additionalTakesOver_iff.mpr ⟨extra, hget, Or.inr hobj⟩)
      · exact fun hfalse => htakes (additionalTakesOver_iff.mpr ⟨extra, hget, Or.inl hfalse⟩)
    · exact fun hold => ⟨hold.properties, hold.patternProperties,
        fun extra hget => additionalViolations_of_membersHold h hown hold hget⟩

/-! ### One keyword -/

theorem requiredViolations_eq_nil_iff {names : Json} :
    requiredViolations place names own = [] ↔
      ∀ name, .str name ∈ (names.arr?).getD [] → name ∈ Entries.keys own := by
  cases names with
  | arr names =>
    simp only [requiredViolations, List.flatMap_eq_nil_iff, Place.demand_eq_nil_iff,
      Entries.contains_iff, List.mem_filterMap, Json.arr?, Option.getD_some]
    constructor
    · exact fun hall name hname => hall name ⟨_, hname, rfl⟩
    · rintro hall name ⟨a, ha, hstr⟩
      cases a <;> simp only [Json.str?, reduceCtorEq, Option.some.injEq] at hstr
      exact hall name (hstr ▸ ha)
  | _ => simp [requiredViolations, Json.arr?]

theorem forall_mem_zipIdx {α : Type} {P : α → Prop} {items : List α} {start : Nat} :
    (∀ e ∈ items.zipIdx start, P e.1) ↔ ∀ a ∈ items, P a := by
  conv_rhs => rw [← List.zipIdx_map_fst start items]
  exact List.forall_mem_map.symm

theorem itemsViolations_eq_nil_iff (h : Decides check test) {items : List Json} :
    itemsViolations check place s items = [] ↔
      (s.isArr = false → ∀ a ∈ items, test s a) ∧
        ∀ schemas, s = .arr schemas → ∀ p ∈ items.zip schemas, test p.2 p.1 := by
  have hall : ∀ start, itemViolations check place s start items = [] ↔ ∀ a ∈ items, test s a := by
    intro start
    simp only [itemViolations, List.flatMap_eq_nil_iff, h.check_iff]
    exact forall_mem_zipIdx
  cases s with
  | arr schemas =>
    simp only [itemsViolations, List.flatMap_eq_nil_iff, h.check_iff, Json.isArr, Bool.true_eq_false,
      false_implies, Json.arr.injEq, forall_eq', true_and]
    exact forall_mem_zipIdx (P := fun p : Json × Json => test p.2 p.1)
  | bool allowed =>
    cases allowed with
    | false => simp [itemsViolations, hall, Json.isArr]
    | true =>
      have htrue : ∀ a, test (.bool true) a := fun a => (h.leaf_iff _ a rfl).mpr (by simp)
      simp [itemsViolations, Json.isArr, htrue]
  | _ => simp [itemsViolations, hall, Json.isArr]

section Keyword

variable {demand : Json}

theorem keywordViolations_type_iff :
    keywordViolations formats check members place value "type" demand = [] ↔
      ∃ t ∈ typeNames demand, hasType value t = true :=
  Place.demand_eq_nil_iff.trans List.any_eq_true

theorem keywordViolations_enum_iff :
    keywordViolations formats check members place value "enum" demand = [] ↔
      ∃ a ∈ (demand.arr?).getD [], equal value a = true :=
  Place.demand_eq_nil_iff.trans List.any_eq_true

theorem keywordViolations_minimum_iff :
    keywordViolations formats check members place value "minimum" demand = [] ↔
      boundHolds notLess demand value = true :=
  Place.demand_eq_nil_iff

theorem keywordViolations_maximum_iff :
    keywordViolations formats check members place value "maximum" demand = [] ↔
      boundHolds notGreater demand value = true :=
  Place.demand_eq_nil_iff

theorem keywordViolations_exclusiveMinimum_iff :
    keywordViolations formats check members place value "exclusiveMinimum" demand = [] ↔
      boundHolds (· == .gt) demand value = true :=
  Place.demand_eq_nil_iff

theorem keywordViolations_exclusiveMaximum_iff :
    keywordViolations formats check members place value "exclusiveMaximum" demand = [] ↔
      boundHolds (· == .lt) demand value = true :=
  Place.demand_eq_nil_iff

theorem keywordViolations_required_iff :
    keywordViolations formats check members place value "required" demand = [] ↔
      ∀ name, .str name ∈ (demand.arr?).getD [] → ∀ own, value = .obj own →
        name ∈ Entries.keys own := by
  cases value with
  | obj own =>
    refine requiredViolations_eq_nil_iff.trans ?_
    simp only [Json.obj.injEq, forall_eq']
  | _ => exact iff_of_true rfl fun _ _ _ hown => nomatch hown

theorem keywordViolations_items (items : List Json) :
    keywordViolations formats check members place (.arr items) "items" demand =
      itemsViolations check (place.under "items") demand items := rfl

theorem keywordViolations_items_iff (h : Decides check test) :
    keywordViolations formats check members place value "items" demand = [] ↔
      (demand.isArr = false → ∀ own, value = .arr own → ∀ a ∈ own, test demand a) ∧
        ∀ schemas, demand = .arr schemas → ∀ own, value = .arr own →
          ∀ p ∈ own.zip schemas, test p.2 p.1 := by
  cases value with
  | arr own =>
    rw [keywordViolations_items, itemsViolations_eq_nil_iff h]
    simp only [Json.arr.injEq, forall_eq']
  | _ => exact iff_of_true rfl ⟨fun _ _ hown => (nomatch hown), fun _ _ _ hown => (nomatch hown)⟩

theorem keywordViolations_allOf_iff (h : Decides check test) :
    keywordViolations formats check members place value "allOf" demand = [] ↔
      ∀ s ∈ (demand.arr?).getD [], test s value := by
  refine List.flatMap_eq_nil_iff.trans ?_
  simp only [h.check_iff]
  exact forall_mem_zipIdx (P := fun s => test s value)

theorem keywordViolations_anyOf_iff (h : Decides check test) :
    keywordViolations formats check members place value "anyOf" demand = [] ↔
      ∃ s ∈ (demand.arr?).getD [], test s value := by
  refine (Place.demand_eq_nil_iff.trans List.any_eq_true).trans ?_
  simp only [accepts_iff h]

theorem keywordViolations_oneOf_iff (h : Decides check test) :
    keywordViolations formats check members place value "oneOf" demand = [] ↔
      ExactlyOne (fun s => test s value) ((demand.arr?).getD []) := by
  refine (Place.demand_eq_nil_iff.trans exactlyOne_iff).trans ?_
  simp only [accepts_iff h]

theorem keywordViolations_not_iff (h : Decides check test) :
    keywordViolations formats check members place value "not" demand = [] ↔ ¬ test demand value := by
  refine Place.demand_eq_nil_iff.trans ?_
  rw [Bool.not_eq_true', ← Bool.not_eq_true, accepts_iff h]

end Keyword

/-! ### All keywords -/

/-- The keywords that the reading of schemas knows, and two that demand nothing where they are looked
at as keywords. -/
def vocabulary : List String := sharedKeywords ++ ["default", "$ref"]

theorem listUnder_of_get? {demand : Json} (hget : Entries.get? members keyword = some demand) :
    listUnder members keyword = (demand.arr?).getD [] := by
  rw [listUnder, hget, Option.bind_some]

/-- The names of the members of an object are all that the three keywords go by. -/
theorem membersHold_of_not_obj (hvalue : value.isObj = false) : MembersHold test members value := by
  have hnone : ∀ name a, value.get? name ≠ some a := by
    intro name a
    cases value <;> simp [Json.get?, Json.isObj] at hvalue ⊢
  exact ⟨fun name _ a _ ha => absurd ha (hnone name a),
    fun _ _ _ _ name a ha _ => absurd ha (hnone name a),
    fun _ _ name a ha _ => absurd ha (hnone name a)⟩

variable (h : Decides check test) (htable : Entries.Distinct (tableUnder members "properties"))
  (hvalue : ∀ own, value = .obj own → Entries.Distinct own)

include h htable hvalue

/-- A value that the engine has nothing against meets the demands of the keywords. -/
theorem keywordsHold_of_nil
    (hnil : ∀ keyword demand, Entries.get? members keyword = some demand →
      keywordViolations formats check members place value keyword demand = []) :
    KeywordsHold .draft7 test members value where
  toMembersHold := by
    cases value with
    | obj own =>
      exact (membersHold_iff h htable (hvalue own rfl)).mp fun keyword _ demand hget =>
        hnil keyword demand hget
    | _ => exact membersHold_of_not_obj rfl
  type types hget := Or.inr (keywordViolations_type_iff.mp (hnil _ types hget))
  enum values hget := by
    rw [listUnder_of_get? hget]
    exact Or.inr (keywordViolations_enum_iff.mp (hnil _ values hget))
  minimum bound hget :=
    ⟨keywordViolations_minimum_iff.mp (hnil _ bound hget), fun hf => by cases hf.1⟩
  maximum bound hget :=
    ⟨keywordViolations_maximum_iff.mp (hnil _ bound hget), fun hf => by cases hf.1⟩
  exclusiveMinimum _ bound hget :=
    keywordViolations_exclusiveMinimum_iff.mp (hnil _ bound hget)
  exclusiveMaximum _ bound hget :=
    keywordViolations_exclusiveMaximum_iff.mp (hnil _ bound hget)
  required name hname own hown := by
    obtain ⟨names, hget, hmem⟩ := mem_listUnder.mp hname
    exact keywordViolations_required_iff.mp (hnil _ _ hget) name hmem own hown
  items s hget := ((keywordViolations_items_iff h).mp (hnil _ s hget)).1
  tuple schemas hget := ((keywordViolations_items_iff h).mp (hnil _ _ hget)).2 schemas rfl
  allOf s hs := by
    obtain ⟨schemas, hget, hmem⟩ := mem_listUnder.mp hs
    exact (keywordViolations_allOf_iff h).mp (hnil _ _ hget) s hmem
  anyOf schemas hget := by
    rw [listUnder_of_get? hget]
    exact (keywordViolations_anyOf_iff h).mp (hnil _ schemas hget)
  oneOf schemas hget := by
    rw [listUnder_of_get? hget]
    exact (keywordViolations_oneOf_iff h).mp (hnil _ schemas hget)
  not s hget := (keywordViolations_not_iff h).mp (hnil _ s hget)

/-- The engine has nothing against a value that meets the demands of the keywords. -/
theorem nil_of_keywordsHold (hold : KeywordsHold .draft7 test members value)
    (hkeyword : keyword ∈ vocabulary) {demand : Json}
    (hget : Entries.get? members keyword = some demand) :
    keywordViolations formats check members place value keyword demand = [] := by
  have hlist := listUnder_of_get? hget
  have hnull : ¬ Dialect.Flagged .draft7 members "nullable" := fun hf => by cases hf.1
  -- the keywords that go by name are settled together, and only for objects
  have hnames : keyword ∈ ["properties", "patternProperties", "additionalProperties"] →
      ∀ own, value = .obj own →
        keywordViolations formats check members place (.obj own) keyword demand = [] := by
    rintro hname own rfl
    exact (membersHold_iff h htable (hvalue own rfl)).mpr hold.toMembersHold _ hname demand hget
  simp only [vocabulary, sharedKeywords, List.cons_append, List.nil_append, List.mem_cons,
    List.not_mem_nil, or_false] at hkeyword
  rcases hkeyword with rfl | rfl | rfl | rfl | rfl | rfl | rfl | rfl | rfl | rfl | rfl | rfl | rfl |
    rfl | rfl | rfl | rfl
  · exact keywordViolations_type_iff.mpr
      ((hold.type demand hget).resolve_left fun hf => hnull hf.1)
  · exact keywordViolations_enum_iff.mpr
      (hlist ▸ (hold.enum demand hget).resolve_left fun hf => hnull hf.1)
  · exact keywordViolations_minimum_iff.mpr (hold.minimum demand hget).1
  · exact keywordViolations_maximum_iff.mpr (hold.maximum demand hget).1
  · exact keywordViolations_exclusiveMinimum_iff.mpr (hold.exclusiveMinimum rfl demand hget)
  · exact keywordViolations_exclusiveMaximum_iff.mpr (hold.exclusiveMaximum rfl demand hget)
  · exact keywordViolations_required_iff.mpr fun name hname => hold.required name (hlist ▸ hname)
  · cases value with
    | obj own => exact hnames (by simp) own rfl
    | _ => rfl
  · cases value with
    | obj own => exact hnames (by simp) own rfl
    | _ => rfl
  · cases value with
    | obj own => exact hnames (by simp) own rfl
    | _ => rfl
  · exact (keywordViolations_items_iff h).mpr
      ⟨hold.items demand hget, fun schemas hs => hold.tuple schemas (hs ▸ hget)⟩
  · exact (keywordViolations_allOf_iff h).mpr (hlist ▸ hold.allOf)
  · exact (keywordViolations_anyOf_iff h).mpr (hlist ▸ hold.anyOf demand hget)
  · exact (keywordViolations_oneOf_iff h).mpr (hlist ▸ hold.oneOf demand hget)
  · exact (keywordViolations_not_iff h).mpr (hold.not demand hget)
  · rfl
  · rfl

/-- **The verdict on a schema without references** is what its keywords demand. -/
theorem keywordsHold_iff (hd : Entries.Distinct members)
    (hkeywords : ∀ keyword ∈ Entries.keys members, keyword ∈ vocabulary) :
    (∀ e ∈ members, keywordViolations formats check members place value e.1 e.2 = []) ↔
      KeywordsHold .draft7 test members value := by
  constructor
  · exact fun hall => keywordsHold_of_nil h htable hvalue fun keyword demand hget =>
      hall (keyword, demand) (Entries.mem_of_get? hget)
  · intro hold e he
    have hkey : e.1 ∈ Entries.keys members := List.mem_map_of_mem (f := Prod.fst) he
    exact nil_of_keywordsHold h htable hvalue hold (hkeywords e.1 hkey) (Entries.get?_of_mem hd he)

omit h htable hvalue

theorem decides_violations (formats : Formats) (root : Json) (n : Nat) :
    Decides (violations formats root (n + 1)) (Accepts formats root (n + 1)) where
  check_iff _ _ _ := violations_eq_nil_iff
  leaf_iff s a hobj := by
    cases s with
    | obj members => cases hobj
    | bool allowed => cases allowed <;> simp [Accepts, violations]
    | _ => simp [Accepts, violations]

/-- A schema that is a reference stands for its target, and one that leads nowhere demands nothing. -/
theorem accepts_reference_iff {reference : String} (h : reference? s = some reference) :
    Accepts formats root (n + 1) s value ↔
      ∀ target, resolve? root reference = some target → Accepts formats root n target value := by
  cases s with
  | obj members =>
    have hget : Entries.get? members "$ref" = some (.str reference) := by
      obtain ⟨found, hfound, hstr⟩ := Option.bind_eq_some_iff.mp h
      cases found <;> simp only [Json.str?, reduceCtorEq, Option.some.injEq] at hstr
      exact hstr ▸ hfound
    rw [Accepts, violations]
    simp only [hget]
    cases resolve? root reference with
    | none => simp
    | some target => simp [violations_eq_nil_iff]
  | _ => simp [reference?, Json.getStr?, Json.get?] at h

section Step

variable (hw : (Json.obj members).WellFormed) (hv : value.WellFormed)
  (href : reference? (.obj members) = none)

include href in
theorem accepts_succ_iff :
    Accepts formats root (n + 1) (.obj members) value ↔
      ∀ e ∈ members, keywordViolations formats (violations formats root n) members Place.root value
        e.1 e.2 = [] := by
  have hget : ∀ reference, Entries.get? members "$ref" ≠ some (.str reference) := by
    intro reference hget
    simp [reference?, Json.getStr?, Json.str?, hget] at href
  rw [Accepts, violations]
  split
  · rename_i reference hfound
    exact absurd hfound (hget reference)
  · rw [List.flatMap_eq_nil_iff]

theorem distinct_tableUnder (hw : (Json.obj members).WellFormed) :
    Entries.Distinct (tableUnder members keyword) := by
  rw [tableUnder]
  cases hget : Entries.get? members keyword with
  | none => exact List.nodup_nil
  | some table => exact (hw.2.of_mem (Entries.mem_of_get? hget)).distinct

include hw hv href

/-- **What the engine lets through meets all demands** that the reading knows, whatever further
keywords there are. -/
theorem keywordsHold_of_accepts (h : Accepts formats root (n + 2) (.obj members) value) :
    KeywordsHold .draft7 (Accepts formats root (n + 1)) members value := by
  have hvalue : ∀ own, value = .obj own → Entries.Distinct own := by
    rintro own rfl
    exact hv.1
  have hnil : ∀ keyword demand, Entries.get? members keyword = some demand →
      keywordViolations formats (violations formats root (n + 1)) members Place.root value keyword
        demand = [] := fun keyword demand hget =>
    (accepts_succ_iff href).mp h (keyword, demand) (Entries.mem_of_get? hget)
  exact keywordsHold_of_nil (decides_violations formats root n) (distinct_tableUnder hw) hvalue hnil

/-- **One step of the engine** at a schema without a reference. -/
theorem accepts_obj_iff (hkeywords : ∀ keyword ∈ Entries.keys members, keyword ∈ vocabulary) :
    Accepts formats root (n + 2) (.obj members) value ↔
      KeywordsHold .draft7 (Accepts formats root (n + 1)) members value := by
  have hvalue : ∀ own, value = .obj own → Entries.Distinct own := by
    rintro own rfl
    exact hv.1
  exact (accepts_succ_iff href).trans (keywordsHold_iff (decides_violations formats root n)
    (distinct_tableUnder hw) hvalue hw.1 hkeywords)

end Step

/-- **A member that is declared passes the schema of its property**, whichever keyword has it checked. -/
theorem accepts_of_property {part a : Json} {table : Entries Json} {name : String}
    (href : reference? s = none) (hget : s.get? "properties" = some (.obj table))
    (hpart : Entries.get? table name = some part) (ha : Entries.get? own name = some a)
    (h : Accepts formats root (n + 2) s (.obj own)) : Accepts formats root (n + 1) part a := by
  cases s with
  | obj members =>
    have hall := (accepts_succ_iff href).mp h
    -- whichever of the two keywords does the checking, it checks the property
    by_cases htakes : additionalTakesOver members = true
    · obtain ⟨extra, hextra, hkind⟩ := additionalTakesOver_iff.mp htakes
      have hne : extra ≠ .bool true := by
        rintro rfl
        simp [Json.isObj] at hkind
      have hnil := hall ("additionalProperties", extra) (Entries.mem_of_get? hextra)
      have hmember := (additionalViolations_eq_nil_iff (decides_violations formats root n) hne).mp
        hnil (name, a) (Entries.mem_of_get? ha)
      refine hmember.1 part ?_
      rw [get?_tableUnder, ← Json.get?_obj, hget]
      exact hpart
    · have hnil := hall ("properties", .obj table) (Entries.mem_of_get? hget)
      rw [keywordViolations_properties, if_neg htakes, propertyViolations, List.flatMap_eq_nil_iff]
        at hnil
      have hmember := hnil (name, part) (Entries.mem_of_get? hpart)
      simp only [ha] at hmember
      exact violations_eq_nil_iff.mp hmember
  | _ => cases hget

/-- A check takes more steps than the schema has parts. -/
theorem size_lt_stepsFor (root value : Json) : root.size < stepsFor root value :=
  calc root.size < root.size + 1 := Nat.lt_succ_self _
    _ ≤ (value.depth + 2) * (root.size + 1) := Nat.le_mul_of_pos_left _ (by omega)

/-- **The engine reads plain schemas as they are to be read**, given as many steps as the schema has
parts. -/
theorem accepts_iff_valid (hs : Plain .draft7 s) (hw : s.WellFormed) :
    ∀ {n : Nat} {value : Json}, s.size < n → value.WellFormed →
      (Accepts formats root n s value ↔ Valid .draft7 s value) := by
  induction hs with
  | @leaf s hobj =>
    intro n value hn _
    obtain ⟨n, rfl⟩ : ∃ m, n = m + 1 := ⟨n - 1, by omega⟩
    rw [(decides_violations formats root n).leaf_iff s value hobj, valid_leaf_iff hobj]
  | @obj members keywords _ _ ih =>
    intro n value hn hv
    have hpos := (Json.obj members).size_pos
    -- one step for the keywords, and at least one for the parts
    obtain ⟨n, rfl⟩ : ∃ m, n = m + 2 := ⟨n - 2, by omega⟩
    have href : reference? (.obj members) = none := by
      have hnone : Entries.get? members "$ref" = none :=
        Entries.get?_eq_none_iff.mpr fun hmem => absurd (keywords _ hmem) (by decide)
      rw [reference?, Json.getStr?, Json.get?_obj, hnone, Option.bind_none]
    have hagree : ∀ s ∈ subschemas members, ∀ a : Json, a.WellFormed →
        (Accepts formats root (n + 1) s a ↔ Valid .draft7 s a) := fun s hs a ha => by
      have hsize := size_lt_of_mem_subschemas hs
      exact ih s hs (wellFormed_of_mem_subschemas hw hs) (by omega) ha
    rw [accepts_obj_iff hw hv href fun k hk => List.mem_append_left _ (keywords k hk), valid_obj_iff]
    exact keywordsHold_congr
      ⟨fun s hs => hagree s (mem_subschemas_of_mem_combined hs) value hv,
        fun s hs a ha => hagree s hs a (hv.of_mem_children ha)⟩

end RequestGate.Draft7
