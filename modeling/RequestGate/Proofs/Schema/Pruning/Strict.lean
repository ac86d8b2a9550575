import RequestGate.Proofs.Draft7.Additional
import RequestGate.Proofs.Rounds
import RequestGate.Proofs.Schema.Pruning.Places
import RequestGate.Proofs.Schema.Visits

/-!
# What the engine says of undeclared members

In a strict schema every object is closed to all but its properties, and all that is handed on to further
schemas are declared members and items. Then the engine speaks of additional members exactly if there are
some: every object that a closed schema governs has no member but declared ones, or there is a violation
at `additionalProperties` (`RequestGate.Schema.silent_allViolations_iff`).

One direction is an induction on the steps of the engine, which go along paths into the value. For the
other direction the steps have to be enough to get to an object with an undeclared member: at every level
of the value the engine follows references at most as often as the root has parts.
-/

namespace RequestGate

namespace Json

variable {value part : Json} {path : List Step}

/-- What a path leads to is less deep than the whole, by the length of the path at least. -/
theorem length_add_depth_le (h : value.at? path = some part) :
    path.length + part.depth ≤ value.depth := by
  induction path generalizing value with
  | nil =>
    obtain rfl := Option.some.inj h
    exact (Nat.zero_add _).le
  | cons step path ih =>
    obtain ⟨next, hnext, h⟩ := Option.bind_eq_some_iff.mp h
    have hrest := ih h
    have hless := depth_lt_of_mem_children (mem_children_of_step? hnext)
    rw [List.length_cons]
    omega

end Json

namespace Schema

open Draft7 Json

variable {formats : Formats} {root schema s t u a b part value : Json} {members table : Entries Json}
  {place : Place} {step : Step} {path : List Step} {name : String} {n : Nat}

/-! ### Strict schemas -/

/-- Whether a schema hands on nothing but properties and items, is closed if it has properties, and has
one schema for all items if any. -/
structure Strict (s : Json) : Prop where
  isObj : s.isObj = true
  plain : ∀ keyword ∈ ["allOf", "oneOf", "anyOf", "if", "patternProperties", "dependencies",
    "propertyNames", "additionalItems"], s.hasKey keyword = false
  closed : s.hasKey "properties" = true ∨ s.hasKey "additionalProperties" = true →
    (∃ table, s.getObj? "properties" = some table) ∧
      s.get? "additionalProperties" = some (.bool false) ∧
      (primaryType s = some "object" ∨ primaryType s = none)
  items : ∀ part, s.get? "items" = some part → part.isObj = true

/-- Whether a schema has properties and forbids all other members. -/
structure Closed (root s : Json) : Prop where
  consulted : Consulted root s
  closed : s.get? "additionalProperties" = some (.bool false)

/-- Whether all schemas that paths lead to are strict, and the engine follows references to the same
schemas. -/
def StrictThroughout (root schema : Json) : Prop :=
  ∀ path part, schemaAt? root schema path = some part →
    ∃ s, resolve root part = some s ∧ Leads root part s ∧ Strict s

/-- Whether every object that a closed schema governs has no member but declared ones. -/
def OnlyDeclared (root schema value : Json) : Prop :=
  ∀ path s members, governing? root schema path = some s → Closed root s →
    value.at? path = some (.obj members) → ∀ name ∈ Entries.keys members,
      name ∈ Entries.keys (properties root s)

theorem Strict.get?_eq_none {keyword : String} (h : Strict s)
    (hkeyword : keyword ∈ ["allOf", "oneOf", "anyOf", "if", "patternProperties", "dependencies",
      "propertyNames", "additionalItems"]) : s.get? keyword = none := by
  have habsent := h.plain keyword hkeyword
  rwa [hasKey, Option.isSome_eq_false_iff, Option.isNone_iff_eq_none] at habsent

theorem Strict.members_eq_nil (h : Strict s) : (shape s).members = [] := by
  rcases shape_cases s with hshape | ⟨-, hnil | ⟨keyword, hkeyword, hget⟩⟩
  · rw [hshape]
    rfl
  · exact hnil
  · have habsent : s.get? keyword = none := h.get?_eq_none (by
      simp only [List.mem_cons, List.not_mem_nil, or_false] at hkeyword ⊢
      tauto)
    rw [get?_of_getArr? hget] at habsent
    cases habsent

theorem Strict.unhidden (h : Strict s) (hkey : s.hasKey "properties" = true ∨
    s.hasKey "additionalProperties" = true) : Unhidden s where
  whole keyword hkeyword := by
    have habsent : s.get? keyword = none := h.get?_eq_none (by
      simp only [List.mem_cons, List.not_mem_nil, or_false] at hkeyword ⊢
      tauto)
    rw [getArr?, habsent, Option.bind_none]
  object := (h.closed hkey).2.2

/-- A strict schema with properties declares exactly these, and is closed. -/
theorem Strict.exists_table (h : Strict s) (href : reference? s = none) (hs : s.WellFormed)
    (hkey : s.hasKey "properties" = true ∨ s.hasKey "additionalProperties" = true) (root : Json) :
    s.get? "properties" = some (.obj (properties root s)) ∧ Closed root s := by
  obtain ⟨⟨table, htable⟩, hclosed, -⟩ := h.closed hkey
  have hshape := (h.unhidden hkey).shape href htable
  rw [properties_of_shape href hs hshape]
  exact ⟨get?_of_getObj? htable,
    ⟨Or.inr (hasKey_of_getObj? htable), h.plain "patternProperties" (by simp)⟩, hclosed⟩

theorem StrictThroughout.of_part (h : StrictThroughout root schema)
    (hpart : partSchema? root schema step = some part) : StrictThroughout root part :=
  fun path sub hsub => h (step :: path) sub (by rw [schemaAt?, hpart, Option.bind_some, hsub])

/-- What a strict schema stands for. -/
theorem StrictThroughout.exists_resolve (h : StrictThroughout root schema) :
    ∃ s, resolve root schema = some s ∧ Leads root schema s ∧ StrictThroughout root s := by
  obtain ⟨s, hs, hleads, hstrict⟩ := h [] schema rfl
  refine ⟨s, hs, hleads, fun path part hpart => ?_⟩
  cases path with
  | nil =>
    obtain rfl := Option.some.inj hpart
    exact ⟨s, resolve_of_none (reference?_of_follow hs), .refl, hstrict⟩
  | cons step path =>
    rw [schemaAt?, partSchema?_resolve hs] at hpart
    exact h (step :: path) part hpart

theorem StrictThroughout.strict (h : StrictThroughout root s) (href : reference? s = none) :
    Strict s := by
  obtain ⟨t, ht, -, hstrict⟩ := h [] s rfl
  exact Option.some.inj ((resolve_of_none href).symm.trans ht) ▸ hstrict

theorem OnlyDeclared.resolve (h : OnlyDeclared root schema value)
    (hs : resolve root schema = some s) : OnlyDeclared root s value := by
  intro path t members ht
  rw [governing?_resolve hs] at ht
  exact h path t members ht

theorem OnlyDeclared.of_part (h : OnlyDeclared root schema value)
    (hpart : partSchema? root schema step = some part) (hb : value.step? step = some b) :
    OnlyDeclared root part b := by
  intro path t members ht hclosed hat
  refine h (step :: path) t members ?_ hclosed ?_
  · rw [governing?_cons, hpart, Option.bind_some, ht]
  · rw [at?_cons, hb, Option.bind_some, hat]

/-! ### Nothing is said where nothing is undeclared -/

theorem hasKey_of_mem {e : String × Json} (he : e ∈ members) :
    (Json.obj members).hasKey e.1 = true := by
  have hkey : e.1 ∈ Entries.keys members := List.mem_map_of_mem he
  rwa [← Entries.contains_iff] at hkey

section Handed

variable {check : Check} {demand : Json} (hstrict : Strict (.obj members))
  (href : reference? (.obj members) = none)
  (hparts : ∀ step part b place, partSchema? root (.obj members) step = some part →
    a.step? step = some b → Silent (check part place b))

include hstrict

/-- The check of the properties is left to `additionalProperties`. -/
theorem silent_properties (hkey : (Json.obj members).hasKey "properties" = true) :
    Silent (keywordViolations formats check members place a "properties" demand) := by
  obtain ⟨-, hclosed, -⟩ := hstrict.closed (Or.inl hkey)
  have htakes : additionalTakesOver members = true :=
    additionalTakesOver_iff.mpr ⟨_, hclosed, Or.inl rfl⟩
  cases a with
  | obj own =>
    rw [keywordViolations_properties, if_pos htakes]
    exact silent_nil
  | _ => exact silent_nil

include href hparts

/-- The items are checked one by one. -/
theorem silent_items (hget : Entries.get? members "items" = some demand) :
    Silent (keywordViolations formats check members place a "items" demand) := by
  have hitem := hstrict.items demand hget
  cases a with
  | arr items =>
    rw [keywordViolations_items, itemsViolations_of_isObj hitem]
    refine silent_flatMap fun e hmem => ?_
    obtain ⟨item, index⟩ := e
    refine hparts (.item index) demand item _ ?_ ?_
    · rw [partSchema?_item (resolve_of_none href), itemSchema?, get?_obj, hget, Option.filter_some,
        if_pos hitem]
    · exact List.mem_zipIdx_iff_getElem?.mp hmem
  | _ => exact silent_nil

/-- The members are checked one by one, and none is undeclared. -/
theorem silent_additional (hs : (Json.obj members).WellFormed) (ha : a.WellFormed)
    (hdeclared : OnlyDeclared root (.obj members) a)
    (hget : Entries.get? members "additionalProperties" = some demand) :
    Silent (keywordViolations formats check members place a "additionalProperties" demand) := by
  have hself : resolve root (.obj members) = some (.obj members) := resolve_of_none href
  obtain ⟨htable, hclosed⟩ := hstrict.exists_table href hs
    (Or.inr (hasKey_of_mem (Entries.mem_of_get? hget))) root
  obtain rfl : demand = .bool false := Option.some.inj (hget.symm.trans hclosed.closed)
  have hpatterns : Entries.get? members "patternProperties" = none :=
    hstrict.get?_eq_none (by simp)
  cases a with
  | obj own =>
    rw [keywordViolations_additionalProperties, additionalViolations_closed htable hpatterns]
    refine .append (silent_flatMap fun m hm => ?_) ?_
    · cases hpart : Entries.get? (properties root (.obj members)) m.1 with
      | none => exact silent_nil
      | some part =>
        exact hparts (.member m.1) part m.2 _ ((partSchema?_member hself m.1).trans hpart)
          (Entries.get?_of_mem ha.1 hm)
    · have hnone : (Entries.keys own).filter
          (fun name => !Entries.contains (properties root (.obj members)) name) = [] := by
        refine List.filter_eq_nil_iff.mpr fun name hname => ?_
        have hknown := hdeclared [] _ own (governing?_nil hself) hclosed rfl name hname
        simp [Entries.contains_iff.mpr hknown]
      rw [hnone]
      exact silent_nil
  | _ => exact silent_nil

/-- What a strict schema says, if nothing is said about the parts that it hands on. -/
theorem silent_strict (hs : (Json.obj members).WellFormed) (ha : a.WellFormed)
    (hdeclared : OnlyDeclared root (.obj members) a) {e : String × Json} (he : e ∈ members) :
    Silent (keywordViolations formats check members place a e.1 e.2) := by
  have hkey := hasKey_of_mem he
  have hget := Entries.get?_of_mem hs.1 he
  obtain ⟨keyword, demand⟩ := e
  dsimp only at hkey hget ⊢
  by_cases hkeyword : keyword ∈ handingOn
  · -- three of the keywords that hand something on may stand in a strict schema
    have hallowed := mt (hstrict.plain keyword) (by simp [hkey])
    obtain rfl | rfl | rfl :
        keyword = "items" ∨ keyword = "properties" ∨ keyword = "additionalProperties" := by
      simp only [handingOn, List.mem_cons, List.not_mem_nil, or_false, not_or] at hkeyword hallowed
      tauto
    · exact silent_items hstrict href hparts hget
    · exact silent_properties hstrict hkey
    · exact silent_additional hstrict href hparts hs ha hdeclared hget
  · exact silent_keywordViolations hkeyword

end Handed

/-- **Nothing is said where nothing is undeclared.** -/
theorem silent_violations (hroot : root.WellFormed) (n : Nat) : ∀ {u s a : Json} {place : Place},
    Leads root u s → reference? s = none → s ∈ root.subvalues → StrictThroughout root s →
    a.WellFormed → OnlyDeclared root s a → Silent (violations formats root n u place a) := by
  induction n with
  | zero => exact fun _ _ _ _ _ _ => silent_nil
  | succ n ih =>
    intro u s a place hleads href hs hstrict ha hdeclared
    cases hleads with
    | step hu htarget hleads =>
      rw [violations_reference hu htarget]
      exact ih hleads href hs hstrict ha hdeclared
    | refl =>
      have hhere := hstrict.strict href
      cases u with
      | obj members =>
        rw [violations_obj href]
        refine silent_flatMap fun e he => ?_
        refine silent_strict hhere href ?_ (hroot.of_mem_subvalues hs) ha hdeclared he
        intro step part b place hpart hb
        obtain ⟨t, ht, hleads, hstrict⟩ := (hstrict.of_part hpart).exists_resolve
        have hmem := mem_subvalues_of_follow (mem_subvalues_of_partSchema? hs hpart) ht
        exact ih hleads (reference?_of_follow ht) hmem hstrict
          (ha.of_mem_children (mem_children_of_step? hb)) ((hdeclared.of_part hpart hb).resolve ht)
      | _ => cases hhere.isObj

/-! ### Something is said where something is undeclared -/

/-- Following references is deriving, from the schema where they end. -/
def referenceRule (root s : Json) (derived : Json → Prop) (u : Json) : Prop :=
  u = s ∨ ∃ reference next, reference? u = some reference ∧ resolve? root reference = some next ∧
    derived next

theorem Leads.exists_rounds (h : Leads root u s) : ∃ n, Rounds (referenceRule root s) n u := by
  induction h with
  | refl => exact ⟨1, Or.inl rfl⟩
  | step href htarget _ ih =>
    obtain ⟨n, hn⟩ := ih
    exact ⟨n + 1, Or.inr ⟨_, _, href, htarget, hn⟩⟩

/-- References are followed at most as often as the root has parts. -/
theorem Leads.rounds (h : Leads root u s) (hu : u ∈ root.subvalues) :
    Rounds (referenceRule root s) root.size u := by
  obtain ⟨n, hn⟩ := h.exists_rounds
  rw [← length_subvalues]
  refine hn.within_length (fun P Q himp a => ?_) (fun P a ha => ?_) hu
  · rintro (rfl | ⟨reference, next, href, htarget, hnext⟩)
    · exact Or.inl rfl
    · exact Or.inr ⟨reference, next, href, htarget, himp next hnext⟩
  · rintro (rfl | ⟨reference, next, href, htarget, hnext⟩)
    · exact Or.inl rfl
    · exact Or.inr ⟨reference, next, href, htarget, mem_subvalues_of_resolve? htarget, hnext⟩

/-- The engine gets to where references end in as many steps. -/
theorem exists_violations_eq (formats : Formats) {rounds : Nat}
    (h : Rounds (referenceRule root s) rounds u) (place : Place) : ∃ k ≤ rounds, ∃ place', ∀ n value,
      violations formats root (n + k) u place value = violations formats root n s place' value := by
  induction rounds generalizing u place with
  | zero => exact h.elim
  | succ rounds ih =>
    rcases h with rfl | ⟨reference, next, href, htarget, hnext⟩
    · exact ⟨0, Nat.zero_le _, place, fun _ _ => rfl⟩
    · obtain ⟨k, hk, place', heq⟩ := ih hnext (place.under "$ref")
      refine ⟨k + 1, Nat.succ_le_succ hk, place', fun n value => ?_⟩
      rw [← Nat.add_assoc, violations_reference href htarget, heq]

/-- What is said of a part is said of the whole. -/
theorem mem_violations_of_part (formats : Formats) (n : Nat) (hstrict : Strict (.obj members))
    (href : reference? (.obj members) = none) (hs : (Json.obj members).WellFormed)
    (hpart : partSchema? root (.obj members) step = some part) (hb : a.step? step = some b)
    (place : Place) : ∃ place', ∀ v ∈ violations formats root n part place' b,
      v ∈ violations formats root (n + 1) (.obj members) place a := by
  have hself : resolve root (.obj members) = some (.obj members) := resolve_of_none href
  rw [violations_obj href]
  cases step with
  | member name =>
    rw [partSchema?_member hself] at hpart
    obtain ⟨table, hshape⟩ := exists_table_of_properties href hstrict.members_eq_nil
      (List.ne_nil_of_mem (Entries.mem_of_get? hpart))
    -- a strict schema is closed, so `additionalProperties` does the work of `properties`
    have hkey := hasKey_of_getObj? (getObj?_of_shape hshape)
    obtain ⟨htable, hclosed⟩ := hstrict.exists_table href hs (Or.inl hkey) root
    have hpatterns : Entries.get? members "patternProperties" = none :=
      hstrict.get?_eq_none (by simp)
    cases a with
    | obj own =>
      refine ⟨((place.under "properties").under name).into name, fun v hv => ?_⟩
      refine List.mem_flatMap.mpr
        ⟨("additionalProperties", .bool false), Entries.mem_of_get? hclosed.closed, ?_⟩
      rw [keywordViolations_additionalProperties, additionalViolations_closed htable hpatterns]
      refine List.mem_append_left _ (List.mem_flatMap.mpr ⟨(name, b), Entries.mem_of_get? hb, ?_⟩)
      rwa [show Entries.get? (properties root (.obj members)) name = some part from hpart]
    | _ => cases hb
  | item index =>
    rw [partSchema?_item hself] at hpart
    obtain ⟨hget, hitem⟩ := Option.filter_eq_some_iff.mp hpart
    cases a with
    | arr items =>
      refine ⟨(place.under "items").into (toString index), fun v hv => ?_⟩
      refine List.mem_flatMap.mpr ⟨("items", part), Entries.mem_of_get? hget, ?_⟩
      rw [keywordViolations_items, itemsViolations_of_isObj hitem]
      exact List.mem_flatMap.mpr ⟨(b, index), List.mem_zipIdx_iff_getElem?.mpr hb, hv⟩
    | _ => cases hb

/-- An undeclared member of an object is spoken of. -/
theorem exists_ofAdditional_here {own : Entries Json} (hstrict : Strict (.obj own))
    (href : reference? (.obj own) = none) (hs : (Json.obj own).WellFormed)
    (hclosed : Closed root (.obj own)) (hname : name ∈ Entries.keys members)
    (hundeclared : name ∉ Entries.keys (properties root (.obj own))) (n : Nat) (place : Place) :
    ∃ v ∈ violations formats root (n + 1) (.obj own) place (.obj members), v.OfAdditional := by
  have hkey : (Json.obj own).hasKey "additionalProperties" = true := by
    rw [hasKey, hclosed.closed]
    rfl
  obtain ⟨htable, -⟩ := hstrict.exists_table href hs (Or.inr hkey) root
  have hpatterns : Entries.get? own "patternProperties" = none :=
    hstrict.get?_eq_none (by simp)
  -- the names that the one violation lists
  generalize hunexpected : (Entries.keys members).filter
    (fun name => !Entries.contains (properties root (.obj own)) name) = unexpected
  have hmem : name ∈ unexpected := by
    rw [← hunexpected, List.mem_filter, Bool.not_eq_true', ← Bool.not_eq_true, Entries.contains_iff]
    exact ⟨hname, hundeclared⟩
  have hsome : unexpected.isEmpty = false := by
    rw [List.isEmpty_eq_false_iff]
    exact List.ne_nil_of_mem hmem
  refine ⟨(place.under "additionalProperties").violation (.unexpected unexpected), ?_,
    (ofAdditional_violation_iff _ _ _).mpr rfl⟩
  rw [violations_obj href]
  refine List.mem_flatMap.mpr
    ⟨("additionalProperties", .bool false), Entries.mem_of_get? hclosed.closed, ?_⟩
  rw [keywordViolations_additionalProperties, additionalViolations_closed htable hpatterns, hunexpected]
  exact List.mem_append_right _ (by simp [Place.demand, hsome])

/-- **Something is said where something is undeclared**, if there are steps enough. -/
theorem exists_ofAdditional (hroot : root.WellFormed) : ∀ {path : List Step} {n : Nat} {u s a : Json}
    (place : Place), Leads root u s → reference? s = none → u ∈ root.subvalues →
    StrictThroughout root s → (path.length + 1) * (root.size + 1) ≤ n →
    governing? root s path = some t → Closed root t → a.at? path = some (.obj members) →
    name ∈ Entries.keys members → name ∉ Entries.keys (properties root t) →
      ∃ v ∈ violations formats root n u place a, v.OfAdditional := by
  intro path
  induction path with
  | nil =>
    intro n u s a place hleads href hu hstrict hn ht hclosed ha hname hundeclared
    obtain ⟨k, hk, place', heq⟩ := exists_violations_eq formats (hleads.rounds hu) place
    obtain ⟨m, rfl⟩ : ∃ m, n = m + 1 + k := ⟨n - 1 - k, by simp only [List.length_nil] at hn; omega⟩
    obtain rfl := Option.some.inj ((resolve_of_none href).symm.trans ht)
    obtain rfl := Option.some.inj ha
    rw [heq]
    have hhere := hstrict.strict href
    have hmem := hleads.mem_subvalues hu
    cases s with
    | obj own =>
      exact exists_ofAdditional_here hhere href (hroot.of_mem_subvalues hmem) hclosed hname
        hundeclared m place'
    | _ => cases hhere.isObj
  | cons step path ih =>
    intro n u s a place hleads href hu hstrict hn ht hclosed ha hname hundeclared
    obtain ⟨k, hk, place', heq⟩ := exists_violations_eq formats (hleads.rounds hu) place
    rw [List.length_cons, Nat.succ_mul] at hn
    obtain ⟨m, rfl⟩ : ∃ m, n = m + 1 + k := ⟨n - 1 - k, by omega⟩
    -- what is left pays for the levels below
    have hsteps : (path.length + 1) * (root.size + 1) ≤ m := by omega
    rw [governing?_cons] at ht
    obtain ⟨part, hpart, hinside⟩ := Option.bind_eq_some_iff.mp ht
    obtain ⟨b, hb, ha⟩ := Option.bind_eq_some_iff.mp ha
    rw [heq]
    have hhere := hstrict.strict href
    have hmem := hleads.mem_subvalues hu
    obtain ⟨s', hs', hleads', hstrict'⟩ := (hstrict.of_part hpart).exists_resolve
    have hpartMem := mem_subvalues_of_partSchema? hmem hpart
    rw [← governing?_resolve hs'] at hinside
    cases s with
    | obj own =>
      obtain ⟨inner, hinner⟩ := mem_violations_of_part formats m hhere href
        (hroot.of_mem_subvalues hmem) hpart hb place'
      obtain ⟨v, hv, hadditional⟩ := ih inner hleads' (reference?_of_follow hs') hpartMem hstrict'
        hsteps hinside hclosed ha hname hundeclared
      exact ⟨v, hinner v hv, hadditional⟩
    | _ => cases hhere.isObj

/-- **The engine speaks of additional members exactly if there are undeclared ones.** -/
theorem silent_allViolations_iff (hschema : schema.WellFormed)
    (hstrict : StrictThroughout schema schema) (hvalue : value.WellFormed) :
    Silent (allViolations formats schema value) ↔ OnlyDeclared schema schema value := by
  obtain ⟨s, hs, hleads, hstrict⟩ := hstrict.exists_resolve
  have href := reference?_of_follow hs
  have hself := mem_subvalues_self schema
  constructor
  · intro hsilent path t members ht hclosed hat name hname
    by_contra hundeclared
    have hdepth := length_add_depth_le hat
    have hsteps : (path.length + 1) * (schema.size + 1) ≤ stepsFor schema value :=
      Nat.mul_le_mul_right _ (by omega)
    rw [← governing?_resolve hs] at ht
    obtain ⟨v, hv, hadditional⟩ := exists_ofAdditional hschema Place.root hleads href hself hstrict
      hsteps ht hclosed hat hname hundeclared
    exact hsilent v hv hadditional
  · intro hdeclared
    exact silent_violations hschema _ hleads href (hleads.mem_subvalues hself) hstrict hvalue
      (hdeclared.resolve hs)

end Schema

end RequestGate
