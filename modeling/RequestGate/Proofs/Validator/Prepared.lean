import RequestGate.Proofs.Json.Reading
import RequestGate.Proofs.Json.Record
import RequestGate.Proofs.Parameter.Kinds
import RequestGate.Proofs.Schema.Filling
import RequestGate.Proofs.Validator.Run
import RequestGate.Proofs.Validator.Stages
import RequestGate.Proofs.Validator.WellFormed

/-!
# Prepared requests are well formed

Decoding, coercing and filling in defaults move values from key to key, split and convert them, read
them as JSON, and put in what the schemas declare. None of it repeats a key or makes a number that is
out of range: from a well-formed request a well-formed one is prepared
(`RequestGate.Validator.wellFormed_prepare`).
-/

namespace RequestGate

open Json

/-! ### Requests -/

/-- Whether the values of a request are well formed. -/
structure Request.WellFormed (request : Request) : Prop where
  query : (obj (request.query.getD [])).WellFormed
  headers : (obj (request.headers.getD [])).WellFormed
  path : (obj (request.path.getD [])).WellFormed
  cookies : (obj (request.cookies.getD [])).WellFormed
  body : ∀ b ∈ request.body, b.WellFormed

/-- Whether the tables and the body of a request are well formed. -/
structure NormalizedRequest.WellFormed (r : NormalizedRequest) : Prop where
  tables : ∀ location, (obj (r.table location)).WellFormed
  body : ∀ b ∈ r.body, b.WellFormed

variable {request : Request} {r next decoded prepared : NormalizedRequest} {location : Location}
  {table members : Entries Json} {value root schema : Json} {name : String} {p : Parameter}
  {parameters : List Parameter}

/-- A table that is read, or left out, is well formed. -/
theorem Request.wellFormed_of_readTable? {field : Option Json} {table : Option (Entries Json)}
    (hfield : ∀ raw ∈ field, raw.Ranged) (h : optional? readTable? field = some table) :
    (obj (table.getD [])).WellFormed := by
  cases table with
  | none => exact ⟨List.nodup_nil, trivial⟩
  | some members =>
    obtain ⟨raw, rfl, hread⟩ := exists_of_optional? h rfl
    have hcollapse : raw.collapse = obj members := by
      rw [readTable?] at hread
      cases hraw : raw.collapse <;> simp only [hraw, obj?, reduceCtorEq, Option.some.injEq] at hread
      rw [hread]
    exact hcollapse ▸ (hfield raw rfl).wellFormed_collapse

/-- **A request that has been read is well formed.** -/
theorem Request.wellFormed_of_ofJson? (hvalue : value.Ranged) (h : ofJson? value = some request) :
    request.WellFormed := by
  obtain ⟨found, hfound, h⟩ := Option.bind_eq_some_iff.mp h
  have hranged : ∀ field ∈ found, ∀ raw ∈ field, raw.Ranged := by
    rintro _ hfield raw rfl
    exact hvalue.of_mem_children (mem_children_of_readFields? hfound hfield)
  split at h
  · obtain ⟨_, -, h⟩ := Option.bind_eq_some_iff.mp h
    obtain ⟨_, -, h⟩ := Option.bind_eq_some_iff.mp h
    obtain ⟨query, hquery, h⟩ := Option.bind_eq_some_iff.mp h
    obtain ⟨headers, hheaders, h⟩ := Option.bind_eq_some_iff.mp h
    obtain ⟨cookies, hcookies, h⟩ := Option.bind_eq_some_iff.mp h
    obtain ⟨path, hpath, h⟩ := Option.bind_eq_some_iff.mp h
    obtain ⟨body, hbody, h⟩ := Option.bind_eq_some_iff.mp h
    obtain rfl := Option.some.inj h
    refine ⟨wellFormed_of_readTable? (hranged _ (by simp)) hquery,
      wellFormed_of_readTable? (hranged _ (by simp)) hheaders,
      wellFormed_of_readTable? (hranged _ (by simp)) hpath,
      wellFormed_of_readTable? (hranged _ (by simp)) hcookies, fun b hb => ?_⟩
    obtain ⟨raw, hraw, hread⟩ := exists_of_optional? hbody hb
    exact Option.some.inj hread ▸ (hranged _ (by simp [hraw]) raw rfl).wellFormed_collapse
  · cases h

/-- Header names that become equal leave one entry. -/
theorem NormalizedRequest.wellFormed_ofRequest (h : request.WellFormed) :
    (ofRequest request).WellFormed where
  tables
    | .query => h.query
    | .path => h.path
    | .cookie => h.cookies
    | .header => by
      refine wellFormed_obj_iff.mpr ⟨Entries.distinct_ofList _, fun e he => ?_⟩
      obtain ⟨header, hheader, rfl⟩ := List.mem_map.mp (Entries.mem_of_mem_ofList he)
      exact wellFormedMembers_iff.mp h.headers.2 header hheader
  body := h.body

theorem NormalizedRequest.WellFormed.withTable (h : r.WellFormed) (location : Location)
    (htable : (obj table).WellFormed) : (r.withTable location table).WellFormed where
  tables other := by
    by_cases heq : location = other
    · rw [← heq, table_withTable]
      exact htable
    · rw [table_withTable_of_ne r table heq]
      exact h.tables other
  body := by
    rw [body_withTable]
    exact h.body

theorem NormalizedRequest.WellFormed.mapTables {f : Parameter → Entries Json → Entries Json}
    (hf : ∀ p ∈ parameters, ∀ table : Entries Json, (obj table).WellFormed →
      (obj (f p table)).WellFormed) :
    ∀ {r : NormalizedRequest}, r.WellFormed →
      (NormalizedRequest.mapTables f parameters r).WellFormed := by
  induction parameters with
  | nil => exact fun h => h
  | cons p parameters ih =>
    intro r h
    rw [mapTables_cons]
    exact ih (fun p hp => hf p (List.mem_cons_of_mem _ hp))
      (h.withTable _ (hf p (by simp) _ (h.tables _)))

theorem NormalizedRequest.WellFormed.mapBody {f : Json → Json} (h : r.WellFormed)
    (hf : ∀ value : Json, value.WellFormed → (f value).WellFormed) : (r.mapBody f).WellFormed where
  tables location := by
    rw [table_mapBody]
    exact h.tables location
  body b hb := by
    obtain ⟨a, ha, rfl⟩ := Option.map_eq_some_iff.mp hb
    exact hf a (h.body a ha)

/-- The instance of a well-formed request is well formed. -/
theorem NormalizedRequest.WellFormed.toInstance (h : r.WellFormed) : r.toInstance.WellFormed := by
  have hbody : ∀ e ∈ optionalMember "body" r.body, e.1 = "body" ∧ e.2.WellFormed := by
    intro e he
    unfold optionalMember at he
    split at he
    · obtain rfl := List.mem_singleton.mp he
      exact ⟨rfl, h.body _ ‹_›⟩
    · cases he
  refine wellFormed_obj_iff.mpr ⟨?_, fun e he => ?_⟩
  · cases hnone : r.body <;> simp [optionalMember, Entries.Distinct]
  · simp only [List.mem_append, List.mem_cons, List.not_mem_nil, or_false] at he
    rcases he with (rfl | rfl | rfl | rfl) | he
    · exact h.tables .query
    · exact h.tables .header
    · exact h.tables .path
    · exact h.tables .cookie
    · exact (hbody e he).2

namespace Style

/-! ### The moves of decoding -/

theorem wellFormed_wrap (h : value.WellFormed) : (wrap value).WellFormed := by
  rw [wrap]
  split
  · exact h
  · exact ⟨h, trivial⟩

theorem wellFormed_readText (h : value.WellFormed) : (readText value).WellFormed := by
  cases value with
  | str text =>
    rw [readText]
    cases hparse : Json.parse? text with
    | some value => exact wellFormed_of_parse? hparse
    | none => exact h
  | _ => exact h

theorem wellFormed_readJson (h : (obj table).WellFormed) (name : String) :
    (obj (readJson table name)).WellFormed := by
  rw [readJson_eq_modify]
  exact wellFormed_modify h fun _ => wellFormed_readText

theorem wellFormed_addMembers (h : (obj table).WellFormed) (name : String)
    (hmembers : (obj members).WellFormed) : (obj (addMembers table name members)).WellFormed := by
  rw [addMembers]
  split
  · exact h
  · split
    · rename_i existing hget
      have hexisting : (obj existing).WellFormed := h.get? (by rw [Json.get?_obj]; exact hget)
      exact wellFormed_insert h (wellFormed_insertAll hexisting (wellFormedMembers_iff.mp hmembers.2))
    · exact wellFormed_insert h hmembers

theorem wellFormed_takeEntries (names : List (String × String)) (h : (obj table).WellFormed) :
    (obj (takeEntries names table).1).WellFormed ∧ (obj (takeEntries names table).2).WellFormed := by
  refine List.foldlRecOn (motive := fun (state : Entries Json × Entries Json) =>
    (obj state.1).WellFormed ∧ (obj state.2).WellFormed) _ _ ⟨⟨List.nodup_nil, trivial⟩, h⟩ ?_
  rintro ⟨taken, table⟩ ⟨htaken, htable⟩ ⟨key, newName⟩ -
  dsimp only
  split
  · rename_i value hget
    have hvalue : value.WellFormed := htable.get? (by rw [Json.get?_obj]; exact hget)
    exact ⟨wellFormed_insert htaken hvalue, wellFormed_swapRemove htable key⟩
  · exact ⟨htaken, htable⟩

theorem wellFormed_collapseExploded (h : (obj table).WellFormed) (name : String) :
    (obj (collapseExploded root schema name table)).WellFormed := by
  rw [collapseExploded]
  dsimp only
  -- wrapping touches no key
  obtain ⟨htaken, htable⟩ := wellFormed_takeEntries
    (((Schema.properties root schema).filter fun p => p.1 != name).map fun p => (p.1, p.1)) h
  refine wellFormed_addMembers htable name (wellFormed_obj_iff.mpr ⟨?_, fun e he => ?_⟩)
  · rw [Entries.Distinct, Entries.keys_map fun e => by split <;> [split <;> rfl; rfl]]
    exact htaken.1
  · obtain ⟨e, hmem, rfl⟩ := List.mem_map.mp he
    have hvalue := wellFormedMembers_iff.mp htaken.2 e hmem
    split
    · split
      · exact wellFormed_wrap hvalue
      · exact hvalue
    · exact hvalue

theorem wellFormed_collapseDeepObject (h : (obj table).WellFormed) (name : String) :
    (obj (collapseDeepObject name table)).WellFormed := by
  rw [collapseDeepObject]
  dsimp only
  obtain ⟨htaken, htable⟩ := wellFormed_takeEntries
    (table.filterMap fun entry => (bracketed? name entry.1).map fun p => (entry.1, p)) h
  exact wellFormed_addMembers htable name htaken

theorem wellFormed_splitText (h : value.WellFormed) (delimiter : Char) :
    (splitText delimiter value).WellFormed := by
  cases value with
  | str text =>
    rw [splitText]
    split
    · exact h
    · refine wellFormedList_iff.mpr fun a ha => ?_
      obtain ⟨item, -, rfl⟩ := List.mem_map.mp ha
      exact wellFormed_str item
  | _ => exact h

theorem wellFormed_splitDelimited (h : (obj table).WellFormed) (delimiter : Char) (name : String) :
    (obj (splitDelimited delimiter name table)).WellFormed := by
  rw [splitDelimited_eq_modify]
  exact wellFormed_modify h fun _ hvalue => wellFormed_splitText hvalue delimiter

/-! ### One parameter, and all of them -/

theorem wellFormed_supplied {default : Option Json} (h : (obj table).WellFormed)
    (hdefault : ∀ value, default = some value → value.WellFormed) (name : String) :
    (obj (supplied default name table)).WellFormed := by
  rw [supplied.eq_def]
  split
  · exact h
  · split
    · exact wellFormed_insert h (hdefault _ rfl)
    · exact h

theorem wellFormed_decodeEntry (hroot : root.WellFormed) (hp : p.WellFormed)
    (h : (obj table).WellFormed) {decoded : Entries Json}
    (hdecode : decodeEntry root p table = .ok decoded) : (obj decoded).WellFormed := by
  cases decoding_of_decodeEntry hdecode with
  | json => exact wellFormed_readJson h _
  | text => exact h
  | exploded => exact wellFormed_collapseExploded (wellFormed_readJson h _) _
  | bracketed =>
    exact wellFormed_readJson (wellFormed_supplied (wellFormed_collapseDeepObject h p.name)
      (fun _ => Schema.wellFormed_defaultWithin hroot hp) p.name) _
  | whole => exact wellFormed_readJson h _
  | wrapped =>
    refine wellFormed_modify h fun value hvalue => ?_
    split
    · exact wellFormed_wrap hvalue
    · exact hvalue
  | cut => exact wellFormed_splitDelimited h _ _
  | scattered => exact wellFormed_collapseExploded h _
  | unchanged => exact h

theorem wellFormed_decode {route : String} (hroot : root.WellFormed)
    (hparameters : ∀ p ∈ parameters, p.WellFormed) (h : request.WellFormed)
    (hdecode : decode root route parameters request = .ok decoded) : decoded.WellFormed := by
  refine foldlM_mem_induction (P := NormalizedRequest.WellFormed) (fun p hp r next hr hstep => ?_)
    (NormalizedRequest.wellFormed_ofRequest h) hdecode
  obtain ⟨table, htable, rfl⟩ := decodeParameter_eq_ok_iff.mp hstep
  exact hr.withTable _ (wellFormed_decodeEntry hroot (hparameters p hp) (hr.tables _) htable)

end Style

/-! ### All stages before the check -/

namespace Validator

variable {validator : Validator}

/-- **What is prepared of a well-formed request is well formed.** -/
theorem wellFormed_prepare (hvalidator : validator.WellFormed) (hrequest : request.WellFormed)
    (h : validator.prepare request = .ok prepared) : prepared.WellFormed := by
  obtain ⟨decoded, hdecoded, rfl⟩ := prepare_eq_ok_iff.mp h
  rw [NormalizedRequest.applyDefaults_eq, NormalizedRequest.coerceParameters_eq]
  have hwell := Style.wellFormed_decode hvalidator.root hvalidator.parameters hrequest hdecoded
  refine NormalizedRequest.WellFormed.mapBody (.mapTables (fun p hp table htable => ?_)
    (.mapTables (fun p hp table htable => ?_) hwell)) fun value hvalue => ?_
  · exact Schema.wellFormed_fillProperty hvalidator.root (hvalidator.parameters p hp)
      (fun value => Schema.wellFormed_fillWithin hvalidator.root (hvalidator.parameters p hp)) htable
  · exact wellFormed_modify htable fun value => Schema.wellFormed_coerceWithin
  · exact Schema.wellFormed_fillWithin hvalidator.root hvalidator.body hvalue

end Validator

end RequestGate
