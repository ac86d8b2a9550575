import RequestGate.Proofs.Draft7.Conformance
import RequestGate.Proofs.Draft7.Placement
import RequestGate.Proofs.Draft7.Verdict
import RequestGate.Proofs.Validator.Instance
import RequestGate.Proofs.Wording

/-!
# What the items of a rejection are about

An item says by its path what it is about. If the schema of the whole request is violated somewhere in
the query, then at a name that something is wrong with: it is required and missing, or undeclared, or
the value under it violates the schema of the parameter (`RequestGate.LocationSchema.Faulty`). So every
item is about such a name, or is not about the query at all
(`RequestGate.RequestSchema.blames_of_mem_items`). The engine comes to the schema of a parameter in two
steps, by way of those of the request and of the query.
-/

namespace RequestGate

open Entries Draft7

variable {formats : Formats} {root : Json} {n : Nat} {own : Entries Json} {place : Place}
  {v : Violation} {name path : String}

theorem Draft7.violations_of_no_reference {members : Entries Json} {value : Json}
    (href : get? members "$ref" = none) :
    violations formats root (n + 1) (.obj members) place value =
      members.flatMap fun e =>
        keywordViolations formats (violations formats root n) members place value e.1 e.2 := by
  rw [violations, href]

theorem Draft7.mem_requiredViolations {names : List String} :
    v ∈ requiredViolations place (Json.ofStrings names) own ↔
      ∃ name ∈ names, name ∉ keys own ∧ v = place.violation (.missing name) := by
  have hnames : (names.map Json.str).filterMap Json.str? = names := by
    simp [List.filterMap_map, Function.comp_def, Json.str?]
  simp only [requiredViolations, Json.ofStrings, hnames, List.mem_flatMap, Place.demand,
    contains_iff]
  refine exists_congr fun name => and_congr_right fun _ => ?_
  by_cases hkey : name ∈ keys own <;> simp [hkey]

/-! ### The schema of a place -/

namespace LocationSchema

variable {s : LocationSchema}

/-- Whether something is wrong with a name, given the values of the place and the number of steps that
the engine has left for them. -/
def Faulty (formats : Formats) (root : Json) (n : Nat) (s : LocationSchema) (own : Entries Json)
    (name : String) : Prop :=
  name ∈ s.required ∧ name ∉ keys own ∨
    name ∈ keys own ∧ s.declares name = false ∨
      ∃ sub value, (name, sub) ∈ s.properties ∧ (name, value) ∈ own ∧
        ¬Accepts formats root n sub value

/-- The members of a schema of a place that others depend on. -/
theorem get?_toEngineSchema (s : LocationSchema) :
    get? (s.toEngineSchema.obj?.getD []) "$ref" = none ∧
      get? (s.toEngineSchema.obj?.getD []) "properties" = some (.obj s.properties) ∧
      get? (s.toEngineSchema.obj?.getD []) "patternProperties" = none ∧
      get? (s.toEngineSchema.obj?.getD []) "additionalProperties" =
        some (.bool s.additionalProperties) := by
  obtain ⟨title, properties, required, additional, allowEmpty⟩ := s
  cases required <;> simp [toEngineSchema, Json.obj?, listMember, get?_cons]

/-- What a violation of a place is: a name is missing, names are undeclared, or a value violates the
schema of its parameter. -/
inductive Explains (formats : Formats) (root : Json) (n : Nat) (s : LocationSchema)
    (own : Entries Json) (place : Place) : Violation → Prop where
  | missing {name : String} (hrequired : name ∈ s.required) (hmissing : name ∉ keys own) :
    Explains formats root n s own place ((place.under "required").violation (.missing name))
  | unexpected {names : List String} (hnonempty : names ≠ [])
    (hnames : ∀ name ∈ names, name ∈ keys own ∧ s.declares name = false) :
    Explains formats root n s own place
      ((place.under "additionalProperties").violation (.unexpected names))
  | inside {name : String} {sub value : Json} {inner : Place} {v : Violation}
    (hsub : (name, sub) ∈ s.properties) (hvalue : (name, value) ∈ own)
    (hinner : inner.instanceSegments = name :: place.instanceSegments)
    (hv : v ∈ violations formats root n sub inner value) :
    Explains formats root n s own place v

theorem explains_of_mem_requiredViolations
    (h : v ∈ requiredViolations (place.under "required") (Json.ofStrings s.required) own) :
    Explains formats root n s own place v := by
  obtain ⟨name, hrequired, hmissing, rfl⟩ := mem_requiredViolations.mp h
  exact .missing hrequired hmissing

theorem explains_of_mem_propertyViolations
    (h : v ∈ propertyViolations (violations formats root n) (place.under "properties")
      s.properties own) : Explains formats root n s own place v := by
  obtain ⟨⟨name, sub⟩, hsub, hv⟩ := List.mem_flatMap.mp h
  dsimp only at hv
  split at hv
  · rename_i value hvalue
    exact .inside hsub (mem_of_get? hvalue) rfl hv
  · cases hv

theorem explains_of_mem_additionalViolations {siblings : Entries Json}
    (hproperties : get? siblings "properties" = some (.obj s.properties))
    (hpatterns : get? siblings "patternProperties" = none)
    (h : v ∈ additionalViolations (violations formats root n) place siblings
      (.bool s.additionalProperties) own) : Explains formats root n s own place v := by
  have hnone : patternsOf siblings = [] := by rw [patternsOf, hpatterns]
  cases hopen : s.additionalProperties with
  | true => simp [additionalViolations, hopen] at h
  | false =>
    simp only [additionalViolations, hopen, hproperties, hnone, Option.bind_some, Json.obj?] at h
    rw [if_neg (by simp), if_neg (by simp)] at h
    rcases List.mem_append.mp h with hmember | hunexpected
    · -- a closed schema checks the declared members along with the others
      obtain ⟨⟨name, value⟩, hvalue, hv⟩ := List.mem_flatMap.mp hmember
      simp only [List.filter_nil, List.flatMap_nil, List.append_nil, decide_true, Bool.or_true,
        if_true] at hv
      split at hv
      · rename_i sub hsub
        exact .inside (mem_of_get? hsub) hvalue rfl hv
      · cases hv
    · rw [if_pos trivial, Place.demand] at hunexpected
      split at hunexpected
      · exact absurd hunexpected List.not_mem_nil
      · rename_i hsome
        obtain rfl := List.mem_singleton.mp hunexpected
        refine .unexpected (fun hnil => hsome (List.isEmpty_iff.mpr hnil)) fun name hname => ?_
        obtain ⟨hkey, hundeclared⟩ := List.mem_filter.mp hname
        exact ⟨hkey, by simpa [declares] using hundeclared⟩

/-- **Every violation of a place can be explained.** -/
theorem explains_of_mem_violations
    (h : v ∈ violations formats root (n + 1) s.toEngineSchema place (.obj own)) :
    Explains formats root n s own place v := by
  obtain ⟨href, hproperties, hpatterns, hadditional⟩ := get?_toEngineSchema s
  change v ∈ violations formats root (n + 1) (.obj (s.toEngineSchema.obj?.getD [])) place _ at h
  rw [violations_of_no_reference href] at h
  obtain ⟨⟨keyword, demand⟩, hmember, hv⟩ := List.mem_flatMap.mp h
  simp only [toEngineSchema, Json.obj?, Option.getD_some, List.mem_append, List.mem_cons,
    Prod.mk.injEq, List.not_mem_nil, or_false] at hmember
  -- one case for each keyword, in the order of `toEngineSchema`
  rcases hmember with (((⟨rfl, rfl⟩ | ⟨rfl, rfl⟩ | ⟨rfl, rfl⟩) | hlist) | ⟨rfl, rfl⟩)
  · cases hv
  · cases hv
  · change v ∈ if additionalTakesOver _ = true then [] else _ at hv
    split at hv
    · cases hv
    · exact explains_of_mem_propertyViolations hv
  · rw [listMember] at hlist
    split at hlist
    · cases hlist
    · obtain ⟨rfl, rfl⟩ := Prod.mk.inj (List.mem_singleton.mp hlist)
      exact explains_of_mem_requiredViolations hv
  · exact explains_of_mem_additionalViolations hproperties hpatterns hv

end LocationSchema

/-! ### Where items lie -/

/-- Whether a path lies at a name of the query, or below it. -/
def AtQuery (name path : String) : Prop :=
  ∃ rest : String, (∀ c ∈ rest.toList.head?, c = '.' ∨ c = '[') ∧
    (path = ".query." ++ name ++ rest ∨
      path = dottedPath (Pointer.render ["query", name]) ++ rest)

/-- **The lines of an error lie at its instance path**, or at a member there. -/
theorem SchemaError.path_of_mem_lines {e : SchemaError} {line : String × RejectionItem}
    (h : line ∈ e.lines) :
    line.2.path = dottedPath e.instancePath ∨
      ∃ name, line.2.path = dottedPath e.instancePath ++ "." ++ name := by
  rw [lines] at h
  split at h
  · obtain rfl := List.mem_singleton.mp h
    exact Or.inr ⟨_, rfl⟩
  · obtain ⟨name, -, rfl⟩ := List.mem_map.mp h
    exact Or.inr ⟨name, rfl⟩
  · obtain rfl := List.mem_singleton.mp h
    exact Or.inl rfl

/-- A missing member is reported where it should be. -/
theorem SchemaError.path_of_missing {e : SchemaError} {line : String × RejectionItem}
    (hkeyword : e.keyword = "required") (hmissing : e.missingProperty = some name)
    (h : line ∈ e.lines) : line.2.path = dottedPath e.instancePath ++ "." ++ name := by
  rw [lines, hkeyword, hmissing] at h
  obtain rfl := List.mem_singleton.mp h
  rfl

/-- Undeclared members are reported one by one, each where it is. -/
theorem SchemaError.path_of_unexpected {e : SchemaError} {line : String × RejectionItem}
    (hkeyword : e.keyword = "additionalProperties") (hnames : e.unexpectedProperties ≠ [])
    (h : line ∈ e.lines) :
    ∃ name ∈ e.unexpectedProperties, line.2.path = dottedPath e.instancePath ++ "." ++ name := by
  obtain ⟨first, more, hcons⟩ := List.exists_cons_of_ne_nil hnames
  rw [lines, hkeyword, hcons] at h
  obtain ⟨name, hname, rfl⟩ := List.mem_map.mp h
  exact ⟨name, hcons ▸ hname, rfl⟩

theorem head?_join_segmentText (segs : List String) :
    ∀ c ∈ (String.join (segs.map segmentText)).toList.head?, c = '.' ∨ c = '[' := by
  cases segs with
  | nil => simp
  | cons segment segs =>
    rw [List.map_cons, String.join_cons, String.toList_append, List.head?_append]
    rcases head?_segmentText segment with h | h <;> simp [h]

/-- Below a pointer, the dotted path goes on with a dot or a bracket. -/
theorem dottedPath_of_prefix {front segs : List String} (h : front <+: segs) :
    ∃ rest : String, (∀ c ∈ rest.toList.head?, c = '.' ∨ c = '[') ∧
      dottedPath (Pointer.render segs) = dottedPath (Pointer.render front) ++ rest := by
  obtain ⟨more, rfl⟩ := h
  refine ⟨_, head?_join_segmentText more, ?_⟩
  rw [dottedPath_render, dottedPath_render, List.map_append, String.join_append]

/-- **The lines of a violation lie where it lies**, or below. -/
theorem path_of_prefix {front : List String} {line : String × RejectionItem}
    (h : front <+: v.instancePath) (hline : line ∈ (SchemaError.ofViolation root v).lines) :
    ∃ rest : String, (∀ c ∈ rest.toList.head?, c = '.' ∨ c = '[') ∧
      line.2.path = dottedPath (Pointer.render front) ++ rest := by
  obtain ⟨rest, hrest, hpath⟩ := dottedPath_of_prefix h
  have hinstance : (SchemaError.ofViolation root v).instancePath = Pointer.render v.instancePath := rfl
  rcases SchemaError.path_of_mem_lines hline with heq | ⟨name, heq⟩
  · exact ⟨rest, hrest, by rw [heq, hinstance, hpath]⟩
  · refine ⟨rest ++ ("." ++ name), fun c hc => ?_, by
      rw [heq, hinstance, hpath, String.append_assoc, String.append_assoc]⟩
    rw [String.toList_append, List.head?_append] at hc
    cases hhead : rest.toList.head? with
    | some d => exact hrest c (by simpa [hhead] using hc)
    | none => exact Or.inl (by simpa [hhead, eq_comm] using hc)

theorem dottedPath_query : dottedPath (Pointer.render ["query"]) = ".query" := by decide

theorem dottedPath_query_cons (segs : List String) :
    dottedPath (Pointer.render ("query" :: segs)) = ".query" ++ String.join (segs.map segmentText) := by
  rw [dottedPath_render, List.map_cons, String.join_cons]
  exact congrArg (· ++ _) (by decide : segmentText "query" = ".query")

/-- What lies at a name lies in the query. -/
theorem AtQuery.exists_rest (h : AtQuery name path) : ∃ rest, path = ".query" ++ rest := by
  obtain ⟨rest, -, rfl | rfl⟩ := h
  · refine ⟨"." ++ name ++ rest, ?_⟩
    simp only [← String.append_assoc]
    rfl
  · rw [dottedPath_query_cons, String.append_assoc]
    exact ⟨_, rfl⟩

/-- What lies in another part of a request does not lie in the query. -/
theorem not_atQuery {segment : String} (hsegment : segment ∈ ["headers", "path", "cookies", "body"])
    (rest : String) : ¬AtQuery name ("." ++ segment ++ rest) := by
  intro h
  obtain ⟨rest', heq⟩ := h.exists_rest
  -- the first letters differ
  have hletter := congrArg (fun t => t.toList[1]?) heq
  simp only [List.mem_cons, List.not_mem_nil, or_false] at hsegment
  rcases hsegment with rfl | rfl | rfl | rfl <;> simp at hletter

theorem atQuery_self (name : String) : AtQuery name (".query" ++ "." ++ name) :=
  ⟨"", by simp, Or.inl (by simp)⟩

/-- The keyword of a violation is the last step into the schema. -/
theorem SchemaError.keyword_ofViolation (keyword : String) (detail : Detail) :
    (ofViolation root ((place.under keyword).violation detail)).keyword = keyword := by
  simp [ofViolation, Place.violation, Place.under]

/-- **What is explained lies at a name that something is wrong with.** -/
theorem LocationSchema.Explains.atQuery {s : LocationSchema} {line : String × RejectionItem}
    {other : Json} (h : s.Explains formats root n own place v)
    (hplace : place.instanceSegments = ["query"])
    (hline : line ∈ (SchemaError.ofViolation other v).lines) :
    ∃ name, s.Faulty formats root n own name ∧ AtQuery name line.2.path := by
  have hquery : ∀ detail keyword, dottedPath (SchemaError.ofViolation other
      ((place.under keyword).violation detail)).instancePath = ".query" := by
    intro detail keyword
    rw [← dottedPath_query]
    simp [SchemaError.ofViolation, Place.violation, Place.under, hplace]
  cases h with
  | @missing name hrequired hmissing =>
    have hpath := SchemaError.path_of_missing (SchemaError.keyword_ofViolation _ _) rfl hline
    rw [hpath, hquery]
    exact ⟨name, Or.inl ⟨hrequired, hmissing⟩, atQuery_self name⟩
  | @unexpected names hnonempty hnames =>
    obtain ⟨name, hname, hpath⟩ :=
      SchemaError.path_of_unexpected
        (SchemaError.keyword_ofViolation "additionalProperties" (.unexpected names)) hnonempty hline
    rw [hpath, hquery]
    exact ⟨name, Or.inr (Or.inl (hnames name hname)), atQuery_self name⟩
  | @inside name sub value inner _ hsub hvalue hinner hv =>
    -- the path of the violation continues that of the parameter
    have hwithin := within_violations formats root n sub inner value v hv
    rw [hinner, hplace] at hwithin
    obtain ⟨rest, hrest, hpath⟩ := path_of_prefix hwithin hline
    refine ⟨name, Or.inr (Or.inr ⟨sub, value, hsub, hvalue, fun haccepts => ?_⟩), rest, hrest,
      Or.inr hpath⟩
    rw [violations_eq_nil_iff.mpr haccepts] at hv
    cases hv

/-! ### A whole request -/

namespace RequestSchema

variable {s : RequestSchema} {components : Json} {r : NormalizedRequest} {location : Location}

theorem get?_memberSchemas (s : RequestSchema) (location : Location) :
    get? s.memberSchemas location.field = some (s.parameters.branch location).toEngineSchema := by
  cases location <;> rfl

theorem get?_properties_toEngineSchema (s : RequestSchema) (components : Json) :
    (s.toEngineSchema components).get? "properties" = some (.obj s.memberSchemas) := rfl

/-- The schemas of the parameters are parts of the schema of a request. -/
theorem mem_subvalues_toEngineSchema {sub : Json}
    (hsub : (name, sub) ∈ (s.parameters.branch location).properties) :
    sub ∈ (s.toEngineSchema components).subvalues := by
  have hroot := Json.mem_subvalues_self (s.toEngineSchema components)
  have hmembers := Json.mem_subvalues_of_get? hroot (get?_properties_toEngineSchema s components)
  have hbranch := Json.mem_subvalues_of_get? hmembers (get?_memberSchemas s location)
  have htable := Json.mem_subvalues_of_get? hbranch (LocationSchema.get?_toEngineSchema _).2.1
  exact Json.mem_subvalues_of_mem_children htable (List.mem_map_of_mem (f := Prod.snd) hsub)

/-- A violation of a whole request lies in one of its members, or the body is missing. -/
theorem cases_of_mem_violations
    (h : v ∈ violations formats root (n + 1) (s.toEngineSchema components) Place.root
      r.toInstance) :
    v = (Place.root.under "required").violation (.missing "body") ∨
      (∃ inner, inner.instanceSegments = ["query"] ∧
        v ∈ violations formats root n s.parameters.query.toEngineSchema inner (.obj r.query)) ∨
      ∃ name ∈ ["headers", "path", "cookies", "body"], [name] <+: v.instancePath := by
  change v ∈ violations formats root (n + 1) (.obj _) Place.root _ at h
  rw [violations_of_no_reference (by simp [get?_cons])] at h
  obtain ⟨⟨keyword, demand⟩, hmember, hv⟩ := List.mem_flatMap.mp h
  simp only [List.mem_cons, Prod.mk.injEq, List.not_mem_nil, or_false] at hmember
  rcases hmember with ⟨rfl, rfl⟩ | ⟨rfl, rfl⟩ | ⟨rfl, rfl⟩
  · obtain ⟨name, hrequired, hmissing, rfl⟩ := mem_requiredViolations.mp hv
    -- the four tables are always there
    obtain rfl : name = "body" := by
      by_contra hname
      refine hmissing ?_
      simp only [requiredFields, List.mem_append, List.mem_cons, List.not_mem_nil,
        or_false] at hrequired
      rcases hrequired with (rfl | rfl | rfl) | hbody
      · simp
      · simp
      · simp
      · split at hbody
        · exact absurd (List.mem_singleton.mp hbody) hname
        · cases hbody
    exact Or.inl rfl
  · right
    obtain ⟨⟨name, sub⟩, hsub, hv⟩ := List.mem_flatMap.mp hv
    change (name, sub) ∈ s.memberSchemas at hsub
    dsimp only at hv
    split at hv
    · rename_i value hvalue
      have hprefix := within_violations formats root n sub _ value v hv
      simp only [memberSchemas, List.mem_cons, Prod.mk.injEq, List.not_mem_nil, or_false] at hsub
      rcases hsub with ⟨rfl, rfl⟩ | ⟨rfl, -⟩ | ⟨rfl, -⟩ | ⟨rfl, -⟩ | ⟨rfl, -⟩
      · obtain rfl : Json.obj r.query = value := by simpa [get?_cons] using hvalue
        exact Or.inl ⟨_, rfl, hv⟩
      all_goals exact Or.inr ⟨_, by simp, hprefix⟩
    · cases hv
  · cases hv

/-- **Every item about the query is about a name that something is wrong with.** -/
theorem blames_of_mem_items {predicate : Predicate} {route : String} {item : RejectionItem}
    (hschema : predicate.schema = s.toEngineSchema components)
    (h : item ∈ (Rejection.ofErrors route (predicate.errors r.toInstance)).items) :
    (∀ name, ¬AtQuery name item.path) ∨
      ∃ name, s.parameters.query.Faulty predicate.formats predicate.schema
          (stepsFor predicate.schema r.toInstance - 2) r.query name ∧
        AtQuery name item.path := by
  obtain ⟨line, hline, rfl⟩ := List.mem_map.mp h
  obtain ⟨error, herror, hline⟩ := List.mem_flatMap.mp hline
  obtain ⟨v, hv, rfl⟩ := List.mem_map.mp herror
  obtain ⟨n, hn⟩ : ∃ n, stepsFor predicate.schema r.toInstance = n + 1 + 1 := by
    have hpos := predicate.schema.size_pos
    exact ⟨stepsFor predicate.schema r.toInstance - 2, by rw [stepsFor_eq]; omega⟩
  rw [allViolations, hn, hschema] at hv
  -- the body is missing, or the violation lies in the query, or in another part
  rcases cases_of_mem_violations hv with rfl | ⟨inner, hinner, hv⟩ | ⟨name, hname, hprefix⟩
  · left
    intro name
    have hpath := SchemaError.path_of_missing (SchemaError.keyword_ofViolation _ _) rfl hline
    have hbody : line.2.path = "." ++ "body" ++ "" := by rw [hpath]; rfl
    rw [hbody]
    exact not_atQuery (by simp) ""
  · right
    obtain ⟨name, hfaulty, hat⟩ := (LocationSchema.explains_of_mem_violations hv).atQuery hinner hline
    exact ⟨name, hn ▸ hschema ▸ hfaulty, hat⟩
  · left
    intro other
    obtain ⟨rest, -, hpath⟩ := path_of_prefix hprefix hline
    have hfront : dottedPath (Pointer.render [name]) = "." ++ name := by
      simp only [List.mem_cons, List.not_mem_nil, or_false] at hname
      rcases hname with rfl | rfl | rfl | rfl <;> decide
    rw [hpath, hfront]
    exact not_atQuery hname rest

end RequestSchema

end RequestGate
