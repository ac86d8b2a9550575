import RequestGate.Proofs.Schema.Pruning.Modes
import RequestGate.Validator

/-!
# The instance of a request, before and after pruning

The predicate of a validator looks at the *instance* of a request, one object with a member for each
table and one for the body. What it looks at has been pruned, and the answer is made from what it
looked at. Both directions are safe for one reason: the schema of a whole request declares every
member that an instance can have, so pruning never takes one of them away and never turns a table
into anything else (`RequestGate.Schema.exists_prune_toInstance`). A pruned instance is therefore the
instance of a request again.
-/

namespace RequestGate

namespace RequestSchema

/-- The schemas of the members of an instance. -/
def memberSchemas (schema : RequestSchema) : Entries Json :=
  [("query", schema.parameters.query.toEngineSchema),
   ("headers", schema.parameters.headers.toEngineSchema),
   ("path", schema.parameters.path.toEngineSchema),
   ("cookies", schema.parameters.cookies.toEngineSchema),
   ("body", schema.body.schema)]

variable {schema : RequestSchema} {components : Json}

theorem reference?_toEngineSchema :
    Schema.reference? (schema.toEngineSchema components) = none := by
  simp [Schema.reference?, Json.getStr?, toEngineSchema, Entries.get?_cons]

theorem resolve_toEngineSchema (root : Json) :
    Schema.resolve root (schema.toEngineSchema components) =
      some (schema.toEngineSchema components) := by
  rw [Schema.resolve, Schema.maxHops, Schema.follow, reference?_toEngineSchema]

theorem shape_toEngineSchema :
    Schema.shape (schema.toEngineSchema components) = .object (some schema.memberSchemas) := by
  rw [Schema.shape, reference?_toEngineSchema]
  simp [Schema.plainShape, Schema.primaryType, Json.getArr?, Json.getObj?, Json.hasKey, Json.obj?,
    toEngineSchema, memberSchemas, Entries.get?_cons]

/-- **All members of an instance are declared**, by exactly the schemas they are meant for. -/
theorem properties_toEngineSchema (root : Json) :
    Schema.properties root (schema.toEngineSchema components) = schema.memberSchemas := by
  rw [Schema.properties, Schema.levels, Schema.collectProperties, resolve_toEngineSchema]
  simp [shape_toEngineSchema, Schema.addNew, memberSchemas, Entries.contains, Entries.get?_cons]

end RequestSchema

namespace LocationSchema

variable (schema : LocationSchema)

theorem reference?_toEngineSchema : Schema.reference? schema.toEngineSchema = none := by
  cases hrequired : schema.required <;>
    simp [Schema.reference?, Json.getStr?, toEngineSchema, listMember, Entries.get?_cons, hrequired]

theorem shape_toEngineSchema :
    Schema.shape schema.toEngineSchema = .object (some schema.properties) := by
  rw [Schema.shape, reference?_toEngineSchema]
  cases hrequired : schema.required <;>
    simp [Schema.plainShape, Schema.primaryType, Json.getArr?, Json.getObj?, Json.obj?, toEngineSchema,
      listMember, Entries.get?_cons, hrequired]

end LocationSchema

namespace Schema

variable {root schema : Json} {mode : RemoveAdditional}

/-- Pruning leaves an object an object. -/
theorem exists_pruneWithin_obj (n : Nat) (members : Entries Json) :
    ∃ members', pruneWithin root mode n schema (.obj members) = .obj members' := by
  cases n with
  | zero => exact ⟨members, rfl⟩
  | succ n =>
    rw [pruneWithin]
    split
    · exact ⟨members, rfl⟩
    · exact ⟨_, rfl⟩

/-- No member of an instance can be removed. -/
theorem keepMembers_toInstance (s : RequestSchema) (components : Json) {members : Entries Json}
    (h : ∀ m ∈ members, m.1 ∈ ["query", "headers", "path", "cookies", "body"]) :
    keepMembers root mode (s.toEngineSchema components) s.memberSchemas members = members := by
  rw [keepMembers]
  split
  · refine List.filter_eq_self.mpr fun m hm => ?_
    have hdeclared : Entries.contains s.memberSchemas m.1 = true := by
      have hname := h m hm
      simp only [List.mem_cons, List.not_mem_nil, or_false] at hname
      rcases hname with h | h | h | h | h <;>
        simp [h, Entries.contains, RequestSchema.memberSchemas, Entries.get?_cons]
    rw [hdeclared, Bool.true_or]
  · rfl

/-- **Pruning takes an instance to an instance**, in every mode, and prunes each of its tables by the
schema of its place. -/
theorem exists_prune_toInstance_table (mode : RemoveAdditional) (s : RequestSchema)
    (components : Json) (r : NormalizedRequest) :
    ∃ r' : NormalizedRequest,
      prune mode (s.toEngineSchema components) r.toInstance = r'.toInstance ∧
        ∃ n, ∀ location, pruneWithin (s.toEngineSchema components) mode n
          (s.parameters.branch location).toEngineSchema (.obj (r.table location)) =
            .obj (r'.table location) := by
  rw [prune]
  split
  · exact ⟨r, rfl, 0, fun _ => rfl⟩
  · have hkept : keepMembers (s.toEngineSchema components) mode (s.toEngineSchema components)
        s.memberSchemas
        ([("query", .obj r.query), ("headers", .obj r.headers), ("path", .obj r.path),
          ("cookies", .obj r.cookies)] ++ optionalMember "body" r.body) =
        [("query", .obj r.query), ("headers", .obj r.headers), ("path", .obj r.path),
          ("cookies", .obj r.cookies)] ++ optionalMember "body" r.body := by
      refine keepMembers_toInstance s components ?_
      cases hbody : r.body <;> simp [optionalMember]
    rw [levels, pruneWithin, RequestSchema.resolve_toEngineSchema]
    simp only [NormalizedRequest.toInstance, RequestSchema.properties_toEngineSchema, hkept]
    generalize hf : pruneWithin (s.toEngineSchema components) mode maxHops = f
    have hobj : ∀ schema members, ∃ members', f schema (.obj members) = .obj members' := by
      intro schema members
      rw [← hf]
      exact exists_pruneWithin_obj maxHops members
    obtain ⟨query, hquery⟩ := hobj s.parameters.query.toEngineSchema r.query
    obtain ⟨headers, hheaders⟩ := hobj s.parameters.headers.toEngineSchema r.headers
    obtain ⟨path, hpath⟩ := hobj s.parameters.path.toEngineSchema r.path
    obtain ⟨cookies, hcookies⟩ := hobj s.parameters.cookies.toEngineSchema r.cookies
    refine ⟨{ r with query, headers, path, cookies, body := r.body.map (f s.body.schema) }, ?_,
      maxHops, fun location => ?_⟩
    · rw [mapDeclared, RequestSchema.properties_toEngineSchema]
      cases hbody : r.body <;>
        simp [optionalMember, RequestSchema.memberSchemas, Entries.get?_cons, hquery, hheaders,
          hpath, hcookies]
    · rw [hf]
      cases location with
      | query => exact hquery
      | header => exact hheaders
      | path => exact hpath
      | cookie => exact hcookies

/-- What becomes of the query of an instance. -/
theorem exists_prune_toInstance_query (mode : RemoveAdditional) (s : RequestSchema)
    (components : Json) (r : NormalizedRequest) :
    ∃ r' : NormalizedRequest,
      prune mode (s.toEngineSchema components) r.toInstance = r'.toInstance ∧
        ∃ n, pruneWithin (s.toEngineSchema components) mode n s.parameters.query.toEngineSchema
          (.obj r.query) = .obj r'.query :=
  let ⟨r', h, n, htables⟩ := exists_prune_toInstance_table mode s components r
  ⟨r', h, n, htables .query⟩

/-- A pruned instance is an instance. -/
theorem exists_prune_toInstance (mode : RemoveAdditional) (s : RequestSchema) (components : Json)
    (r : NormalizedRequest) :
    ∃ r' : NormalizedRequest,
      prune mode (s.toEngineSchema components) r.toInstance = r'.toInstance :=
  let ⟨r', h, _⟩ := exists_prune_toInstance_table mode s components r
  ⟨r', h⟩

/-- There is nothing to prune in the empty object. -/
theorem pruneWithin_empty (n : Nat) (schema : Json) :
    pruneWithin root mode n schema (.obj []) = .obj [] := by
  cases n with
  | zero => rfl
  | succ n =>
    rw [pruneWithin]
    split
    · rfl
    · simp [keepMembers, mapDeclared]

/-- There is nothing to prune in a string. -/
theorem pruneWithin_str (n : Nat) (schema : Json) (text : String) :
    pruneWithin root mode n schema (.str text) = .str text := by
  cases n with
  | zero => rfl
  | succ n =>
    rw [pruneWithin]
    split <;> rfl

/-- **A string under a declared name is left as it is.** -/
theorem get?_pruneWithin_str {n : Nat} {s : Json} {members members' : Entries Json} {name text : String}
    (hs : resolve root schema = some s)
    (hdeclared : Entries.contains (properties root s) name = true)
    (h : pruneWithin root mode n schema (.obj members) = .obj members')
    (hget : Entries.get? members name = some (.str text)) :
    Entries.get? members' name = some (.str text) := by
  cases n with
  | zero => exact Json.obj.inj h ▸ hget
  | succ n =>
    rw [pruneWithin, hs] at h
    obtain rfl := Json.obj.inj h
    have hkept : Entries.get? (keepMembers root mode s (properties root s) members) name =
        some (.str text) := by
      rw [keepMembers]
      split
      · rw [Entries.get?_filter_of_forall fun _ => by rw [hdeclared, Bool.true_or], hget]
      · exact hget
    rw [get?_mapDeclared, hkept, Option.map_some]
    cases Entries.get? (properties root s) name with
    | none => rfl
    | some sub => exact congrArg some (pruneWithin_str n sub text)

/-- **What is left of an object was there before**, and what was empty still is. -/
theorem exists_of_mem_pruneWithin {n : Nat} {members members' : Entries Json}
    (h : pruneWithin root mode n schema (.obj members) = .obj members') {e : String × Json}
    (he : e ∈ members') : ∃ v, (e.1, v) ∈ members ∧ (v = .obj [] → e.2 = .obj []) := by
  cases n with
  | zero =>
    obtain rfl : members = members' := Json.obj.inj h
    exact ⟨e.2, he, id⟩
  | succ n =>
    rw [pruneWithin] at h
    split at h
    · obtain rfl : members = members' := Json.obj.inj h
      exact ⟨e.2, he, id⟩
    · rename_i s _
      obtain rfl := Json.obj.inj h
      obtain ⟨⟨name, v⟩, hkept, rfl⟩ := List.mem_map.mp he
      -- members are dropped first, and those that are kept are pruned
      have hmem : (name, v) ∈ members := by
        rw [keepMembers] at hkept
        split at hkept
        · exact (List.mem_filter.mp hkept).1
        · exact hkept
      dsimp only
      split
      · refine ⟨v, hmem, ?_⟩
        rintro rfl
        exact pruneWithin_empty n _
      · exact ⟨v, hmem, id⟩

/-! ### Deserializing without deserializers -/

variable {options : Options}

/-- Without deserializers nothing is deserialized. -/
theorem deserializeWithin_of_none (h : options.deserializers = []) :
    ∀ (n : Nat) (schema value : Json), deserializeWithin options root n schema value = value := by
  intro n
  induction n with
  | zero => exact fun schema value => rfl
  | succ n ih =>
    have hid : deserializeWithin options root n = fun _ value => value :=
      funext fun schema => funext fun value => ih schema value
    intro schema value
    rw [deserializeWithin]
    split
    · rfl
    · rename_i schema' _
      -- a deserializer is looked up for a string, anything else is gone through
      split
      · rw [deserializeString]
        cases schema'.getStr? "format" <;> simp [Options.deserializer?, h]
      · rw [hid]
        cases value with
        | obj members =>
          refine congrArg Json.obj ?_
          rw [mapDeclared]
          refine List.map_id'' (fun m => ?_) members
          obtain ⟨name, value⟩ := m
          simp only
          split <;> rfl
        | arr items =>
          refine congrArg Json.arr ?_
          rw [mapItems]
          split
          · exact List.map_id' items
          · rfl
        | _ => rfl

end Schema

end RequestGate
