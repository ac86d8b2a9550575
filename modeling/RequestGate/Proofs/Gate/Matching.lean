import RequestGate.Proofs.Artifact.Agreement
import RequestGate.Proofs.Artifact.Lookup
import RequestGate.Proofs.Gate.Coherence

/-!
# Whether the schema of a validator fits its parameters

A validator decodes and coerces by its parameters, and it checks names and values by its schema. So the
two had better speak of the same names (`RequestGate.Validator.Matches`): what the schema declares in a
place are the parameters of that place, and what it requires there are those that are flagged so.

In a live gate both come out of one plan, and they match whatever the gate has been asked. A loaded
gate takes the parameters from the record of the operation and the schema from a table that all
operations share, which is looked into by key. The file says which calls leave only validators that
match behind (`RequestGate.Gate.cached_match_iff`): those for which the schema that is found matches the
parameters of the operation, be it the operation's own or another's. Where the dash in a route makes the
key of one operation out of the route and the class of another, it does not
(`RequestGate.Gate.not_matches_of_dash`).
-/

namespace RequestGate

/-- The schema says of the parameters what these say of themselves. -/
def Validator.Matches (v : Validator) : Prop :=
  v.schema.parameters.Matches v.parameters

/-- The plan of the operation that a call is about. -/
def Call.planOf? (plans : List Plan) (call : Call) : Option Plan :=
  planAt? plans call.method call.route

/-- The schema that a loaded gate finds for a call, if the plan is that of its operation. -/
def Call.schemaOf? (components : Json) (plans : List Plan) (call : Call) (plan : Plan) :
    Option RequestSchema :=
  Artifact.schemaFor? components plans plan call.key call.contentType

namespace Gate

/-- The blueprint for a call. -/
def blueprintFor (gate : Gate) (call : Call) : Except GateError (Option Blueprint) :=
  gate.blueprint call.key call.method call.route call.contentType

/-- **Where validators in slots come from**: their parameters and their schema are those of the
blueprint for one of the calls. -/
structure Stems (fresh : Gate) (asked : Call → Prop) (gate : Gate) : Prop where
  source_eq : gate.source = fresh.source
  options_eq : gate.options = fresh.options
  slots : ∀ text v, gate.entryAt text = some (some v) →
    ∃ call b, asked call ∧ fresh.blueprintFor call = .ok (some b) ∧
      v.parameters = b.parameters ∧ v.schema = b.schema

variable {fresh gate next loaded : Gate} {asked : Call → Prop} {call : Call} {v : Validator}
  {slot : Option Validator} {b : Blueprint} {options compiledWith : Options} {document : Document}
  {key : OperationKey} {now : Timestamp} {a : Artifact} {path : String} {components : Json}
  {plans : List Plan} {plan : Plan}

theorem blueprintFor_congr (h : gate.source = fresh.source) (ho : gate.options = fresh.options)
    (call : Call) : gate.blueprintFor call = fresh.blueprintFor call := by
  rw [blueprintFor, blueprintFor, blueprint, blueprint, h, ho]

theorem Stems.afterCall (h : Stems fresh asked gate) (hasked : asked call) :
    Stems fresh asked (gate.afterCall call) := by
  rcases afterCall_cases gate call with hsame | ⟨-, result, hfill⟩
  · rw [hsame]
    exact h
  · obtain ⟨hsource, hoptions⟩ := fillSlot_frame hfill
    refine ⟨hsource.trans h.source_eq, hoptions.trans h.options_eq, fun text v hv => ?_⟩
    rw [entryAt_of_fillSlot hfill] at hv
    split at hv
    · cases result with
      | error e => cases hv
      | ok slot =>
        obtain rfl := Option.some.inj hv
        rcases fillSlot_eq_ok_iff_blueprint.mp hfill with ⟨-, hnone, -⟩ | ⟨b, p, hb, -, hsome, -⟩
        · cases hnone
        · obtain rfl := Option.some.inj hsome
          have hblue := blueprintFor_congr h.source_eq h.options_eq call
          exact ⟨call, b, hasked, hblue.symm.trans hb, rfl, rfl⟩
    · exact h.slots text v hv

theorem Stems.afterCalls {calls : List Call} :
    ∀ {gate : Gate}, Stems fresh asked gate → (∀ c ∈ calls, asked c) →
      Stems fresh asked (gate.afterCalls calls) := by
  induction calls with
  | nil => exact fun h _ => h
  | cons call calls ih =>
    intro gate h hall
    exact ih (h.afterCall (hall call (by simp))) fun c hc => hall c (List.mem_cons_of_mem _ hc)

/-- **A validator that a run leaves behind** has been made for one of its calls. -/
theorem exists_call_of_cached (hempty : fresh.slots = []) {calls : List Call}
    (hall : ∀ c ∈ calls, asked c) (h : (fresh.afterCalls calls).cached? key = some v) :
    ∃ call b, asked call ∧ fresh.blueprintFor call = .ok (some b) ∧
      v.parameters = b.parameters ∧ v.schema = b.schema := by
  have hstart : Stems fresh asked fresh := by
    refine ⟨rfl, rfl, fun text v hv => ?_⟩
    rw [entryAt, slotAt, hempty] at hv
    cases hv
  exact (hstart.afterCalls hall).slots key.text v (cached?_eq_some_iff.mp h)

/-! ### Live gates -/

/-- Schema and parameters come out of one plan. -/
theorem matches_of_live_blueprint
    (h : (ofDocument options document).blueprintFor call = .ok (some b)) :
    b.schema.parameters.Matches b.parameters := by
  cases hop : document.operation? call.method call.route with
  | none => simp [blueprintFor, blueprint, ofDocument, hop] at h
  | some operation =>
    simp only [blueprintFor, blueprint, ofDocument, hop] at h
    obtain ⟨b', hb, hsome⟩ := map_eq_ok_iff.mp h
    obtain rfl := Option.some.inj hsome
    obtain ⟨plan, hplan, hb⟩ := bind_eq_ok_iff.mp hb
    obtain rfl := Except.ok.inj hb
    exact Plan.matches_of_assemble hplan

theorem live_cached_match {calls : List Call}
    (h : ((ofDocument options document).afterCalls calls).cached? key = some v) : v.Matches := by
  have hall : ∀ c ∈ calls, (fun _ => True) c := fun _ _ => trivial
  obtain ⟨call, b, -, hb, hparameters, hschema⟩ := exists_call_of_cached rfl hall h
  rw [Validator.Matches, hparameters, hschema]
  exact matches_of_live_blueprint hb

/-! ### Loaded gates -/

/-- **The blueprint for a call in a loaded gate** has the parameters of the plan and the schema that is
found. -/
theorem loaded_blueprintFor_eq_ok_iff
    (hsource : gate.source = .artifact path (Artifact.payloadOf components plans)) :
    gate.blueprintFor call = .ok (some b) ↔
      ∃ plan f schema, call.planOf? plans = some plan ∧
        Artifact.classFor? components plans plan call.key call.contentType = some f ∧
        Entries.get? (Artifact.payloadOf components plans).schemas f.schema.fingerprint.hex =
          some schema ∧
        b = plan.recordedBlueprint f.schema.fingerprint schema call.contentType := by
  rw [blueprintFor, blueprint, hsource, Call.planOf?]
  simp only [Artifact.operation?_payloadOf]
  cases planAt? plans call.method call.route with
  | none => simp
  | some plan =>
    simp only [Option.map_some, map_eq_ok_iff, Option.some.injEq, exists_eq_right,
      Artifact.ofRecord_payloadOf_eq_ok_iff, exists_eq_left', exists_and_left]

/-- Loading has compiled every schema, so what is found under a fingerprint has a predicate. -/
theorem exists_predicate_of_load (hload : Artifact.load options path a = .ok loaded) {hex : String}
    {schema : RequestSchema} (h : Entries.get? a.payload.schemas hex = some schema) :
    ∃ p, Entries.get? loaded.predicates hex = some p := by
  obtain ⟨-, -, h'⟩ := bind_eq_ok_iff.mp hload
  obtain ⟨predicates, hpredicates, hloaded⟩ := bind_eq_ok_iff.mp h'
  obtain rfl := Except.ok.inj hloaded
  obtain ⟨entry, hentry, hcompiled⟩ :=
    exists_of_mapM_eq_ok hpredicates (Entries.mem_of_get? h)
  have hname : entry.1 = hex := by
    rw [Artifact.compileEntry] at hcompiled
    split at hcompiled
    · exact congrArg Prod.fst (Except.ok.inj hcompiled).symm
    · cases hcompiled
  have hmem : hex ∈ Entries.keys predicates := List.mem_map.mpr ⟨entry, hentry, hname⟩
  exact Option.isSome_iff_exists.mp (Entries.contains_iff.mpr hmem)

/-- A call whose operation and schema are found leaves a validator of them in its slot. -/
theorem exists_cached_of_schemaOf? (hload : Artifact.load options path a = .ok loaded)
    (hpayload : a.payload = Artifact.payloadOf components plans)
    (hplan : call.planOf? plans = some plan) {schema : RequestSchema}
    (hschema : call.schemaOf? components plans plan = some schema) :
    ∃ v, (loaded.afterCalls [call]).cached? call.key = some v ∧
      v.parameters = plan.parameters ∧ v.schema = schema := by
  obtain ⟨hsource, hslots⟩ := Artifact.load_eq_ok hload
  rw [hpayload] at hsource
  obtain ⟨f, hclass, hget⟩ := Artifact.schemaFor?_eq_some_iff.mp hschema
  have hblue : loaded.blueprintFor call =
      .ok (some (plan.recordedBlueprint f.schema.fingerprint schema call.contentType)) :=
    (loaded_blueprintFor_eq_ok_iff hsource).mpr ⟨plan, f, schema, hplan, hclass, hget, rfl⟩
  obtain ⟨p, hp⟩ := exists_predicate_of_load hload (hpayload ▸ hget)
  have hfill := fillSlot_eq_ok_iff_blueprint.mpr
    (Or.inr ⟨_, p, hblue, predicateOf_eq_ok_iff.mpr (Or.inl hp), rfl, rfl⟩)
  have hempty : loaded.entryAt call.key.text = none := by
    rw [entryAt, slotAt, hslots, Entries.get?_nil, Option.getD_none]
  refine ⟨(plan.recordedBlueprint f.schema.fingerprint schema call.contentType).validator
    call.key call.contentType p, ?_, rfl, rfl⟩
  rw [afterCalls_cons, afterCalls_nil, afterCall_of_fillSlot hempty hfill, cached?_eq_some_iff,
    entryAt_of_fillSlot hfill, if_pos rfl, Except.toOption]

/-- **Which calls leave only validators that match.** In a live gate all do. In a gate that was loaded
from the artifact of a document it is exactly those for which the schema that is found, whosever it is,
matches the parameters of the operation. -/
theorem cached_match_iff (ha : Artifact.compile compiledWith now document = .ok a)
    (hload : Artifact.load options path a = .ok loaded) :
    (∀ calls key v, ((ofDocument options document).afterCalls calls).cached? key = some v →
        v.Matches) ∧
      ∃ plans, document.plans compiledWith = .ok plans ∧
        ∀ asked : Call → Prop,
          (∀ calls, (∀ c ∈ calls, asked c) →
              ∀ key v, (loaded.afterCalls calls).cached? key = some v → v.Matches) ↔
            ∀ call, asked call → ∀ plan, call.planOf? plans = some plan →
              ∀ schema, call.schemaOf? document.components plans plan = some schema →
                schema.parameters.Matches plan.parameters := by
  obtain ⟨plans, hplans, -, hsealed⟩ := Artifact.payload_of_compile ha
  have hpayload : a.payload = Artifact.payloadOf document.components plans := by rw [hsealed]; rfl
  obtain ⟨hsource, hslots⟩ := Artifact.load_eq_ok hload
  rw [hpayload] at hsource
  refine ⟨fun calls key v => live_cached_match, plans, hplans, fun asked => ⟨?_, ?_⟩⟩
  · -- one call is enough to leave the validator behind
    intro h call hasked plan hplan schema hschema
    obtain ⟨v, hv, hparameters, hown⟩ :=
      exists_cached_of_schemaOf? hload hpayload hplan hschema
    have hmatches : v.Matches := h [call] (by simpa using hasked) call.key v hv
    rwa [Validator.Matches, hparameters, hown] at hmatches
  · intro h calls hcalls key v hv
    obtain ⟨call, b, hasked, hb, hparameters, hschema⟩ := exists_call_of_cached hslots hcalls hv
    obtain ⟨plan, f, schema, hplan, hclass, hget, rfl⟩ :=
      (loaded_blueprintFor_eq_ok_iff hsource).mp hb
    rw [Validator.Matches, hparameters, hschema]
    exact h call hasked plan hplan schema
      (Artifact.schemaFor?_eq_some_iff.mpr ⟨f, hclass, hget⟩)

/-! ### A route with a dash

The route `/a-x` with the class `y/z` has the same key as the route `/a` with the class `x-y/z`. Only
the first is foreseen at compile time, and requests to the second find its schema. -/

/-- The parameter of the second operation. -/
def dashLimit : Json :=
  .obj [("name", .str "limit"), ("in", .str "query"), ("required", .bool true),
    ("schema", .obj [("type", .str "integer")])]

/-- A document with both operations. -/
def dashRoot : Json :=
  .obj [("openapi", .str "3.0.0"),
    ("paths", .obj
      [("/a-x", .obj
        [("post", .obj [("requestBody", .obj [("content", .obj [("y/z", .obj [])])])])]),
       ("/a", .obj [("post", .obj [("parameters", .arr [dashLimit])])])])]

/-- The plan of the first. -/
def mediaPlan : Plan :=
  { method := .post, route := "/a-x", parameters := [], schemas := {},
    requestBody := some (.obj [("content", .obj [("y/z", .obj [])])]) }

/-- The plan of the second. -/
def limitPlan : Plan :=
  let limit : Parameter :=
    { name := "limit", location := .query, required := true, style := "form", explode := true,
      allowEmptyValue := false, schema := .obj [("type", .str "integer")], contentMediaType := none }
  { method := .post, route := "/a", parameters := [limit],
    schemas := { query := limit.addTo (.empty .query) }, requestBody := none }

/-- A request to the second operation, without its parameter. -/
def dashed : Request :=
  { method := "POST", route := "/a", headers := some [("content-type", .str "x-y/z")] }

theorem dashRoot_plans : Document.plans {} ⟨dashRoot⟩ = .ok [mediaPlan, limitPlan] := by
  decide

/-- The artifact of the document can be compiled and loaded. -/
theorem exists_load_dash :
    ∃ a loaded, Artifact.compile {} ⟨0, 0⟩ ⟨dashRoot⟩ = .ok a ∧
      Artifact.load {} "api.oav.json" a = .ok loaded := by
  have hfaults : ∀ plan ∈ [mediaPlan, limitPlan],
      ∀ f ∈ plan.foreseen (Document.components ⟨dashRoot⟩),
        Draft7.compileFault? (Engine.formats {})
          (f.schema.toEngineSchema (Document.components ⟨dashRoot⟩)) = none := by
    decide
  obtain ⟨a, ha⟩ := Artifact.exists_compile ⟨0, 0⟩ dashRoot_plans hfaults
  obtain ⟨loaded, hloaded⟩ := Artifact.exists_load_of_compile "api.oav.json" ha
  exact ⟨a, loaded, ha, hloaded⟩

/-- The condition can be asked of the calls to that gate. -/
theorem cached_match_iff_dash :
    ∃ a loaded plans, Artifact.compile {} ⟨0, 0⟩ ⟨dashRoot⟩ = .ok a ∧
      Artifact.load {} "api.oav.json" a = .ok loaded ∧
      Document.plans {} ⟨dashRoot⟩ = .ok plans ∧
      ((∀ calls, (∀ c ∈ calls, c.key = ⟨"post-/a-x-y/z"⟩) →
          ∀ key v, (loaded.afterCalls calls).cached? key = some v → v.Matches) ↔
        ∀ call : Call, call.key = ⟨"post-/a-x-y/z"⟩ → ∀ plan, call.planOf? plans = some plan →
          ∀ schema,
            call.schemaOf? (Document.components ⟨dashRoot⟩) plans plan = some schema →
            schema.parameters.Matches plan.parameters) := by
  obtain ⟨a, loaded, ha, hloaded⟩ := exists_load_dash
  obtain ⟨-, plans, hplans, hiff⟩ := cached_match_iff ha hloaded
  exact ⟨a, loaded, plans, ha, hloaded, hplans, hiff fun c => c.key = ⟨"post-/a-x-y/z"⟩⟩

/-- The class that the request goes by is the first one of all, so the schema under its fingerprint is
its own. -/
theorem schemaOf?_dashed :
    (Call.validate dashed).schemaOf? (Document.components ⟨dashRoot⟩) [mediaPlan, limitPlan]
        limitPlan = some (mediaPlan.foresee (Document.components ⟨dashRoot⟩) "y/z").schema := by
  have hforeseen : [mediaPlan, limitPlan].flatMap
      (Plan.foreseen (Document.components ⟨dashRoot⟩)) =
        [mediaPlan.foresee (Document.components ⟨dashRoot⟩) "y/z",
          mediaPlan.foresee (Document.components ⟨dashRoot⟩) "not_provided",
          limitPlan.foresee (Document.components ⟨dashRoot⟩) "not_provided"] := by
    have hmedia : mediaPlan.contentClasses = ["y/z", "not_provided"] := by decide
    have hlimit : limitPlan.contentClasses = ["not_provided"] := by decide
    simp [Plan.foreseen, hmedia, hlimit]
  have hclass : Artifact.classFor? (Document.components ⟨dashRoot⟩) [mediaPlan, limitPlan]
      limitPlan (Call.validate dashed).key (Call.validate dashed).contentType =
        some (mediaPlan.foresee (Document.components ⟨dashRoot⟩) "y/z") := by
    have hown : (OperationKey.ofClass mediaPlan.method.name mediaPlan.route "y/z").text =
        dashed.key.text := by decide
    have hmedia : (OperationKey.ofClass mediaPlan.method.name mediaPlan.route
        "not_provided").text ≠ dashed.key.text := by decide
    have hlimit : (OperationKey.ofClass limitPlan.method.name limitPlan.route
        "not_provided").text ≠ dashed.key.text := by decide
    simp [Artifact.classFor?, hforeseen, Plan.foresee, Call.key, hown, hmedia, hlimit]
  rw [Call.schemaOf?, Artifact.schemaFor?, hclass, hforeseen, Option.bind_some,
    List.find?_cons_of_pos (by simp only [beq_self_eq_true]), Option.map_some]

/-- The request leaves a validator behind that has the required parameter `limit` in the query, and
whose schema neither declares nor requires it. -/
theorem not_matches_of_dash :
    ∃ a loaded v, Artifact.compile {} ⟨0, 0⟩ ⟨dashRoot⟩ = .ok a ∧
      Artifact.load {} "api.oav.json" a = .ok loaded ∧
      (loaded.validate dashed).2.cached? dashed.key = some v ∧
      (∃ p ∈ v.parameters, p.name = "limit" ∧ p.location = .query ∧ p.required = true) ∧
      (v.schema.parameters.branch .query).declares "limit" = false ∧
      (v.schema.parameters.branch .query).required = [] := by
  obtain ⟨a, loaded, ha, hloaded⟩ := exists_load_dash
  obtain ⟨plans, hplans, -, hsealed⟩ := Artifact.payload_of_compile ha
  obtain rfl : plans = [mediaPlan, limitPlan] := Except.ok.inj (hplans.symm.trans dashRoot_plans)
  have hpayload : a.payload = Artifact.payloadOf (Document.components ⟨dashRoot⟩)
      [mediaPlan, limitPlan] := by
    rw [hsealed]
    rfl
  have hplan : (Call.validate dashed).planOf? [mediaPlan, limitPlan] = some limitPlan := by
    decide
  obtain ⟨v, hv, hparameters, hschema⟩ := exists_cached_of_schemaOf? hloaded hpayload hplan
    schemaOf?_dashed
  refine ⟨a, loaded, v, ha, hloaded, hv, ?_⟩
  rw [hparameters, hschema]
  decide

end Gate

end RequestGate
