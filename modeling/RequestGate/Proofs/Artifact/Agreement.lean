import RequestGate.Proofs.Artifact.Lookup
import RequestGate.Proofs.Document
import RequestGate.Proofs.Gate.Serving
import RequestGate.Proofs.Parameter.Assembly
import RequestGate.Proofs.Validator.Run

/-!
# Ahead of time and live

A document can be used at once, or it can be compiled and the artifact be loaded. Both ways end in a
`RequestGate.Gate`, and a request should not be able to tell them apart. The file says exactly when
it cannot (`RequestGate.Artifact.loaded_agrees_iff`).

A live gate holds a request to the schema that its own content type selects. A loaded gate goes by
what was foreseen, and holds the request to the schema that it finds in the tables under the key and
the content type (`RequestGate.Artifact.schemaFor?`). That is the *stand-in*
(`RequestGate.Artifact.standIn?`) for the request's own.

Everything else is the same on both sides: the plan, and what is made of a request once there is a
schema (`RequestGate.Plan.judge`). So the two ways agree on a request exactly if there is a stand-in
for its schema and the request is judged alike by both.
-/

namespace RequestGate

/-! ### Outcomes -/

/-- Errors of one kind; two refusals must have the same payload. -/
def GateError.SameKind : GateError → GateError → Prop
  | .configuration _, .configuration _ => True
  | .structural .., .structural .. => True
  | .badRequest a, .badRequest b => a = b
  | .artifact .., .artifact .. => True
  | .io _, .io _ => True
  | _, _ => False

/-- The same normalized request, or errors of one kind. -/
def SameOutcome : Except GateError NormalizedRequest → Except GateError NormalizedRequest → Prop
  | .ok m, .ok n => m = n
  | .error e, .error f => e.SameKind f
  | _, _ => False

theorem SameOutcome.refl (x : Except GateError NormalizedRequest) : SameOutcome x x := by
  cases x with
  | ok n => exact rfl
  | error e => cases e <;> trivial

/-! ### Judging by a plan -/

/-- The plan of the operation that a request is sent to. -/
def planFor? (plans : List Plan) (r : Request) : Option Plan :=
  planAt? plans r.method r.route

namespace Plan

/-- The schema that a request is held to, by its content type. -/
def ownSchema (components : Json) (plan : Plan) (r : Request) : RequestSchema :=
  (plan.schemaFor components r.contentType).1

/-- The validator of a plan for a schema. -/
def validator (plan : Plan) (schema : RequestSchema) (predicate : Predicate) (r : Request) :
    Validator :=
  { key := r.key, method := plan.method.name, route := plan.route,
    contentClass := r.contentType.keyClass, mediaType := none, origin := .live,
    parameters := plan.parameters, schema, fingerprint := schema.fingerprint, predicate }

/-- The blueprint that a live gate makes from a plan. -/
def liveBlueprint (components : Json) (plan : Plan) (r : Request) : Blueprint :=
  { method := plan.method.name, route := plan.route,
    mediaType := (plan.schemaFor components r.contentType).2, origin := .live,
    parameters := plan.parameters, schema := plan.ownSchema components r,
    fingerprint := (plan.ownSchema components r).fingerprint }

/-- What becomes of a request to the operation of a plan if it is held to `schema`. -/
def judge (options : Options) (components : Json) (plan : Plan) (schema : RequestSchema)
    (r : Request) : Except GateError NormalizedRequest := do
  let predicate ← (Engine.compile options (schema.toEngineSchema components)).mapError fun fault =>
    .structural plan.route (.notCompilable fault)
  (plan.validator schema predicate r).validate options r

variable {options : Options} {components : Json} {plan : Plan} {schema : RequestSchema}
  {r : Request}

theorem judge_of_compile_eq_ok {p : Predicate}
    (h : Engine.compile options (schema.toEngineSchema components) = .ok p) :
    plan.judge options components schema r = (plan.validator schema p r).validate options r := by
  rw [judge, h]
  rfl

theorem judge_of_compile_eq_error {fault : CompileFault}
    (h : Engine.compile options (schema.toEngineSchema components) = .error fault) :
    plan.judge options components schema r =
      .error (.structural plan.route (.notCompilable fault)) := by
  rw [judge, h]
  rfl

/-- No artifact is to blame for what a plan's own validator says. -/
theorem judge_ne_artifact {path : String} {fault : ArtifactFault} :
    plan.judge options components schema r ≠ .error (.artifact path fault) := by
  intro h
  cases hcompile : Engine.compile options (schema.toEngineSchema components) with
  | error e =>
    rw [judge_of_compile_eq_error hcompile] at h
    cases h
  | ok p =>
    rw [judge_of_compile_eq_ok hcompile] at h
    rcases Validator.validate_error h with ⟨_, he⟩ | ⟨_, he⟩
    · cases he
    · cases he

end Plan

namespace Artifact

/-- The schema that a loaded gate holds a request to. -/
def standIn? (components : Json) (plans : List Plan) (plan : Plan) (r : Request) :
    Option RequestSchema :=
  schemaFor? components plans plan r.key r.contentType

variable {options : Options} {document : Document} {plans : List Plan} {plan : Plan}
  {components : Json} {path : String} {r : Request}

/-! ### The live side -/

/-- The plan that is found belongs to the operation that is looked up. -/
theorem planFor?_cases (hd : document.DistinctPaths) (hplans : document.plans options = .ok plans)
    (r : Request) :
    (document.operation? r.method r.route = none ∧ planFor? plans r = none) ∨
      ∃ operation plan, document.operation? r.method r.route = some operation ∧
        planFor? plans r = some plan ∧
        Plan.assemble document options.settings.allowUnknownQueryParameters operation =
          .ok plan := by
  rw [Document.operation?_eq_find? hd, planFor?, planAt?]
  refine find?_rel (mapM_eq_ok_iff.mp hplans) fun operation plan h => ?_
  rw [(Plan.of_assemble h).1, (Plan.of_assemble h).2.1]

theorem live_validate_of_undeclared (hd : document.DistinctPaths)
    (hplans : document.plans options = .ok plans) (hplan : planFor? plans r = none) :
    ((Gate.ofDocument options document).validate r).1 = .ok (.ofRequest r) := by
  rcases planFor?_cases hd hplans r with ⟨hop, -⟩ | ⟨_, _, -, hsome, -⟩
  · exact Gate.validate_fst_of_undeclared rfl (Gate.blueprintOf_of_undeclared hop)
  · simp [hplan] at hsome

/-- **A live gate judges by the plan**, and by the schema that the content type selects. -/
theorem live_validate (hd : document.DistinctPaths) (hplans : document.plans options = .ok plans)
    (hplan : planFor? plans r = some plan) :
    ((Gate.ofDocument options document).validate r).1 =
      plan.judge options document.components (plan.ownSchema document.components r) r := by
  have hempty : (Gate.ofDocument options document).entryAt r.key.text = none := rfl
  have hblue : (Gate.ofDocument options document).blueprintOf r =
      .ok (some (plan.liveBlueprint document.components r)) := by
    rcases planFor?_cases hd hplans r with ⟨-, hnone⟩ | ⟨operation, plan', hop, hsome, hassemble⟩
    · simp [hplan] at hnone
    · obtain rfl : plan = plan' := by simpa [hplan] using hsome
      rw [Gate.blueprintOf_of_declared hop]
      exact map_eq_ok_iff.mpr ⟨_, bind_eq_ok_iff.mpr ⟨plan, hassemble, rfl⟩, rfl⟩
  -- nothing has been compiled yet, so the predicate is that of the plan's own schema
  cases hcompile : Engine.compile options
      ((plan.ownSchema document.components r).toEngineSchema document.components) with
  | ok p =>
    have hp : (Gate.ofDocument options document).predicateOf
        (plan.liveBlueprint document.components r) = .ok p :=
      Gate.predicateOf_eq_ok_iff.mpr (Or.inr ⟨rfl, hcompile⟩)
    rw [Gate.validate_fst_of_predicate hempty hblue hp, Plan.judge_of_compile_eq_ok hcompile]
    exact Validator.validate_congr rfl rfl rfl rfl options r
  | error fault =>
    have hp : (Gate.ofDocument options document).predicateOf
        (plan.liveBlueprint document.components r) =
          .error (.structural plan.route (.notCompilable fault)) :=
      Gate.predicateOf_eq_error_iff.mpr ⟨rfl, fault, hcompile, rfl⟩
    rw [Gate.validate_fst_of_fault hempty (Or.inr ⟨_, hblue, hp⟩),
      Plan.judge_of_compile_eq_error hcompile]

/-! ### The loaded side -/

theorem mem_of_planFor? (h : planFor? plans r = some plan) : plan ∈ plans :=
  List.mem_of_find?_eq_some h

/-- A stand-in is missing only if there is no class to go by. -/
theorem classFor?_of_standIn?_eq_none (hplan : planFor? plans r = some plan)
    (h : standIn? components plans plan r = none) :
    classFor? components plans plan r.key r.contentType = none := by
  cases hclass : classFor? components plans plan r.key r.contentType with
  | none => rfl
  | some f =>
    obtain ⟨schema, hschema⟩ := exists_schemaFor? (mem_of_planFor? hplan) hclass
    exact absurd (hschema.symm.trans h) (by simp)

theorem blueprintOf_loadedGate_of_undeclared (h : planFor? plans r = none) :
    (loadedGate options path (payloadOf components plans)).blueprintOf r = .ok none := by
  rw [planFor?] at h
  simp only [Gate.blueprintOf, Gate.blueprint, loadedGate, operation?_payloadOf, h, Option.map_none]

theorem blueprintOf_loadedGate (h : planFor? plans r = some plan) :
    (loadedGate options path (payloadOf components plans)).blueprintOf r =
      (Blueprint.ofRecord path (payloadOf components plans) r.key r.contentType
        (recordOf components plan)).map some := by
  rw [planFor?] at h
  simp only [Gate.blueprintOf, Gate.blueprint, loadedGate, operation?_payloadOf, h, Option.map_some]

/-- Loading has compiled every schema that can be found. -/
theorem predicateOf_loadedGate (path : String)
    (hall : AllCompile options components (plans.flatMap (Plan.foreseen components)))
    {b : Blueprint} {schema : RequestSchema}
    (hschema : Entries.get? (payloadOf components plans).schemas b.fingerprint.hex = some schema) :
    ∃ p, (loadedGate options path (payloadOf components plans)).predicateOf b = .ok p ∧
      Engine.compile options (schema.toEngineSchema components) = .ok p := by
  refine ⟨_, Gate.predicateOf_eq_ok_iff.mpr (Or.inl ?_),
    (hall _ (Entries.mem_of_get? hschema)).eq⟩
  have hpredicates : (loadedGate options path (payloadOf components plans)).predicates =
      Entries.mapValues
        (fun schema => ⟨schema.toEngineSchema components, Engine.formats options⟩)
        (payloadOf components plans).schemas := rfl
  rw [hpredicates, Entries.get?_mapValues, hschema]
  rfl

theorem loaded_validate_of_undeclared (h : planFor? plans r = none) :
    ((loadedGate options path (payloadOf components plans)).validate r).1 = .ok (.ofRequest r) :=
  Gate.validate_fst_of_undeclared rfl (blueprintOf_loadedGate_of_undeclared h)

/-- Without a stand-in the artifact is to blame. -/
theorem loaded_validate_of_none (hplan : planFor? plans r = some plan)
    (h : standIn? components plans plan r = none) :
    ((loadedGate options path (payloadOf components plans)).validate r).1 =
      .error (.artifact path (.noVariant r.key)) := by
  refine Gate.validate_fst_of_fault rfl (Or.inl ?_)
  rw [blueprintOf_loadedGate hplan,
    ofRecord_payloadOf_of_none (classFor?_of_standIn?_eq_none hplan h)]
  rfl

/-- **A loaded gate judges by the same plan**, and by the stand-in. -/
theorem loaded_validate {schema : RequestSchema}
    (hall : AllCompile options components (plans.flatMap (Plan.foreseen components)))
    (hplan : planFor? plans r = some plan) (h : standIn? components plans plan r = some schema) :
    ((loadedGate options path (payloadOf components plans)).validate r).1 =
      plan.judge options components schema r := by
  obtain ⟨f, hclass, hschema⟩ := schemaFor?_eq_some_iff.mp h
  have hblue : (loadedGate options path (payloadOf components plans)).blueprintOf r =
      .ok (some (plan.recordedBlueprint f.schema.fingerprint schema r.contentType)) := by
    rw [blueprintOf_loadedGate hplan]
    exact map_eq_ok_iff.mpr
      ⟨_, ofRecord_payloadOf_eq_ok_iff.mpr ⟨f, schema, hclass, hschema, rfl⟩, rfl⟩
  obtain ⟨p, hp, hcompile⟩ := predicateOf_loadedGate path hall
    (b := plan.recordedBlueprint f.schema.fingerprint schema r.contentType) hschema
  rw [Gate.validate_fst_of_predicate rfl hblue hp, Plan.judge_of_compile_eq_ok hcompile]
  exact Validator.validate_congr rfl rfl rfl rfl options r

/-- **Where the two ways meet.** A compiled document can be loaded again with the same options, and
the loaded gate answers a request like a live one exactly if a schema stands in for the request's own
and the two judge it alike. -/
theorem loaded_agrees_iff {root : Json} {now : Timestamp} {a : Artifact} (hroot : root.WellFormed)
    (hdocument : Document.ofJson root = .ok document) (ha : compile options now document = .ok a)
    (path : String) :
    ∃ plans loaded, document.plans options = .ok plans ∧ load options path a = .ok loaded ∧
      ∀ r, SameOutcome (loaded.validate r).1 ((Gate.ofDocument options document).validate r).1 ↔
        ∀ plan, planFor? plans r = some plan →
          ∃ schema, standIn? document.components plans plan r = some schema ∧
            SameOutcome (plan.judge options document.components schema r)
              (plan.judge options document.components (plan.ownSchema document.components r) r) := by
  have hd := Document.distinctPaths_of_ofJson hroot hdocument
  obtain ⟨plans, hplans, hall, rfl⟩ := payload_of_compile ha
  refine ⟨plans, _, hplans, load_sealed now path hall, fun r => ?_⟩
  cases hplan : planFor? plans r with
  | none =>
    rw [live_validate_of_undeclared hd hplans hplan, loaded_validate_of_undeclared hplan]
    simp [SameOutcome.refl]
  | some plan =>
    simp only [Option.some.injEq, forall_eq']
    rw [live_validate hd hplans hplan]
    cases hstand : standIn? document.components plans plan r with
    | some schema =>
      rw [loaded_validate hall hplan hstand]
      simp
    | none =>
      -- without a stand-in the artifact is to blame, which no live gate ever says
      rw [loaded_validate_of_none hplan hstand]
      simp only [reduceCtorEq, false_and, exists_false, iff_false]
      intro hsame
      cases hjudge : plan.judge options document.components
          (plan.ownSchema document.components r) r with
      | ok n => simp [hjudge, SameOutcome] at hsame
      | error e =>
        cases e with
        | artifact path' fault => exact Plan.judge_ne_artifact hjudge
        | _ => simp [hjudge, SameOutcome, GateError.SameKind] at hsame

/-! ### A media type that cannot be foreseen

A body may be declared for `application/json` and for the same with a charset. Both declarations have
the class `application/json`, so the second is never selected at compile time. It is selected for a
request whose header ends in a stray semicolon, which has a class of its own. -/

/-- The body of the only operation. -/
def charsetBody : Json :=
  .obj [("content", .obj
    [("application/json", .obj []), ("application/json; charset=utf-8", .obj [])])]

/-- A document with that operation. -/
def charsetRoot : Json :=
  .obj [("openapi", .str "3.0.0"),
    ("paths", .obj [("/t", .obj [("post", .obj [("requestBody", charsetBody)])])])]

/-- The plan of that operation. -/
def charsetPlan : Plan :=
  { method := .post, route := "/t", parameters := [], schemas := {},
    requestBody := some charsetBody }

/-- A request to it. -/
def straySemicolon : Request :=
  { method := "POST", route := "/t", headers := some [("content-type", .str "application/json;")] }

theorem charsetRoot_wellFormed : charsetRoot.WellFormed := by
  simp [charsetRoot, charsetBody, Json.WellFormed, Json.WellFormedMembers, Entries.Distinct]

theorem charsetRoot_document : Document.ofJson charsetRoot = .ok ⟨charsetRoot⟩ := by
  decide

theorem charsetRoot_plans : Document.plans {} ⟨charsetRoot⟩ = .ok [charsetPlan] := by
  decide

theorem charsetRoot_noFault : ∀ plan ∈ [charsetPlan],
    ∀ f ∈ plan.foreseen (Document.components ⟨charsetRoot⟩),
      Draft7.compileFault? (Engine.formats {})
        (f.schema.toEngineSchema (Document.components ⟨charsetRoot⟩)) = none := by
  decide

/-- The artifact of the document. -/
theorem exists_compile_charset :
    ∃ a, compile {} ⟨0, 0⟩ ⟨charsetRoot⟩ = .ok a ∧
      a.payload = payloadOf (Document.components ⟨charsetRoot⟩) [charsetPlan] := by
  obtain ⟨a, ha⟩ := exists_compile ⟨0, 0⟩ charsetRoot_plans charsetRoot_noFault
  obtain ⟨plans, hplans, -, rfl⟩ := payload_of_compile ha
  obtain rfl : plans = [charsetPlan] := Except.ok.inj (hplans.symm.trans charsetRoot_plans)
  exact ⟨_, ha, rfl⟩

/-- The document can be compiled and loaded, and the condition can be asked of its requests. -/
theorem loaded_agrees_iff_charset :
    ∃ a plans loaded, compile {} ⟨0, 0⟩ ⟨charsetRoot⟩ = .ok a ∧
      Document.plans {} ⟨charsetRoot⟩ = .ok plans ∧ load {} "api.oav.json" a = .ok loaded ∧
      ∀ r, SameOutcome (loaded.validate r).1 ((Gate.ofDocument {} ⟨charsetRoot⟩).validate r).1 ↔
        ∀ plan, planFor? plans r = some plan →
          ∃ schema, standIn? (Document.components ⟨charsetRoot⟩) plans plan r = some schema ∧
            SameOutcome (plan.judge {} (Document.components ⟨charsetRoot⟩) schema r)
              (plan.judge {} (Document.components ⟨charsetRoot⟩)
                (plan.ownSchema (Document.components ⟨charsetRoot⟩) r) r) := by
  obtain ⟨a, ha⟩ := exists_compile ⟨0, 0⟩ charsetRoot_plans charsetRoot_noFault
  obtain ⟨plans, loaded, hplans, hloaded, hagree⟩ :=
    loaded_agrees_iff charsetRoot_wellFormed charsetRoot_document ha "api.oav.json"
  exact ⟨a, plans, loaded, ha, hplans, hloaded, hagree⟩

/-- The live gate accepts the request, and the loaded one blames the artifact. -/
theorem loaded_differs_of_straySemicolon :
    charsetRoot.WellFormed ∧ Document.ofJson charsetRoot = .ok ⟨charsetRoot⟩ ∧
      ∃ a loaded, compile {} ⟨0, 0⟩ ⟨charsetRoot⟩ = .ok a ∧
        load {} "api.oav.json" a = .ok loaded ∧
        (loaded.validate straySemicolon).1 =
          .error (.artifact "api.oav.json" (.noVariant ⟨"post-/t-application/json;"⟩)) ∧
        ((Gate.ofDocument {} ⟨charsetRoot⟩).validate straySemicolon).1 =
          .ok (.ofRequest straySemicolon) := by
  have hplan : planFor? [charsetPlan] straySemicolon = some charsetPlan := by decide
  have hclass : classFor? (Document.components ⟨charsetRoot⟩) [charsetPlan] charsetPlan
      straySemicolon.key straySemicolon.contentType = none := by
    rw [← Option.isNone_iff_eq_none]
    decide
  have hkey : straySemicolon.key = ⟨"post-/t-application/json;"⟩ := by decide
  obtain ⟨a, ha⟩ := exists_compile ⟨0, 0⟩ charsetRoot_plans charsetRoot_noFault
  obtain ⟨plans, hplans, hall, rfl⟩ := payload_of_compile ha
  obtain rfl : plans = [charsetPlan] := Except.ok.inj (hplans.symm.trans charsetRoot_plans)
  refine ⟨charsetRoot_wellFormed, charsetRoot_document, _, _, ha,
    load_sealed ⟨0, 0⟩ "api.oav.json" hall, ?_, by decide⟩
  have hstand : standIn? (Document.components ⟨charsetRoot⟩) [charsetPlan] charsetPlan
      straySemicolon = none := by
    rw [standIn?, schemaFor?, hclass, Option.bind_none]
  rw [loaded_validate_of_none hplan hstand, hkey]

end Artifact

end RequestGate
