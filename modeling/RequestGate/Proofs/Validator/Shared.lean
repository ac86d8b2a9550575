import RequestGate.Proofs.Artifact.Agreement
import RequestGate.Proofs.Draft7.Report
import RequestGate.Proofs.Operation.Rearranged
import RequestGate.Proofs.Schema.Components
import RequestGate.Proofs.Schema.Supplied
import RequestGate.Proofs.Validator.Run
import RequestGate.Proofs.Validator.Stages
import RequestGate.Proofs.Validator.WellFormed
import RequestGate.Proofs.Wording

/-!
# Predicates that are shared

Two schemas of one fingerprint share a predicate, and in an artifact only the first of them is kept. So
a request can be held to a schema that is not its own. If the two differ in nothing but the order of
members, this is noticed only where a request is refused by the engine, and there only in the order of
the items (`RequestGate.Plan.sameUpToItems_judge`).

The fingerprint leaves more open than that. It does not tell the order within an object that a value is
compared with, nor how a number was written, and for these the verdict itself depends on which schema
came first.
-/

namespace RequestGate

open Json

/-- Outcomes that differ at most in the order in which a rejection lists what the engine reported. -/
inductive SameUpToItems :
    Except GateError NormalizedRequest → Except GateError NormalizedRequest → Prop where
  | same (outcome : Except GateError NormalizedRequest) : SameUpToItems outcome outcome
  | items (route : String) {errors others : List SchemaError}
    (h : (errors.flatMap SchemaError.lines).Perm (others.flatMap SchemaError.lines)) :
    SameUpToItems (.error (.badRequest (.ofErrors route errors)))
      (.error (.badRequest (.ofErrors route others)))

theorem map_fst_eq_of_map_snd_eq {α β : Type} {l l' : List (α × β)}
    (h : l.map Prod.snd = l'.map Prod.snd) (hfst : ∀ a ∈ l, ∀ b ∈ l', a.2 = b.2 → a.1 = b.1) :
    l.map Prod.fst = l'.map Prod.fst := by
  induction l generalizing l' with
  | nil => rw [List.map_eq_nil_iff.mp h.symm]
  | cons a l ih =>
    cases l' with
    | nil => cases h
    | cons b l' =>
      obtain ⟨hhead, htail⟩ := List.cons.inj h
      rw [List.map_cons, List.map_cons, hfst a (by simp) b (by simp) hhead, ih htail fun c hc d hd =>
        hfst c (List.mem_cons_of_mem a hc) d (List.mem_cons_of_mem b hd)]

/-- **The order of the items is all there is to see**, for the summary follows it. -/
theorem SameUpToItems.eq_iff {x y : Except GateError NormalizedRequest} (h : SameUpToItems x y) :
    x = y ↔ ∀ a b, x = .error (.badRequest a) → y = .error (.badRequest b) → a.items = b.items := by
  refine ⟨fun heq a b ha hb => ?_, fun hitems => ?_⟩
  · rw [heq, hb] at ha
    cases ha
    rfl
  · cases h with
    | same _ => rfl
    | @items route errors others _ =>
      have hsnd := hitems _ _ rfl rfl
      have hfst := map_fst_eq_of_map_snd_eq hsnd fun l hl l' hl' heq => by
        obtain ⟨e, -, he⟩ := List.mem_flatMap.mp hl
        obtain ⟨e', -, he'⟩ := List.mem_flatMap.mp hl'
        exact SchemaError.summary_eq_of_item_eq he he' heq
      simp only [Rejection.ofErrors, Rejection.ofParts] at hsnd hfst ⊢
      rw [hfst, hsnd]

namespace Validator

variable {v w : Validator} {options : Options} {request : Request} {prepared : NormalizedRequest}

/-! ### Before the check -/

theorem unknownQueryItems_eq {a b : LocationSchema} (h : a.Alike b) (prepared : NormalizedRequest) :
    unknownQueryItems a prepared = unknownQueryItems b prepared := by
  simp only [unknownQueryItems, h.additionalProperties, h.declares_eq]

theorem emptyQueryItems_eq {a b : LocationSchema} (h : a.Alike b) (request : Request) :
    emptyQueryItems a request = emptyQueryItems b request := by
  simp only [emptyQueryItems, h.allowEmptyValue, h.declares_eq]

/-- **Requests are prepared alike** by validators whose schemas differ in the order of members, if
references stay among the components and the bodies are supplied with the same defaults in the same
order. -/
theorem prepare_eq (hroute : v.route = w.route) (hparameters : v.parameters = w.parameters)
    (hroot : Rearranged v.predicate.schema w.predicate.schema)
    (hcomponents : Schema.SameComponents v.predicate.schema w.predicate.schema)
    (hwell : ∀ p ∈ v.parameters, p.WellFormed)
    (hrefers : ∀ p ∈ v.parameters, Schema.RefersToComponents p.schema)
    (hbody : Rearranged v.schema.body.schema w.schema.body.schema)
    (hsupplies : Schema.SuppliesAlike v.predicate.schema w.predicate.schema Schema.levels
      v.schema.body.schema w.schema.body.schema)
    (hrequest : ∀ b ∈ request.body, b.WellFormed) : v.prepare request = w.prepare request := by
  have hcoerce : ∀ r : NormalizedRequest, r.coerceParameters v.predicate.schema v.parameters =
      r.coerceParameters w.predicate.schema v.parameters := by
    intro r
    rw [NormalizedRequest.coerceParameters_eq, NormalizedRequest.coerceParameters_eq]
    refine NormalizedRequest.mapTables_congr (fun p hp table => ?_) r
    rw [funext (Schema.coerce_eq hroot (.refl (hwell p hp)))]
  -- unlike coercion, supplying defaults depends on the order in which they are declared
  have hfill : ∀ r : NormalizedRequest, r.body = request.body →
      r.applyDefaults v.predicate.schema v.parameters v.schema.body.schema =
        r.applyDefaults w.predicate.schema v.parameters w.schema.body.schema := by
    intro r hr
    have htables : NormalizedRequest.mapTables (fun p table => Schema.fillProperty v.predicate.schema
          (Schema.fillDefaults v.predicate.schema) table (p.name, p.schema)) v.parameters r =
        NormalizedRequest.mapTables (fun p table => Schema.fillProperty w.predicate.schema
          (Schema.fillDefaults w.predicate.schema) table (p.name, p.schema)) v.parameters r :=
      NormalizedRequest.mapTables_congr (fun p hp table =>
        hcomponents.fillProperty_eq table (p := (p.name, p.schema)) (hrefers p hp)
          (hcomponents.fillDefaults_eq (hrefers p hp))) r
    rw [NormalizedRequest.applyDefaults_eq, NormalizedRequest.applyDefaults_eq, htables]
    refine NormalizedRequest.mapBody_congr fun b hb => ?_
    rw [NormalizedRequest.body_mapTables, hr] at hb
    exact Schema.fillDefaults_eq hroot hbody hsupplies (hrequest b hb)
  have hdecode := Style.decode_eq hcomponents hrefers v.route request
  cases hdecoded : Style.decode v.predicate.schema v.route v.parameters request with
  | error e =>
    rw [prepare_of_decode_error hdecoded]
    rw [hdecode, hroute, hparameters] at hdecoded
    rw [prepare_of_decode_error hdecoded]
  | ok decoded =>
    -- the body reaches the defaults as it was sent
    have hbody : (decoded.coerceParameters w.predicate.schema v.parameters).body = request.body := by
      rw [NormalizedRequest.coerceParameters_eq, NormalizedRequest.body_mapTables,
        Style.body_decode hdecoded]
    rw [prepare_eq_ok_iff.mpr ⟨decoded, hdecoded, rfl⟩, hcoerce, hfill _ hbody, hparameters]
    rw [hdecode, hroute, hparameters] at hdecoded
    rw [prepare_eq_ok_iff.mpr ⟨decoded, hdecoded, rfl⟩]

/-! ### The check and what follows it -/

theorem applyDeserializers_eq {root root' body body' : Json} {parameters : List Parameter}
    (hroot : Rearranged root root') (hbody : Rearranged body body')
    (hwell : ∀ p ∈ parameters, p.WellFormed) (r : NormalizedRequest) :
    r.applyDeserializers options root parameters body =
      r.applyDeserializers options root' parameters body' := by
  rw [NormalizedRequest.applyDeserializers_eq, NormalizedRequest.applyDeserializers_eq,
    funext (Schema.deserialize_eq options hroot hbody)]
  refine congrArg _ (NormalizedRequest.mapTables_congr (fun p hp table => ?_) r)
  rw [funext (Schema.deserialize_eq options hroot (.refl (hwell p hp)))]

/-- **What is prepared alike is judged alike**, up to the order of items, by validators whose schemas
differ in the order of members. -/
theorem sameUpToItems_validate (hroute : v.route = w.route) (hparameters : v.parameters = w.parameters)
    (hschema : Rearranged v.schema.toJson w.schema.toJson)
    (hroot : Rearranged v.predicate.schema w.predicate.schema)
    (hformats : v.predicate.formats = w.predicate.formats)
    (hwell : ∀ p ∈ v.parameters, p.WellFormed) (hprepare : v.prepare request = w.prepare request) :
    SameUpToItems (v.validate options request) (w.validate options request) := by
  have halike := RequestSchema.alike_of_toJson hschema.alike
  have hquery : v.schema.parameters.query.Alike w.schema.parameters.query := halike.branch .query
  have hbody : Rearranged v.schema.body.schema w.schema.body.schema :=
    RequestSchema.rearranged_body hschema
  cases hprepared : v.prepare request with
  | error e =>
    rw [validate_of_prepare_error hprepared, validate_of_prepare_error (hprepare ▸ hprepared)]
    exact .same _
  | ok prepared =>
    have hprepared' := hprepare ▸ hprepared
    by_cases hunknown : unknownQueryItems v.schema.parameters.query prepared = []
    · have hunknown' := unknownQueryItems_eq hquery prepared ▸ hunknown
      by_cases hempty : emptyQueryItems v.schema.parameters.query request = []
      · have hempty' := emptyQueryItems_eq hquery request ▸ hempty
        have hchecked : v.checked options prepared = w.checked options prepared :=
          Schema.prune_eq hroot _ _
        by_cases herrors : v.predicate.errors (v.checked options prepared) = []
        · have herrors' := (Predicate.errors_eq_nil_iff hroot hformats _).mp herrors
          rw [validate_of_no_errors hprepared hunknown hempty herrors,
            validate_of_no_errors hprepared' hunknown' hempty' (hchecked ▸ herrors'), hchecked,
            applyDeserializers_eq hroot hbody hwell, hparameters]
          exact .same _
        · have herrors' := mt (Predicate.errors_eq_nil_iff hroot hformats _).mpr herrors
          rw [validate_of_errors hprepared hunknown hempty herrors,
            validate_of_errors hprepared' hunknown' hempty' (hchecked ▸ herrors'), ← hroute, ← hchecked]
          exact .items v.route (Predicate.perm_lines hroot hformats _)
      · rw [validate_of_empty hprepared hunknown hempty, validate_of_empty hprepared' hunknown'
          (emptyQueryItems_eq hquery request ▸ hempty), ← emptyQueryItems_eq hquery, hroute]
        exact .same _
    · rw [validate_of_unknown hprepared hunknown, validate_of_unknown hprepared'
        (unknownQueryItems_eq hquery prepared ▸ hunknown), ← unknownQueryItems_eq hquery, hroute]
      exact .same _

end Validator

/-! ### Schemas of one document -/

/-- **Sharing a predicate goes unnoticed, up to the order of items.** A request is held to a schema of
the same fingerprint instead of its own, and to the predicate that was compiled from that. The two
schemas differ in nothing but the order of members, and not under keywords whose values are compared or
shown as they stand; references lead into the components; and the body is supplied with the same defaults
in the same order. Then the outcomes are the same exactly if no two rejections list their items in
different orders. -/
theorem Plan.sameUpToItems_judge {document : Document} {allow : Bool} {operation : Operation}
    {plan : Plan} {own first : RequestSchema} {options : Options} {request : Request}
    (hdocument : document.root.WellFormed) (hop : operation ∈ document.operations)
    (hplan : Plan.assemble document allow operation = .ok plan)
    (hown : Artifact.Compiles options document.components own)
    (hfirst : Artifact.Compiles options document.components first)
    (hshared : Rearranged own.toJson first.toJson)
    (hcomponents : Schema.RefersToComponents document.components)
    (hparameters : ∀ p ∈ plan.parameters, Schema.RefersToComponents p.schema)
    (hsupplies : Schema.SuppliesAlike (own.toEngineSchema document.components)
      (first.toEngineSchema document.components) Schema.levels own.body.schema first.body.schema)
    (hrequest : ∀ b ∈ request.body, b.WellFormed) :
    own.fingerprint = first.fingerprint ∧
      SameUpToItems (plan.judge options document.components own request)
        (plan.judge options document.components first request) ∧
      (plan.judge options document.components own request =
          plan.judge options document.components first request ↔
        ∀ a b, plan.judge options document.components own request = .error (.badRequest a) →
          plan.judge options document.components first request = .error (.badRequest b) →
          a.items = b.items) := by
  obtain ⟨p, hp⟩ := hown
  obtain ⟨q, hq⟩ := hfirst
  obtain rfl := Engine.eq_of_compile_eq_ok hp
  obtain rfl := Engine.eq_of_compile_eq_ok hq
  have hroot := RequestSchema.rearranged_toEngineSchema hshared
    (Document.wellFormed_components hdocument)
  have hsame : Schema.SameComponents (own.toEngineSchema document.components)
      (first.toEngineSchema document.components) := by
    refine ⟨rfl, fun components hmem => ?_⟩
    obtain rfl : document.components = components := Option.some.inj hmem
    exact hcomponents
  have hwell := (Plan.wellFormed_of_assemble hdocument hop hplan).parameters
  have hjudge : SameUpToItems (plan.judge options document.components own request)
      (plan.judge options document.components first request) := by
    rw [judge_of_compile_eq_ok hp, judge_of_compile_eq_ok hq]
    exact Validator.sameUpToItems_validate rfl rfl hshared hroot rfl hwell
      (Validator.prepare_eq rfl rfl hroot hsame hwell hparameters
        (RequestSchema.rearranged_body hshared) hsupplies hrequest)
  exact ⟨RequestSchema.fingerprint_eq_of_rearranged hshared, hjudge, hjudge.eq_iff⟩

/-! ### Twins

Two operations of one document are declared alike, except for the way in which the schema of the body is
written. -/

/-- An operation with a query parameter and a body. -/
def twinOperation (route : String) (schema : Json) : Operation :=
  let declaration : Json := .obj
    [("parameters", .arr [.obj [("name", .str "limit"), ("in", .str "query"),
      ("schema", limitParameter.schema)]]),
     ("requestBody", .obj [("content", .obj [("application/json", .obj [("schema", schema)])])])]
  { method := .post, route, pathItem := .obj [("post", declaration)], declaration }

/-- The document of two such operations. -/
def twinDocument (a b : Json) : Document :=
  ⟨.obj [("openapi", .str "3.0.0"), ("paths", .obj
    [("/a", (twinOperation "/a" a).pathItem), ("/b", (twinOperation "/b" b).pathItem)])]⟩

/-- The plan of one of them. -/
def twinPlan (route : String) (schema : Json) : Plan :=
  { limitPlan with
    method := .post, route
    requestBody := some (.obj [("content", .obj [("application/json", .obj [("schema", schema)])])]) }

/-- The schema of its requests. -/
def twinSchema (schema : Json) : RequestSchema := ⟨limitPlan.schemas, ⟨schema, false⟩⟩

/-- A request to one of them. -/
def twinRequest (route : String) (body : Json) : Request :=
  { method := "POST", route, headers := some [("content-type", .str "application/json")]
    body := some body }

/-- A schema with one property that has a default, and two that have none. -/
def orderA : Json :=
  .obj [("type", .str "object"), ("properties", .obj
    [("x", .obj [("type", .str "integer")]),
     ("y", .obj [("type", .str "string"), ("default", .str "d")]),
     ("z", .obj [("type", .str "integer")])])]

/-- The same schema, written in another order. -/
def orderB : Json :=
  .obj [("properties", .obj
    [("z", .obj [("type", .str "integer")]),
     ("y", .obj [("default", .str "d"), ("type", .str "string")]),
     ("x", .obj [("type", .str "integer")])]), ("type", .str "object")]

/-- A body in which both members are of the wrong type. -/
def wrongBody : Json := .obj [("x", .str "p"), ("z", .str "q")]

theorem twin_compiles {a b schema : Json}
    (h : Draft7.compileFault? (Engine.formats {})
      ((twinSchema schema).toEngineSchema (twinDocument a b).components) = none) :
    Artifact.Compiles {} (twinDocument a b).components (twinSchema schema) :=
  ⟨_, by rw [Engine.compile, h]⟩

/-- The second twin is held to the schema of the first. Two members are wrong, and they are reported in
the order in which the first twin declares them. -/
theorem sameUpToItems_judge_twins :
    let document := twinDocument orderA orderB
    let judge := fun schema => (twinPlan "/b" orderB).judge {} document.components (twinSchema schema)
      (twinRequest "/b" wrongBody)
    (twinSchema orderB).fingerprint = (twinSchema orderA).fingerprint ∧
      SameUpToItems (judge orderB) (judge orderA) ∧
      (judge orderB = judge orderA ↔ ∀ a b, judge orderB = .error (.badRequest a) →
        judge orderA = .error (.badRequest b) → a.items = b.items) := by
  refine @Plan.sameUpToItems_judge (twinDocument orderA orderB) false (twinOperation "/b" orderB)
    _ _ _ _ _ ?_ ?_ ?_ ?_ ?_ ?_ ?_ ?_ ?_ ?_
  · decide
  · decide
  · decide
  · exact twin_compiles (by decide)
  · exact twin_compiles (by decide)
  · decide
  · decide
  · decide
  · decide
  · decide

/-- A bound that is written without a point. -/
def pointlessBound : Json :=
  .obj [("type", .str "integer"), ("maximum", .num (.int 1152921504606847000))]

/-- The same bound written with a point, so that it is the nearest double. -/
def pointedBound : Json :=
  .obj [("type", .str "integer"),
    ("maximum", .num (.float ⟨false, 4503599627370496, 8, by decide⟩))]

/-- **The verdict depends on which twin came first.** The two bounds have the same canonical text, though
they differ by 24. A number between them is refused by the second twin, and accepted when this is held to
the schema of the first, which has the same fingerprint. -/
theorem judge_twins_differ :
    let document := twinDocument pointlessBound pointedBound
    let request := twinRequest "/b" (.num (.int 1152921504606846990))
    let plan := twinPlan "/b" pointedBound
    Document.ofJson document.root = .ok document ∧
      Document.plans {} document = .ok [twinPlan "/a" pointlessBound, plan] ∧
      plan.ownSchema document.components request = twinSchema pointedBound ∧
      (twinPlan "/a" pointlessBound).ownSchema document.components request = twinSchema pointlessBound ∧
      (twinSchema pointedBound).fingerprint = (twinSchema pointlessBound).fingerprint ∧
      plan.judge {} document.components (twinSchema pointedBound) request =
        .error (.badRequest (.ofParts "/b" ["request.body must be <= 1.152921504606847e+18"]
          [⟨".body", "must be <= 1.152921504606847e+18",
            some "request.body must be <= 1.152921504606847e+18",
            some "maximum.openapi.validation"⟩])) ∧
      plan.judge {} document.components (twinSchema pointlessBound) request =
        .ok (.ofRequest request) := by
  have halike : (twinSchema pointedBound).toJson.canonical =
      (twinSchema pointlessBound).toJson.canonical := by
    decide +kernel
  exact ⟨by decide, by decide, by decide, by decide,
    Fingerprint.of_congr halike, by decide +kernel, by decide +kernel⟩

end RequestGate
