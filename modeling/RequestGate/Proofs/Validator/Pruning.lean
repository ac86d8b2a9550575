import RequestGate.Proofs.Schema.Pruning
import RequestGate.Proofs.Validator.Accepted
import RequestGate.Proofs.Validator.Prepared

/-!
# Requests that pruning leaves alone

With `RequestGate.RemoveAdditional.declared` a validator removes members that the engine would have
refused, or so it is meant. A request that is accepted as it is would then be accepted with pruning
too, and answered in the same way. This holds exactly for the requests in which pruning finds nothing
to take (`RequestGate.Validator.validate_declared_iff`), and so for all requests if the schema is
conservative. One without compositions is, if it has `properties` at objects only
(`RequestGate.Schema.conservative_of_direct`). An alternative that a value does not take may be closed,
though, and its members are then removed (`RequestGate.Validator.choice_loses_member`).
-/

namespace RequestGate

/-- The options with another mode of pruning. -/
def Options.removing (options : Options) (mode : RemoveAdditional) : Options :=
  { options with settings := { options.settings with removeAdditional := mode } }

/-! ### Requests with direct schemas -/

section Direct

open Schema

variable {root components : Json} {n : Nat}

theorem LocationSchema.direct_toEngineSchema {schema : LocationSchema}
    (h : ∀ e ∈ schema.properties, Along root Direct n e.2) :
    Along root Direct (n + 1) schema.toEngineSchema := by
  have href := reference?_toEngineSchema schema
  have hshape := shape_toEngineSchema schema
  intro s hs
  obtain rfl := Option.some.inj ((resolve_of_none href).symm.trans hs)
  refine ⟨.refl, ⟨by rw [hshape]; rfl, fun _ => ⟨_, hshape⟩⟩, fun name sub hsub => ?_,
    fun sub hsub => ?_⟩
  · exact h _ (mem_of_get?_properties href hshape hsub)
  · obtain ⟨hget, -⟩ := Option.filter_eq_some_iff.mp hsub
    cases hrequired : schema.required <;>
      simp [toEngineSchema, listMember, Entries.get?_cons, hrequired] at hget

/-- The schema of a whole request is direct if those of its parameters and of its body are. -/
theorem RequestSchema.direct_toEngineSchema {schema : RequestSchema}
    (hparameters : ∀ location, ∀ e ∈ (schema.parameters.branch location).properties,
      Along root Direct n e.2) (hbody : Along root Direct (n + 1) schema.body.schema) :
    Along root Direct (n + 2) (schema.toEngineSchema components) := by
  have hlocation : ∀ location,
      Along root Direct (n + 1) (schema.parameters.branch location).toEngineSchema :=
    fun location => LocationSchema.direct_toEngineSchema (hparameters location)
  intro s hs
  obtain rfl := Option.some.inj ((resolve_toEngineSchema root).symm.trans hs)
  refine ⟨.refl, ⟨by rw [shape_toEngineSchema]; rfl, fun _ => ⟨_, shape_toEngineSchema⟩⟩,
    fun name sub hsub => ?_, fun sub hsub => ?_⟩
  · rw [properties_toEngineSchema] at hsub
    have hmem := Entries.mem_of_get? hsub
    simp only [memberSchemas, List.mem_cons, Prod.mk.injEq, List.not_mem_nil, or_false] at hmem
    rcases hmem with ⟨-, rfl⟩ | ⟨-, rfl⟩ | ⟨-, rfl⟩ | ⟨-, rfl⟩ | ⟨-, rfl⟩
    · exact hlocation .query
    · exact hlocation .header
    · exact hlocation .path
    · exact hlocation .cookie
    · exact hbody
  · obtain ⟨hget, -⟩ := Option.filter_eq_some_iff.mp hsub
    simp [toEngineSchema, Entries.get?_cons] at hget

end Direct

namespace Validator

open Draft7 Schema

variable {built options : Options} {document : Document} {validator : Validator}
  {request : Request} {n prepared : NormalizedRequest} {mode : RemoveAdditional}

/-- Without deserializers the answer is the request that the predicate has seen. -/
theorem validate_removing_iff (hoptions : options.deserializers = []) :
    validator.validate (options.removing mode) request = .ok n ↔
      ∃ prepared, validator.prepare request = .ok prepared ∧
        unknownQueryItems validator.schema.parameters.query prepared = [] ∧
        emptyQueryItems validator.schema.parameters.query request = [] ∧
        validator.predicate.errors
          (prune mode validator.predicate.schema prepared.toInstance) = [] ∧
        n = prepared.replaceFromInstance
          (prune mode validator.predicate.schema prepared.toInstance) := by
  have hnone : (options.removing mode).deserializers = [] := hoptions
  simp only [validate_eq_ok_iff, NormalizedRequest.applyDeserializers_of_none hnone]
  rfl

theorem prune_off (schema value : Json) : prune .off schema value = value := rfl

/-- What has been accepted without pruning is what was prepared. -/
theorem validate_off_iff (hoptions : options.deserializers = []) :
    validator.validate (options.removing .off) request = .ok n ↔
      validator.prepare request = .ok n ∧
        unknownQueryItems validator.schema.parameters.query n = [] ∧
        emptyQueryItems validator.schema.parameters.query request = [] ∧
        validator.predicate.errors n.toInstance = [] := by
  simp only [validate_removing_iff hoptions, prune_off,
    NormalizedRequest.replaceFromInstance_toInstance]
  constructor
  · rintro ⟨prepared, hprepared, hunknown, hempty, herrors, rfl⟩
    exact ⟨hprepared, hunknown, hempty, herrors⟩
  · rintro ⟨hprepared, hunknown, hempty, herrors⟩
    exact ⟨n, hprepared, hunknown, hempty, herrors, rfl⟩

/-- **Pruning changes nothing about an accepted request** exactly if it finds nothing to take in it. -/
theorem validate_declared_iff (hassembled : validator.Assembled built document)
    (hoptions : options.deserializers = [])
    (h : validator.validate (options.removing .off) request = .ok n) :
    validator.validate (options.removing .declared) request = .ok n ↔
      prune .declared validator.predicate.schema n.toInstance = n.toInstance := by
  obtain ⟨hprepared, hunknown, hempty, herrors⟩ := (validate_off_iff hoptions).mp h
  rw [validate_removing_iff hoptions]
  constructor
  · rintro ⟨prepared, hprepared', -, -, -, hn⟩
    obtain rfl := Except.ok.inj (hprepared.symm.trans hprepared')
    obtain ⟨schema, hroot⟩ := hassembled.root
    obtain ⟨r, hr⟩ := exists_prune_toInstance .declared schema document.components n
    rw [hroot, hr, NormalizedRequest.replaceFromInstance_toInstance] at hn
    rw [hroot, hr, hn]
    rfl
  · intro hprune
    refine ⟨n, hprepared, hunknown, hempty, ?_, ?_⟩
    · rw [hprune, herrors]
    · rw [hprune, NormalizedRequest.replaceFromInstance_toInstance]

/-- What has no errors passes the schema as a whole. -/
theorem passes_of_errors {value : Json} (h : validator.predicate.errors value = []) :
    Passes validator.predicate.formats validator.predicate.schema validator.predicate.schema
      value :=
  ⟨_, le_refl _, List.map_eq_nil_iff.mp h⟩

/-- **A request that is accepted is accepted with pruning too, and answered in the same way**, exactly if
pruning finds nothing to take in it. It finds nothing if the schema is conservative: where pruning goes
by a closed schema, the schemas that the value has passed let through no names but those that pruning
takes for declared.

The schema is conservative if all schemas along pruning are direct: there are no compositions among
them, `properties` stand only where pruning sees an object, and their references lead the engine to
where they lead pruning.

Validators of a live gate and requests that have been read are well formed
(`RequestGate.Gate.wellFormed_of_slot`, `RequestGate.Request.wellFormed_of_ofJson?`). -/
theorem validate_declared (hassembled : validator.Assembled built document)
    (hoptions : options.deserializers = []) (hvalidator : validator.WellFormed)
    (hrequest : request.WellFormed)
    (h : validator.validate (options.removing .off) request = .ok n) :
    (validator.validate (options.removing .declared) request = .ok n ↔
      prune .declared validator.predicate.schema n.toInstance = n.toInstance) ∧
    (Conservative validator.predicate.schema levels (some validator.predicate.schema)
        validator.predicate.schema →
      validator.validate (options.removing .declared) request = .ok n) ∧
    (Along validator.predicate.schema Direct levels validator.predicate.schema →
      validator.validate (options.removing .declared) request = .ok n) := by
  have hiff := validate_declared_iff hassembled hoptions h
  have hconservative : Conservative validator.predicate.schema levels
      (some validator.predicate.schema) validator.predicate.schema →
        validator.validate (options.removing .declared) request = .ok n := by
    intro hconservative
    obtain ⟨hprepared, -, -, herrors⟩ := (validate_off_iff hoptions).mp h
    have hn := (wellFormed_prepare hvalidator hrequest hprepared).toInstance
    -- the whole schema has let the instance through, so it may vouch for what is kept
    have hjudge : ∀ j ∈ some validator.predicate.schema, j ∈ validator.predicate.schema.subvalues ∧
        Passes validator.predicate.formats validator.predicate.schema j n.toInstance := by
      intro j hj
      obtain rfl := Option.some.inj hj
      exact ⟨Json.mem_subvalues_self _, passes_of_errors herrors⟩
    exact hiff.mpr (pruneWithin_eq_self hvalidator.root hconservative hn hjudge)
  refine ⟨hiff, hconservative, fun hdirect => hconservative ?_⟩
  exact conservative_of_direct hvalidator.root (Json.mem_subvalues_self _) hdirect

theorem limitValidator_direct :
    Along limitValidator.predicate.schema Direct levels limitValidator.predicate.schema := by
  have hleaf : ∀ {s : Json}, (shape s).members = [] → s.get? "properties" = none → Direct s :=
    fun hmembers hnone => ⟨hmembers, fun hkey => by simp [Json.hasKey, hnone] at hkey⟩
  have hlimit : ∀ n, Along limitValidator.predicate.schema Direct n limitParameter.schema :=
    along_of_no_parts rfl (by decide) rfl rfl (hleaf (by decide) rfl)
  refine RequestSchema.direct_toEngineSchema (fun location e he => ?_)
    (along_of_no_parts rfl (by decide) rfl rfl (hleaf (by decide) rfl) _)
  cases location with
  | query =>
    obtain rfl := List.mem_singleton.mp he
    exact hlimit _
  | _ => cases he

/-- A page of pets is asked for, and no name is taken from the query. -/
theorem validate_declared_limit :
    ∃ n, limitValidator.validate (Options.removing {} .off) limitRequest = .ok n ∧
      n.query = [("limit", .num (.int 5))] ∧
      limitValidator.validate (Options.removing {} .declared) limitRequest = .ok n := by
  have h : limitValidator.validate (Options.removing {} .off) limitRequest =
      .ok { method := "GET", route := "/pets", query := [("limit", .num (.int 5))] } := by
    decide
  have hvalidator : limitValidator.WellFormed :=
    ⟨by decide, fun p hp => by
      obtain rfl := List.mem_singleton.mp hp
      exact show limitParameter.schema.WellFormed by decide, by decide⟩
  have hrequest : limitRequest.WellFormed :=
    ⟨by decide, by decide, by decide, by decide, fun _ hb => nomatch hb⟩
  exact ⟨_, h, rfl, (validate_declared limitValidator_assembled rfl hvalidator hrequest h).2.2
    limitValidator_direct⟩

/-! ### An alternative that is not taken -/

/-- A body with a member that is closed in one alternative and open in the other. -/
def choiceSchema : Json :=
  let closed : Json := .obj [("type", .str "object"), ("properties", .obj [("x", .obj [])]),
    ("additionalProperties", .bool false)]
  .obj [("anyOf", .arr
    [.obj [("type", .str "object"), ("properties", .obj [("a", closed)])],
     .obj [("type", .str "object"), ("properties", .obj [("a", .obj [("type", .str "object")])])]])]

/-- The operation that takes it. -/
def choiceOperation : Operation :=
  let declaration : Json := .obj [("requestBody", .obj [("content", .obj [("application/json",
    .obj [("schema", choiceSchema)])])])]
  { method := .post, route := "/t", pathItem := .obj [("post", declaration)], declaration }

/-- The document that declares it. -/
def choiceDocument : Document :=
  ⟨.obj [("openapi", .str "3.0.0"), ("paths", .obj [("/t", choiceOperation.pathItem)])]⟩

/-- Its plan. -/
def choicePlan : Plan :=
  { method := .post, route := "/t", parameters := [], schemas := {}
    requestBody := choiceOperation.declaration.get? "requestBody" }

/-- A request that takes the open alternative. -/
def choiceRequest : Request :=
  { method := "POST", route := "/t"
    headers := some [("content-type", .str "application/json")]
    body := some (.obj [("a", .obj [("y", .num (.int 1))])]) }

/-- What the request is held to. -/
def choiceRequestSchema : RequestSchema := ⟨{}, choiceSchema, false⟩

/-- The validator. -/
def choiceValidator : Validator :=
  choicePlan.validator choiceRequestSchema
    ⟨choiceRequestSchema.toEngineSchema choiceDocument.components, Engine.formats {}⟩ choiceRequest

theorem choiceValidator_assembled : choiceValidator.Assembled {} choiceDocument := by
  refine ⟨⟨choiceOperation, choicePlan, choiceRequest.contentType, by decide, rfl, rfl,
    by decide⟩, choiceRequestSchema, rfl, ?_⟩
  have hfault : compileFault? (Engine.formats {})
      (choiceRequestSchema.toEngineSchema choiceDocument.components) = none := by
    decide +kernel
  rw [Engine.compile, hfault]
  rfl

/-- **A member of an open alternative is removed because another alternative is closed.** The request
is accepted with and without pruning, and answered differently. -/
theorem choice_loses_member :
    choiceValidator.Assembled {} choiceDocument ∧
      choiceValidator.validate (Options.removing {} .off) choiceRequest =
        .ok (NormalizedRequest.ofRequest choiceRequest) ∧
      choiceValidator.validate (Options.removing {} .declared) choiceRequest =
        .ok { NormalizedRequest.ofRequest choiceRequest with body := some (.obj [("a", .obj [])]) } :=
  ⟨choiceValidator_assembled, by decide, by decide⟩

end Validator

end RequestGate
