import RequestGate.Proofs.Artifact.Agreement
import RequestGate.Proofs.Gate.Transparency
import RequestGate.Proofs.Parameter.Assembly

/-!
# Validators that are assembled from a plan

The general theorems on validators are about those that the library makes itself. Such a validator
has route, parameters and schema of a plan, and its predicate has been compiled with the document's
components embedded. The predicate need not be the one of the very same schema: predicates are
shared, so all that is known is that a schema with the same fingerprint was compiled
(`RequestGate.Validator.Assembled`). Every validator in the cache of a gate is of this kind, whatever
requests the gate has served (`RequestGate.Gate.assembled_of_slot`).
-/

namespace RequestGate

namespace Validator

/-- A validator for a plan of the document, made with the options `built`. -/
structure Assembled (built : Options) (document : Document) (validator : Validator) : Prop where
  plan : ∃ operation plan contentType,
    Plan.assemble document built.settings.allowUnknownQueryParameters operation = .ok plan ∧
      validator.route = plan.route ∧ validator.parameters = plan.parameters ∧
      validator.schema = (plan.schemaFor document.components contentType).1
  predicate : ∃ schema : RequestSchema, schema.fingerprint = validator.schema.fingerprint ∧
    Engine.compile built (schema.toEngineSchema document.components) = .ok validator.predicate

variable {built : Options} {document : Document} {validator : Validator}

/-- The schema that everything is resolved in is that of a whole request. -/
theorem Assembled.root (h : validator.Assembled built document) :
    ∃ schema : RequestSchema,
      validator.predicate.schema = schema.toEngineSchema document.components := by
  obtain ⟨schema, -, hcompile⟩ := h.predicate
  rw [Engine.eq_of_compile_eq_ok hcompile]
  exact ⟨schema, rfl⟩

/-- What the schema declares are the parameters. -/
theorem Assembled.declares (h : validator.Assembled built document) :
    validator.schema.parameters.Declares validator.parameters := by
  obtain ⟨operation, plan, contentType, hplan, -, hparameters, hschema⟩ := h.plan
  rw [hparameters, hschema]
  exact Plan.declares_of_assemble hplan

end Validator

namespace Gate

variable {options : Options} {document : Document}

/-- What is found for a request comes from the plan of the operation that it goes to. -/
theorem exists_plan_of_blueprintOf {r : Request} {b : Blueprint}
    (h : (ofDocument options document).blueprintOf r = .ok (some b)) :
    ∃ operation plan, document.operation? r.method r.route = some operation ∧
      Plan.assemble document options.settings.allowUnknownQueryParameters operation = .ok plan ∧
      b.route = plan.route ∧ b.parameters = plan.parameters ∧
      b.schema = (plan.schemaFor document.components r.contentType).1 ∧
      b.fingerprint = b.schema.fingerprint := by
  cases hop : document.operation? r.method r.route with
  | none => simp [blueprintOf_of_undeclared hop] at h
  | some operation =>
    rw [blueprintOf_of_declared hop] at h
    obtain ⟨b', hb', hsome⟩ := map_eq_ok_iff.mp h
    obtain rfl := Option.some.inj hsome
    obtain ⟨plan, hplan, hb'⟩ := bind_eq_ok_iff.mp hb'
    obtain rfl := Except.ok.inj hb'
    exact ⟨operation, plan, rfl, hplan, rfl, rfl, rfl, rfl⟩

/-- **Whatever a live gate keeps in a slot has been assembled from a plan.** -/
theorem assembled_of_slot {history : List Request} {key : String} {validator : Validator}
    (h : ((ofDocument options document).after history).entryAt key = some (some validator)) :
    validator.Assembled options document := by
  obtain ⟨compiler, filler, hmay⟩ := exists_mayFill_of_slot h
  cases hmay with
  | @declared b c p hb hc hprint hcompile =>
    obtain ⟨operation, plan, -, hplan, hroute, hparameters, hschema, hb⟩ :=
      exists_plan_of_blueprintOf hb
    obtain ⟨-, -, -, -, -, -, -, hc⟩ := exists_plan_of_blueprintOf hc
    refine ⟨⟨operation, plan, filler.contentType, hplan, hroute, hparameters, hschema⟩,
      c.schema, ?_, hcompile⟩
    exact hc.symm.trans (hprint.trans hb)

end Gate

/-! ### A validator to look at

It belongs to one operation with one query parameter, an integer. -/

/-- The operation. -/
def limitOperation : Operation :=
  let declaration : Json := .obj [("parameters", .arr [.obj [("name", .str "limit"),
    ("in", .str "query"), ("schema", .obj [("type", .str "integer")])]])]
  { method := .get, route := "/pets", pathItem := .obj [("get", declaration)], declaration }

/-- The document that declares it. -/
def limitDocument : Document :=
  ⟨.obj [("openapi", .str "3.0.0"), ("paths", .obj [("/pets", limitOperation.pathItem)])]⟩

/-- Its parameter. -/
def limitParameter : Parameter :=
  { name := "limit", location := .query, required := false, style := "form", explode := true,
    allowEmptyValue := false, schema := .obj [("type", .str "integer")], contentMediaType := none }

/-- Its plan. -/
def limitPlan : Plan :=
  { method := .get, route := "/pets", parameters := [limitParameter]
    schemas :=
      { query := { LocationSchema.empty .query with properties := [("limit", limitParameter.schema)] } }
    requestBody := none }

/-- A request to it. -/
def limitRequest : Request :=
  { method := "GET", route := "/pets", query := some [("limit", .str "5")] }

/-- The validator. -/
def limitValidator : Validator :=
  limitPlan.validator ⟨limitPlan.schemas, .unconstrained⟩
    ⟨RequestSchema.toEngineSchema ⟨limitPlan.schemas, .unconstrained⟩ limitDocument.components,
      Engine.formats {}⟩ limitRequest

theorem limitValidator_assembled : limitValidator.Assembled {} limitDocument := by
  refine ⟨⟨limitOperation, limitPlan, .notProvided, by decide, rfl, rfl,
    by decide⟩, ⟨limitPlan.schemas, .unconstrained⟩, rfl, ?_⟩
  have hfault : Draft7.compileFault? (Engine.formats {}) (RequestSchema.toEngineSchema
      ⟨limitPlan.schemas, .unconstrained⟩ limitDocument.components) = none := by
    decide
  rw [Engine.compile, hfault]
  rfl

end RequestGate
