import RequestGate.Proofs.Success
import RequestGate.Validator

/-!
# The stages of a validator, taken apart

A request is refused by the first stage that has something against it. The lemmas here say for each
outcome which stages it has passed: an accepted request has passed all of them
(`RequestGate.Validator.validate_eq_ok_iff`), and one that is not accepted is either refused for what
is in it or stopped by the declaration (`RequestGate.Validator.validate_error`), whatever the
predicate of the validator may be.
-/

namespace RequestGate

namespace Style

variable {root : Json} {route : String} {p : Parameter} {parameters : List Parameter}

theorem decodeParameter_error {r : NormalizedRequest} {e : GateError}
    (h : decodeParameter root route p r = .error e) : ∃ fault, e = .structural route fault := by
  rw [decodeParameter] at h
  split at h
  · simp at h
  · rename_i fault _
    exact ⟨fault, (Except.error.inj h).symm⟩

/-- Only a declaration can keep a request from being decoded. -/
theorem decode_error {request : Request} {e : GateError}
    (h : decode root route parameters request = .error e) :
    ∃ fault, e = .structural route fault := by
  obtain ⟨p, -, r, hstep⟩ := exists_of_foldlM_eq_error h
  exact decodeParameter_error hstep

end Style

namespace Validator

variable {validator : Validator} {options : Options} {request : Request}
  {prepared n : NormalizedRequest} {e : GateError}

theorem refuse_eq_ok_iff {route : String} {items : List RejectionItem} :
    refuse route items = .ok () ↔ items = [] := by
  cases items <;> simp [refuse]

theorem refuse_of_ne_nil {route : String} {items : List RejectionItem} (h : items ≠ []) :
    refuse route items = .error (.badRequest (.ofItems route items)) := by
  cases items with
  | nil => exact absurd rfl h
  | cons item items => rfl

/-- What a validator prepares: the decoded request, coerced and with its defaults. -/
theorem prepare_eq_ok_iff :
    validator.prepare request = .ok prepared ↔
      ∃ decoded, Style.decode validator.predicate.schema validator.route validator.parameters
          request = .ok decoded ∧
        prepared = (decoded.coerceParameters validator.predicate.schema
          validator.parameters).applyDefaults validator.predicate.schema validator.parameters
          validator.schema.body.schema := by
  rw [prepare, bind_eq_ok_iff]
  refine exists_congr fun decoded => and_congr_right fun _ => ?_
  exact ⟨fun h => (Except.ok.inj h).symm, fun h => h ▸ rfl⟩

theorem prepare_error (h : validator.prepare request = .error e) :
    ∃ fault, e = .structural validator.route fault := by
  rw [prepare] at h
  rcases bind_eq_error_iff.mp h with hdecode | ⟨decoded, -, h⟩
  · exact Style.decode_error hdecode
  · cases h

theorem prepare_of_decode_error
    (h : Style.decode validator.predicate.schema validator.route validator.parameters request = .error e) :
    validator.prepare request = .error e := by
  rw [prepare, h]
  rfl

/-- Validators that agree in route, parameters, schema and predicate judge alike. -/
theorem validate_congr {v w : Validator} (hroute : v.route = w.route)
    (hparameters : v.parameters = w.parameters) (hschema : v.schema = w.schema)
    (hpredicate : v.predicate = w.predicate) (options : Options) (request : Request) :
    v.validate options request = w.validate options request := by
  rw [validate, validate, prepare, prepare, hroute, hparameters, hschema, hpredicate]

/-- What the predicate gets to see of a prepared request. -/
def checked (validator : Validator) (options : Options) (prepared : NormalizedRequest) : Json :=
  Schema.prune options.settings.removeAdditional validator.predicate.schema prepared.toInstance

/-! ### Where a validator stops -/

theorem validate_of_prepare_error (h : validator.prepare request = .error e) :
    validator.validate options request = .error e := by
  rw [validate, h]
  rfl

/-- Undeclared names are refused first. -/
theorem validate_of_unknown (h : validator.prepare request = .ok prepared)
    (hunknown : unknownQueryItems validator.schema.parameters.query prepared ≠ []) :
    validator.validate options request = .error (.badRequest (.ofItems validator.route
      (unknownQueryItems validator.schema.parameters.query prepared))) := by
  simp only [validate, h, bind, Except.bind, refuse_of_ne_nil hunknown]

/-- Empty values are refused next. -/
theorem validate_of_empty (h : validator.prepare request = .ok prepared)
    (hunknown : unknownQueryItems validator.schema.parameters.query prepared = [])
    (hempty : emptyQueryItems validator.schema.parameters.query request ≠ []) :
    validator.validate options request = .error (.badRequest (.ofItems validator.route
      (emptyQueryItems validator.schema.parameters.query request))) := by
  simp only [validate, h, bind, Except.bind, refuse_eq_ok_iff.mpr hunknown, refuse_of_ne_nil hempty]

/-- The predicate has the last word. -/
theorem validate_of_errors (h : validator.prepare request = .ok prepared)
    (hunknown : unknownQueryItems validator.schema.parameters.query prepared = [])
    (hempty : emptyQueryItems validator.schema.parameters.query request = [])
    (herrors : validator.predicate.errors (validator.checked options prepared) ≠ []) :
    validator.validate options request = .error (.badRequest (.ofErrors validator.route
      (validator.predicate.errors (validator.checked options prepared)))) := by
  obtain ⟨error, errors, hcons⟩ := List.exists_cons_of_ne_nil herrors
  rw [hcons]
  rw [checked] at hcons
  simp only [validate, h, bind, Except.bind, refuse_eq_ok_iff.mpr hunknown,
    refuse_eq_ok_iff.mpr hempty, hcons]

/-- What passes every stage is accepted. -/
theorem validate_of_no_errors (h : validator.prepare request = .ok prepared)
    (hunknown : unknownQueryItems validator.schema.parameters.query prepared = [])
    (hempty : emptyQueryItems validator.schema.parameters.query request = [])
    (herrors : validator.predicate.errors (validator.checked options prepared) = []) :
    validator.validate options request =
      .ok ((prepared.replaceFromInstance (validator.checked options prepared)).applyDeserializers
        options validator.predicate.schema validator.parameters validator.schema.body.schema) := by
  rw [checked] at herrors
  simp only [validate, h, bind, Except.bind, refuse_eq_ok_iff.mpr hunknown,
    refuse_eq_ok_iff.mpr hempty, herrors]
  rfl

/-- **An accepted request has passed every stage.** -/
theorem validate_eq_ok_iff :
    validator.validate options request = .ok n ↔
      ∃ prepared, validator.prepare request = .ok prepared ∧
        unknownQueryItems validator.schema.parameters.query prepared = [] ∧
        emptyQueryItems validator.schema.parameters.query request = [] ∧
        validator.predicate.errors (validator.checked options prepared) = [] ∧
        n = (prepared.replaceFromInstance (validator.checked options prepared)).applyDeserializers
          options validator.predicate.schema validator.parameters validator.schema.body.schema := by
  constructor
  · intro h
    obtain ⟨prepared, hprepared, -⟩ := bind_eq_ok_iff.mp h
    -- every stage that is not passed ends in an error
    have hunknown : unknownQueryItems validator.schema.parameters.query prepared = [] := by
      by_contra hne
      simp [validate_of_unknown hprepared hne] at h
    have hempty : emptyQueryItems validator.schema.parameters.query request = [] := by
      by_contra hne
      simp [validate_of_empty hprepared hunknown hne] at h
    have herrors : validator.predicate.errors (validator.checked options prepared) = [] := by
      by_contra hne
      simp [validate_of_errors hprepared hunknown hempty hne] at h
    rw [validate_of_no_errors hprepared hunknown hempty herrors] at h
    exact ⟨prepared, hprepared, hunknown, hempty, herrors, (Except.ok.inj h).symm⟩
  · rintro ⟨prepared, hprepared, hunknown, hempty, herrors, rfl⟩
    exact validate_of_no_errors hprepared hunknown hempty herrors

/-- **What a validator refuses a request with**: a fault of the declaration, or what the first stage with
anything against the request has against it. -/
theorem validate_error_stages (h : validator.validate options request = .error e) :
    (∃ fault, e = .structural validator.route fault) ∨
      ∃ prepared, validator.prepare request = .ok prepared ∧
        ((unknownQueryItems validator.schema.parameters.query prepared ≠ [] ∧
            e = .badRequest (.ofItems validator.route
              (unknownQueryItems validator.schema.parameters.query prepared))) ∨
          (emptyQueryItems validator.schema.parameters.query request ≠ [] ∧
            e = .badRequest (.ofItems validator.route
              (emptyQueryItems validator.schema.parameters.query request))) ∨
          (validator.predicate.errors (validator.checked options prepared) ≠ [] ∧
            e = .badRequest (.ofErrors validator.route
              (validator.predicate.errors (validator.checked options prepared))))) := by
  cases hprepared : validator.prepare request with
  | error e' =>
    rw [validate_of_prepare_error hprepared] at h
    obtain rfl : e' = e := Except.error.inj h
    exact Or.inl (prepare_error hprepared)
  | ok prepared =>
    refine Or.inr ⟨prepared, rfl, ?_⟩
    -- the checks run one after the other, and the first that fails decides
    by_cases hunknown : unknownQueryItems validator.schema.parameters.query prepared = []
    · by_cases hempty : emptyQueryItems validator.schema.parameters.query request = []
      · by_cases herrors : validator.predicate.errors (validator.checked options prepared) = []
        · rw [validate_of_no_errors hprepared hunknown hempty herrors] at h
          cases h
        · rw [validate_of_errors hprepared hunknown hempty herrors] at h
          exact Or.inr (Or.inr ⟨herrors, (Except.error.inj h).symm⟩)
      · rw [validate_of_empty hprepared hunknown hempty] at h
        exact Or.inr (Or.inl ⟨hempty, (Except.error.inj h).symm⟩)
    · rw [validate_of_unknown hprepared hunknown] at h
      exact Or.inl ⟨hunknown, (Except.error.inj h).symm⟩

theorem validate_error_cases (h : validator.validate options request = .error e) :
    (∃ fault, e = .structural validator.route fault) ∨
      ∃ prepared, validator.prepare request = .ok prepared ∧
        (e = .badRequest (.ofItems validator.route
            (unknownQueryItems validator.schema.parameters.query prepared)) ∨
          e = .badRequest (.ofItems validator.route
            (emptyQueryItems validator.schema.parameters.query request)) ∨
          e = .badRequest (.ofErrors validator.route
            (validator.predicate.errors (validator.checked options prepared)))) :=
  (validate_error_stages h).imp_right fun ⟨prepared, hprepared, hstage⟩ =>
    ⟨prepared, hprepared, hstage.imp And.right (Or.imp And.right And.right)⟩

/-- **Every fault of a validator** is one of the declaration or one of the request. -/
theorem validate_error (h : validator.validate options request = .error e) :
    (∃ fault, e = .structural validator.route fault) ∨ ∃ rejection, e = .badRequest rejection := by
  refine (validate_error_cases h).imp_right ?_
  rintro ⟨prepared, -, he | he | he⟩
  · exact ⟨_, he⟩
  · exact ⟨_, he⟩
  · exact ⟨_, he⟩

end Validator

end RequestGate
