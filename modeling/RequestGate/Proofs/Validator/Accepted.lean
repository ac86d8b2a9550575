import RequestGate.Proofs.Validator.Assembled
import RequestGate.Proofs.Validator.Instance
import RequestGate.Proofs.Validator.Run
import RequestGate.Proofs.Validator.Stages

/-!
# What is returned is what was checked

An accepted request is answered with a normalized request, which is what the program behind the gate
will work with. It is not the value that the predicate was asked about, but made from it: the
instance is pruned, checked, and taken apart again. Without deserializers nothing happens afterwards,
and then the answer is worth as much as the check
(`RequestGate.Validator.errors_eq_nil_of_validate`).
-/

namespace RequestGate

namespace Entries

theorem modify_of_id {α : Type*} {f : α → α} (h : ∀ a, f a = a) (entries : Entries α)
    (key : String) : modify entries key f = entries := by
  induction entries with
  | nil => rfl
  | cons entry rest ih =>
    obtain ⟨k, v⟩ := entry
    simp only [modify, h, ih, ite_self]

end Entries

theorem NormalizedRequest.applyDeserializers_of_none {options : Options}
    (h : options.deserializers = []) (root : Json) (parameters : List Parameter) (body : Json)
    (r : NormalizedRequest) : r.applyDeserializers options root parameters body = r := by
  have hid : ∀ schema value, Schema.deserialize options root schema value = value :=
    Schema.deserializeWithin_of_none h Schema.levels
  rw [applyDeserializers_eq, mapTables_of_id fun p _ table =>
    Entries.modify_of_id (hid p.schema) table p.name, mapBody]
  have hbody : r.body.map (Schema.deserialize options root body) = r.body := by
    cases r.body with
    | none => rfl
    | some value => rw [Option.map_some, hid]
  rw [hbody]

namespace Validator

variable {built options : Options} {document : Document} {validator : Validator}
  {request : Request} {n : NormalizedRequest}

/-- **An accepted request is what was checked.** Whatever mode the pruning is in, the predicate has
nothing against the answer; the method is that of the request; and no declared query parameter that
may not be empty was sent as an empty string. -/
theorem errors_eq_nil_of_validate (hassembled : validator.Assembled built document)
    (hoptions : options.deserializers = []) (h : validator.validate options request = .ok n) :
    validator.predicate.errors n.toInstance = [] ∧ n.method = request.method ∧
      ∀ p ∈ validator.parameters, p.location = .query →
        p.name ∉ validator.schema.parameters.query.allowEmptyValue →
        (p.name, Json.str "") ∉ request.query.getD [] := by
  obtain ⟨prepared, hprepared, -, hempty, herrors, rfl⟩ := validate_eq_ok_iff.mp h
  obtain ⟨schema, hroot⟩ := hassembled.root
  obtain ⟨r, hr⟩ := Schema.exists_prune_toInstance
    options.settings.removeAdditional schema document.components prepared
  have hchecked : validator.checked options prepared = r.toInstance := by
    rw [checked, hroot, hr]
  -- without deserializers the answer is read off the instance that was checked
  rw [NormalizedRequest.applyDeserializers_of_none hoptions, hchecked,
    NormalizedRequest.replaceFromInstance_toInstance]
  have hmethod : prepared.method = request.method := method_prepare hprepared
  refine ⟨hchecked ▸ herrors, hmethod, ?_⟩
  intro p hp hlocation hname hsent
  have hdeclared : validator.schema.parameters.query.declares p.name = true :=
    (hassembled.declares .query p.name).mpr ⟨p, hp, hlocation, rfl⟩
  have hnone := List.map_eq_nil_iff.mp hempty
  refine absurd (List.mem_filter.mpr ⟨hsent, ?_⟩) (hnone ▸ List.not_mem_nil)
  simp [hdeclared, hname]

/-- A page of pets is asked for, and the answer holds the limit as a number. -/
theorem errors_eq_nil_of_validate_limit :
    ∃ n, limitValidator.validate { settings := { removeAdditional := .all } } limitRequest = .ok n ∧
      n.query = [("limit", .num (.int 5))] ∧
      limitValidator.predicate.errors n.toInstance = [] ∧ n.method = "GET" := by
  have h : limitValidator.validate { settings := { removeAdditional := .all } } limitRequest =
      .ok { method := "GET", route := "/pets", query := [("limit", .num (.int 5))] } := by
    decide
  obtain ⟨herrors, hmethod, -⟩ := errors_eq_nil_of_validate limitValidator_assembled rfl h
  exact ⟨_, h, rfl, herrors, hmethod⟩

end Validator

end RequestGate
