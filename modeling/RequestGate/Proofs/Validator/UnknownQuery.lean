import RequestGate.Proofs.Parameter.QueryKeys
import RequestGate.Proofs.Validator.Assembled
import RequestGate.Proofs.Validator.Run

/-!
# Which query parameters are reported as unknown

A closed query is checked for undeclared names after decoding, coercing and filling in defaults, so
on a table that is no longer the one that was sent. All the same, the names that are reported are
those of the request that nobody claims (`RequestGate.Validator.Unclaimed`): no query parameter is
called so, and none takes the key for the properties of an object. That is
`RequestGate.Validator.refuses_exactly_unclaimed`.
-/

namespace RequestGate

open Entries

variable {root : Json} {parameters : List Parameter} {table : Entries Json}

theorem Schema.keys_fillProperty_or (root : Json) (f : Json → Json → Json) (table : Entries Json)
    (property : String × Json) :
    keys (Schema.fillProperty root f table property) = keys table ∨
      ∃ value, Schema.fillProperty root f table property = insert table property.1 value := by
  rw [Schema.fillProperty]
  split
  · exact Or.inl (keys_modify ..)
  · split
    · exact Or.inr ⟨_, rfl⟩
    · exact Or.inl rfl

namespace Validator

variable {built : Options} {document : Document} {validator : Validator}
  {request : Request} {prepared decoded : NormalizedRequest}

/-- A query key that no parameter of the validator answers to. -/
def Unclaimed (validator : Validator) (key : String) : Prop :=
  ∀ p ∈ validator.parameters,
    (p.location = .query → p.name ≠ key) ∧ ¬p.Covers validator.predicate.schema key

/-- **Coercing and defaults add no name that is not declared.** -/
theorem leaves_prepare (hd : Distinct (request.query.getD []))
    (hdecode : Style.decode validator.predicate.schema validator.route validator.parameters request =
      .ok decoded) :
    ∃ prepared, validator.prepare request = .ok prepared ∧
      Style.Leaves validator.predicate.schema validator.parameters (request.query.getD [])
        prepared.query := by
  refine ⟨_, prepare_eq_ok_iff.mpr ⟨decoded, hdecode, rfl⟩, ?_⟩
  rw [NormalizedRequest.applyDefaults_eq, NormalizedRequest.coerceParameters_eq]
  refine NormalizedRequest.mapTables_query (fun p hp hlocation table htable => ?_)
    (NormalizedRequest.mapTables_query (fun p _ _ table htable => ?_)
      (Style.leaves_decode hd hdecode))
  · rcases Schema.keys_fillProperty_or validator.predicate.schema
      (Schema.fillDefaults validator.predicate.schema) table (p.name, p.schema) with
      hkeys | ⟨value, hinsert⟩
    · rwa [Style.Leaves, Distinct, hkeys]
    · rw [hinsert]
      refine ⟨htable.1.insert p.name value, fun key hkey => ?_⟩
      rw [mem_keys_insert, htable.2 key hkey]
      simp [(hkey p hp hlocation).symm]
  · rwa [Style.Leaves, Distinct, keys_modify]

/-- **Unknown query parameters are reported exactly.** If a closed query can be decoded, the keys that
are unclaimed decide: if there are none, the check lets the request through; and otherwise the request
is refused with one item for each of them, and with no other. That the query repeats no key is true of
every request that is read (`RequestGate.Request.distinct_query_of_ofJson?`). -/
theorem refuses_exactly_unclaimed (options : Options)
    (hassembled : validator.Assembled built document)
    (hclosed : validator.schema.parameters.query.additionalProperties = false)
    (hd : Distinct (request.query.getD []))
    (hdecode : Style.decode validator.predicate.schema validator.route validator.parameters request =
      .ok decoded) :
    ∃ prepared unknown, validator.prepare request = .ok prepared ∧ unknown.Nodup ∧
      (∀ key, key ∈ unknown ↔ key ∈ keys (request.query.getD []) ∧ validator.Unclaimed key) ∧
      (unknown = [] → refuse validator.route
        (unknownQueryItems validator.schema.parameters.query prepared) = .ok ()) ∧
      (unknown ≠ [] → validator.validate options request =
        .error (.badRequest (.ofItems validator.route (unknown.map fun name =>
          .brief (".query." ++ name) ("Unknown query parameter '" ++ name ++ "'"))))) := by
  obtain ⟨prepared, hprepared, hdistinct, hkeys⟩ := leaves_prepare hd hdecode
  have hdeclares : ∀ key, validator.schema.parameters.query.declares key = false ↔
      ∀ p ∈ validator.parameters, p.location = .query → p.name ≠ key := by
    intro key
    rw [← Bool.not_eq_true, ← not_iff_not, not_not]
    refine (hassembled.declares .query key).trans ?_
    simp
  have hitems : unknownQueryItems validator.schema.parameters.query prepared =
      ((keys prepared.query).filter fun name =>
        !validator.schema.parameters.query.declares name).map fun name =>
          .brief (".query." ++ name) ("Unknown query parameter '" ++ name ++ "'") := by
    rw [unknownQueryItems, hclosed]
    rfl
  refine ⟨prepared, (keys prepared.query).filter fun name =>
    !validator.schema.parameters.query.declares name, hprepared, List.Nodup.filter _ hdistinct,
    fun key => ?_, fun hnone => ?_, fun hsome => ?_⟩
  · rw [List.mem_filter, Bool.not_eq_true', hdeclares]
    constructor
    · rintro ⟨hmem, hundeclared⟩
      obtain ⟨hsent, hcovers⟩ := (hkeys key hundeclared).mp hmem
      exact ⟨hsent, fun p hp => ⟨hundeclared p hp, hcovers p hp⟩⟩
    · rintro ⟨hsent, hunclaimed⟩
      have hundeclared := fun p hp => (hunclaimed p hp).1
      exact ⟨(hkeys key hundeclared).mpr ⟨hsent, fun p hp => (hunclaimed p hp).2⟩, hundeclared⟩
  · rw [hitems, hnone]
    rfl
  · rw [validate_of_unknown hprepared (by simpa [hitems] using hsome), hitems]

/-- A misspelt parameter beside the right one is reported. -/
theorem refuses_exactly_unclaimed_limti :
    ∃ unknown : List String, "limti" ∈ unknown ∧
      limitValidator.validate {}
          { limitRequest with query := some [("limti", .str "1"), ("limit", .str "5")] } =
        .error (.badRequest (.ofItems "/pets" (unknown.map fun name =>
          .brief (".query." ++ name) ("Unknown query parameter '" ++ name ++ "'")))) := by
  have hdecode : Style.decode limitValidator.predicate.schema limitValidator.route
      limitValidator.parameters
      { limitRequest with query := some [("limti", .str "1"), ("limit", .str "5")] } =
      .ok { method := "GET", route := "/pets",
            query := [("limti", .str "1"), ("limit", .str "5")] } := by
    decide
  obtain ⟨prepared, unknown, -, -, hmem, -, hrefused⟩ := refuses_exactly_unclaimed {}
    limitValidator_assembled rfl (by simp [Distinct]) hdecode
  have hlimti : "limti" ∈ unknown := by
    refine (hmem "limti").mpr ⟨by simp, fun p hp => ?_⟩
    obtain rfl := List.mem_singleton.mp hp
    refine ⟨fun _ => by decide, fun hcovers => ?_⟩
    have hobject : Schema.isObjectLike limitValidator.predicate.schema limitParameter.schema =
        false := by
      decide
    rw [hcovers.2.2.1] at hobject
    cases hobject
  exact ⟨unknown, hlimti, hrefused (List.ne_nil_of_mem hlimti)⟩

end Validator

end RequestGate
