import Mathlib.Tactic.MkIffOfInductiveProp
import RequestGate.Proofs.Schema.Completeness
import RequestGate.Proofs.Validator.Extension

/-!
# Whether defaults are filled in at once

A request is complete if neither a parameter nor a property of a parameter or of the body is missing that
has a default. That is what filling in defaults is for, and when a request is complete, filling changes
nothing any more; nor does it change nothing in any other case
(`RequestGate.NormalizedRequest.applyDefaults_eq_self_iff`). But a request is not always complete when its
defaults have been filled in, since a default that is put in may itself lack what there is a default for
(`RequestGate.NormalizedRequest.nested_default_missing`). Every request is filled completely exactly if
no declared default lacks anything (`RequestGate.NormalizedRequest.applyDefaults_twice_iff`).
-/

namespace RequestGate.NormalizedRequest

open Schema

variable {root body : Json} {parameters : List Parameter} {r : NormalizedRequest}
  {P : Nat → Json → Prop}

/-- Asks something of the schemas of all parameters that are missing in a request, and of all properties
that are missing in those that are there and in the body. -/
@[mk_iff]
structure EveryMissing (root : Json) (P : Nat → Json → Prop) (parameters : List Parameter) (body : Json)
    (r : NormalizedRequest) : Prop where
  parameters : ∀ p ∈ parameters, (Entries.get? (r.table p.location) p.name).elim (P levels p.schema)
    (Schema.EveryMissing root P levels p.schema)
  body : ∀ b ∈ r.body, Schema.EveryMissing root P levels body b

/-- Asks something of the schemas of all parameters, and of all properties of these and of the body. -/
@[mk_iff]
structure EveryDeclared (root : Json) (P : Nat → Json → Prop) (parameters : List Parameter)
    (body : Json) : Prop where
  parameters : ∀ p ∈ parameters, P levels p.schema ∧ EveryProperty root P levels p.schema
  body : EveryProperty root P levels body

instance [∀ n, DecidablePred (P n)] : Decidable (EveryDeclared root P parameters body) :=
  decidable_of_iff' _ (everyDeclared_iff root P parameters body)

/-- A request is left as it is if its tables and its body are. -/
theorem applyDefaults_eq_iff :
    r.applyDefaults root parameters body = r ↔
      (∀ location, (r.applyDefaults root parameters body).table location = r.table location) ∧
        ∀ b ∈ r.body, fillDefaults root body b = b := by
  have hbody : (r.applyDefaults root parameters body).body = r.body ↔
      ∀ b ∈ r.body, fillDefaults root body b = b := by
    rw [body_applyDefaults]
    cases r.body <;> simp
  rw [← hbody]
  refine ⟨fun h => ?_, fun ⟨htables, hbody⟩ => ?_⟩
  · rw [h]
    exact ⟨fun _ => rfl, rfl⟩
  · have hextends := applyDefaults_eq root parameters body r
    refine eq_of_tables ?_ ?_ hbody htables
    · rw [hextends, mapBody, method_mapTables]
    · rw [hextends, mapBody, route_mapTables]

/-- **Filling in defaults changes nothing exactly if nothing with a default is missing.** -/
theorem applyDefaults_eq_self_iff :
    r.applyDefaults root parameters body = r ↔
      EveryMissing root (Defaultless root) parameters body r := by
  have htables : (∀ location, (r.applyDefaults root parameters body).table location =
      r.table location) ↔ ∀ p ∈ parameters,
        (Entries.get? (r.table p.location) p.name).elim (Defaultless root levels p.schema)
          (Schema.EveryMissing root (Defaultless root) levels p.schema) := by
    -- no step shrinks a value, so all steps together change nothing only if none does
    have hgrows : ∀ sub a : Json,
        fillDefaults root sub a = a ∨ a.size < (fillDefaults root sub a).size :=
      fillWithin_grows root levels
    calc (∀ location, (r.applyDefaults root parameters body).table location = r.table location)
        ↔ ∀ location, ∀ e ∈ Parameter.declaredAt location parameters,
            fillProperty root (fillDefaults root) (r.table location) e = r.table location :=
          forall_congr' fun location => by
            rw [table_applyDefaults, foldl_eq_self_iff (fillProperty_grows hgrows)]
      _ ↔ ∀ p ∈ parameters, fillProperty root (fillDefaults root) (r.table p.location)
            (p.name, p.schema) = r.table p.location := Parameter.forall_declaredAt
      _ ↔ _ := forall₂_congr fun p _ => by
          simp only [fillProperty_eq_self_iff, fillDefaults, fillWithin_eq_self_iff]
          exact Iff.rfl
  rw [applyDefaults_eq_iff, htables, everyMissing_iff]
  simp only [fillDefaults, fillWithin_eq_self_iff]

/-- **A request is complete after filling** exactly if the defaults are that have been put in. -/
theorem everyMissing_applyDefaults_iff
    (honce : parameters.Pairwise fun p q => p.location = q.location → p.name ≠ q.name) :
    EveryMissing root (Defaultless root) parameters body (r.applyDefaults root parameters body) ↔
      EveryMissing root (CompleteDefault root) parameters body r := by
  have hparameter : ∀ p ∈ parameters,
      ((Entries.get? ((r.applyDefaults root parameters body).table p.location) p.name).elim
          (Defaultless root levels p.schema)
          (Schema.EveryMissing root (Defaultless root) levels p.schema) ↔
        (Entries.get? (r.table p.location) p.name).elim (CompleteDefault root levels p.schema)
          (Schema.EveryMissing root (CompleteDefault root) levels p.schema)) := by
    intro p hp
    have hmem : (p.name, p.schema) ∈ Parameter.declaredAt p.location parameters :=
      Parameter.mem_declaredAt.mpr ⟨p, hp, rfl, rfl⟩
    rw [table_applyDefaults, elim_fillProperties_iff (Parameter.distinct_declaredAt honce _) hmem]
    cases Entries.get? (r.table p.location) p.name with
    | none => exact elim_declaredDefault?_iff
    | some a => exact nothingMissing_fillWithin_iff
  have hbody : (∀ b ∈ (r.applyDefaults root parameters body).body,
      Schema.EveryMissing root (Defaultless root) levels body b) ↔
        ∀ b ∈ r.body, Schema.EveryMissing root (CompleteDefault root) levels body b := by
    rw [body_applyDefaults]
    simp [fillDefaults, nothingMissing_fillWithin_iff]
  constructor
  · exact fun h => ⟨fun p hp => (hparameter p hp).mp (h.parameters p hp), hbody.mp h.body⟩
  · exact fun h => ⟨fun p hp => (hparameter p hp).mpr (h.parameters p hp), hbody.mpr h.body⟩

/-- What is asked of all requests is asked of all that is declared. -/
theorem forall_everyMissing_iff :
    (∀ r, EveryMissing root P parameters body r) ↔ EveryDeclared root P parameters body := by
  constructor
  · -- a request without anything lacks every parameter, and one with a single value no more than this lacks
    refine fun h => ⟨fun p hp => ⟨?_, ?_⟩, ?_⟩
    · have hempty := (h {}).parameters p hp
      cases hlocation : p.location <;> rw [hlocation] at hempty <;> exact hempty
    · refine Schema.forall_everyMissing_iff.mp fun a => ?_
      have hgiven := (h (({} : NormalizedRequest).withTable p.location [(p.name, a)])).parameters p hp
      rwa [table_withTable, Entries.get?_cons, if_pos rfl] at hgiven
    · exact Schema.forall_everyMissing_iff.mp fun b => (h { body := some b }).body b rfl
  · intro h r
    refine ⟨fun p hp => ?_, fun b _ => Schema.forall_everyMissing_iff.mpr h.body b⟩
    cases Entries.get? (r.table p.location) p.name with
    | none => exact (h.parameters p hp).1
    | some a => exact Schema.forall_everyMissing_iff.mpr (h.parameters p hp).2 a

/-- **What filling in defaults a second time does.** It changes nothing exactly if nothing with a default
is missing after the first time. Where no two parameters share a place and a name, this is so exactly if
no default lacks anything that has been put in, and it is so for all requests exactly if no default lacks
anything that is declared. -/
theorem applyDefaults_twice_iff (root body : Json) (parameters : List Parameter) :
    (∀ r : NormalizedRequest, let filled := r.applyDefaults root parameters body
      filled.applyDefaults root parameters body = filled ↔
        EveryMissing root (Defaultless root) parameters body filled) ∧
    ((parameters.Pairwise fun p q => p.location = q.location → p.name ≠ q.name) →
      (∀ r : NormalizedRequest, let filled := r.applyDefaults root parameters body
        filled.applyDefaults root parameters body = filled ↔
          EveryMissing root (CompleteDefault root) parameters body r) ∧
      ((∀ r : NormalizedRequest, let filled := r.applyDefaults root parameters body
        filled.applyDefaults root parameters body = filled) ↔
          EveryDeclared root (CompleteDefault root) parameters body)) := by
  refine ⟨fun r => applyDefaults_eq_self_iff, fun honce => ⟨fun r => ?_, ?_⟩⟩
  · exact applyDefaults_eq_self_iff.trans (everyMissing_applyDefaults_iff honce)
  · rw [← forall_everyMissing_iff]
    exact forall_congr' fun r =>
      applyDefaults_eq_self_iff.trans (everyMissing_applyDefaults_iff honce)

/-- Every list of orders is complete when its amounts have been filled in. -/
theorem applyDefaults_twice_orders :
    let sizes := [pageSize, { pageSize with location := .header }]
    EveryDeclared (.obj []) (CompleteDefault (.obj [])) sizes ordersSchema ∧
      ∀ r : NormalizedRequest, let filled := r.applyDefaults (.obj []) sizes ordersSchema
        filled.applyDefaults (.obj []) sizes ordersSchema = filled := by
  intro sizes
  have hcomplete : EveryDeclared (.obj []) (CompleteDefault (.obj [])) sizes ordersSchema := by
    decide
  have honce : sizes.Pairwise fun p q => p.location = q.location → p.name ≠ q.name := by
    decide
  exact ⟨hcomplete, ((applyDefaults_twice_iff (.obj []) ordersSchema sizes).2 honce).2.mpr hcomplete⟩

/-- A form whose options are none if nothing else is said, though one of them is on by default. -/
def formSchema : Json :=
  .obj [("type", .str "object"), ("properties", .obj [("options",
    .obj [("type", .str "object"), ("default", .obj []),
      ("properties", .obj [("notify", .obj [("type", .str "boolean"), ("default", .bool true)])])])])]

/-- **A default that has been put in may lack a default.** It is there after the second time. -/
theorem nested_default_missing :
    let r : NormalizedRequest := { method := "POST", route := "/form", body := some (.obj []) }
    let once := r.applyDefaults (.obj []) [] formSchema
    let twice := once.applyDefaults (.obj []) [] formSchema
    once.body = some (.obj [("options", .obj [])]) ∧
      twice.body = some (.obj [("options", .obj [("notify", .bool true)])]) ∧
      twice ≠ once ∧ ¬EveryMissing (.obj []) (Defaultless (.obj [])) [] formSchema once := by
  intro r once twice
  have honce : once.body = some (.obj [("options", .obj [])]) := by decide
  have htwice : twice.body = some (.obj [("options", .obj [("notify", .bool true)])]) := by
    decide
  have hne : twice ≠ once := fun h => by
    rw [h, honce] at htwice
    exact absurd htwice (by decide)
  exact ⟨honce, htwice, hne, fun h => hne (applyDefaults_eq_self_iff.mpr h)⟩

end RequestGate.NormalizedRequest
