import RequestGate.Gate
import RequestGate.Proofs.Artifact.Tables

/-!
# What a loaded gate finds in the tables

A loaded gate looks up the record of an operation, which is that of its plan
(`RequestGate.Artifact.operation?_payloadOf`). It knows the key that it is asked under and the content
type as well, and from these it makes a blueprint. The parameters of the blueprint are those of the
operation, but its schema is looked up in two steps, and each of them can lead to a class that was
foreseen of another operation.

* The key, or else the selected media type, leads to the *class gone by*
  (`RequestGate.Artifact.classFor?`): the last foreseen one with the key, and if there is none the last
  one of the operation itself that selects the media type.
* The fingerprint of that class leads to the first foreseen schema that has it
  (`RequestGate.Artifact.schemaFor?`).

There is a blueprint exactly if the two steps lead somewhere
(`RequestGate.Artifact.ofRecord_payloadOf_eq_ok_iff`).
-/

namespace RequestGate

/-- The first plan for a method, in any case, and exactly this route. -/
def planAt? (plans : List Plan) (method route : String) : Option Plan :=
  plans.find? fun plan => Text.eqIgnoreAsciiCase plan.method.name method && plan.route == route

/-- The blueprint that is made from a plan, with a fingerprint and the schema under it. -/
def Plan.recordedBlueprint (plan : Plan) (fingerprint : Fingerprint) (schema : RequestSchema)
    (contentType : ContentType) : Blueprint :=
  { method := plan.method.name, route := plan.route,
    mediaType := negotiate plan.mediaTypes contentType, origin := .artifact,
    parameters := plan.parameters, schema, fingerprint }

namespace Artifact

/-- The foreseen class that a loaded gate goes by. -/
def classFor? (components : Json) (plans : List Plan) (plan : Plan) (key : OperationKey)
    (contentType : ContentType) : Option Foreseen :=
  ((plans.flatMap (Plan.foreseen components)).reverse.find? fun f => f.key.text == key.text).or
    ((plan.foreseen components).reverse.find? fun f =>
      f.selected == (negotiate plan.mediaTypes contentType).getD "")

/-- The schema that a loaded gate finds. -/
def schemaFor? (components : Json) (plans : List Plan) (plan : Plan) (key : OperationKey)
    (contentType : ContentType) : Option RequestSchema :=
  (classFor? components plans plan key contentType).bind fun f =>
    ((plans.flatMap (Plan.foreseen components)).find? fun g =>
      g.schema.fingerprint.hex == f.schema.fingerprint.hex).map Foreseen.schema

variable {components : Json} {plans : List Plan} {plan : Plan} {key : OperationKey}
  {contentType : ContentType} {path : String} {f : Foreseen} {schema : RequestSchema}

/-- The record that is found is that of the plan. -/
theorem operation?_payloadOf (components : Json) (plans : List Plan) (method route : String) :
    (payloadOf components plans).operation? method route =
      (planAt? plans method route).map (recordOf components) := by
  rw [Payload.operation?, payloadOf, List.find?_map]
  rfl

/-- Both tables are searched from the end. -/
theorem fingerprint_payloadOf (components : Json) (plans : List Plan) (plan : Plan)
    (key : OperationKey) (contentType : ContentType) :
    (Entries.get? (payloadOf components plans).keys key.text).or
      (Entries.get? (recordOf components plan).variants
        ((negotiate plan.mediaTypes contentType).getD "")) =
      (classFor? components plans plan key contentType).map fun f => f.schema.fingerprint := by
  rw [payloadOf, recordOf, keyTable, variantTable, Entries.get?_foldl_insertSorted,
    Entries.get?_foldl_insertSorted, classFor?, Option.map_or]

/-- The class gone by was foreseen of some operation. -/
theorem mem_of_classFor? (hplan : plan ∈ plans)
    (h : classFor? components plans plan key contentType = some f) :
    f ∈ plans.flatMap (Plan.foreseen components) := by
  rcases Option.or_eq_some_iff.mp h with hkey | ⟨-, hselected⟩
  · exact List.mem_reverse.mp (List.mem_of_find?_eq_some hkey)
  · exact List.mem_flatMap.mpr ⟨plan, hplan,
      List.mem_reverse.mp (List.mem_of_find?_eq_some hselected)⟩

/-- The schema that is found stands under the fingerprint of the class gone by. -/
theorem schemaFor?_eq_some_iff :
    schemaFor? components plans plan key contentType = some schema ↔
      ∃ f, classFor? components plans plan key contentType = some f ∧
        Entries.get? (payloadOf components plans).schemas f.schema.fingerprint.hex =
          some schema := by
  simp only [schemaFor?, Option.bind_eq_some_iff, get?_schemas_payloadOf]

/-- A class to go by has a schema. -/
theorem exists_schemaFor? (hplan : plan ∈ plans)
    (h : classFor? components plans plan key contentType = some f) :
    ∃ schema, schemaFor? components plans plan key contentType = some schema := by
  obtain ⟨schema, hschema, -⟩ := knows_payloadOf (mem_of_classFor? hplan h)
  exact ⟨schema, schemaFor?_eq_some_iff.mpr ⟨f, h, hschema⟩⟩

/-- **What is made of a recorded operation.** -/
theorem ofRecord_payloadOf_eq_ok_iff {b : Blueprint} :
    Blueprint.ofRecord path (payloadOf components plans) key contentType
        (recordOf components plan) = .ok b ↔
      ∃ f schema, classFor? components plans plan key contentType = some f ∧
        Entries.get? (payloadOf components plans).schemas f.schema.fingerprint.hex = some schema ∧
        b = plan.recordedBlueprint f.schema.fingerprint schema contentType := by
  have hfound := fingerprint_payloadOf components plans plan key contentType
  simp only [recordOf] at hfound
  simp only [Blueprint.ofRecord, recordOf, hfound]
  cases classFor? components plans plan key contentType with
  | none => simp
  | some f =>
    cases hschema : Entries.get? (payloadOf components plans).schemas f.schema.fingerprint.hex with
    | none => simp [hschema]
    | some schema =>
      simp only [Option.map_some, hschema, Except.ok.injEq, Option.some.injEq,
        exists_and_left, exists_eq_left', eq_comm (b := b)]
      rfl

/-- Without a class to go by a variant is missing. -/
theorem ofRecord_payloadOf_of_none
    (h : classFor? components plans plan key contentType = none) :
    Blueprint.ofRecord path (payloadOf components plans) key contentType
        (recordOf components plan) = .error (.artifact path (.noVariant key)) := by
  have hfound := fingerprint_payloadOf components plans plan key contentType
  simp only [recordOf] at hfound
  simp only [Blueprint.ofRecord, recordOf, hfound, h, Option.map_none]

end Artifact

end RequestGate
