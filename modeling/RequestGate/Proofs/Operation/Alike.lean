import RequestGate.Proofs.Artifact.Reading
import RequestGate.Proofs.Json.Canonical
import RequestGate.Proofs.Parameter.Assembly

/-!
# Schemas of one fingerprint

Two request schemas with the same canonical text declare the same parameters in each place, require
the same ones, and are open or closed in the same places. What is left open is the order in which the
parameters stand, and within their schemas whatever canonical text leaves open.
-/

namespace RequestGate

open Json

/-- Schemas of a place that differ at most in what canonical text does not tell. -/
structure LocationSchema.Alike (a b : LocationSchema) : Prop where
  title : a.title = b.title
  properties : Json.Alike (.obj a.properties) (.obj b.properties)
  required : a.required = b.required
  additionalProperties : a.additionalProperties = b.additionalProperties
  allowEmptyValue : a.allowEmptyValue = b.allowEmptyValue

/-- Request schemas that differ at most in what canonical text does not tell. -/
structure RequestSchema.Alike (a b : RequestSchema) : Prop where
  branch : ∀ location, (a.parameters.branch location).Alike (b.parameters.branch location)
  body : Json.Alike a.body.schema b.body.schema
  bodyRequired : a.body.required = b.body.required

namespace LocationSchema

variable {a b : LocationSchema}

theorem eq_of_rel_listMember {name : String} {items items' : List String}
    (h : Option.Rel Json.Alike (Entries.get? (listMember name items) name)
      (Entries.get? (listMember name items') name)) : items = items' := by
  rw [get?_listMember, get?_listMember] at h
  by_cases hitems : items = [] <;> by_cases hitems' : items' = [] <;>
    simp only [hitems, hitems', ne_eq, not_true_eq_false, not_false_eq_true, and_true, and_false,
      if_true, if_false] at h
  · rw [hitems, hitems']
  · cases h
  · cases h
  · cases h with
    | some h => exact ofStrings_inj_of_alike h

/-- The members of the record of a place, the lists left out if they are empty. -/
theorem get?_toJson (s : LocationSchema) :
    Entries.get? (s.toJson.obj?.getD []) "title" = some (.str s.title) ∧
      Entries.get? (s.toJson.obj?.getD []) "properties" = some (.obj s.properties) ∧
      Entries.get? (s.toJson.obj?.getD []) "required" =
        Entries.get? (listMember "required" s.required) "required" ∧
      Entries.get? (s.toJson.obj?.getD []) "additionalProperties" =
        some (.bool s.additionalProperties) ∧
      Entries.get? (s.toJson.obj?.getD []) "allowEmptyValue" =
        Entries.get? (listMember "allowEmptyValue" s.allowEmptyValue) "allowEmptyValue" := by
  obtain ⟨title, properties, required, additional, allowEmpty⟩ := s
  cases required <;> cases allowEmpty <;> simp [toJson, obj?, listMember, Entries.get?_cons]

/-- **What can be read off the canonical text of a place.** -/
theorem alike_of_toJson (h : Json.Alike a.toJson b.toJson) : a.Alike b := by
  have hget : ∀ key, Option.Rel Json.Alike (Entries.get? (a.toJson.obj?.getD []) key)
      (Entries.get? (b.toJson.obj?.getD []) key) :=
    fun key => Json.Alike.get? h (distinct_toJson a) key
  obtain ⟨ha, hproperties, hrequired, hadditional, hallow⟩ := get?_toJson a
  obtain ⟨hb, hproperties', hrequired', hadditional', hallow'⟩ := get?_toJson b
  have htitle := hget "title"
  have hprops := hget "properties"
  have hopen := hget "additionalProperties"
  rw [ha, hb, Option.rel_some_some] at htitle
  rw [hproperties, hproperties', Option.rel_some_some] at hprops
  rw [hadditional, hadditional', Option.rel_some_some] at hopen
  exact
    { title := (Json.str.inj htitle.eq_str).symm
      properties := hprops
      required := eq_of_rel_listMember (hrequired ▸ hrequired' ▸ hget "required")
      additionalProperties := (Json.bool.inj hopen.eq_bool).symm
      allowEmptyValue := eq_of_rel_listMember (hallow ▸ hallow' ▸ hget "allowEmptyValue") }

/-- Alike places declare the same names. -/
theorem Alike.declares_eq (h : a.Alike b) (name : String) : a.declares name = b.declares name := by
  rw [declares, declares, Bool.eq_iff_iff, Entries.contains_iff, Entries.contains_iff]
  exact h.properties.permuted.keys_perm.mem_iff

end LocationSchema

/-- Alike schemas match the same parameters. -/
theorem ParameterSchemas.Matches.of_alike {a b : ParameterSchemas} {parameters : List Parameter}
    (h : a.Matches parameters) (halike : ∀ location, (a.branch location).Alike (b.branch location)) :
    b.Matches parameters where
  declares location name := by rw [← (halike location).declares_eq]; exact h.declares location name
  requires location := (halike location).required ▸ h.requires location

/-- **What can be read off the canonical text of a request schema.** -/
theorem RequestSchema.alike_of_toJson {a b : RequestSchema} (h : Json.Alike a.toJson b.toJson) :
    a.Alike b := by
  have hparameters : Json.Alike a.parameters.toJson b.parameters.toJson :=
    Option.rel_some_some.mp (Json.Alike.get? h (by simp [Entries.Distinct]) "parameters")
  have hbody : Json.Alike a.body.toJson b.body.toJson :=
    Option.rel_some_some.mp (Json.Alike.get? h (by simp [Entries.Distinct]) "body")
  have hplace := fun key => Json.Alike.get? hparameters (by simp [Entries.Distinct]) key
  have hfield := fun key => Json.Alike.get? hbody (by simp [Entries.Distinct]) key
  refine ⟨fun location => LocationSchema.alike_of_toJson ?_, Option.rel_some_some.mp (hfield "schema"),
    (Json.bool.inj (Option.rel_some_some.mp (hfield "required")).eq_bool).symm⟩
  cases location with
  | query => exact Option.rel_some_some.mp (hplace "query")
  | header => exact Option.rel_some_some.mp (hplace "headers")
  | path => exact Option.rel_some_some.mp (hplace "path")
  | cookie => exact Option.rel_some_some.mp (hplace "cookies")

end RequestGate
