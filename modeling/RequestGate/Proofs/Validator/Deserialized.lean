import RequestGate.Proofs.Schema.Deserialized
import RequestGate.Proofs.Validator.Absent
import RequestGate.Proofs.Validator.Extension
import RequestGate.Proofs.Validator.WellFormed

/-!
# Formats with a deserializer

A string that has been accepted in the place of a parameter has passed every format that the schema of
the parameter demands. If such a format has a deserializer, this reads the string, and one would expect
what it reads to be returned. That is so if the format is the own one of the schema, written in it or in
the schema to which its references lead (`RequestGate.Validator.validate_reads`). It is not so if the
format stands in a member of `allOf`: the string is held to it and returned as it is
(`RequestGate.Validator.combined_format_not_read`).
-/

namespace RequestGate

open Entries

/-! ### From a request to its parameters -/

namespace RequestSchema

open Draft7

variable {schema : RequestSchema} {components : Json} {location : Location} {name : String}

theorem wellFormed_branch (h : (schema.toEngineSchema components).WellFormed) (location : Location) :
    (schema.parameters.branch location).toEngineSchema.WellFormed := by
  have hmembers := h.get? (get?_properties_toEngineSchema schema components)
  exact hmembers.get? (get?_memberSchemas schema location)

/-- **A parameter of an instance is held to its schema**, with steps left. -/
theorem exists_accepts_parameter {formats : Formats} {root sub a : Json} {r : NormalizedRequest}
    (hroot : root = schema.toEngineSchema components)
    (hsub : get? (schema.parameters.branch location).properties name = some sub)
    (ha : get? (r.table location) name = some a)
    (h : allViolations formats root r.toInstance = []) :
    ∃ n, root.size + 2 ≤ n ∧ Accepts formats root n sub a := by
  subst hroot
  let root := schema.toEngineSchema components
  -- a request is two levels above the values of its parameters, which leaves enough steps for them
  have hsteps : 3 * (root.size + 1) ≤ stepsFor root r.toInstance := by
    refine Nat.mul_le_mul_right _ (Nat.succ_le_succ (Nat.succ_le_succ ?_))
    rw [NormalizedRequest.toInstance, Json.depth]
    exact Nat.succ_le_succ (Nat.zero_le _)
  have hpos := root.size_pos
  obtain ⟨m, hm, hle⟩ : ∃ m, stepsFor root r.toInstance = m + 3 ∧ root.size + 1 ≤ m :=
    ⟨stepsFor root r.toInstance - 3, by omega, by omega⟩
  rw [allViolations, hm] at h
  have htable : Accepts formats root (m + 2)
      (schema.parameters.branch location).toEngineSchema (.obj (r.table location)) := by
    have hinstance : ∃ members, r.toInstance = .obj members ∧
        get? members location.field = some (.obj (r.table location)) :=
      ⟨_, rfl, by cases location <;> rfl⟩
    obtain ⟨members, hobj, htable⟩ := hinstance
    exact accepts_of_property reference?_toEngineSchema
      (get?_properties_toEngineSchema schema components) (get?_memberSchemas schema location) htable
      (hobj ▸ h)
  refine ⟨m + 1, Nat.succ_le_succ hle, ?_⟩
  exact accepts_of_property (LocationSchema.reference?_toEngineSchema _)
    (LocationSchema.get?_toEngineSchema _).2.1 hsub ha htable

end RequestSchema

namespace NormalizedRequest

variable {options : Options} {root body : Json} {parameters : List Parameter} {p : Parameter}

/-- Every parameter is deserialized by its own schema. -/
theorem get?_applyDeserializers
    (honce : parameters.Pairwise fun p q => p.location = q.location → p.name ≠ q.name)
    (hp : p ∈ parameters) (r : NormalizedRequest) :
    get? ((r.applyDeserializers options root parameters body).table p.location) p.name =
      (get? (r.table p.location) p.name).map (Schema.deserialize options root p.schema) := by
  have hnames : ((Style.atPlace p.location parameters).map Parameter.name).Nodup := by
    have hdistinct := Parameter.distinct_declaredAt honce p.location
    rwa [Distinct, keys, Parameter.declaredAt, List.map_map] at hdistinct
  rw [applyDeserializers_eq, table_mapBody, table_mapTables]
  exact get?_foldl_modify hnames (Style.mem_atPlace.mpr ⟨hp, rfl⟩) _

end NormalizedRequest

namespace Validator

variable {document : Document} {validator : Validator} {plan : Plan} {contentType : ContentType}
  {first : RequestSchema} {options : Options} {request : Request} {prepared n : NormalizedRequest}
  {p : Parameter} {d : Deserializer} {format text : String} {allow : Bool} {operation : Operation}

/-- The schema that the engine holds a parameter to is that of the parameter, up to canonical text. -/
theorem Fits.exists_alike (hplan : Plan.assemble document allow operation = .ok plan)
    (h : validator.Fits document plan contentType first) (hroot : validator.predicate.schema.WellFormed)
    (hp : p ∈ validator.parameters) :
    ∃ sub, get? (first.parameters.branch p.location).properties p.name = some sub ∧
      Json.Alike p.schema sub := by
  have hkept := Plan.keeps_of_assemble hplan p (h.parameters ▸ hp)
  have hproperties : Json.Alike (.obj (first.parameters.branch p.location).properties)
      (.obj (plan.schemas.branch p.location).properties) :=
    ((RequestSchema.alike_of_toJson (h.first.trans h.own.symm)).branch p.location).properties
  have hbranch := RequestSchema.wellFormed_branch (h.root ▸ hroot) p.location
  have hwell : (Json.obj (first.parameters.branch p.location).properties).WellFormed :=
    hbranch.get? (LocationSchema.get?_toEngineSchema _).2.1
  have hrel := hproperties.get? hwell.1 p.name
  rw [hkept] at hrel
  rcases rel_cases hrel with ⟨-, hnone⟩ | ⟨sub, schema, hsub, hschema, halike⟩
  · cases hnone
  · exact ⟨sub, hsub, Option.some.inj hschema ▸ halike.symm⟩

/-- Pruning keeps the strings of parameters. -/
theorem Fits.get?_of_prune (h : validator.Fits document plan contentType first)
    (hroot : validator.predicate.schema.WellFormed) {r : NormalizedRequest} {levels : Nat}
    {sub : Json} {mode : RemoveAdditional}
    (hsub : get? (first.parameters.branch p.location).properties p.name = some sub)
    (hpruned : Schema.pruneWithin validator.predicate.schema mode levels
      (first.parameters.branch p.location).toEngineSchema (.obj (prepared.table p.location)) =
        .obj (r.table p.location))
    (hsent : get? (prepared.table p.location) p.name = some (.str text)) :
    get? (r.table p.location) p.name = some (.str text) := by
  let place := first.parameters.branch p.location
  have href : Schema.reference? place.toEngineSchema = none := place.reference?_toEngineSchema
  have hproperties : Schema.properties validator.predicate.schema place.toEngineSchema =
      place.properties :=
    Schema.properties_of_shape href (RequestSchema.wellFormed_branch (h.root ▸ hroot) p.location)
      place.shape_toEngineSchema
  refine Schema.get?_pruneWithin_str (Schema.resolve_of_none href) ?_ hpruned hsent
  rw [hproperties, contains, hsub, Option.isSome_some]

/-- **What is returned in the place of a string that had to be of a format with a deserializer.** The
deserializer reads the string, since the engine has tested that. Returned is what the deserializer of the
own format of the schema reads. This is the one that was demanded if it is written in the schema, or in
the schema to which its references lead; and if that schema has no format of its own, the string is
returned as it is. -/
theorem validate_reads (hplan : Plan.assemble document allow operation = .ok plan)
    (hfits : validator.Fits document plan contentType first) (hvalidator : validator.WellFormed)
    (hformats : validator.predicate.formats = Engine.formats options)
    (hon : options.settings.validateFormats = true) (hp : p ∈ validator.parameters)
    (hdemands : Schema.Demands validator.predicate.schema format p.schema)
    (hd : options.deserializer? format = some d)
    (hprepared : validator.prepare request = .ok prepared)
    (hsent : get? (prepared.table p.location) p.name = some (.str text))
    (h : validator.validate options request = .ok n) :
    ∃ read returned, d.read text = some read ∧
      get? (n.table p.location) p.name = some returned ∧
      returned = (Schema.reading? options validator.predicate.schema p.schema text).getD (.str text) ∧
      (Schema.ownFormat? validator.predicate.schema p.schema = some format → returned = read) ∧
      (Schema.ownFormat? validator.predicate.schema p.schema = none → returned = .str text) := by
  obtain ⟨prepared', hprepared', -, -, herrors, rfl⟩ := validate_eq_ok_iff.mp h
  obtain rfl := Except.ok.inj (hprepared.symm.trans hprepared')
  obtain ⟨sub, hsub, halike⟩ := hfits.exists_alike hplan hvalidator.root hp
  obtain ⟨r, hr, levels, hpruned⟩ := Schema.exists_prune_toInstance_table
    options.settings.removeAdditional first document.components prepared
  have hchecked : validator.checked options prepared = r.toInstance := by
    rw [checked, hfits.root, hr]
  have hstring : get? (r.table p.location) p.name = some (.str text) :=
    hfits.get?_of_prune hvalidator.root hsub (hfits.root ▸ hpruned p.location) hsent
  -- the engine has held the string to the format, so it can be read
  rw [hchecked, Predicate.errors, List.map_eq_nil_iff, hformats] at herrors
  obtain ⟨steps, hsteps, haccepts⟩ :=
    RequestSchema.exists_accepts_parameter hfits.root hsub hstring herrors
  obtain ⟨read, hread⟩ := Schema.exists_read_of_demands hvalidator.root
    (hfits.root ▸ RequestSchema.mem_subvalues_toEngineSchema (mem_of_get? hsub)) hon hd
    (hdemands.of_alike (hvalidator.parameters p hp) halike) hsteps haccepts
  -- what is returned is looked for by the own format alone
  refine ⟨read, _, hread, ?_, rfl, fun hown => ?_, fun hown => ?_⟩
  · have honce := hfits.parameters ▸ Plan.once_of_assemble hplan
    have htable : (prepared.replaceFromInstance r.toInstance).table p.location =
        r.table p.location := by
      rw [NormalizedRequest.replaceFromInstance_toInstance]
      cases p.location <;> rfl
    rw [hchecked, NormalizedRequest.get?_applyDeserializers honce hp, htable, hstring, Option.map_some,
      Schema.deserialize_str]
  · rw [Schema.reading?, hown, Option.bind_some, hd, Option.bind_some, hread, Option.getD_some]
  · rw [Schema.reading?, hown]
    rfl

end Validator

/-! ### A list of columns

It is written with commas, in a format that is declared among the components. -/

/-- A deserializer of lists with commas. -/
def commaReader : Deserializer :=
  ⟨"csv", fun text => some (Json.ofStrings ((Text.splitOn ',' text.toList).map String.ofList))⟩

/-- Options that bring it. -/
def commaOptions : Options := { deserializers := [commaReader] }

/-- A schema that refers to the declared format. -/
def referringSchema : Json := .obj [("$ref", .str "#/components/schemas/Columns")]

/-- A schema that has it as a member of `allOf`. -/
def combiningSchema : Json := .obj [("allOf", .arr [referringSchema])]

/-- The parameter, with a schema. -/
def columnsParameter (schema : Json) : Parameter where
  name := "columns"
  location := .query
  required := false
  style := "form"
  explode := true
  allowEmptyValue := false
  schema := schema
  contentMediaType := none

/-- An operation that takes it. -/
def columnsOperation (schema : Json) : Operation :=
  let declaration : Json := .obj [("parameters", .arr [.obj [("name", .str "columns"),
    ("in", .str "query"), ("schema", schema)]])]
  { method := .get, route := "/rows", pathItem := .obj [("get", declaration)], declaration }

/-- The document that declares it. -/
def columnsDocument (schema : Json) : Document :=
  ⟨.obj [("openapi", .str "3.0.0"),
    ("paths", .obj [("/rows", (columnsOperation schema).pathItem)]),
    ("components", .obj [("schemas", .obj [("Columns",
      .obj [("type", .str "string"), ("format", .str "csv")])])])]⟩

/-- Its plan. -/
def columnsPlan (schema : Json) : Plan :=
  { method := .get, route := "/rows", parameters := [columnsParameter schema]
    schemas :=
      { query := { LocationSchema.empty .query with properties := [("columns", schema)] } }
    requestBody := none }

/-- The schema of its requests. -/
def columnsSchema (schema : Json) : RequestSchema := ⟨(columnsPlan schema).schemas, .unconstrained⟩

/-- A request for two columns. -/
def columnsRequest : Request :=
  { method := "GET", route := "/rows", query := some [("columns", .str "a,b")] }

/-- The validator. -/
def columnsValidator (schema : Json) : Validator :=
  (columnsPlan schema).validator (columnsSchema schema)
    ⟨(columnsSchema schema).toEngineSchema (columnsDocument schema).components,
      Engine.formats commaOptions⟩ columnsRequest

theorem columnsPlan_assembled : ∀ schema ∈ [referringSchema, combiningSchema],
    Plan.assemble (columnsDocument schema) false (columnsOperation schema) =
      .ok (columnsPlan schema) := by
  decide

theorem columnsValidator_fits (schema : Json) :
    (columnsValidator schema).Fits (columnsDocument schema) (columnsPlan schema) .notProvided
      (columnsSchema schema) where
  parameters := rfl
  own := .refl _
  root := rfl
  first := .refl _

theorem columnsValidator_wellFormed {schema : Json}
    (hschema : schema ∈ [referringSchema, combiningSchema]) :
    (columnsValidator schema).WellFormed := by
  have hroot : ∀ schema ∈ [referringSchema, combiningSchema],
      (columnsValidator schema).predicate.schema.WellFormed ∧ schema.WellFormed := by
    decide
  obtain ⟨hroot, hwell⟩ := hroot schema hschema
  refine ⟨hroot, fun p hp => ?_, show (Json.obj []).WellFormed by decide⟩
  obtain rfl : p = columnsParameter schema := List.mem_singleton.mp hp
  exact hwell

/-- Both schemas demand the format. -/
theorem demands_columns :
    Schema.Demands (columnsValidator referringSchema).predicate.schema "csv" referringSchema ∧
      Schema.Demands (columnsValidator combiningSchema).predicate.schema "csv" combiningSchema := by
  have hreference : ∀ root, Draft7.resolve? root "#/components/schemas/Columns" =
      some (.obj [("type", .str "string"), ("format", .str "csv")]) →
        Schema.Demands root "csv" referringSchema := fun root htarget =>
    .reference rfl htarget (.own rfl rfl)
  refine ⟨hreference _ (by decide), .allOf rfl (List.mem_singleton_self _)
    (hreference _ (by decide))⟩

namespace Validator

/-- A schema that refers to the format has it read. -/
theorem validate_reads_columns :
    ∃ n returned, (columnsValidator referringSchema).validate commaOptions columnsRequest = .ok n ∧
      commaReader.read "a,b" = some returned ∧ get? n.query "columns" = some returned := by
  have hschema : referringSchema ∈ [referringSchema, combiningSchema] := by simp
  let answer (value : Json) : NormalizedRequest :=
    { method := "GET", route := "/rows", query := [("columns", value)] }
  have h : (columnsValidator referringSchema).validate commaOptions columnsRequest =
      .ok (answer (Json.ofStrings ["a", "b"])) := by
    decide
  have hprepared : (columnsValidator referringSchema).prepare columnsRequest =
      .ok (answer (.str "a,b")) := by
    decide
  have hown : Schema.ownFormat? (columnsValidator referringSchema).predicate.schema
      (columnsParameter referringSchema).schema = some "csv" := by
    decide
  obtain ⟨read, returned, hread, hreturned, -, hsame, -⟩ :=
    validate_reads (d := commaReader) (p := columnsParameter referringSchema)
      (columnsPlan_assembled _ hschema) (columnsValidator_fits _) (columnsValidator_wellFormed hschema)
      rfl rfl (List.mem_singleton_self _) demands_columns.1 rfl hprepared rfl h
  exact ⟨_, returned, h, hsame hown ▸ hread, hreturned⟩

/-- **A format in a member of `allOf` is demanded, and not read.** The string is accepted because the
deserializer reads it, and returned as it is. -/
theorem combined_format_not_read :
    ∃ n, (columnsValidator combiningSchema).validate commaOptions columnsRequest = .ok n ∧
      Schema.Demands (columnsValidator combiningSchema).predicate.schema "csv" combiningSchema ∧
      commaOptions.deserializer? "csv" = some commaReader ∧
      commaReader.read "a,b" = some (Json.ofStrings ["a", "b"]) ∧
      get? n.query "columns" = some (.str "a,b") :=
  ⟨{ method := "GET", route := "/rows", query := [("columns", .str "a,b")] }, by decide,
    demands_columns.2, rfl, by decide, rfl⟩

end Validator

end RequestGate
