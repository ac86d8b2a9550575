import RequestGate.Artifact.Basic
import RequestGate.Proofs.Json.Record
import RequestGate.Proofs.Operation.WellFormed

/-!
# Records that are read back

Every record of an artifact is written as an object with its fields as members. Read again, it is the
same record, if what cannot be seen in the members holds of it: no object repeats a key, tables have
ascending keys, and sets of names are ascending lists. That is what being well formed means for each
kind of record, and the laws below follow the records from the inside to the outside, from the schema of
one place to the payload of an artifact. The object is well formed then too, so that nothing is lost when
it is written as text.
-/

namespace RequestGate

open Json

/-! ### Schemas -/

namespace LocationSchema

variable {schema : LocationSchema}

theorem get?_listMember (name : String) (items : List String) (key : String) :
    Entries.get? (listMember name items) key =
      if name = key ∧ items ≠ [] then some (ofStrings items) else none := by
  cases items with
  | nil => simp [listMember]
  | cons item items => simp [listMember, Entries.get?_cons]

/-- A list that is left out is read as the empty one. -/
theorem withDefault?_listMember (name : String) (items : List String) :
    withDefault? [] (readList? readStr?) (Entries.get? (listMember name items) name) = some items := by
  rw [get?_listMember]
  cases items with
  | nil => simp [withDefault?]
  | cons item items => simpa [withDefault?] using readList?_ofStrings (item :: items)

/-- Whichever lists are left out, no member is written twice. -/
theorem distinct_toJson (schema : LocationSchema) :
    Entries.Distinct (schema.toJson.obj?.getD []) := by
  obtain ⟨title, properties, required, additional, allowEmpty⟩ := schema
  cases required <;> cases allowEmpty <;> simp [toJson, obj?, listMember, Entries.Distinct]

theorem readFields?_toJson (schema : LocationSchema) :
    readFields? fields schema.toJson =
      some [some (.str schema.title), some (.obj schema.properties),
        Entries.get? (listMember "required" schema.required) "required",
        some (.bool schema.additionalProperties),
        Entries.get? (listMember "allowEmptyValue" schema.allowEmptyValue) "allowEmptyValue"] := by
  refine (readFields?_obj (distinct_toJson schema) _).trans ?_
  obtain ⟨title, properties, required, additional, allowEmpty⟩ := schema
  cases required <;> cases allowEmpty <;> simp [toJson, obj?, listMember, Entries.get?_cons]

theorem wellFormed_of_mem_listMember {name : String} {items : List String} {e : String × Json}
    (he : e ∈ listMember name items) : e.2.WellFormed := by
  rw [listMember] at he
  split at he
  · cases he
  · rw [List.mem_singleton.mp he]
    exact wellFormed_ofStrings items

theorem wellFormed_toJson (h : schema.WellFormed) : schema.toJson.WellFormed := by
  refine wellFormed_obj_iff.mpr ⟨distinct_toJson schema, fun e he => ?_⟩
  simp only [List.mem_append, List.mem_cons, List.not_mem_nil, or_false] at he
  rcases he with (((rfl | rfl) | he) | rfl) | he
  · trivial
  · exact h.properties
  · exact wellFormed_of_mem_listMember he
  · trivial
  · exact wellFormed_of_mem_listMember he

theorem ofJson?_toJson (h : schema.WellFormed) : ofJson? schema.toJson = some schema := by
  have hproperties : (Json.obj schema.properties).collapse = .obj schema.properties :=
    h.properties.collapse_eq
  rw [ofJson?, readFields?_toJson]
  simp [readStr?, readBool?, hproperties, obj?, withDefault?_listMember,
    sortedDistinct_of_pairwise h.allowEmptyValue]

end LocationSchema

namespace ParameterSchemas

theorem ofJson?_toJson {schemas : ParameterSchemas} (h : schemas.WellFormed) :
    ofJson? schemas.toJson = some schemas := by
  have hquery : LocationSchema.ofJson? schemas.query.toJson = some schemas.query :=
    LocationSchema.ofJson?_toJson (h .query)
  have hheaders : LocationSchema.ofJson? schemas.headers.toJson = some schemas.headers :=
    LocationSchema.ofJson?_toJson (h .header)
  have hpath : LocationSchema.ofJson? schemas.path.toJson = some schemas.path :=
    LocationSchema.ofJson?_toJson (h .path)
  have hcookies : LocationSchema.ofJson? schemas.cookies.toJson = some schemas.cookies :=
    LocationSchema.ofJson?_toJson (h .cookie)
  rw [ofJson?, toJson, readFields?_all ["query", "headers", "path", "cookies"] rfl (by decide)]
  simp [hquery, hheaders, hpath, hcookies]

theorem wellFormed_toJson {schemas : ParameterSchemas} (h : schemas.WellFormed) :
    schemas.toJson.WellFormed := by
  have hquery : schemas.query.toJson.WellFormed := LocationSchema.wellFormed_toJson (h .query)
  have hheaders : schemas.headers.toJson.WellFormed := LocationSchema.wellFormed_toJson (h .header)
  have hpath : schemas.path.toJson.WellFormed := LocationSchema.wellFormed_toJson (h .path)
  have hcookies : schemas.cookies.toJson.WellFormed := LocationSchema.wellFormed_toJson (h .cookie)
  exact wellFormed_obj_iff.mpr
    ⟨by simp [Entries.Distinct], by simp [hquery, hheaders, hpath, hcookies]⟩

end ParameterSchemas

namespace BodySchema

theorem ofJson?_toJson {body : BodySchema} (h : body.WellFormed) : ofJson? body.toJson = some body := by
  have hfields : readFields? [.named "schema", .named "required"] body.toJson =
      some [some body.schema, some (.bool body.required)] :=
    readFields?_all ["schema", "required"] rfl (by decide)
  have hschema : body.schema.collapse = body.schema := h.collapse_eq
  rw [ofJson?, hfields]
  simp [readBool?, hschema]

theorem wellFormed_toJson {body : BodySchema} (h : body.WellFormed) : body.toJson.WellFormed := by
  have hschema : body.schema.WellFormed := h
  exact wellFormed_obj_iff.mpr ⟨by simp [Entries.Distinct], by simp [hschema]⟩

end BodySchema

theorem RequestSchema.ofJson?_toJson {schema : RequestSchema} (h : schema.WellFormed) :
    ofJson? schema.toJson = some schema := by
  have hfields : readFields? [.named "parameters", .named "body"] schema.toJson =
      some [some schema.parameters.toJson, some schema.body.toJson] :=
    readFields?_all ["parameters", "body"] rfl (by decide)
  rw [ofJson?, hfields]
  simp [ParameterSchemas.ofJson?_toJson h.parameters, BodySchema.ofJson?_toJson h.body]

theorem RequestSchema.wellFormed_toJson {schema : RequestSchema} (h : schema.WellFormed) :
    schema.toJson.WellFormed := by
  have hparameters := ParameterSchemas.wellFormed_toJson h.parameters
  have hbody := BodySchema.wellFormed_toJson h.body
  exact wellFormed_obj_iff.mpr ⟨by simp [Entries.Distinct], by simp [hparameters, hbody]⟩

/-! ### Parameters -/

namespace Parameter

variable {p : Parameter}

theorem readLocation?_name (location : Location) :
    readLocation? (.str location.name) = some location := by
  cases location <;> decide

/-- With a media type or without, no member is written twice. -/
theorem distinct_toJson (p : Parameter) : Entries.Distinct (p.toJson.obj?.getD []) := by
  obtain ⟨name, location, required, style, explode, allowEmpty, schema, mediaType⟩ := p
  cases mediaType <;> simp [toJson, obj?, Entries.Distinct]

theorem readFields?_toJson (p : Parameter) :
    readFields? fields p.toJson =
      some [some (.str p.name), some (.str p.location.name), some (.bool p.required),
        some (.str p.style), some (.bool p.explode), some (.bool p.allowEmptyValue), some p.schema,
        p.contentMediaType.map Json.str] := by
  refine (readFields?_obj (distinct_toJson p) _).trans ?_
  obtain ⟨name, location, required, style, explode, allowEmpty, schema, mediaType⟩ := p
  cases mediaType <;> simp [toJson, obj?, Entries.get?_cons]

theorem ofJson?_toJson (h : p.WellFormed) : ofJson? p.toJson = some p := by
  have hschema : p.schema.collapse = p.schema := h.collapse_eq
  have hmedia : optional? readStr? (p.contentMediaType.map Json.str) = some p.contentMediaType := by
    cases p.contentMediaType <;> rfl
  rw [ofJson?, readFields?_toJson]
  simp [readStr?, readBool?, readLocation?_name, hschema, hmedia]

theorem wellFormed_toJson (h : p.WellFormed) : p.toJson.WellFormed := by
  have hdistinct := distinct_toJson p
  obtain ⟨name, location, required, style, explode, allowEmpty, schema, mediaType⟩ := p
  have hschema : schema.WellFormed := h
  cases mediaType <;>
    exact wellFormed_obj_iff.mpr ⟨hdistinct, by simp [hschema]⟩

end Parameter

/-! ### Operations and payloads -/

theorem readFingerprint?_hex (f : Fingerprint) : readFingerprint? (.str f.hex) = some f := rfl

/-- A table in order comes back in order. -/
theorem readSorted?_obj {α : Type} {read : Json → Option α} {write : α → Json}
    {entries : Entries α} (hascending : Entries.Ascending entries)
    (h : ∀ e ∈ entries, read (write e.2) = some e.2) :
    readSorted? read (.obj (Entries.mapValues write entries)) = some entries := by
  rw [readSorted?, readEntries?_obj hascending.distinct h]
  exact congrArg some hascending.refill

theorem readSorted?_fingerprints {table : Entries Fingerprint} (h : Entries.Ascending table) :
    readSorted? readFingerprint? (fingerprintsToJson table) = some table :=
  readSorted?_obj h fun e _ => readFingerprint?_hex e.2

/-- Whether the parameters of an operation are well formed, and its variants in order. -/
structure OperationRecord.WellFormed (record : OperationRecord) : Prop where
  parameters : ∀ p ∈ record.parameters, p.WellFormed
  variants : Entries.Ascending record.variants

theorem OperationRecord.ofJson?_toJson {record : OperationRecord} (h : record.WellFormed) :
    ofJson? record.toJson = some record := by
  have hparameters := readList?_arr (fun p hp => Parameter.ofJson?_toJson (h.parameters p hp))
  rw [ofJson?, toJson, readFields?_all ["method", "route", "mediaTypes", "parameters", "variants"]
    rfl (by decide)]
  simp [readStr?, readList?_ofStrings, hparameters, readSorted?_fingerprints h.variants]

theorem wellFormed_fingerprints {table : Entries Fingerprint} (h : Entries.Ascending table) :
    (fingerprintsToJson table).WellFormed :=
  wellFormed_table h.distinct fun e _ => wellFormed_str e.2.hex

theorem OperationRecord.wellFormed_toJson {record : OperationRecord} (h : record.WellFormed) :
    record.toJson.WellFormed := by
  have hparameters : (Json.arr (record.parameters.map Parameter.toJson)).WellFormed := by
    refine wellFormedList_iff.mpr fun a ha => ?_
    obtain ⟨p, hp, rfl⟩ := List.mem_map.mp ha
    exact Parameter.wellFormed_toJson (h.parameters p hp)
  have hvariants := wellFormed_fingerprints h.variants
  exact wellFormed_obj_iff.mpr ⟨by simp [Entries.Distinct], by simp [hparameters, hvariants]⟩

/-- Whether everything in a payload is well formed, and all tables are in order. -/
structure Payload.WellFormed (payload : Payload) : Prop where
  components : payload.components.WellFormed
  operations : ∀ record ∈ payload.operations, record.WellFormed
  schemas : ∀ e ∈ payload.schemas, e.2.WellFormed
  schemas_ascending : Entries.Ascending payload.schemas
  keys_ascending : Entries.Ascending payload.keys

theorem Payload.ofJson?_toJson {payload : Payload} (h : payload.WellFormed) :
    ofJson? payload.toJson = some payload := by
  have hcomponents : payload.components.collapse = payload.components := h.components.collapse_eq
  have hoperations := readList?_arr
    (fun record hrecord => OperationRecord.ofJson?_toJson (h.operations record hrecord))
  have hschemas := readSorted?_obj h.schemas_ascending
    (fun e he => RequestSchema.ofJson?_toJson (h.schemas e he))
  rw [ofJson?, toJson, readFields?_all ["components", "operations", "schemas", "keys"] rfl
    (by decide)]
  simp [hcomponents, hoperations, hschemas, readSorted?_fingerprints h.keys_ascending]

theorem Payload.wellFormed_toJson {payload : Payload} (h : payload.WellFormed) :
    payload.toJson.WellFormed := by
  have hcomponents := h.components
  have hoperations : (Json.arr (payload.operations.map OperationRecord.toJson)).WellFormed := by
    refine wellFormedList_iff.mpr fun a ha => ?_
    obtain ⟨record, hrecord, rfl⟩ := List.mem_map.mp ha
    exact OperationRecord.wellFormed_toJson (h.operations record hrecord)
  have hschemas := wellFormed_table h.schemas_ascending.distinct
    fun e he => RequestSchema.wellFormed_toJson (h.schemas e he)
  have hkeys := wellFormed_fingerprints h.keys_ascending
  exact wellFormed_obj_iff.mpr
    ⟨by simp [Entries.Distinct], by simp [hcomponents, hoperations, hschemas, hkeys]⟩

/-! ### Stamps -/

theorem RemoveAdditional.ofJson_toJson (mode : RemoveAdditional) : ofJson mode.toJson = .ok mode := by
  cases mode <;> rfl

theorem RemoveAdditional.wellFormed_toJson (mode : RemoveAdditional) : mode.toJson.WellFormed := by
  cases mode <;> trivial

/-- The members of a stamp. -/
theorem Stamp.toJson_eq (stamp : Stamp) :
    stamp.toJson = .obj
      [("allowUnknownQueryParameters", .bool stamp.settings.allowUnknownQueryParameters),
        ("removeAdditional", stamp.settings.removeAdditional.toJson),
        ("validateFormats", .bool stamp.settings.validateFormats),
        ("formats", Json.ofStrings stamp.formats)] := rfl

theorem Stamp.wellFormed_toJson (stamp : Stamp) : stamp.toJson.WellFormed := by
  have hmode := RemoveAdditional.wellFormed_toJson stamp.settings.removeAdditional
  rw [toJson_eq]
  exact wellFormed_obj_iff.mpr ⟨by simp [Entries.Distinct], by simp [hmode]⟩

/-- A stamp comes back if its formats are in order. -/
theorem Stamp.ofJson?_toJson {stamp : Stamp} (h : stamp.formats.Pairwise (· < ·)) :
    ofJson? stamp.toJson = some stamp := by
  rw [ofJson?, toJson_eq, readFields?_all (Settings.names ++ ["formats"]) rfl (by decide)]
  simp [readBool?, RemoveAdditional.ofJson_toJson, readList?_ofStrings,
    sortedDistinct_of_pairwise h, Except.toOption]

end RequestGate
