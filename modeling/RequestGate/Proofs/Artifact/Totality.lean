import RequestGate.Proofs.Artifact.Agreement
import RequestGate.Proofs.Media.Negotiation
import RequestGate.Proofs.Operation.Key

/-!
# When a loaded artifact has a schema

A loaded gate finds the schema of a request by its key, if the class was foreseen, and else by the
media type that is selected, if a foreseen class selects the same. Both tables are finite, and every
header has to be served from them. The file says for which operations that succeeds
(`RequestGate.Artifact.serves_all_iff`): the only headers that can be missed are those in the two gaps
that `RequestGate.ContentType.standsIn_or_gap` leaves, and where a gap is open there is a header that
falls into it.

* The empty media type must be foreseen if it is declared.
* A media type that is declared with `charset=utf-8` must be foreseen, although the class of a media
  type never holds a parameter. It is, unless the bare media type is declared beside it.
-/

namespace RequestGate

open Text ContentType

namespace Blueprint

variable {payload : Payload} {record : OperationRecord} {path : String} {key : OperationKey}
  {contentType : ContentType}

/-- The fingerprint that one of the two tables leads to. -/
def fingerprint? (payload : Payload) (record : OperationRecord) (key : OperationKey)
    (contentType : ContentType) : Option Fingerprint :=
  (Entries.get? payload.keys key.text).or
    (Entries.get? record.variants ((negotiate record.mediaTypes contentType).getD ""))

theorem isSome_fingerprint?_iff :
    (fingerprint? payload record key contentType).isSome = true ↔
      key.text ∈ Entries.keys payload.keys ∨
        (negotiate record.mediaTypes contentType).getD "" ∈ Entries.keys record.variants := by
  rw [fingerprint?, Option.isSome_or, Bool.or_eq_true, ← Entries.contains_iff,
    ← Entries.contains_iff, Entries.contains, Entries.contains]

theorem ofRecord_of_none (h : fingerprint? payload record key contentType = none) :
    ofRecord path payload key contentType record = .error (.artifact path (.noVariant key)) := by
  rw [fingerprint?] at h
  simp only [ofRecord, h]

/-- **In a payload whose fingerprints are known**, the blueprint of an operation can be made exactly
if one of the two tables leads anywhere. -/
theorem exists_ofRecord_iff (hclosed : payload.Closed) (hrecord : record ∈ payload.operations) :
    (∃ b, ofRecord path payload key contentType record = .ok b) ↔
      (fingerprint? payload record key contentType).isSome = true := by
  cases hfound : fingerprint? payload record key contentType with
  | none => simp [ofRecord_of_none hfound]
  | some f =>
    have hknown : payload.Knows f := by
      rcases Option.or_eq_some_iff.mp hfound with hkey | ⟨-, hvariant⟩
      · exact hclosed.keys _ (Entries.mem_of_get? hkey)
      · exact hclosed.variants record hrecord _ (Entries.mem_of_get? hvariant)
    obtain ⟨schema, hschema, -⟩ := hknown
    rw [fingerprint?] at hfound
    simp [ofRecord, hfound, hschema]

end Blueprint

namespace Plan

variable {plan : Plan} {components : Json} {keyClass mediaType : String}

theorem mem_contentClasses :
    keyClass ∈ plan.contentClasses ↔ keyClass ∈ foreseenClasses plan.mediaTypes :=
  List.mem_eraseDups

/-- The media type that is selected for a content type. -/
theorem schemaFor_snd (plan : Plan) (components : Json) (contentType : ContentType) :
    (plan.schemaFor components contentType).2 = negotiate plan.mediaTypes contentType := by
  rw [schemaFor, BodySchema.select, mediaTypes]
  cases negotiate (BodySchema.declaredMediaTypes plan.requestBody) contentType <;> rfl

/-- A media type has a variant exactly if it is selected for a foreseen class. -/
theorem mem_keys_variantTable :
    mediaType ∈ Entries.keys (Artifact.variantTable (plan.foreseen components)) ↔
      ∃ k ∈ foreseenClasses plan.mediaTypes,
        (negotiate plan.mediaTypes (.ofKeyClass k)).getD "" = mediaType := by
  rw [Artifact.variantTable, Entries.mem_keys_foldl_insertSorted, foreseen]
  simp only [List.mem_map, exists_exists_and_eq_and, mem_contentClasses, foresee, schemaFor_snd]

/-- The key of a foreseen class is in the table. -/
theorem mem_keys_keyTable {plans : List Plan} (hplan : plan ∈ plans)
    (h : keyClass ∈ foreseenClasses plan.mediaTypes) :
    (OperationKey.ofClass plan.method.name plan.route keyClass).text ∈
      Entries.keys (Artifact.payloadOf components plans).keys := by
  refine Entries.mem_keys_foldl_insertSorted.mpr ⟨plan.foresee components keyClass, ?_, rfl⟩
  exact List.mem_flatMap.mpr ⟨plan, hplan, List.mem_map_of_mem (mem_contentClasses.mpr h)⟩

end Plan

/-- What the tables of an operation must have so that no header is missed. -/
structure OperationRecord.Complete (payload : Payload) (record : OperationRecord) : Prop where
  /-- If the empty media type is declared, then it is foreseen, or the empty class is. -/
  empty : "" ∈ record.mediaTypes →
    (OperationKey.ofClass record.method record.route "").text ∈ Entries.keys payload.keys ∨
      "" ∈ Entries.keys record.variants
  /-- A media type that is declared in UTF-8 is foreseen. -/
  charset : ∀ media, IsMediaType media → ∀ d,
    declaredAs? record.mediaTypes (inUtf8 media) = some d → d ∈ Entries.keys record.variants

namespace Artifact

/-- Whether a loaded gate can serve an operation to a content type. -/
def Serves (path : String) (payload : Payload) (record : OperationRecord)
    (contentType : ContentType) : Prop :=
  ∃ b, Blueprint.ofRecord path payload (.of record.method record.route contentType) contentType
    record = .ok b

variable {path : String} {components : Json} {plans : List Plan} {plan : Plan}

theorem serves_recordOf_iff (hplan : plan ∈ plans) {contentType : ContentType} :
    Serves path (payloadOf components plans) (recordOf components plan) contentType ↔
      (OperationKey.ofClass plan.method.name plan.route contentType.keyClass).text ∈
          Entries.keys (payloadOf components plans).keys ∨
        (negotiate plan.mediaTypes contentType).getD "" ∈
          Entries.keys (variantTable (plan.foreseen components)) :=
  (Blueprint.exists_ofRecord_iff (closed_payloadOf components plans)
    (List.mem_map_of_mem hplan)).trans Blueprint.isSome_fingerprint?_iff

/-- A content type is served if a foreseen class stands in for it. -/
theorem serves_of_standsIn (hplan : plan ∈ plans) {contentType : ContentType}
    (h : StandsIn plan.mediaTypes contentType) :
    Serves path (payloadOf components plans) (recordOf components plan) contentType := by
  rw [serves_recordOf_iff hplan]
  rcases h with hclass | ⟨k, hk, hselected⟩
  · exact Or.inl (Plan.mem_keys_keyTable hplan hclass)
  · exact Or.inr (Plan.mem_keys_variantTable.mpr ⟨k, hk, by rw [hselected]⟩)

/-- Complete tables close the gaps. -/
theorem serves_of_complete (hplan : plan ∈ plans)
    (h : (recordOf components plan).Complete (payloadOf components plans))
    (header : Option String) :
    Serves path (payloadOf components plans) (recordOf components plan) (.parse header) := by
  rcases standsIn_or_gap plan.mediaTypes header with hstands | ⟨hclass, hempty, hselected⟩ |
    ⟨media, d, hmedia, hd, hselected, -⟩
  · exact serves_of_standsIn hplan hstands
  · rw [serves_recordOf_iff hplan, hclass, hselected]
    exact h.empty (mem_of_declaredAs? hempty)
  · rw [serves_recordOf_iff hplan, hselected]
    exact Or.inr (h.charset media hmedia d hd)

/-- Where a gap is open, there is a header that falls into it. -/
theorem complete_of_serves (hplan : plan ∈ plans)
    (h : ∀ header, Serves path (payloadOf components plans) (recordOf components plan)
      (.parse header)) :
    (recordOf components plan).Complete (payloadOf components plans) where
  empty hempty := by
    -- this header has an empty class although it is sent
    have hselected : negotiate plan.mediaTypes (.parse (some ";boundary=x")) = some "" :=
      negotiate_of_boundary hempty
    have hserves := (serves_recordOf_iff hplan).mp (h (some ";boundary=x"))
    rwa [keyClass_of_boundary, hselected] at hserves
  charset media hmedia d hd := by
    -- a header with more blank parameters than any declared media type or any key has characters
    obtain ⟨n, hn⟩ := exists_length_le
      (plan.mediaTypes ++ Entries.keys (payloadOf components plans).keys)
    have hselected : negotiate plan.mediaTypes (.parse (some (blankHeader media n))) = some d :=
      negotiate_blankHeader hmedia (fun s hs => hn s (List.mem_append_left _ hs)) hd
    have hserves := (serves_recordOf_iff hplan).mp (h (some (blankHeader media n)))
    rw [keyClass_blankHeader hmedia, hselected] at hserves
    refine hserves.resolve_left fun hkey => ?_
    have hshort := hn _ (List.mem_append_right _ hkey)
    have hlong := OperationKey.length_le_length_text plan.method.name plan.route
      (blankHeader media n)
    have hheader := lt_length_blankHeader media n
    omega

/-- Tables are complete where no media type is declared in UTF-8 and bare as well. -/
theorem complete_of_no_bare (components : Json) (plans : List Plan) (hempty : "" ∉ plan.mediaTypes)
    (hbare : ∀ media, IsMediaType media →
      (declaredAs? plan.mediaTypes (inUtf8 media)).isSome = true →
        media ≠ [] ∧ String.ofList media ≠ notProvidedClass ∧
          declaredAs? plan.mediaTypes (String.ofList media) = none) :
    (recordOf components plan).Complete (payloadOf components plans) where
  empty h := absurd h hempty
  charset media hmedia d hd := by
    obtain ⟨hne, hclass, hnone⟩ := hbare media hmedia (Option.isSome_of_eq_some hd)
    obtain ⟨k, hk, hselected⟩ := standsIn_utf8 hmedia hne hclass hnone hd
    exact Plan.mem_keys_variantTable.mpr ⟨k, hk, by rw [hselected]; rfl⟩

variable {options : Options} {document : Document} {now : Timestamp} {a : Artifact}
  {record : OperationRecord}

/-- The recorded operations are those of the plans. -/
theorem exists_recordOf (h : compile options now document = .ok a)
    (hrecord : record ∈ a.payload.operations) :
    ∃ plans, a.payload = payloadOf document.components plans ∧
      ∃ plan ∈ plans, record = recordOf document.components plan := by
  obtain ⟨plans, -, -, rfl⟩ := payload_of_compile h
  obtain ⟨plan, hplan, rfl⟩ := List.mem_map.mp hrecord
  exact ⟨plans, rfl, plan, hplan, rfl⟩

/-- What is not served lacks a variant, and nothing else. -/
theorem noVariant_of_not_serves (h : compile options now document = .ok a)
    (hrecord : record ∈ a.payload.operations) {contentType : ContentType}
    (hnot : ¬Serves path a.payload record contentType) :
    Blueprint.ofRecord path a.payload (.of record.method record.route contentType) contentType
      record = .error (.artifact path (.noVariant (.of record.method record.route contentType))) := by
  have hclosed : a.payload.Closed := by
    obtain ⟨plans, hpayload, -⟩ := exists_recordOf h hrecord
    rw [hpayload]
    exact closed_payloadOf document.components plans
  rw [Serves, Blueprint.exists_ofRecord_iff hclosed hrecord, Bool.not_eq_true,
    Option.isSome_eq_false_iff, Option.isNone_iff_eq_none] at hnot
  exact Blueprint.ofRecord_of_none hnot

/-- **When every header is served.** A loaded gate finds a schema for every header exactly if the
tables of the operation are complete. A header that names a media type and a parameter is served in
any case, and so is a request without one. -/
theorem serves_all_iff (h : compile options now document = .ok a)
    (hrecord : record ∈ a.payload.operations) (path : String) :
    ((∀ header, Serves path a.payload record (.parse header)) ↔ record.Complete a.payload) ∧
      ∀ header, (∀ c, ContentType.parse header = .provided c →
          c.charset ≠ none ∧ c.mediaType ≠ "") →
        Serves path a.payload record (.parse header) := by
  obtain ⟨plans, hpayload, plan, hplan, rfl⟩ := exists_recordOf h hrecord
  rw [hpayload]
  refine ⟨⟨complete_of_serves hplan, serves_of_complete hplan⟩, fun header hnamed => ?_⟩
  rcases standsIn_or_gap plan.mediaTypes header with hstands | ⟨hclass, -, -⟩ |
    ⟨-, -, -, -, -, c, hc, hcharset⟩
  · exact serves_of_standsIn hplan hstands
  · exact absurd hclass (keyClass_ne_empty hnamed)
  · exact absurd hcharset (hnamed c hc).1

/-! ### A header that is missed

The document declares a body for `application/json` and for the same in UTF-8. Both have the class
`application/json`, which selects the first. -/

/-- A header with a parameter is served. -/
theorem serves_all_iff_charset :
    ∃ a record, compile {} ⟨0, 0⟩ ⟨charsetRoot⟩ = .ok a ∧ record ∈ a.payload.operations ∧
      Serves "api.oav.json" a.payload record (.parse (some "application/json; version=1")) := by
  obtain ⟨a, ha, hpayload⟩ := exists_compile_charset
  have hrecord : recordOf (Document.components ⟨charsetRoot⟩) charsetPlan ∈ a.payload.operations := by
    rw [hpayload]
    exact List.mem_singleton.mpr rfl
  refine ⟨a, _, ha, hrecord, (serves_all_iff ha hrecord "api.oav.json").2 _ fun c hc => ?_⟩
  have hparsed : ContentType.parse (some "application/json; version=1") =
      .provided ⟨"application/json; version=1", "application/json; version=1", "application/json",
        some "version=1"⟩ := by decide
  obtain rfl := ContentType.provided.inj (hparsed.symm.trans hc)
  decide

/-- A header with a stray semicolon is not. -/
theorem not_serves_straySemicolon :
    ∃ a record, compile {} ⟨0, 0⟩ ⟨charsetRoot⟩ = .ok a ∧ record ∈ a.payload.operations ∧
      Blueprint.ofRecord "api.oav.json" a.payload
        (.of record.method record.route (.parse (some "application/json;")))
        (.parse (some "application/json;")) record =
          .error (.artifact "api.oav.json" (.noVariant ⟨"post-/t-application/json;"⟩)) := by
  obtain ⟨a, ha, hpayload⟩ := exists_compile_charset
  refine ⟨a, recordOf (Document.components ⟨charsetRoot⟩) charsetPlan, ha, ?_, ?_⟩
  · rw [hpayload]
    exact List.mem_singleton.mpr rfl
  · have hkey : OperationKey.of charsetPlan.method.name charsetPlan.route
        (.parse (some "application/json;")) = ⟨"post-/t-application/json;"⟩ := by decide
    have hnone : Blueprint.fingerprint? (payloadOf (Document.components ⟨charsetRoot⟩) [charsetPlan])
        (recordOf (Document.components ⟨charsetRoot⟩) charsetPlan) ⟨"post-/t-application/json;"⟩
        (.parse (some "application/json;")) = none := by
      rw [← Option.isNone_iff_eq_none]
      decide
    rw [hpayload]
    exact hkey ▸ Blueprint.ofRecord_of_none hnone

end Artifact

end RequestGate
