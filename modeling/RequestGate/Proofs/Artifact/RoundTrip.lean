import RequestGate.Proofs.Artifact.Agreement
import RequestGate.Proofs.Artifact.Reading
import RequestGate.Proofs.Json.RoundTrip
import RequestGate.Proofs.Timestamp

/-!
# Artifacts that were written can be loaded

An artifact is compiled, written, read and loaded. The file says that nothing is lost on the way
(`RequestGate.Artifact.written_loads`): what is read is the artifact that was written, it passes
verification, and it can be loaded with the options it was compiled with. For that, every record in it
has to be well formed, and what a compilation collects is: the plans of a well-formed document are, and
all tables are filled in order.

Between writing and reading there is text. It gives back every well-formed value that is not nested too
deeply, and the record of an artifact is well formed (`RequestGate.Artifact.wellFormed_sealed`).
-/

namespace RequestGate

namespace Entries

universe u v

variable {α : Type u} {ι : Type v} {entries : Entries α}

theorem Ascending.insertNew (h : Ascending entries) (key : String) (value : α) :
    Ascending (insertNew entries key value) := by
  rw [Entries.insertNew]
  split
  · exact h
  · exact h.insertSorted key value

theorem ascending_foldl_insertNew (key : ι → String) (value : ι → α) (items : List ι) :
    Ascending (items.foldl (fun t i => insertNew t (key i) (value i)) []) := by
  induction items using List.reverseRecOn with
  | nil => exact ascending_nil
  | append_singleton items i ih =>
    rw [List.foldl_concat]
    exact ih.insertNew (key i) (value i)

end Entries

namespace Artifact

variable {components : Json} {plans : List Plan} {plan : Plan} {options : Options}
  {document : Document} {root : Json} {now : Timestamp} {payload : Payload} {a : Artifact}

/-! ### Payloads that are compiled -/

theorem wellFormed_recordOf (components : Json) (h : plan.WellFormed) :
    (recordOf components plan).WellFormed where
  parameters := h.parameters
  variants := Entries.ascending_foldl_insertSorted _ _ _

theorem wellFormed_of_mem_foreseen {f : Foreseen} (h : plan.WellFormed)
    (hf : f ∈ plan.foreseen components) : f.schema.WellFormed := by
  obtain ⟨keyClass, -, rfl⟩ := List.mem_map.mp hf
  exact h.schemaFor components _

/-- **The payload of well-formed plans is well formed.** -/
theorem wellFormed_payloadOf (hcomponents : components.WellFormed)
    (hplans : ∀ plan ∈ plans, plan.WellFormed) : (payloadOf components plans).WellFormed where
  components := hcomponents
  operations record hrecord := by
    obtain ⟨plan, hplan, rfl⟩ := List.mem_map.mp hrecord
    exact wellFormed_recordOf components (hplans plan hplan)
  schemas e he := by
    obtain ⟨f, hf, rfl⟩ := exists_of_mem_schemaTable he
    obtain ⟨plan, hplan, hf⟩ := List.mem_flatMap.mp hf
    exact wellFormed_of_mem_foreseen (hplans plan hplan) hf
  schemas_ascending := Entries.ascending_foldl_insertNew _ _ _
  keys_ascending := Entries.ascending_foldl_insertSorted _ _ _

theorem wellFormed_plans (hdocument : document.root.WellFormed)
    (h : document.plans options = .ok plans) : ∀ plan ∈ plans, plan.WellFormed := by
  intro plan hplan
  obtain ⟨operation, hop, hassemble⟩ := exists_of_mem_mapM h hplan
  exact Plan.wellFormed_of_assemble hdocument hop hassemble

/-! ### Reading -/

/-- An artifact of a well-formed payload is read back. -/
theorem ofJson?_sealed (options : Options) (h : payload.WellFormed) (hnow : now.Valid) :
    ofJson? (sealed options now payload).toJson = some (sealed options now payload) := by
  have hversion : readVersion? (Json.ofInt (version : Nat)) = some version := by decide
  have hnow : Timestamp.parse? now.text = some now := Timestamp.parse?_text hnow
  have hstamp : Stamp.ofJson? options.stamp.toJson = some options.stamp :=
    Stamp.ofJson?_toJson (pairwise_sortedDistinct _)
  have hpayload := Payload.ofJson?_toJson h
  rw [ofJson?, toJson, Json.readFields?_all
    ["formatVersion", "engine", "compiledAt", "options", "payload", "digest"] rfl (by decide)]
  simp [sealed, hversion, Json.readStr?, hnow, hstamp, hpayload]

/-- The record of an artifact of a well-formed payload is well formed. -/
theorem wellFormed_sealed (options : Options) (now : Timestamp) (h : payload.WellFormed) :
    (sealed options now payload).toJson.WellFormed := by
  have hversion : (Json.ofInt (version : Nat)).WellFormed := by
    show Number.InRange (version : Nat)
    decide
  have hstamp := Stamp.wellFormed_toJson options.stamp
  have hpayload := Payload.wellFormed_toJson h
  exact Json.wellFormed_obj_iff.mpr
    ⟨by simp [Entries.Distinct], by simp [sealed, hversion, hstamp, hpayload]⟩

/-! ### Depth -/

section Depth

open Json

variable {limit : Nat}

theorem depth_ofStrings_le (items : List String) (limit : Nat) :
    (ofStrings items).depth ≤ limit + 1 := by
  refine depth_arr_le fun a ha => ?_
  obtain ⟨s, -, rfl⟩ := List.mem_map.mp ha
  exact Nat.zero_le _

theorem depth_fingerprints_le (table : Entries Fingerprint) (limit : Nat) :
    (fingerprintsToJson table).depth ≤ limit + 1 := by
  refine depth_obj_le fun e he => ?_
  obtain ⟨d, -, rfl⟩ := List.mem_map.mp he
  exact Nat.zero_le _

theorem depth_stamp_le (stamp : Stamp) (limit : Nat) : stamp.toJson.depth ≤ limit + 2 := by
  have hmode : stamp.settings.removeAdditional.toJson.depth = 0 := by
    cases stamp.settings.removeAdditional <;> rfl
  rw [Stamp.toJson_eq]
  exact depth_obj_le (by simp [hmode, depth_ofStrings_le])

theorem depth_operationRecord_le {record : OperationRecord}
    (h : ∀ p ∈ record.parameters, p.toJson.depth ≤ limit) : record.toJson.depth ≤ limit + 2 := by
  have hparameters : (Json.arr (record.parameters.map Parameter.toJson)).depth ≤ limit + 1 := by
    refine depth_arr_le fun a ha => ?_
    obtain ⟨p, hp, rfl⟩ := List.mem_map.mp ha
    exact h p hp
  exact depth_obj_le (by simp [depth_ofStrings_le, depth_fingerprints_le, hparameters])

/-- The record of an artifact is nested a few levels deeper than what it holds. -/
theorem depth_sealed_le (options : Options) (now : Timestamp)
    (hcomponents : payload.components.depth ≤ limit + 3)
    (hparameters : ∀ record ∈ payload.operations, ∀ p ∈ record.parameters, p.toJson.depth ≤ limit)
    (hschemas : ∀ e ∈ payload.schemas, e.2.toJson.depth ≤ limit + 2) :
    (sealed options now payload).toJson.depth ≤ limit + 5 := by
  have hoperations : (Json.arr (payload.operations.map OperationRecord.toJson)).depth ≤ limit + 3 := by
    refine depth_arr_le fun a ha => ?_
    obtain ⟨record, hrecord, rfl⟩ := List.mem_map.mp ha
    exact depth_operationRecord_le (hparameters record hrecord)
  have htable : (Json.obj (Entries.mapValues RequestSchema.toJson payload.schemas)).depth ≤
      limit + 3 := by
    refine depth_obj_le fun e he => ?_
    obtain ⟨d, hd, rfl⟩ := List.mem_map.mp he
    exact hschemas d hd
  have hpayload : payload.toJson.depth ≤ limit + 4 :=
    depth_obj_le (by simp [hcomponents, hoperations, htable, depth_fingerprints_le])
  exact depth_obj_le (by simp [sealed, Json.ofInt, hpayload, depth_stamp_le])

end Depth

/-! ### Loading -/

/-- **Written artifacts load.** The record of an artifact is read as the artifact that was written,
which passes verification; so its text is accepted as this artifact, unless it is nested more deeply
than text may be. It can be loaded with the same options, and every fingerprint in it leads to a schema
with this fingerprint. -/
theorem written_loads (hroot : root.WellFormed) (hdocument : Document.ofJson root = .ok document)
    (hnow : now.Valid) (ha : compile options now document = .ok a) (path : String) :
    ofJson? a.toJson = some a ∧ a.verify = .ok () ∧
      (a.toJson.depth ≤ Json.nestingLimit → parse a.text = .ok a) ∧
      (∃ gate, load options path a = .ok gate) ∧ a.payload.Closed := by
  have hwell := Document.wellFormed_of_ofJson hroot hdocument
  obtain ⟨gate, hgate⟩ := exists_load_of_compile path ha
  obtain ⟨plans, hplans, -, rfl⟩ := payload_of_compile ha
  have hpayload := wellFormed_payloadOf (Document.wellFormed_components hwell)
    (wellFormed_plans hwell hplans)
  have hread := ofJson?_sealed options hpayload hnow
  have hverify := verify_sealed options now (payloadOf document.components plans)
  refine ⟨hread, hverify, fun hdepth => ?_, ⟨gate, hgate⟩, closed_payloadOf document.components plans⟩
  have htext : Json.parseRaw? (sealed options now (payloadOf document.components plans)).text =
      some (sealed options now (payloadOf document.components plans)).toJson :=
    (wellFormed_sealed options now hpayload).parseRawWithin?_pretty hdepth
  rw [parse, htext, Option.bind_some, hread]
  exact bind_eq_ok_iff.mpr ⟨(), hverify, rfl⟩

/-- The start of 1970 is a point in time, and there is a document whose artifact is not nested too
deeply. -/
theorem written_loads_charset :
    charsetRoot.WellFormed ∧ Document.ofJson charsetRoot = .ok ⟨charsetRoot⟩ ∧
      Timestamp.Valid ⟨0, 0⟩ ∧
      ∃ a, compile {} ⟨0, 0⟩ ⟨charsetRoot⟩ = .ok a ∧ a.toJson.depth ≤ Json.nestingLimit ∧
        parse a.text = .ok a ∧ (∃ gate, load {} "api.oav.json" a = .ok gate) ∧ a.payload.Closed := by
  have hnow : Timestamp.Valid ⟨0, 0⟩ := ⟨by decide, by decide⟩
  obtain ⟨a, ha, -⟩ := exists_compile_charset
  obtain ⟨-, -, htext, hload, hclosed⟩ :=
    written_loads charsetRoot_wellFormed charsetRoot_document hnow ha "api.oav.json"
  obtain ⟨plans, hplans, -, rfl⟩ := payload_of_compile ha
  obtain rfl : plans = [charsetPlan] := Except.ok.inj (hplans.symm.trans charsetRoot_plans)
  have hparameters : ∀ record ∈ (payloadOf (Document.components ⟨charsetRoot⟩) [charsetPlan]).operations,
      ∀ p ∈ record.parameters, p.toJson.depth ≤ 122 := by
    intro record hrecord p hp
    obtain rfl := List.mem_singleton.mp hrecord
    cases hp
  have hforeseen : ∀ f ∈ [charsetPlan].flatMap (Plan.foreseen (Document.components ⟨charsetRoot⟩)),
      f.schema.toJson.depth ≤ 124 := by decide
  have hdepth := depth_sealed_le {} ⟨0, 0⟩ (by decide) hparameters fun e he => by
    obtain ⟨f, hf, rfl⟩ := exists_of_mem_schemaTable he
    exact hforeseen f hf
  exact ⟨charsetRoot_wellFormed, charsetRoot_document, hnow, _, ha, hdepth, htext hdepth, hload, hclosed⟩

end Artifact

end RequestGate
