import RequestGate.Proofs.Artifact.Reading
import RequestGate.Proofs.Validator.Assembled

/-!
# Well-formed validators

All schemas of a validator are made of parts of a document. If the document is well formed, as every one
is that has been read, then so are they, and the schema as well that the predicate looks at, which
embeds them (`RequestGate.RequestSchema.wellFormed_toEngineSchema`). This holds of whatever a live gate
keeps in a slot (`RequestGate.Gate.wellFormed_of_slot`).
-/

namespace RequestGate

open Json

theorem LocationSchema.wellFormed_toEngineSchema {schema : LocationSchema} (h : schema.WellFormed) :
    schema.toEngineSchema.WellFormed := by
  refine wellFormed_obj_iff.mpr ⟨?_, fun e he => ?_⟩
  · cases schema.required <;> simp [listMember, Entries.Distinct]
  · simp only [List.mem_append, List.mem_cons, List.not_mem_nil, or_false] at he
    rcases he with ((rfl | rfl | rfl) | he) | rfl
    · trivial
    · trivial
    · exact h.properties
    · exact wellFormed_of_mem_listMember he
    · trivial

/-- The schema of a whole request is well formed if that of every place and that of the body are. -/
theorem RequestSchema.wellFormed_toEngineSchema {schema : RequestSchema} {components : Json}
    (h : schema.WellFormed) (hcomponents : components.WellFormed) :
    (schema.toEngineSchema components).WellFormed := by
  have hlocation : ∀ location,
      ((schema.parameters.branch location).toEngineSchema).WellFormed :=
    fun location => LocationSchema.wellFormed_toEngineSchema (h.parameters location)
  refine wellFormed_obj_iff.mpr ⟨by simp [Entries.Distinct], fun e he => ?_⟩
  simp only [List.mem_cons, List.not_mem_nil, or_false] at he
  rcases he with rfl | rfl | rfl
  · exact wellFormed_ofStrings _
  · refine wellFormed_obj_iff.mpr ⟨by simp [Entries.Distinct], fun e he => ?_⟩
    simp only [List.mem_cons, List.not_mem_nil, or_false] at he
    rcases he with rfl | rfl | rfl | rfl | rfl
    · exact hlocation .query
    · exact hlocation .header
    · exact hlocation .path
    · exact hlocation .cookie
    · exact h.body
  · exact hcomponents

/-- Whether all schemas of a validator are well formed. -/
structure Validator.WellFormed (validator : Validator) : Prop where
  root : validator.predicate.schema.WellFormed
  parameters : ∀ p ∈ validator.parameters, p.WellFormed
  body : validator.schema.body.schema.WellFormed

namespace Gate

variable {options : Options} {document : Document} {r : Request} {b : Blueprint}

theorem wellFormed_of_blueprintOf (hdocument : document.root.WellFormed)
    (h : (ofDocument options document).blueprintOf r = .ok (some b)) :
    b.schema.WellFormed ∧ ∀ p ∈ b.parameters, p.WellFormed := by
  obtain ⟨operation, plan, hop, hplan, -, hparameters, hschema, -⟩ := exists_plan_of_blueprintOf h
  have hwell := Plan.wellFormed_of_assemble hdocument (Document.mem_of_operation? hop).1 hplan
  rw [hparameters, hschema]
  exact ⟨hwell.schemaFor document.components r.contentType, hwell.parameters⟩

/-- **Whatever a live gate keeps in a slot is well formed** if the document is. -/
theorem wellFormed_of_slot {history : List Request} {key : String} {validator : Validator}
    (hdocument : document.root.WellFormed)
    (h : ((ofDocument options document).after history).entryAt key = some (some validator)) :
    validator.WellFormed := by
  obtain ⟨compiler, filler, hmay⟩ := exists_mayFill_of_slot h
  cases hmay with
  | @declared b c p hb hc hprint hcompile =>
    obtain ⟨hschema, hparameters⟩ := wellFormed_of_blueprintOf hdocument hb
    obtain ⟨hcompiled, -⟩ := wellFormed_of_blueprintOf hdocument hc
    have hroot : p.schema.WellFormed := by
      rw [Engine.eq_of_compile_eq_ok hcompile]
      exact RequestSchema.wellFormed_toEngineSchema hcompiled (Document.wellFormed_components hdocument)
    exact ⟨hroot, hparameters, hschema.body⟩

end Gate

end RequestGate
