import RequestGate.Proofs.Json.Rearranged
import RequestGate.Proofs.Operation.Alike

/-!
# Request schemas with their members in another order

If the records of two request schemas differ in the order of members, then so do the schemas that are
compiled from them (`RequestGate.RequestSchema.rearranged_toEngineSchema`). They have one fingerprint, and
only one of the two is compiled and kept.
-/

namespace RequestGate

open Json

/-- **A fingerprint does not tell the order of members.** -/
theorem RequestSchema.fingerprint_eq_of_rearranged {a b : RequestSchema}
    (h : Rearranged a.toJson b.toJson) : a.fingerprint = b.fingerprint :=
  Fingerprint.of_congr h.alike

theorem LocationSchema.rearranged_toEngineSchema {a b : LocationSchema}
    (h : Rearranged a.toJson b.toJson) : Rearranged a.toEngineSchema b.toEngineSchema := by
  have halike := alike_of_toJson h.alike
  have hproperties : Rearranged (.obj a.properties) (.obj b.properties) := by
    have hget := h.get? "properties"
    have ha : a.toJson.get? "properties" = some (.obj a.properties) := (get?_toJson a).2.1
    have hb : b.toJson.get? "properties" = some (.obj b.properties) := (get?_toJson b).2.1
    rw [ha, hb, Option.rel_some_some] at hget
    exact hget.1
  have hrest : ∀ m ∈ listMember "required" b.required ++
      [("additionalProperties", Json.bool b.additionalProperties)], m.2.WellFormed := by
    intro m hm
    rcases List.mem_append.mp hm with hm | hm
    · exact wellFormed_of_mem_listMember hm
    · rw [List.mem_singleton.mp hm]
      trivial
  rw [toEngineSchema, toEngineSchema, halike.title, halike.required, halike.additionalProperties,
    List.append_assoc, List.append_assoc]
  refine .of_forall₂ ?_ ?_
  · cases b.required <;> simp [listMember, Entries.Distinct]
  · have htext : ∀ s : String, (Json.str s).WellFormed := fun _ => trivial
    simp only [List.cons_append, List.nil_append, List.forall₂_cons, true_and]
    exact ⟨.refl (htext _) _, .refl (htext _) _, .of_not_literal (by decide) hproperties,
      List.forall₂_same.mpr fun m hm => ⟨rfl, .refl (hrest m hm) _⟩⟩

theorem RequestSchema.rearranged_body {a b : RequestSchema} (h : Rearranged a.toJson b.toJson) :
    Rearranged a.body.schema b.body.schema := by
  have hbody : Rearranged a.body.toJson b.body.toJson := (Option.rel_some_some.mp (h.get? "body")).1
  exact (Option.rel_some_some.mp (hbody.get? "schema")).1

/-- **What is compiled from the one and the other** differs in the order of members. -/
theorem RequestSchema.rearranged_toEngineSchema {a b : RequestSchema} {components : Json}
    (h : Rearranged a.toJson b.toJson) (hcomponents : components.WellFormed) :
    Rearranged (a.toEngineSchema components) (b.toEngineSchema components) := by
  have hparameters : Rearranged a.parameters.toJson b.parameters.toJson :=
    (Option.rel_some_some.mp (h.get? "parameters")).1
  have hrequired : a.requiredFields = b.requiredFields := by
    rw [requiredFields, requiredFields, (alike_of_toJson h.alike).bodyRequired]
  have hquery : Rearranged a.parameters.query.toJson b.parameters.query.toJson :=
    (Option.rel_some_some.mp (hparameters.get? "query")).1
  have hheaders : Rearranged a.parameters.headers.toJson b.parameters.headers.toJson :=
    (Option.rel_some_some.mp (hparameters.get? "headers")).1
  have hpath : Rearranged a.parameters.path.toJson b.parameters.path.toJson :=
    (Option.rel_some_some.mp (hparameters.get? "path")).1
  have hcookies : Rearranged a.parameters.cookies.toJson b.parameters.cookies.toJson :=
    (Option.rel_some_some.mp (hparameters.get? "cookies")).1
  rw [toEngineSchema, toEngineSchema, hrequired]
  refine .of_forall₂ (by simp [Entries.Distinct]) ?_
  simp only [List.forall₂_cons, List.Forall₂.nil, and_true, true_and]
  refine ⟨.refl (wellFormed_ofStrings _) _, .of_not_literal (by decide) ?_, .refl hcomponents _⟩
  refine .of_forall₂ (by simp [Entries.Distinct]) ?_
  simp only [List.forall₂_cons, List.Forall₂.nil, and_true, true_and]
  exact ⟨.of_not_literal (by decide) (LocationSchema.rearranged_toEngineSchema hquery),
    .of_not_literal (by decide) (LocationSchema.rearranged_toEngineSchema hheaders),
    .of_not_literal (by decide) (LocationSchema.rearranged_toEngineSchema hpath),
    .of_not_literal (by decide) (LocationSchema.rearranged_toEngineSchema hcookies),
    .of_not_literal (by decide) (rearranged_body h)⟩

end RequestGate
