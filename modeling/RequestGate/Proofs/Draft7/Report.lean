import RequestGate.Proofs.Draft7.Order
import RequestGate.Proofs.Schema.Rearranged
import RequestGate.Wording

/-!
# Reports of schemas with their members in another order

A violation is reported in the words for its keyword, with the value of the keyword where it is a bound,
a pattern or a list of values. These are literal, so the words are the same for a schema whose members
stand in another order. Of the report of a whole instance only the order of the lines is left open
(`RequestGate.Predicate.perm_lines`).
-/

namespace RequestGate

open Entries Json

namespace Schema

variable {root root' s t : Json}

/-- How the values at the end of a path are related: those of a literal keyword are the same. -/
def EndRel (segment : String) (v w : Json) : Prop :=
  Rearranged v w ∧ (segment ∈ literalKeywords → v = w)

theorem index?_literal : ∀ keyword ∈ literalKeywords, Draft7.index? keyword = none := by
  decide

/-- A step along a path, over references that the path does not name. -/
theorem pathStep?_eq (root : Json) (segment : String) (hops : Nat) (node : Json) :
    pathStep? root segment (hops + 1) node =
      if segment = "$ref" ∧ (reference? node).isSome then (reference? node).bind (target? root)
      else (stepBy Draft7.index? node segment).or ((reference? node).bind fun reference =>
        (target? root reference).bind (pathStep? root segment hops)) := by
  rw [pathStep?.eq_def]
  dsimp only
  generalize reference? node = reference
  cases node with
  | obj members =>
    dsimp only [stepBy]
    generalize Entries.get? members segment = found
    by_cases hsegment : segment = "$ref" <;> cases reference <;> cases found <;> simp [hsegment]
  | arr items =>
    dsimp only [stepBy, Draft7.index?]
    generalize ((Text.readNatBelow? Text.wordCount segment.toList).bind fun i => items[i]?) = found
    by_cases hsegment : segment = "$ref" <;> cases reference <;> cases found <;> simp [hsegment]
  | _ => by_cases hsegment : segment = "$ref" <;> cases reference <;> simp [hsegment, stepBy]

theorem pathStep?_rel (h : Rearranged root root') (segment : String) (hops : Nat)
    (hst : Rearranged s t) :
    Option.Rel (EndRel segment) (pathStep? root segment hops s) (pathStep? root' segment hops t) := by
  induction hops generalizing s t with
  | zero => exact .none
  | succ hops ih =>
    have hfound : Option.Rel (EndRel segment) (stepBy Draft7.index? s segment)
        (stepBy Draft7.index? t segment) :=
      rel_imp (hst.stepBy segment) fun v w hvw =>
        ⟨hvw.1, fun hliteral => hvw.2 hliteral (index?_literal segment hliteral)⟩
    rw [pathStep?_eq, pathStep?_eq, reference?_eq hst]
    split
    · -- a segment `$ref` leads to the target, and it is not the name of a literal
      rename_i hsegment
      refine rel_bind (S := Eq) ?_ fun reference _ heq => ?_
      · cases reference? t <;> constructor
        rfl
      · subst heq
        refine rel_imp (target?_rel h reference) fun v w hvw => ⟨hvw, fun hliteral => ?_⟩
        rw [hsegment.1] at hliteral
        exact absurd hliteral (by decide)
    · rcases rel_cases hfound with ⟨ha, hb⟩ | ⟨v, w, ha, hb, hvw⟩
      · rw [ha, hb, Option.none_or, Option.none_or]
        cases reference? t with
        | none => exact .none
        | some reference =>
          rw [Option.bind_some, Option.bind_some]
          exact rel_bind (target?_rel h reference) fun _ _ => ih
      · rw [ha, hb]
        exact .some hvw

/-- **The end of a path corresponds**, and is the same if its last segment is a literal keyword. -/
theorem lookupPath?_rel (h : Rearranged root root') (segments : List String) :
    Option.Rel (EndRel (segments.getLastD "")) (lookupPath? root segments)
      (lookupPath? root' segments) := by
  have hinit : ∀ segments : List String, Option.Rel Rearranged (lookupPath? root segments)
      (lookupPath? root' segments) := fun segments =>
    rel_foldlM (S := Rearranged) (fun _ _ segment hvw =>
      rel_imp (pathStep?_rel h segment levels hvw) fun _ _ he => he.1) segments h
  rcases List.eq_nil_or_concat segments with rfl | ⟨init, last, rfl⟩
  · exact .some ⟨h, fun hliteral => absurd hliteral (by decide)⟩
  · rw [List.concat_eq_append, List.getLastD_concat, lookupPath?, lookupPath?, List.foldlM_append,
      List.foldlM_append]
    refine rel_bind (hinit init) fun v w hvw => ?_
    rw [List.foldlM_cons, List.foldlM_cons]
    refine rel_bind (pathStep?_rel h last levels hvw) fun v w he => ?_
    exact .some he

end Schema

namespace SchemaError

open Schema

variable {e : SchemaError} {value : Option Json}

/-- **The words for a keyword** do not depend on the order of members in its value. -/
theorem sentence_eq (h : Option.Rel (EndRel e.keyword) e.keywordValue value) :
    e.sentence = { e with keywordValue := value }.sentence := by
  rcases rel_cases h with ⟨ha, rfl⟩ | ⟨v, w, ha, rfl, hvw, hliteral⟩
  · rw [← ha]
  · by_cases hkeyword : e.keyword ∈ literalKeywords
    · rw [← hliteral hkeyword, ← ha]
    · have htypes : typeList e.keywordValue = typeList (some w) := by
        rw [ha, typeList, typeList, Draft7.typeNames_eq hvw]
      have hnot : ∀ keyword ∈ literalKeywords, e.keyword ≠ keyword :=
        fun keyword hmem heq => hkeyword (heq ▸ hmem)
      rw [sentence, sentence]
      dsimp only
      rw [htypes]
      split <;> first | rfl | exact absurd ‹_› (hnot _ (by decide))

theorem lines_eq (h : Option.Rel (EndRel e.keyword) e.keywordValue value) :
    e.lines = { e with keywordValue := value }.lines := by
  have hplain : e.plainLine = { e with keywordValue := value }.plainLine := by
    rw [plainLine, plainLine, sentence_eq h]
    rfl
  rw [lines, lines]
  dsimp only
  rw [← hplain]
  rfl

/-- A violation is reported in the same words. -/
theorem lines_ofViolation_eq {root root' : Json} (h : Rearranged root root') (v : Draft7.Violation) :
    (ofViolation root v).lines = (ofViolation root' v).lines :=
  lines_eq (lookupPath?_rel h v.schemaPath)

end SchemaError

namespace Predicate

variable {p q : Predicate}

/-- **The lines of a report are the same**, in some order. -/
theorem perm_lines (h : Rearranged p.schema q.schema) (hformats : p.formats = q.formats) (value : Json) :
    ((p.errors value).flatMap SchemaError.lines).Perm ((q.errors value).flatMap SchemaError.lines) := by
  rw [errors, errors, List.flatMap_map, List.flatMap_map, hformats]
  refine ((Draft7.perm_allViolations q.formats h value).flatMap_right _).trans (.of_eq ?_)
  exact List.flatMap_congr fun v _ => SchemaError.lines_ofViolation_eq h v

/-- What one predicate accepts is what the other accepts. -/
theorem errors_eq_nil_iff (h : Rearranged p.schema q.schema) (hformats : p.formats = q.formats)
    (value : Json) : p.errors value = [] ↔ q.errors value = [] := by
  have hperm := Draft7.perm_allViolations q.formats h value
  rw [errors, errors, List.map_eq_nil_iff, List.map_eq_nil_iff, hformats]
  exact ⟨fun hnil => List.Perm.eq_nil (hnil ▸ hperm.symm), fun hnil => List.Perm.eq_nil (hnil ▸ hperm)⟩

end Predicate

end RequestGate
