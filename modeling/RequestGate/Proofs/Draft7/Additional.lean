import Mathlib.Data.List.Basic
import RequestGate.Draft7.Validate

/-!
# Violations about additional members

A violation is about additional members if its path ends at `additionalProperties`. Of the keywords that
hand nothing on to further schemas only this one reports such violations
(`RequestGate.Draft7.silent_keywordViolations`), and in a closed object schema it reports one exactly if
there is a member without a property (`RequestGate.Draft7.additionalViolations_closed`).
-/

namespace RequestGate.Draft7

variable {formats : Formats} {check : Check} {place : Place} {siblings members table : Entries Json}
  {vs ws : List Violation} {keyword : String} {root s t value demand : Json} {n : Nat}

/-- Whether a violation is one of `additionalProperties`. -/
def Violation.OfAdditional (v : Violation) : Prop :=
  v.schemaPath.getLast? = some "additionalProperties"

/-- Whether there is nothing among violations about additional members. -/
def Silent (vs : List Violation) : Prop := ∀ v ∈ vs, ¬ v.OfAdditional

theorem silent_nil : Silent [] := fun _ hv => by cases hv

theorem Silent.append (hvs : Silent vs) (hws : Silent ws) : Silent (vs ++ ws) :=
  fun v hv => (List.mem_append.mp hv).elim (hvs v) (hws v)

theorem silent_flatMap {α : Type} {f : α → List Violation} {xs : List α}
    (h : ∀ x ∈ xs, Silent (f x)) : Silent (xs.flatMap f) := by
  intro v hv
  obtain ⟨x, hx, hv⟩ := List.mem_flatMap.mp hv
  exact h x hx v hv

theorem ofAdditional_violation_iff (place : Place) (segment : String) (detail : Detail) :
    ((place.under segment).violation detail).OfAdditional ↔ segment = "additionalProperties" := by
  rw [Violation.OfAdditional, Place.violation, List.getLast?_reverse, Place.under, List.head?_cons,
    Option.some_inj]

theorem silent_violation (hkeyword : keyword ≠ "additionalProperties") (detail : Detail) :
    Silent [(place.under keyword).violation detail] := by
  intro v hv
  obtain rfl := List.mem_singleton.mp hv
  exact fun h => hkeyword ((ofAdditional_violation_iff place keyword detail).mp h)

theorem silent_demand (hkeyword : keyword ≠ "additionalProperties") (condition : Bool)
    (detail : Detail) : Silent ((place.under keyword).demand condition detail) := by
  rw [Place.demand]
  split
  · exact silent_nil
  · exact silent_violation hkeyword detail

theorem silent_requiredViolations (hkeyword : keyword ≠ "additionalProperties") :
    Silent (requiredViolations (place.under keyword) demand members) := by
  unfold requiredViolations
  split
  · exact silent_flatMap fun _ _ => silent_demand hkeyword _ _
  · exact silent_nil

theorem silent_contentViolations {text : String} :
    Silent (contentViolations place siblings keyword text) := by
  simp only [contentViolations]
  split
  · split
    · split
      · exact silent_nil
      · exact silent_violation (by decide) _
    · exact silent_nil
  · split
    · exact silent_demand (by decide) _ _
    · exact silent_nil
  · split
    · split
      · exact silent_violation (by decide) _
      · exact silent_demand (by decide) _ _
    · exact silent_nil
  · exact silent_nil

/-! ### Keyword by keyword -/

/-- The keywords by which a value is handed on to further schemas, or a part of it. -/
def handingOn : List String :=
  ["items", "additionalItems", "properties", "patternProperties", "additionalProperties",
   "dependencies", "propertyNames", "allOf", "if"]

/-- A keyword that hands nothing on speaks for itself. -/
theorem silent_keywordViolations (hkeyword : keyword ∉ handingOn) :
    Silent (keywordViolations formats check siblings place value keyword demand) := by
  unfold keywordViolations
  split <;> try exact silent_demand (by decide) _ _
  all_goals try exact absurd (by decide) hkeyword
  · split
    · exact silent_demand (by decide) _ _
    · exact silent_nil
  · exact silent_contentViolations
  · exact silent_contentViolations
  · exact silent_requiredViolations (by decide)
  · exact silent_nil

/-! ### One step of the engine -/

theorem itemsViolations_of_isObj {items : List Json} (hs : s.isObj = true) :
    itemsViolations check place s items = itemViolations check place s 0 items := by
  cases s with
  | obj members => rfl
  | _ => cases hs

theorem violations_obj (href : Schema.reference? (.obj siblings) = none) (place : Place)
    (value : Json) :
    violations formats root (n + 1) (.obj siblings) place value =
      siblings.flatMap fun e =>
        keywordViolations formats (violations formats root n) siblings place value e.1 e.2 := by
  rw [violations]
  split
  · rename_i reference hget
    simp [Schema.reference?, Json.getStr?, Json.str?, hget] at href
  · rfl

theorem violations_reference {reference : String} (href : Schema.reference? s = some reference)
    (htarget : resolve? root reference = some t) (place : Place) (value : Json) :
    violations formats root (n + 1) s place value =
      violations formats root n t (place.under "$ref") value := by
  obtain ⟨found, hfound, hstr⟩ := Option.bind_eq_some_iff.mp href
  cases s with
  | obj members =>
    cases found with
    | str text =>
      obtain rfl := Option.some.inj hstr
      rw [violations, ← Json.get?_obj, hfound]
      simp only [htarget]
    | _ => cases hstr
  | _ => cases hfound

/-- What a closed object schema without patterns says of the members of an object. -/
theorem additionalViolations_closed
    (hproperties : Entries.get? siblings "properties" = some (.obj table))
    (hpatterns : Entries.get? siblings "patternProperties" = none) :
    additionalViolations check place siblings (.bool false) members =
      (members.flatMap fun m => (Entries.get? table m.1).elim [] fun part =>
        check part (((place.under "properties").under m.1).into m.1) m.2) ++
      (place.under "additionalProperties").demand
        ((Entries.keys members).filter fun name => !Entries.contains table name).isEmpty
        (.unexpected ((Entries.keys members).filter fun name => !Entries.contains table name)) := by
  have hdeclared : (Entries.get? siblings "properties").bind Json.obj? = some table := by
    rw [hproperties]
    rfl
  have hnone : patternsOf siblings = [] := by
    rw [patternsOf, hpatterns]
  simp only [additionalViolations, hdeclared, hnone, Json.bool.injEq, Bool.false_eq_true, if_false,
    decide_true, Option.isNone_some, Bool.false_and, Bool.and_false, if_true, Option.bind_some,
    Option.any_some, List.filter_nil, List.flatMap_nil, List.append_nil, List.isEmpty_nil,
    Bool.not_true, Bool.or_false, Bool.or_true, List.append_cancel_right_eq]
  refine List.flatMap_congr fun m _ => ?_
  cases Entries.get? table m.1 <;> rfl

end RequestGate.Draft7
