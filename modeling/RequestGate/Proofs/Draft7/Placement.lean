import RequestGate.Draft7.Validate

/-!
# Where violations lie

A check stands at a place of the instance, and what it reports lies there or further inside
(`RequestGate.Draft7.within_violations`). So the violations of one member of an object can be told from
those of the others by the first segment of their paths.
-/

namespace RequestGate.Draft7

variable {formats : Formats} {root s value : Json} {check : Check} {place : Place}
  {siblings members table : Entries Json} {items : List Json} {keyword : String}

/-- Whether violations lie at a place of the instance or further inside. -/
def Within (place : Place) (vs : List Violation) : Prop :=
  ∀ v ∈ vs, place.instanceSegments.reverse <+: v.instancePath

theorem within_nil : Within place [] := fun _ h => by cases h

theorem within_violation (detail : Detail) : Within place [place.violation detail] := by
  intro v hv
  obtain rfl := List.mem_singleton.mp hv
  exact List.prefix_refl _

theorem within_demand (condition : Bool) (detail : Detail) :
    Within place (place.demand condition detail) := by
  rw [Place.demand]
  split
  · exact within_nil
  · exact within_violation detail

theorem Within.append {vs ws : List Violation} (hvs : Within place vs) (hws : Within place ws) :
    Within place (vs ++ ws) :=
  fun v hv => (List.mem_append.mp hv).elim (hvs v) (hws v)

theorem within_flatMap {α : Type} {f : α → List Violation} {xs : List α}
    (h : ∀ x ∈ xs, Within place (f x)) : Within place (xs.flatMap f) := by
  intro v hv
  obtain ⟨x, hx, hv⟩ := List.mem_flatMap.mp hv
  exact h x hx v hv

/-- A step into the schema is none into the instance. -/
theorem Within.of_under {vs : List Violation} {segment : String}
    (h : Within (place.under segment) vs) : Within place vs := h

/-- What lies further inside lies inside. -/
theorem Within.of_into {vs : List Violation} {segment : String}
    (h : Within (place.into segment) vs) : Within place vs := by
  intro v hv
  have hprefix : place.instanceSegments.reverse <+: (segment :: place.instanceSegments).reverse := by
    rw [List.reverse_cons]
    exact List.prefix_append _ _
  exact hprefix.trans (h v hv)

/-! ### Keyword by keyword -/

theorem within_requiredViolations : Within place (requiredViolations place s members) := by
  unfold requiredViolations
  split
  · exact within_flatMap fun _ _ => within_demand _ _
  · exact within_nil

theorem within_contentViolations {text : String} :
    Within place (contentViolations place siblings keyword text) := by
  simp only [contentViolations]
  split
  · split
    · split
      · exact within_nil
      · exact .of_under (within_violation _)
    · exact within_nil
  · split
    · exact .of_under (within_demand _ _)
    · exact within_nil
  · split
    · split
      · exact .of_under (within_violation _)
      · exact .of_under (within_demand _ _)
    · exact within_nil
  · exact within_nil

/-- Whether a check reports nothing that lies outside of where it stands. -/
def StaysWithin (check : Check) : Prop :=
  ∀ s place value, Within place (check s place value)

section Checks

variable (h : StaysWithin check)

include h

theorem within_propertyViolations : Within place (propertyViolations check place table members) := by
  refine within_flatMap fun ⟨name, s⟩ _ => ?_
  dsimp only
  split
  · exact (h s ((place.under name).into name) _).of_into
  · exact within_nil

theorem within_patternViolations :
    Within place (patternViolations check place siblings members) := by
  refine within_flatMap fun ⟨text, pattern, s⟩ _ => within_flatMap fun ⟨name, a⟩ _ => ?_
  dsimp only
  split
  · exact (h s ((place.under text).into name) a).of_into
  · exact within_nil

theorem within_additionalViolations :
    Within place (additionalViolations check place siblings s members) := by
  simp only [additionalViolations]
  split
  · exact within_nil
  · split
    · split
      · exact within_nil
      · exact .of_under (within_violation _)
    · refine .append (within_flatMap fun m _ => .append (.append ?_ ?_) ?_)
        (.of_under (within_demand _ _))
      · split
        · exact (h _ (((place.under _).under m.1).into m.1) _).of_into
        · exact within_nil
      · exact within_flatMap fun e _ => (h _ (((place.under _).under e.1).into m.1) _).of_into
      · split
        · exact within_nil
        · exact (h _ ((place.under _).into m.1) _).of_into

theorem within_dependencyViolations :
    Within place (dependencyViolations check place table members) := by
  refine within_flatMap fun ⟨name, dependency⟩ _ => ?_
  dsimp only
  split
  · cases dependency with
    | arr names => exact within_requiredViolations
    | _ => exact h _ (place.under name) _
  · exact within_nil

theorem within_nameViolations : Within place (nameViolations check place s members) := by
  unfold nameViolations
  split
  · exact within_nil
  · exact within_demand _ _
  · exact within_flatMap fun _ _ => h _ _ _

theorem within_itemViolations {start : Nat} :
    Within place (itemViolations check place s start items) :=
  within_flatMap fun e _ => (h _ (place.into (toString e.2)) _).of_into

theorem within_itemsViolations : Within place (itemsViolations check place s items) := by
  unfold itemsViolations
  split
  · exact within_flatMap fun e _ =>
      (h _ ((place.under (toString e.2)).into (toString e.2)) _).of_into
  · exact within_nil
  · exact within_itemViolations h

theorem within_extraItemViolations :
    Within place (extraItemViolations check place siblings s items) := by
  unfold extraItemViolations
  split
  · split
    · exact within_demand _ _
    · exact within_itemViolations h
    · exact within_nil
  · exact within_nil

theorem within_conditionalViolations {condition : Json} :
    Within place (conditionalViolations check place siblings condition value) := by
  simp only [conditionalViolations]
  -- of the two branches either may be missing
  split <;> split
  · exact h _ (place.under "then") _
  · exact within_nil
  · exact h _ (place.under "else") _
  · exact within_nil

/-- **What a keyword demands** is reported where the check stands or further inside. -/
theorem within_keywordViolations {demand : Json} :
    Within place (keywordViolations formats check siblings place value keyword demand) := by
  unfold keywordViolations
  split <;> try exact .of_under (within_demand _ _)
  -- what is left holds further schemas, or looks at its siblings
  · split
    · exact .of_under (within_demand _ _)
    · exact within_nil
  · exact within_contentViolations
  · exact within_contentViolations
  · exact .of_under (within_itemsViolations h)
  · exact .of_under (within_extraItemViolations h)
  · exact .of_under within_requiredViolations
  · split
    · exact within_nil
    · exact .of_under (within_propertyViolations h)
  · split
    · exact within_nil
    · exact .of_under (within_patternViolations h)
  · exact within_additionalViolations h
  · exact .of_under (within_dependencyViolations h)
  · exact .of_under (within_nameViolations h)
  · exact within_flatMap fun e _ => h _ ((place.under _).under (toString e.2)) _
  · exact within_conditionalViolations h
  · exact within_nil

end Checks

/-- **Violations lie where the check stands**, or further inside. -/
theorem within_violations (formats : Formats) (root : Json) (steps : Nat) :
    StaysWithin (violations formats root steps) := by
  induction steps with
  | zero => exact fun _ _ _ => within_nil
  | succ steps ih =>
    intro s place value
    unfold violations
    split
    · exact within_nil
    · exact within_violation _
    · split
      · split
        · exact ih _ (place.under "$ref") _
        · exact within_nil
      · exact within_flatMap fun e _ => within_keywordViolations ih
    · exact within_nil

end RequestGate.Draft7
