import RequestGate.Operation.Plan
import RequestGate.Proofs.Entries
import RequestGate.Proofs.Success

/-!
# What the schemas of parameters declare

The parameters of an operation are put into the schemas of their places one after the other. In the
end a place declares a name exactly if one of the parameters has it there
(`RequestGate.Parameter.declares_of_assemble`), and it requires the names of those that are flagged so,
in the order of declaration (`RequestGate.Parameter.requires_of_assemble`). The same holds of the plan
of an operation, whose schemas therefore match its parameters
(`RequestGate.Plan.matches_of_assemble`).
-/

namespace RequestGate

namespace ParameterSchemas

/-- The declared names of a place are those of the parameters of that place. -/
def Declares (schemas : ParameterSchemas) (parameters : List Parameter) : Prop :=
  ∀ location name, (schemas.branch location).declares name = true ↔
    ∃ p ∈ parameters, p.location = location ∧ p.name = name

/-- The required names of a place are those of the required parameters of that place, in order. -/
def Requires (schemas : ParameterSchemas) (parameters : List Parameter) : Prop :=
  ∀ location, (schemas.branch location).required =
    (parameters.filter fun p => p.location == location && p.required).map Parameter.name

/-- The schemas that parameters have are kept under their names. -/
def Keeps (schemas : ParameterSchemas) (parameters : List Parameter) : Prop :=
  ∀ p ∈ parameters,
    Entries.get? (schemas.branch p.location).properties p.name = some p.schema

/-- The schemas of the four places say of the parameters what these say of themselves. -/
structure Matches (schemas : ParameterSchemas) (parameters : List Parameter) : Prop where
  declares : schemas.Declares parameters
  requires : schemas.Requires parameters

end ParameterSchemas

namespace Parameter

variable {root : Json} {allow : Bool} {route name : String} {parameters done : List Parameter}
  {p : Parameter} {schemas next : ParameterSchemas}

theorem declares_addTo {schema : LocationSchema} :
    (p.addTo schema).declares name = true ↔ p.name = name ∨ schema.declares name = true := by
  rw [LocationSchema.declares, LocationSchema.declares, Entries.contains_iff, Entries.contains_iff,
    addTo, Entries.mem_keys_insert, eq_comm]

/-- A parameter is placed if its name is new in its place. -/
theorem place_eq_ok_iff :
    place route schemas p = .ok next ↔ (schemas.branch p.location).declares p.name = false ∧
      next = schemas.withLocation p.location (p.addTo (schemas.branch p.location)) := by
  rw [place]
  cases (schemas.branch p.location).declares p.name <;> simp [eq_comm]

/-- One place gets the parameter, and the others stay as they are. -/
theorem branch_of_place (h : place route schemas p = .ok next) (location : Location) :
    (location = p.location ∧ next.branch location = p.addTo (schemas.branch location)) ∨
      (p.location ≠ location ∧ next.branch location = schemas.branch location) := by
  obtain ⟨-, rfl⟩ := place_eq_ok_iff.mp h
  by_cases hl : location = p.location
  · exact Or.inl ⟨hl, by rw [hl, ParameterSchemas.branch_withLocation]⟩
  · exact Or.inr ⟨Ne.symm hl, ParameterSchemas.branch_withLocation_of_ne _ _ hl⟩

/-- **One parameter more declares one name more.** -/
theorem declares_of_place (h : schemas.Declares done) (hplace : place route schemas p = .ok next) :
    next.Declares (done ++ [p]) := by
  intro location name
  rcases branch_of_place hplace location with ⟨rfl, hbranch⟩ | ⟨hl, hbranch⟩
  · rw [hbranch, declares_addTo, h p.location name]
    simp [or_and_right, exists_or, or_comm, eq_comm]
  · rw [hbranch, h location name]
    simp [or_and_right, exists_or, hl]

theorem declares_empty : ParameterSchemas.Declares {} [] := by
  intro location name
  cases location <;> simp [ParameterSchemas.branch, LocationSchema.declares, LocationSchema.empty,
    Entries.contains]

/-- **One required parameter more is required last.** -/
theorem requires_of_place (h : schemas.Requires done) (hplace : place route schemas p = .ok next) :
    next.Requires (done ++ [p]) := by
  intro location
  rcases branch_of_place hplace location with ⟨rfl, hbranch⟩ | ⟨hl, hbranch⟩
  · rw [hbranch, addTo, h p.location]
    by_cases hr : p.required <;> simp [hr]
  · rw [hbranch, h location]
    simp [hl]

theorem requires_empty : ParameterSchemas.Requires {} [] := by
  intro location
  cases location <;> rfl

/-- **One parameter more is kept beside the others**, since none of them has its name. -/
theorem keeps_of_place (h : schemas.Keeps done) (hplace : place route schemas p = .ok next) :
    next.Keeps (done ++ [p]) := by
  obtain ⟨hnew, -⟩ := place_eq_ok_iff.mp hplace
  intro q hq
  rcases branch_of_place hplace q.location with ⟨hl, hbranch⟩ | ⟨hl, hbranch⟩
  · rw [hbranch, addTo]
    rcases List.mem_append.mp hq with hq | hq
    · have hname : p.name ≠ q.name := by
        intro hname
        rw [LocationSchema.declares, Entries.contains, hname, ← hl, h q hq] at hnew
        cases hnew
      rw [Entries.get?_insert_of_ne _ _ hname]
      exact h q hq
    · obtain rfl := List.mem_singleton.mp hq
      rw [Entries.get?_insert_self]
  · rcases List.mem_append.mp hq with hq | hq
    · rw [hbranch]
      exact h q hq
    · obtain rfl := List.mem_singleton.mp hq
      exact absurd rfl hl

/-- **The names that are declared** are those of the parameters. -/
theorem declares_of_assemble (h : assemble root allow route parameters = .ok schemas) :
    schemas.Declares parameters := by
  obtain ⟨placed, hplaced, h⟩ := bind_eq_ok_iff.mp h
  have hdeclares : placed.Declares parameters :=
    foldlM_induction (P := fun done s => ParameterSchemas.Declares s done)
      (fun done p s s' hs hstep => declares_of_place hs hstep) declares_empty hplaced
  obtain rfl := Except.ok.inj h
  -- the query is opened or closed afterwards, which declares nothing
  intro location name
  rw [← hdeclares location name]
  cases location <;> rfl

/-- **The names that are required** are those of the required parameters. -/
theorem requires_of_assemble (h : assemble root allow route parameters = .ok schemas) :
    schemas.Requires parameters := by
  obtain ⟨placed, hplaced, h⟩ := bind_eq_ok_iff.mp h
  have hrequires : placed.Requires parameters :=
    foldlM_induction (P := fun done s => ParameterSchemas.Requires s done)
      (fun done p s s' hs hstep => requires_of_place hs hstep) requires_empty hplaced
  obtain rfl := Except.ok.inj h
  -- opening or closing the query requires nothing either
  intro location
  rw [← hrequires location]
  cases location <;> rfl

/-- **The schemas that are kept** are those of the parameters. -/
theorem keeps_of_assemble (h : assemble root allow route parameters = .ok schemas) :
    schemas.Keeps parameters := by
  obtain ⟨placed, hplaced, h⟩ := bind_eq_ok_iff.mp h
  have hkeeps : placed.Keeps parameters :=
    foldlM_induction (P := fun done s => ParameterSchemas.Keeps s done)
      (fun done p s s' hs hstep => keeps_of_place hs hstep) (fun p hp => by cases hp) hplaced
  obtain rfl := Except.ok.inj h
  intro p hp
  rw [← hkeeps p hp]
  cases p.location <;> rfl

/-- **No name is used twice** for parameters of one place. -/
theorem once_of_assemble (h : assemble root allow route parameters = .ok schemas) :
    parameters.Pairwise fun p q => p.location = q.location → p.name ≠ q.name := by
  obtain ⟨placed, hplaced, -⟩ := bind_eq_ok_iff.mp h
  refine (foldlM_induction (P := fun done s => ParameterSchemas.Declares s done ∧
    done.Pairwise fun p q => p.location = q.location → p.name ≠ q.name)
    (fun done p s s' hs hstep => ⟨declares_of_place hs.1 hstep, ?_⟩)
    ⟨declares_empty, .nil⟩ hplaced).2
  refine List.pairwise_append.mpr ⟨hs.2, List.pairwise_singleton _ _, fun q hq p' hp' hl hname => ?_⟩
  obtain rfl := List.mem_singleton.mp hp'
  have hdeclared : (s.branch p'.location).declares p'.name = true :=
    (hs.1 p'.location p'.name).mpr ⟨q, hq, hl, hname⟩
  cases hdeclared.symm.trans (place_eq_ok_iff.mp hstep).1

/-- The only thing that can go wrong with one parameter is that its name is used already. -/
theorem fault_of_place {e : GateError} (h : place route schemas p = .error e) :
    e = .structural route (.duplicateParameter p.name p.location) := by
  rw [place] at h
  split at h
  · exact (Except.error.inj h).symm
  · cases h

/-- **Parameters that use no name twice are all placed.** -/
theorem exists_placed (route : String) (hdeclares : schemas.Declares done)
    (honce : (done ++ parameters).Pairwise fun p q => p.location = q.location → p.name ≠ q.name) :
    ∃ placed, parameters.foldlM (place route) schemas = .ok placed := by
  induction parameters generalizing done schemas with
  | nil => exact ⟨schemas, rfl⟩
  | cons p parameters ih =>
    have hnew : (schemas.branch p.location).declares p.name ≠ true := by
      intro hdeclared
      obtain ⟨q, hq, hl, hname⟩ := (hdeclares p.location p.name).mp hdeclared
      exact (List.pairwise_append.mp honce).2.2 q hq p (by simp) hl hname
    have hplace : place route schemas p =
        .ok (schemas.withLocation p.location (p.addTo (schemas.branch p.location))) :=
      place_eq_ok_iff.mpr ⟨Bool.eq_false_iff.mpr hnew, rfl⟩
    rw [List.append_cons] at honce
    obtain ⟨placed, hplaced⟩ := ih (declares_of_place hdeclares hplace) honce
    exact ⟨placed, List.foldlM_cons.trans (bind_eq_ok_iff.mpr ⟨_, hplace, hplaced⟩)⟩

/-- **The schemas of parameters can be assembled if and only if no name is used twice** in one place;
and if one is, that is what is reported. -/
theorem assemble_cases (root : Json) (allow : Bool) (route : String) (parameters : List Parameter) :
    (∃ schemas, assemble root allow route parameters = .ok schemas ∧
      parameters.Pairwise fun p q => p.location = q.location → p.name ≠ q.name) ∨
    ∃ p ∈ parameters, assemble root allow route parameters =
        .error (.structural route (.duplicateParameter p.name p.location)) ∧
      ¬ parameters.Pairwise fun p q => p.location = q.location → p.name ≠ q.name := by
  cases h : assemble root allow route parameters with
  | ok schemas => exact Or.inl ⟨schemas, rfl, once_of_assemble h⟩
  | error e =>
    rcases bind_eq_error_iff.mp h with hfold | ⟨placed, -, hrest⟩
    · obtain ⟨p, hp, schemas, hplace⟩ := exists_of_foldlM_eq_error hfold
      refine Or.inr ⟨p, hp, by rw [fault_of_place hplace], fun honce => ?_⟩
      obtain ⟨placed, hplaced⟩ := exists_placed route declares_empty honce
      rw [hplaced] at hfold
      cases hfold
    · cases hrest

end Parameter

namespace Plan

variable {document : Document} {operation : Operation} {plan : Plan} {allow : Bool}

/-- What the plan of an operation is made of. -/
theorem of_assemble (h : assemble document allow operation = .ok plan) :
    plan.method = operation.method ∧ plan.route = operation.route ∧
      Parameter.assemble (Document.schemaRoot document.components) allow operation.route
        plan.parameters = .ok plan.schemas := by
  obtain ⟨declarations, -, h⟩ := bind_eq_ok_iff.mp h
  obtain ⟨parameters, -, h⟩ := bind_eq_ok_iff.mp h
  obtain ⟨schemas, hschemas, h⟩ := bind_eq_ok_iff.mp h
  obtain ⟨requestBody, -, h⟩ := bind_eq_ok_iff.mp h
  obtain rfl := Except.ok.inj h
  exact ⟨rfl, rfl, hschemas⟩

/-- **A plan declares the names of its parameters.** -/
theorem declares_of_assemble (h : assemble document allow operation = .ok plan) :
    plan.schemas.Declares plan.parameters :=
  Parameter.declares_of_assemble (of_assemble h).2.2

/-- **A plan keeps the schemas of its parameters.** -/
theorem keeps_of_assemble (h : assemble document allow operation = .ok plan) :
    plan.schemas.Keeps plan.parameters :=
  Parameter.keeps_of_assemble (of_assemble h).2.2

/-- **A plan uses no name twice** in one place. -/
theorem once_of_assemble (h : assemble document allow operation = .ok plan) :
    plan.parameters.Pairwise fun p q => p.location = q.location → p.name ≠ q.name :=
  Parameter.once_of_assemble (of_assemble h).2.2

/-- **The schemas of a plan match its parameters.** -/
theorem matches_of_assemble (h : assemble document allow operation = .ok plan) :
    plan.schemas.Matches plan.parameters :=
  ⟨declares_of_assemble h, Parameter.requires_of_assemble (of_assemble h).2.2⟩

end Plan

end RequestGate
