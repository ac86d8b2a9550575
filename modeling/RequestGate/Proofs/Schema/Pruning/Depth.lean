import RequestGate.Proofs.Schema.Pruning.Strict

/-!
# How deep pruning gets

Pruning visits a value and `RequestGate.Schema.maxHops` levels below it. Up to there, what is left of an
object that a closed schema governs has no members but declared ones; below that, all is as it was. So
pruning is complete exactly if there is nothing to take below
(`RequestGate.Schema.onlyDeclared_prune_iff`), and for strict schemas this is what decides whether the
engine will speak of additional members afterwards (`RequestGate.Schema.silent_prune_iff`).

Every schema that refers to itself governs values that are deeper.
-/

namespace RequestGate.Schema

open Draft7 Json

variable {formats : Formats} {schema value : Json}

/-- Whether objects that are more than a number of levels down have no member but declared ones, if a
closed schema governs them. -/
def OnlyDeclaredBeyond (levels : Nat) (root schema value : Json) : Prop :=
  ∀ path s members, levels < path.length → governing? root schema path = some s → Closed root s →
    value.at? path = some (.obj members) → ∀ name ∈ Entries.keys members,
      name ∈ Entries.keys (properties root s)

/-- What a closed schema leaves of an object is declared. -/
theorem mem_keys_of_mem_keys_pruneParts {root s : Json} {f : Json → Json → Json}
    {members members' : Entries Json} {name : String} (hclosed : Closed root s)
    (h : pruneParts root .declared s f (.obj members) = .obj members')
    (hname : name ∈ Entries.keys members') : name ∈ Entries.keys (properties root s) := by
  rw [pruneParts, mapDeclared_eq_map] at h
  obtain rfl := Json.obj.inj h
  obtain ⟨e, he, rfl⟩ := List.mem_map.mp hname
  obtain ⟨m, hm, rfl⟩ := List.mem_map.mp he
  refine not_not.mp fun hundeclared => ?_
  refine of_decide_eq_true (List.mem_filter.mp hm).2 ⟨hclosed.consulted, hundeclared, ?_⟩
  rw [hclosed.closed]
  rfl

/-- **Pruning is complete** exactly if there is nothing to take further down than it gets. -/
theorem onlyDeclared_prune_iff (schema value : Json) :
    OnlyDeclared schema schema (prune .declared schema value) ↔
      OnlyDeclaredBeyond maxHops schema schema value := by
  constructor
  · intro h path s members hlength hs hclosed hat
    exact h path s members hs hclosed (by rwa [at?_prune_of_deep hs hlength])
  · intro h path s members hs hclosed hat name hname
    rcases Nat.lt_or_ge maxHops path.length with hdeep | hlength
    · rw [at?_prune_of_deep hs hdeep] at hat
      exact h path s members hdeep hs hclosed hat name hname
    · rw [at?_prune hs hlength] at hat
      obtain ⟨a, -, ha⟩ := Option.map_eq_some_iff.mp hat
      cases a with
      | obj before => exact mem_keys_of_mem_keys_pruneParts hclosed ha hname
      | _ => cases ha

/-- A value that is not deep has nothing further down. -/
theorem onlyDeclaredBeyond_of_depth_le (hdepth : value.depth ≤ levels) :
    OnlyDeclaredBeyond maxHops schema schema value := by
  intro path s members hlength _ _ hat
  have hle := length_add_depth_le hat
  have hobj : (Json.obj members).depth = depthMembers members + 1 := rfl
  rw [levels] at hdepth
  omega

/-- **After pruning the engine speaks of additional members** exactly if there are some further down than
pruning gets. In values that are no deeper it never does. -/
theorem silent_prune_iff (formats : Formats) (hschema : schema.WellFormed)
    (hstrict : StrictThroughout schema schema) :
    ∀ value : Json, value.WellFormed →
      (OnlyDeclared schema schema (prune .declared schema value) ↔
        OnlyDeclaredBeyond maxHops schema schema value) ∧
      (Silent (allViolations formats schema (prune .declared schema value)) ↔
        OnlyDeclaredBeyond maxHops schema schema value) ∧
      (value.depth ≤ levels → OnlyDeclaredBeyond maxHops schema schema value) := by
  intro value hvalue
  refine ⟨onlyDeclared_prune_iff schema value, ?_, onlyDeclaredBeyond_of_depth_le⟩
  rw [silent_allViolations_iff hschema hstrict (wellFormed_prune .declared schema hvalue)]
  exact onlyDeclared_prune_iff schema value

/-- A schema of lists whose every element is in the one before. -/
def nestedList : Json :=
  .obj
    [("type", .str "object"),
     ("properties", .obj [("next", .obj [("$ref", .str "#")])]),
     ("additionalProperties", .bool false)]

theorem strictThroughout_nestedList : StrictThroughout nestedList nestedList := by
  have hlink : resolve nestedList (.obj [("$ref", .str "#")]) = some nestedList := by decide
  have hself : resolve nestedList nestedList = some nestedList := by decide
  have hproperties : properties nestedList nestedList = [("next", .obj [("$ref", .str "#")])] := by
    decide
  have hstrict : Strict nestedList :=
    { isObj := rfl
      plain := by decide
      closed := fun _ => ⟨⟨_, rfl⟩, rfl, Or.inl rfl⟩
      items := fun _ hget => by cases hget }
  intro path part hpart
  -- paths lead to the schema itself and to the reference to it
  have hcases : part = nestedList ∨ part = .obj [("$ref", .str "#")] := by
    refine schemaAt?_induction
      (P := fun part => part = nestedList ∨ part = .obj [("$ref", .str "#")])
      (Or.inl rfl) (fun schema step part hschema hpart => ?_) hpart
    have hresolve : resolve nestedList schema = some nestedList := by
      rcases hschema with rfl | rfl
      · exact hself
      · exact hlink
    cases step with
    | member name =>
      rw [partSchema?_member hresolve, hproperties, Entries.get?_cons] at hpart
      split at hpart
      · exact Or.inr (Option.some.inj hpart).symm
      · cases hpart
    | item index =>
      rw [partSchema?_item hresolve] at hpart
      cases hpart
  rcases hcases with rfl | rfl
  · exact ⟨_, hself, .refl, hstrict⟩
  · exact ⟨_, hlink, .step rfl (by decide) .refl, hstrict⟩

theorem silent_prune_iff_nestedList :
    nestedList.WellFormed ∧ StrictThroughout nestedList nestedList ∧
      Silent (allViolations .builtin nestedList (prune .declared nestedList
        (along [.member "next"] (.obj [("junk", .null)])))) := by
  have hwell : nestedList.WellFormed := by decide
  obtain ⟨-, hsilent, hlevels⟩ := silent_prune_iff .builtin hwell strictThroughout_nestedList
    (along [.member "next"] (.obj [("junk", .null)])) (wellFormed_along _ (by decide))
  exact ⟨hwell, strictThroughout_nestedList, hsilent.mpr (hlevels (by decide))⟩

/-- Of a list of 34 elements the last keeps a member that is not declared. -/
theorem not_onlyDeclared_prune_nestedList :
    ∃ value : Json, value.WellFormed ∧
      ¬ OnlyDeclared nestedList nestedList (prune .declared nestedList value) ∧
      ¬ Silent (allViolations .builtin nestedList (prune .declared nestedList value)) := by
  have hwell : (along (List.replicate 33 (.member "next")) (.obj [("junk", .null)])).WellFormed :=
    wellFormed_along _ (by decide)
  have hdeep : ¬ OnlyDeclaredBeyond maxHops nestedList nestedList
      (along (List.replicate 33 (.member "next")) (.obj [("junk", .null)])) := by
    intro h
    have hgoverning : governing? nestedList nestedList (List.replicate 33 (.member "next")) =
        some nestedList := by decide
    have hclosed : Closed nestedList nestedList := ⟨by decide, by decide⟩
    refine absurd (h _ nestedList [("junk", .null)] (by decide) hgoverning hclosed
      (at?_along _ _) "junk" (by decide)) (by decide)
  refine ⟨_, hwell, fun h => hdeep ((onlyDeclared_prune_iff _ _).mp h), fun h => hdeep ?_⟩
  have hdeclared := (silent_allViolations_iff (by decide) strictThroughout_nestedList
    (wellFormed_prune .declared nestedList hwell)).mp h
  exact (onlyDeclared_prune_iff _ _).mp hdeclared

end RequestGate.Schema
