import RequestGate.Proofs.Json.Rearranged
import RequestGate.Proofs.Schema.Shape
import RequestGate.Schema.Deserialize
import RequestGate.Schema.Prune

/-!
# Schemas with their members in another order

What the stages read off a schema they look up by name: its view (`RequestGate.Schema.shape_rel`), and
the schemas of its properties (`RequestGate.Schema.get?_properties_rel`). So the order of members makes
no difference to how a value is coerced, pruned or deserialized. It does make one to what is put into a
value, for that is put there in the order of the schema.
-/

namespace RequestGate

open Entries Json

namespace Pointer

theorem step?_eq (value : Json) (segment : String) : step? value segment = stepBy index? value segment := by
  cases value <;> rfl

/-- **Pointers lead to what corresponds.** -/
theorem lookup?_rel {root root' : Json} (h : Rearranged root root') (pointer : String) :
    Option.Rel Rearranged (lookup? root pointer) (lookup? root' pointer) := by
  rw [lookup?, lookup?]
  split
  · exact .some h
  · refine rel_foldlM (fun v w segment hvw => ?_) _ h
    rw [step?_eq, step?_eq]
    exact rel_imp (hvw.stepBy segment) fun _ _ hstep => hstep.1
  · exact .none

end Pointer

namespace Schema

variable {root root' s t value : Json} {name : String} {n : Nat} {mode : RemoveAdditional}
  {known known' more more' : Entries Json}

/-! ### References -/

theorem reference?_eq (h : Rearranged s t) : reference? s = reference? t :=
  h.getStr?_eq "$ref"

theorem target?_rel (h : Rearranged root root') (reference : String) :
    Option.Rel Rearranged (target? root reference) (target? root' reference) := by
  rw [target?, target?]
  split
  · exact Pointer.lookup?_rel h _
  · exact .none

theorem follow_rel (h : Rearranged root root') (n : Nat) (hst : Rearranged s t) :
    Option.Rel Rearranged (follow root n s) (follow root' n t) := by
  induction n generalizing s t with
  | zero => exact .none
  | succ n ih =>
    rw [follow, follow, reference?_eq hst]
    cases reference? t with
    | none => exact .some hst
    | some reference => exact rel_bind (target?_rel h reference) fun _ _ => ih

/-- **What rearranged schemas stand for corresponds.** -/
theorem resolve_rel (h : Rearranged root root') (hst : Rearranged s t) :
    Option.Rel Rearranged (resolve root s) (resolve root' t) :=
  follow_rel h maxHops hst

/-! ### The view -/

theorem primaryType_eq (h : Rearranged s t) : primaryType s = primaryType t := by
  rw [primaryType, primaryType]
  rcases h.get?_cases "type" with ⟨ha, hb⟩ | ⟨v, w, ha, hb, hvw, -⟩
  · rw [ha, hb]
  · rw [ha, hb]
    cases hvw.toCases with
    | arr hitems => exact congrArg (List.find? (· != "null")) (Rearranged.strings_eq hitems)
    | obj _ _ => rfl
    | same _ _ => rfl

theorem declaredTypes_eq (h : Rearranged s t) : declaredTypes s = declaredTypes t := by
  rw [declaredTypes, declaredTypes]
  rcases h.get?_cases "type" with ⟨ha, hb⟩ | ⟨v, w, ha, hb, hvw, -⟩
  · rw [ha, hb]
  · rw [ha, hb]
    cases hvw.toCases with
    | arr hitems => exact Rearranged.strings_eq hitems
    | obj _ _ => rfl
    | same _ _ => rfl

/-- Whether two tables, if they are there, hold the same in some order. -/
abbrev TableRel (table table' : Option (Entries Json)) : Prop :=
  Option.Rel (fun members members' => Rearranged (.obj members) (.obj members')) table table'

/-- Whether two views are the same, with rearranged parts. -/
inductive ShapeRel : Shape → Shape → Prop where
  | reference (target : String) : ShapeRel (.reference target) (.reference target)
  | allOf {members members' : List Json} (h : List.Forall₂ Rearranged members members') :
    ShapeRel (.allOf members) (.allOf members')
  | oneOf {members members' : List Json} (h : List.Forall₂ Rearranged members members') :
    ShapeRel (.oneOf members) (.oneOf members')
  | anyOf {members members' : List Json} (h : List.Forall₂ Rearranged members members') :
    ShapeRel (.anyOf members) (.anyOf members')
  | array (items items' : Option Json) : ShapeRel (.array items) (.array items')
  | object {table table' : Option (Entries Json)} (h : TableRel table table') :
    ShapeRel (.object table) (.object table')
  | scalar (type : Option String) : ShapeRel (.scalar type) (.scalar type)

theorem ShapeRel.members {a b : Shape} (h : ShapeRel a b) :
    List.Forall₂ Rearranged a.members b.members := by
  cases h with
  | allOf h => exact h
  | oneOf h => exact h
  | anyOf h => exact h
  | _ => exact .nil

theorem plainShape_rel (h : Rearranged s t) : ShapeRel (plainShape s) (plainShape t) := by
  rw [plainShape, plainShape, primaryType_eq h, h.hasKey_eq, h.hasKey_eq]
  split
  · exact .object (h.getObj? "properties")
  · exact .array _ _
  · split
    · exact .object (h.getObj? "properties")
    · split
      · exact .array _ _
      · exact .scalar none
  · exact .scalar _

/-- **Rearranged schemas have the same view**, with rearranged parts. -/
theorem shape_rel (h : Rearranged s t) : ShapeRel (shape s) (shape t) := by
  rw [shape, shape, reference?_eq h]
  cases reference? t with
  | some reference => exact .reference reference
  | none =>
    rcases rel_cases (h.getArr? "allOf") with ⟨ha, hb⟩ | ⟨_, _, ha, hb, hmembers⟩
    · rw [ha, hb]
      rcases rel_cases (h.getArr? "oneOf") with ⟨ha, hb⟩ | ⟨_, _, ha, hb, hmembers⟩
      · rw [ha, hb]
        rcases rel_cases (h.getArr? "anyOf") with ⟨ha, hb⟩ | ⟨_, _, ha, hb, hmembers⟩
        · rw [ha, hb]
          exact plainShape_rel h
        · rw [ha, hb]
          exact .anyOf hmembers
      · rw [ha, hb]
        exact .oneOf hmembers
    · rw [ha, hb]
      exact .allOf hmembers

/-! ### Properties -/

/-- Of several properties with one name the first counts. -/
theorem get?_addNew (known more : Entries Json) (name : String) :
    Entries.get? (addNew known more) name = (Entries.get? known name).or (Entries.get? more name) := by
  induction more generalizing known with
  | nil => simp [addNew]
  | cons e more ih =>
    rw [addNew, List.foldl_cons]
    refine (ih _).trans ?_
    rw [get?_cons]
    split
    · rename_i hknown
      obtain ⟨v, hv⟩ := Option.isSome_iff_exists.mp hknown
      split
      · rename_i hname
        rw [← hname, hv]
        rfl
      · rfl
    · rename_i hnew
      rw [get?_append, get?_cons, get?_nil]
      split
      · rename_i hname
        have hnone : Entries.get? known name = none := by simpa [Entries.contains, hname] using hnew
        simp [hnone]
      · simp

/-- Whether two tables have rearranged values under every name. -/
def LookupRel (known known' : Entries Json) : Prop :=
  ∀ name, Option.Rel Rearranged (Entries.get? known name) (Entries.get? known' name)

theorem LookupRel.contains_eq (h : LookupRel known known') (name : String) :
    Entries.contains known name = Entries.contains known' name := by
  rw [Entries.contains, Entries.contains]
  rcases rel_cases (h name) with ⟨ha, hb⟩ | ⟨v, w, ha, hb, -⟩
  · rw [ha, hb]
  · rw [ha, hb]
    rfl

theorem LookupRel.isEmpty_eq (h : LookupRel known known') : known.isEmpty = known'.isEmpty := by
  have hkeys : ∀ name, name ∈ keys known ↔ name ∈ keys known' := fun name => by
    rw [← contains_iff, ← contains_iff, h.contains_eq]
  cases known with
  | nil =>
    cases known' with
    | nil => rfl
    | cons e known' => exact absurd ((hkeys e.1).mpr (List.mem_map_of_mem List.mem_cons_self)) List.not_mem_nil
  | cons e known =>
    cases known' with
    | nil => exact absurd ((hkeys e.1).mp (List.mem_map_of_mem List.mem_cons_self)) List.not_mem_nil
    | cons e' known' => rfl

theorem LookupRel.addNew (h : LookupRel known known') (hmore : LookupRel more more') :
    LookupRel (addNew known more) (addNew known' more') := by
  intro name
  rw [get?_addNew, get?_addNew]
  rcases rel_cases (h name) with ⟨ha, hb⟩ | ⟨v, w, ha, hb, hvw⟩
  · rw [ha, hb]
    exact hmore name
  · rw [ha, hb]
    exact .some hvw

theorem collectProperties_rel (h : Rearranged root root') (n : Nat) (hknown : LookupRel known known')
    (hst : Rearranged s t) :
    LookupRel (collectProperties root n known s) (collectProperties root' n known' t) := by
  induction n generalizing known known' s t with
  | zero => exact hknown
  | succ n ih =>
    -- the lists of a composition keep their order, so the folds go in step
    have hfold : ∀ {ms ms' : List Json}, List.Forall₂ Rearranged ms ms' →
        ∀ {known known'}, LookupRel known known' →
          LookupRel (ms.foldl (collectProperties root n) known)
            (ms'.foldl (collectProperties root' n) known') := by
      intro ms ms' hms
      induction hms with
      | nil => exact id
      | cons hhead _ ihms => exact fun hknown => ihms (ih hknown hhead)
    rw [collectProperties, collectProperties]
    rcases rel_cases (resolve_rel h hst) with ⟨ha, hb⟩ | ⟨s, t, ha, hb, hst⟩
    · rw [ha, hb]
      exact hknown
    · rw [ha, hb]
      have hshape := shape_rel hst
      dsimp only
      generalize shape s = a, shape t = b at hshape ⊢
      cases hshape with
      | object htable =>
        cases htable with
        | none => exact hknown
        | some hobj => exact hknown.addNew fun name => rel_imp (hobj.get? name) fun _ _ hunder => hunder.1
      | allOf hmembers => exact hfold hmembers hknown
      | oneOf hmembers => exact hfold hmembers hknown
      | anyOf hmembers => exact hfold hmembers hknown
      | _ => exact hknown

/-- **The declared properties correspond**, name by name. -/
theorem get?_properties_rel (h : Rearranged root root') (hst : Rearranged s t) :
    LookupRel (properties root s) (properties root' t) :=
  collectProperties_rel h levels (fun _ => .none) hst

theorem itemSchema?_rel (h : Rearranged s t) : Option.Rel Rearranged (itemSchema? s) (itemSchema? t) := by
  rw [itemSchema?, itemSchema?]
  rcases h.get?_cases "items" with ⟨ha, hb⟩ | ⟨v, w, ha, hb, hvw, -⟩
  · rw [ha, hb]
    exact .none
  · rw [ha, hb, Option.filter_some, Option.filter_some, hvw.isObj_eq]
    split
    · exact .some hvw
    · exact .none

/-! ### Stages -/

section Stages

variable {f g : Json → Json → Json}

theorem mapDeclared_eq (h : Rearranged root root') (hst : Rearranged s t)
    (hfg : ∀ s t value, Rearranged s t → f s value = g t value) (members : Entries Json) :
    mapDeclared root s f members = mapDeclared root' t g members := by
  rw [mapDeclared, mapDeclared]
  refine List.map_congr_left fun m _ => ?_
  obtain ⟨name, value⟩ := m
  dsimp only
  rcases rel_cases (get?_properties_rel h hst name) with ⟨ha, hb⟩ | ⟨v, w, ha, hb, hvw⟩
  · rw [ha, hb]
  · rw [ha, hb]
    dsimp only
    rw [hfg v w value hvw]

theorem mapItems_eq (hst : Rearranged s t)
    (hfg : ∀ s t value, Rearranged s t → f s value = g t value) (items : List Json) :
    mapItems s f items = mapItems t g items := by
  rw [mapItems, mapItems]
  rcases rel_cases (itemSchema?_rel hst) with ⟨ha, hb⟩ | ⟨v, w, ha, hb, hvw⟩
  · rw [ha, hb]
  · rw [ha, hb]
    exact List.map_congr_left fun item _ => hfg v w item hvw

theorem mapChildren_eq (h : Rearranged root root') (hst : Rearranged s t)
    (hfg : ∀ s t value, Rearranged s t → f s value = g t value) (value : Json) :
    mapChildren root s f value = mapChildren root' t g value := by
  cases value with
  | obj members => exact congrArg Json.obj (mapDeclared_eq h hst hfg members)
  | arr items => exact congrArg Json.arr (mapItems_eq hst hfg items)
  | _ => rfl

end Stages

theorem coerceWithin_eq (h : Rearranged root root') (n : Nat) :
    ∀ s t value, Rearranged s t → coerceWithin root n s value = coerceWithin root' n t value := by
  induction n with
  | zero => exact fun _ _ _ _ => rfl
  | succ n ih =>
    intro s t value hst
    have hfold : ∀ {ms ms' : List Json}, List.Forall₂ Rearranged ms ms' → ∀ value,
        ms.foldl (fun value m => coerceWithin root n m value) value =
          ms'.foldl (fun value m => coerceWithin root' n m value) value := by
      intro ms ms' hms
      induction hms with
      | nil =>
        intro value
        rw [List.foldl_nil, List.foldl_nil]
      | cons hhead _ ihms =>
        intro value
        rw [List.foldl_cons, List.foldl_cons, ih _ _ value hhead, ihms]
    rw [coerceWithin, coerceWithin]
    rcases rel_cases (resolve_rel h hst) with ⟨ha, hb⟩ | ⟨s, t, ha, hb, hst⟩
    · rw [ha, hb]
    · rw [ha, hb]
      have hplain : mapChildren root s (coerceWithin root n) (coerceTo (declaredTypes s) value) =
          mapChildren root' t (coerceWithin root' n) (coerceTo (declaredTypes t) value) := by
        rw [declaredTypes_eq hst]
        exact mapChildren_eq h hst ih _
      have hshape := shape_rel hst
      dsimp only
      rw [hplain]
      generalize shape s = a, shape t = b, mapChildren root' t _ _ = plain at hshape ⊢
      cases hshape with
      | allOf hmembers => exact hfold hmembers value
      | _ => rfl

/-- **Coercion does not depend on the order of members.** -/
theorem coerce_eq (h : Rearranged root root') (hst : Rearranged s t) (value : Json) :
    coerce root s value = coerce root' t value :=
  coerceWithin_eq h levels s t value hst

theorem isRemovable_eq (h : Rearranged root root') {additional additional' : Option Json}
    (hadditional : Option.Rel Rearranged additional additional') (value : Json) :
    isRemovable root mode additional value = isRemovable root' mode additional' value := by
  cases hadditional with
  | none => cases mode <;> rfl
  | @some v w hvw =>
    -- a boolean has no members to rearrange
    have hfalse : (some v == some (Json.bool false)) = (some w == some (Json.bool false)) := by
      rw [Bool.eq_iff_iff, beq_iff_eq, beq_iff_eq, Option.some_inj, Option.some_inj]
      cases hvw.toCases <;> simp
    have htype : (resolve root v).bind primaryType = (resolve root' w).bind primaryType := by
      rcases rel_cases (resolve_rel h hvw) with ⟨ha, hb⟩ | ⟨s, t, ha, hb, hst⟩
      · rw [ha, hb]
      · rw [ha, hb, Option.bind_some, Option.bind_some, primaryType_eq hst]
    cases mode with
    | off => rfl
    | all => rfl
    | declared => exact hfalse
    | failing =>
      cases hvw.toCases with
      | same _ _ => cases v <;> simp only [isRemovable, htype]
      | arr _ => simp only [isRemovable, htype]
      | obj _ _ => simp only [isRemovable, htype]

theorem keepMembers_eq (h : Rearranged root root') (hst : Rearranged s t)
    (hknown : LookupRel known known') (members : Entries Json) :
    keepMembers root mode s known members = keepMembers root' mode t known' members := by
  have hadditional : Option.Rel Rearranged (s.get? "additionalProperties")
      (t.get? "additionalProperties") :=
    rel_imp (hst.get? "additionalProperties") fun _ _ hunder => hunder.1
  simp only [keepMembers, hknown.isEmpty_eq, hst.hasKey_eq, hknown.contains_eq,
    isRemovable_eq h hadditional]

theorem pruneWithin_eq (h : Rearranged root root') (n : Nat) :
    ∀ s t value, Rearranged s t → pruneWithin root mode n s value = pruneWithin root' mode n t value := by
  induction n with
  | zero => exact fun _ _ _ _ => rfl
  | succ n ih =>
    intro s t value hst
    rw [pruneWithin, pruneWithin]
    rcases rel_cases (resolve_rel h hst) with ⟨ha, hb⟩ | ⟨s, t, ha, hb, hst⟩
    · rw [ha, hb]
    · rw [ha, hb]
      cases value with
      | obj members =>
        dsimp only
        rw [keepMembers_eq h hst (get?_properties_rel h hst), mapDeclared_eq h hst ih]
      | arr items => exact congrArg Json.arr (mapItems_eq hst ih items)
      | _ => rfl

/-- **Pruning does not depend on the order of members.** -/
theorem prune_eq (h : Rearranged root root') (mode : RemoveAdditional) (value : Json) :
    prune mode root value = prune mode root' value := by
  rw [prune, prune, pruneWithin_eq h levels root root' value h]

theorem deserializeWithin_eq (options : Options) (h : Rearranged root root') (n : Nat) :
    ∀ s t value, Rearranged s t →
      deserializeWithin options root n s value = deserializeWithin options root' n t value := by
  induction n with
  | zero => exact fun _ _ _ _ => rfl
  | succ n ih =>
    intro s t value hst
    rw [deserializeWithin, deserializeWithin]
    rcases rel_cases (resolve_rel h hst) with ⟨ha, hb⟩ | ⟨s, t, ha, hb, hst⟩
    · rw [ha, hb]
    · rw [ha, hb]
      cases value with
      | str text => simp only [deserializeString, hst.getStr?_eq]
      | _ => exact mapChildren_eq h hst ih _

/-- **Deserializing does not depend on the order of members.** -/
theorem deserialize_eq (options : Options) (h : Rearranged root root') (hst : Rearranged s t)
    (value : Json) : deserialize options root s value = deserialize options root' t value :=
  deserializeWithin_eq options h levels s t value hst

end Schema

end RequestGate
