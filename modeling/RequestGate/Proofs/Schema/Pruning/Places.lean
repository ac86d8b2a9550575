import RequestGate.Proofs.Schema.Components
import RequestGate.Proofs.Schema.Extension
import RequestGate.Proofs.Schema.Pruning.Modes

/-!
# What pruning does in one place

A path that a schema knows goes through declared members and through items, and none of those is ever
taken away. So it leads to the same place before and after pruning, and what stands there is pruned by
the schema that the path leads to, with as many levels less as the path is long
(`RequestGate.Schema.at?_pruneWithin`). What a mode removes from an object can therefore be said about
one object and its schema at a time: the object is within reach, and the mode takes the member
(`RequestGate.Schema.takes_of_removes`, `RequestGate.Schema.removes_of_takes`).
-/

namespace RequestGate

namespace Json

variable {value part : Json} {path : List Step}

/-- A value in which a path leads to a given part, and in which there is little else. -/
def along : List Step → Json → Json
  | [], part => part
  | .member name :: path, part => .obj [(name, along path part)]
  | .item index :: path, part => .arr (List.replicate index .null ++ [along path part])

@[simp] theorem at?_along (path : List Step) (part : Json) :
    (along path part).at? path = some part := by
  induction path with
  | nil => rfl
  | cons step path ih =>
    rw [at?_cons]
    cases step with
    | member name => simp [along, step?, Entries.get?_cons, ih]
    | item index => simp [along, step?, ih]

theorem wellFormed_along (path : List Step) (hpart : part.WellFormed) :
    (along path part).WellFormed := by
  induction path with
  | nil => exact hpart
  | cons step path ih =>
    cases step with
    | member name =>
      refine wellFormed_obj_iff.mpr ⟨List.nodup_singleton name, fun e he => ?_⟩
      obtain rfl := List.mem_singleton.mp he
      exact ih
    | item index =>
      refine wellFormedList_iff.mpr fun a ha => ?_
      rcases List.mem_append.mp ha with hnull | hlast
      · rw [List.eq_of_mem_replicate hnull]
        trivial
      · exact List.mem_singleton.mp hlast ▸ ih

theorem mem_children_of_step? {step : Step} (h : value.step? step = some part) :
    part ∈ value.children := by
  cases value with
  | obj members =>
    cases step with
    | member name => exact mem_children_of_get? h
    | item index => cases h
  | arr items =>
    cases step with
    | member name => cases h
    | item index => exact List.mem_of_getElem? h
  | _ => cases step <;> cases h

/-- What a path leads to is as well formed as the whole. -/
theorem WellFormed.at? (hvalue : value.WellFormed) (h : value.at? path = some part) :
    part.WellFormed := by
  induction path generalizing value with
  | nil => exact Option.some.inj h ▸ hvalue
  | cons step path ih =>
    obtain ⟨next, hnext, h⟩ := Option.bind_eq_some_iff.mp h
    exact ih (hvalue.of_mem_children (mem_children_of_step? hnext)) h

theorem at?_concat (value : Json) (path : List Step) (name : String) :
    value.at? (path ++ [.member name]) = (value.at? path).bind fun a => a.get? name := by
  rw [at?_append]
  refine congrArg _ (funext fun a => ?_)
  rw [at?_cons]
  cases a <;> exact Option.bind_fun_some _

end Json

namespace Schema

open Json

variable {root schema s sub value a : Json} {mode : RemoveAdditional} {members : Entries Json}
  {table : Entries Json} {f : Json → Json → Json} {step : Step} {path : List Step} {name : String}
  {n : Nat}

/-- The schema that governs what a path leads to: the one that it leads to in turn, with references
followed. -/
def governing? (root schema : Json) (path : List Step) : Option Json :=
  (schemaAt? root schema path).bind (resolve root)

theorem governing?_nil (hs : resolve root schema = some s) : governing? root schema [] = some s := hs

theorem governing?_cons (root schema : Json) (step : Step) (path : List Step) :
    governing? root schema (step :: path) =
      (partSchema? root schema step).bind fun part => governing? root part path := by
  rw [governing?, schemaAt?, Option.bind_assoc]
  exact rfl

/-- A schema and the one that it stands for know the same of a value. -/
theorem partSchema?_resolve (hs : resolve root schema = some s) (step : Step) :
    partSchema? root s step = partSchema? root schema step := by
  rw [partSchema?, partSchema?, hs, resolve_of_none (reference?_of_follow hs)]

theorem governing?_resolve (hs : resolve root schema = some s) (path : List Step) :
    governing? root s path = governing? root schema path := by
  cases path with
  | nil => exact (resolve_of_none (reference?_of_follow hs)).trans hs.symm
  | cons step path => rw [governing?_cons, governing?_cons, partSchema?_resolve hs]

/-! ### Properties in plain sight -/

/-- Whether nothing in a schema hides its properties: no composition, and no type but that of an
object. -/
structure Unhidden (s : Json) : Prop where
  whole : ∀ keyword ∈ ["allOf", "oneOf", "anyOf"], s.getArr? keyword = none
  object : primaryType s = some "object" ∨ primaryType s = none

theorem hasKey_of_getObj? {key : String} (h : s.getObj? key = some table) : s.hasKey key = true := by
  rw [Json.hasKey, Json.get?_of_getObj? h]
  rfl

theorem Unhidden.shape (h : Unhidden s) (href : reference? s = none)
    (htable : s.getObj? "properties" = some table) : shape s = .object (some table) := by
  have hkey := hasKey_of_getObj? htable
  rw [Schema.shape, href]
  simp only [h.whole "allOf" (by simp), h.whole "oneOf" (by simp), h.whole "anyOf" (by simp)]
  rw [plainShape]
  rcases h.object with htype | htype <;> simp [htype, hkey, htable]

/-! ### Parts of the root -/

theorem mem_subvalues_of_target? {reference : String} (h : target? root reference = some s) :
    s ∈ root.subvalues := by
  rw [target?] at h
  split at h
  · rw [Pointer.lookup?] at h
    split at h
    · exact Option.some.inj h ▸ mem_subvalues_self root
    · exact mem_subvalues_of_foldlM h
    · cases h
  · cases h

theorem mem_subvalues_of_follow (hschema : schema ∈ root.subvalues)
    (h : follow root n schema = some s) : s ∈ root.subvalues := by
  induction n generalizing schema with
  | zero => cases h
  | succ n ih =>
    rw [follow] at h
    split at h
    · obtain ⟨next, hnext, h⟩ := Option.bind_eq_some_iff.mp h
      exact ih (mem_subvalues_of_target? hnext) h
    · exact Option.some.inj h ▸ hschema

theorem mem_subvalues_of_mem_properties (hschema : schema ∈ root.subvalues) :
    ∀ e ∈ properties root schema, e.2 ∈ root.subvalues := by
  refine collectProperties_induction (P := fun known => ∀ e ∈ known, e.2 ∈ root.subvalues)
    (Q := (· ∈ root.subvalues)) ?_ (fun _ _ => mem_subvalues_of_follow) ?_ hschema (by simp)
  · intro s table known hs hshape hknown e he
    refine (mem_addNew he).elim (hknown e) fun he => ?_
    have htable := mem_subvalues_of_get? hs (get?_of_getObj? (getObj?_of_shape hshape))
    exact mem_subvalues_of_mem_children htable (List.mem_map_of_mem (f := Prod.snd) he)
  · intro s t hs ht
    obtain ⟨keyword, -, schemas, hget, hmem⟩ := exists_keyword_of_mem_members ht
    exact mem_subvalues_of_mem_children (mem_subvalues_of_get? hs (get?_of_getArr? hget)) hmem

theorem mem_subvalues_of_partSchema? (hschema : schema ∈ root.subvalues)
    (h : partSchema? root schema step = some sub) : sub ∈ root.subvalues := by
  obtain ⟨s, hs, h⟩ := Option.bind_eq_some_iff.mp h
  have hmem := mem_subvalues_of_follow hschema hs
  cases step with
  | member name => exact mem_subvalues_of_mem_properties hmem _ (Entries.mem_of_get? h)
  | item index => exact mem_subvalues_of_get? hmem (Option.filter_eq_some_iff.mp h).1

/-- A property that goes over from a schema to its parts holds of all schemas that paths lead to. -/
theorem schemaAt?_induction {P : Json → Prop} (hschema : P schema)
    (hpart : ∀ schema step part, P schema → partSchema? root schema step = some part → P part)
    (h : schemaAt? root schema path = some sub) : P sub := by
  induction path generalizing schema with
  | nil => exact Option.some.inj h ▸ hschema
  | cons step path ih =>
    obtain ⟨next, hnext, h⟩ := Option.bind_eq_some_iff.mp h
    exact ih (hpart schema step next hschema hnext) h

/-- **What governs a place is part of the root.** -/
theorem mem_subvalues_of_governing? (hschema : schema ∈ root.subvalues)
    (h : governing? root schema path = some s) : s ∈ root.subvalues := by
  obtain ⟨sub, hsub, hs⟩ := Option.bind_eq_some_iff.mp h
  have hmem : sub ∈ root.subvalues :=
    schemaAt?_induction hschema (fun _ _ _ => mem_subvalues_of_partSchema?) hsub
  exact mem_subvalues_of_follow hmem hs

/-! ### Along a path -/

theorem get?_filter_of_declared (hname : name ∈ Entries.keys (properties root s)) :
    Entries.get? (members.filter fun m => ¬ Takes root mode s m) name = Entries.get? members name :=
  Entries.get?_filter_of_forall fun _ => decide_eq_true fun htakes => htakes.undeclared hname

/-- What a schema knows of a value is pruned by what the schema has for it. -/
theorem step?_pruneParts (hs : resolve root schema = some s)
    (hsub : partSchema? root schema step = some sub) :
    (pruneParts root mode s f value).step? step = (value.step? step).map (f sub) := by
  cases step with
  | member name =>
    rw [partSchema?_member hs] at hsub
    cases value with
    | obj members =>
      have hdeclared := mem_keys_of_property? hsub
      rw [pruneParts, step?, get?_mapDeclared, get?_filter_of_declared hdeclared, hsub]
      rfl
    | _ => rfl
  | item index =>
    rw [partSchema?_item hs] at hsub
    cases value with
    | arr items =>
      rw [pruneParts, mapItems, hsub]
      exact List.getElem?_map
    | _ => rfl

/-- **A path leads to the same place before and after pruning**, and what stands there is pruned by the
schema that the path leads to. -/
theorem at?_pruneWithin (hsub : schemaAt? root schema path = some sub) :
    (pruneWithin root mode n schema value).at? path =
      (value.at? path).map (pruneWithin root mode (n - path.length) sub) := by
  induction path generalizing n schema value with
  | nil =>
    obtain rfl := Option.some.inj hsub
    rfl
  | cons step path ih =>
    obtain ⟨next, hnext, hsub⟩ := Option.bind_eq_some_iff.mp hsub
    obtain ⟨s, hs, -⟩ := Option.bind_eq_some_iff.mp hnext
    cases n with
    | zero =>
      rw [Nat.zero_sub]
      exact Option.map_id'.symm
    | succ n =>
      rw [pruneWithin_succ hs, at?_cons, at?_cons, step?_pruneParts hs hnext, List.length_cons,
        Nat.succ_sub_succ]
      cases value.step? step with
      | none => rfl
      | some next => exact ih hsub

theorem wellFormed_pruneWithin (n : Nat) : ∀ {schema value : Json}, value.WellFormed →
    (pruneWithin root mode n schema value).WellFormed := by
  induction n with
  | zero => exact fun h => h
  | succ n ih =>
    intro schema value hvalue
    cases hs : resolve root schema with
    | none => rwa [pruneWithin_of_dangling hs]
    | some s =>
      rw [pruneWithin_succ hs]
      cases value with
      | obj members =>
        refine wellFormed_mapDeclared (wellFormed_obj_iff.mpr ⟨?_, fun e he => ?_⟩) fun sub a => ih
        · exact (List.filter_sublist.map Prod.fst).nodup hvalue.1
        · exact wellFormedMembers_iff.mp hvalue.2 e (List.mem_of_mem_filter he)
      | arr items => exact wellFormed_mapItems hvalue fun sub _ a => ih
      | _ => exact hvalue

/-- **A well-formed value stays well formed.** -/
theorem wellFormed_prune (mode : RemoveAdditional) (schema : Json) (hvalue : value.WellFormed) :
    (prune mode schema value).WellFormed :=
  prune_eq_pruneWithin mode schema value ▸ wellFormed_pruneWithin levels hvalue

/-- What stands in a place that pruning reaches. -/
theorem at?_prune (hs : governing? schema schema path = some s) (hlength : path.length ≤ maxHops) :
    (prune mode schema value).at? path =
      (value.at? path).map
        (pruneParts schema mode s (pruneWithin schema mode (maxHops - path.length))) := by
  obtain ⟨sub, hsub, hs⟩ := Option.bind_eq_some_iff.mp hs
  have hlevels : levels - path.length = maxHops - path.length + 1 := by
    rw [levels]
    omega
  rw [prune_eq_pruneWithin, at?_pruneWithin hsub, hlevels]
  exact congrArg (Option.map · _) (funext fun a => pruneWithin_succ hs a)

/-- What stands deeper is left as it is. -/
theorem at?_prune_of_deep (hs : governing? schema schema path = some s)
    (hlength : maxHops < path.length) (mode : RemoveAdditional) (value : Json) :
    (prune mode schema value).at? path = value.at? path := by
  obtain ⟨sub, hsub, -⟩ := Option.bind_eq_some_iff.mp hs
  have hlevels : levels - path.length = 0 := by
    rw [levels]
    omega
  rw [prune_eq_pruneWithin, at?_pruneWithin hsub, hlevels]
  exact Option.map_id'

/-! ### What is removed -/

/-- Whether a mode removes what a path leads to: it is there, and not any more after pruning. -/
def Removes (mode : RemoveAdditional) (schema value : Json) (path : List Step) : Prop :=
  (value.at? path).isSome ∧ (prune mode schema value).at? path = none

theorem takes_of_get?_pruneParts (hgone : (pruneParts root mode s f (.obj members)).get? name = none)
    (ha : Entries.get? members name = some a) : Takes root mode s (name, a) := by
  rw [pruneParts, get?_obj, get?_mapDeclared, Option.map_eq_none_iff, Entries.get?_eq_none_iff] at hgone
  refine not_not.mp fun hkept => hgone ?_
  exact List.mem_map_of_mem (f := Prod.fst)
    (List.mem_filter.mpr ⟨Entries.mem_of_get? ha, decide_eq_true hkept⟩)

theorem get?_pruneParts_of_takes (hd : Entries.Distinct members)
    (htakes : ∀ a, Entries.get? members name = some a → Takes root mode s (name, a)) :
    (pruneParts root mode s f (.obj members)).get? name = none := by
  rw [pruneParts, get?_obj, get?_mapDeclared, Option.map_eq_none_iff, Entries.get?_eq_none_iff]
  intro hmem
  obtain ⟨⟨key, a⟩, hm, rfl⟩ := List.mem_map.mp hmem
  obtain ⟨hm, hkept⟩ := List.mem_filter.mp hm
  exact of_decide_eq_true hkept (htakes a (Entries.get?_of_mem hd hm))

/-- **What is removed was taken** by the schema that governs the object, which pruning has got to. -/
theorem takes_of_removes (hs : governing? schema schema path = some s)
    (h : Removes mode schema value (path ++ [.member name])) :
    path.length ≤ maxHops ∧
      ∃ a, value.at? (path ++ [.member name]) = some a ∧ Takes schema mode s (name, a) := by
  obtain ⟨hsome, hnone⟩ := h
  have hlength : path.length ≤ maxHops := by
    by_contra hdeep
    rw [at?_concat, at?_prune_of_deep hs (Nat.lt_of_not_le hdeep), ← at?_concat] at hnone
    rw [hnone] at hsome
    cases hsome
  refine ⟨hlength, ?_⟩
  obtain ⟨a, ha⟩ := Option.isSome_iff_exists.mp hsome
  refine ⟨a, ha, ?_⟩
  rw [at?_concat] at ha hnone
  obtain ⟨b, hb, ha⟩ := Option.bind_eq_some_iff.mp ha
  rw [at?_prune hs hlength, hb, Option.map_some, Option.bind_some] at hnone
  cases b with
  | obj members => exact takes_of_get?_pruneParts hnone ha
  | _ => cases ha

/-- **What is taken is removed**, if pruning gets to it. -/
theorem removes_of_takes (hvalue : value.WellFormed) (hs : governing? schema schema path = some s)
    (hlength : path.length ≤ maxHops) (ha : value.at? (path ++ [.member name]) = some a)
    (htakes : Takes schema mode s (name, a)) :
    Removes mode schema value (path ++ [.member name]) := by
  refine ⟨by rw [ha]; rfl, ?_⟩
  rw [at?_concat] at ha ⊢
  obtain ⟨b, hb, ha⟩ := Option.bind_eq_some_iff.mp ha
  rw [at?_prune hs hlength, hb, Option.map_some, Option.bind_some]
  cases b with
  | obj members =>
    refine get?_pruneParts_of_takes (hvalue.at? hb).1 fun a' ha' => ?_
    obtain rfl := Option.some.inj (ha.symm.trans ha')
    exact htakes
  | _ => cases ha

end Schema

end RequestGate
