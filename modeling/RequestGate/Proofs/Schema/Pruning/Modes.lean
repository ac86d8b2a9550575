import Mathlib.Data.Nat.Basic
import Mathlib.Order.Lattice
import RequestGate.Proofs.Entries
import RequestGate.Proofs.Json.Thinned
import RequestGate.Schema.Prune

/-!
# What the modes of pruning have in common

Pruning takes members of objects and nothing else, so what is left is a thinned value
(`RequestGate.Schema.thinned_prune`). Which members go is decided one by one
(`RequestGate.Schema.Takes`), and by things that the other members have no part in: a member that can go
is not declared, and what is not declared is not pruned inside. A stricter mode takes all that a milder
one does. So two prunings are one, in the stricter of their modes (`RequestGate.Schema.prune_prune`), and
everything about the order of the modes follows from that.
-/

namespace RequestGate

namespace RemoveAdditional

/-- How strict a mode is. -/
def rank : RemoveAdditional → Nat
  | off => 0
  | declared => 1
  | failing => 2
  | all => 3

theorem rank_injective : Function.Injective rank := by
  intro a b h
  cases a <;> cases b <;> first | rfl | cases h

/-- Modes are ordered by what they remove. -/
instance : LinearOrder RemoveAdditional := LinearOrder.lift' rank rank_injective

end RemoveAdditional

namespace Schema

open Json

variable {root schema s sub value a : Json} {mode other : RemoveAdditional}
  {members : Entries Json} {items : List Json} {f g h : Json → Json → Json} {name : String} {n : Nat}

/-! ### One object -/

/-- Whether pruning goes by the properties of a schema: there are some, or a place for them, and there
are no patterns. -/
structure Consulted (root schema : Json) : Prop where
  properties : properties root schema ≠ [] ∨ schema.hasKey "properties" = true
  noPatterns : schema.hasKey "patternProperties" = false

instance : Decidable (Consulted root schema) :=
  decidable_of_iff
    ((Schema.properties root schema ≠ [] ∨ schema.hasKey "properties" = true) ∧
      schema.hasKey "patternProperties" = false)
    ⟨fun h => ⟨h.1, h.2⟩, fun h => ⟨h.1, h.2⟩⟩

/-- Whether a mode takes a member away from an object with this schema. -/
structure Takes (root : Json) (mode : RemoveAdditional) (schema : Json) (m : String × Json) : Prop where
  consulted : Consulted root schema
  undeclared : m.1 ∉ Entries.keys (properties root schema)
  removable : isRemovable root mode (schema.get? "additionalProperties") m.2 = true

instance (m : String × Json) : Decidable (Takes root mode schema m) :=
  decidable_of_iff
    (Consulted root schema ∧ m.1 ∉ Entries.keys (properties root schema) ∧
      isRemovable root mode (schema.get? "additionalProperties") m.2 = true)
    ⟨fun h => ⟨h.1, h.2.1, h.2.2⟩, fun h => ⟨h.1, h.2, h.3⟩⟩

theorem isConsulted_iff :
    ((!(properties root schema).isEmpty || schema.hasKey "properties") &&
      !schema.hasKey "patternProperties") = true ↔ Consulted root schema := by
  rw [Bool.and_eq_true, Bool.or_eq_true, Bool.not_eq_true', Bool.not_eq_true', ← Bool.not_eq_true,
    List.isEmpty_iff]
  exact ⟨fun h => ⟨h.1, h.2⟩, fun h => ⟨h.1, h.2⟩⟩

/-- **What a mode leaves of an object**: the members that it does not take. -/
theorem keepMembers_properties (root : Json) (mode : RemoveAdditional) (schema : Json)
    (members : Entries Json) :
    keepMembers root mode schema (properties root schema) members =
      members.filter fun m => ¬ Takes root mode schema m := by
  rw [keepMembers]
  split
  · rename_i hconsulted
    rw [isConsulted_iff] at hconsulted
    refine List.filter_congr fun m _ => ?_
    have hiff : (Entries.contains (properties root schema) m.1 ||
        !isRemovable root mode (schema.get? "additionalProperties") m.2) = true ↔
          ¬ Takes root mode schema m := by
      rw [Bool.or_eq_true, Entries.contains_iff, Bool.not_eq_true', ← Bool.not_eq_true,
        ← not_not (a := m.1 ∈ Entries.keys (properties root schema)), ← not_and_or, not_iff_not]
      exact ⟨fun h => ⟨hconsulted, h.1, h.2⟩, fun h => ⟨h.undeclared, h.removable⟩⟩
    rw [Bool.eq_iff_iff, hiff, decide_eq_true_iff]
  · rename_i hnot
    rw [isConsulted_iff] at hnot
    refine (List.filter_eq_self.mpr fun m _ => ?_).symm
    exact decide_eq_true fun htakes => hnot htakes.consulted

theorem not_takes_off (m : String × Json) : ¬ Takes root .off schema m := by
  intro htakes
  cases htakes.removable

/-! ### The order of the modes -/

/-- What a mode removes, a stricter one does too. -/
theorem isRemovable_mono {additional : Option Json} (hle : mode ≤ other)
    (hremovable : isRemovable root mode additional value = true) :
    isRemovable root other additional value = true := by
  have hrank : mode.rank ≤ other.rank := hle
  cases mode with
  | off => cases hremovable
  | declared =>
    -- what is closed is closed to failing values too
    obtain rfl := beq_iff_eq.mp hremovable
    cases other with
    | off => exact absurd hrank (by decide)
    | _ => rfl
  | failing =>
    cases other with
    | failing => exact hremovable
    | all => rfl
    | _ => exact absurd hrank (by decide)
  | all =>
    cases other with
    | all => rfl
    | _ => exact absurd hrank (by decide)

theorem Takes.mono {m : String × Json} (hle : mode ≤ other) (htakes : Takes root mode schema m) :
    Takes root other schema m :=
  ⟨htakes.consulted, htakes.undeclared, isRemovable_mono hle htakes.removable⟩

/-- The stricter of two modes takes what either of them does. -/
theorem takes_max_iff {m : String × Json} :
    Takes root (max mode other) schema m ↔ Takes root mode schema m ∨ Takes root other schema m := by
  rcases le_total mode other with hle | hle
  · rw [max_eq_right hle]
    exact ⟨Or.inr, fun htakes => htakes.elim (.mono hle) id⟩
  · rw [max_eq_left hle]
    exact ⟨Or.inl, fun htakes => htakes.elim id (.mono hle)⟩

/-! ### One level -/

theorem mem_keys_of_property? (h : property? root s name = some sub) :
    name ∈ Entries.keys (properties root s) := by
  rw [← Entries.contains_iff, Entries.contains]
  exact Option.isSome_iff_exists.mpr ⟨sub, h⟩

/-- The part of an object, by the schema of its property if it has one. -/
theorem mapDeclared_eq_map (f : Json → Json → Json) (members : Entries Json) :
    mapDeclared root schema f members =
      members.map fun m => (m.1, (property? root schema m.1).elim m.2 fun sub => f sub m.2) := by
  refine List.map_congr_left fun m _ => ?_
  rw [property?]
  cases hsub : Entries.get? (properties root schema) m.1 <;> simp only [hsub] <;> rfl

theorem get?_mapDeclared (f : Json → Json → Json) (members : Entries Json) (name : String) :
    Entries.get? (mapDeclared root schema f members) name =
      (Entries.get? members name).map fun a =>
        match Entries.get? (properties root schema) name with
        | some sub => f sub a
        | none => a := by
  rw [mapDeclared_eq_map]
  induction members with
  | nil => rfl
  | cons m members ih =>
    obtain ⟨key, a⟩ := m
    rw [List.map_cons, Entries.get?_cons, Entries.get?_cons]
    split
    · rename_i hkey
      subst hkey
      rw [property?]
      cases Entries.get? (properties root schema) key <;> rfl
    · exact ih

theorem mapDeclared_mapDeclared (hf : ∀ sub a, f sub (g sub a) = h sub a) (members : Entries Json) :
    mapDeclared root schema f (mapDeclared root schema g members) = mapDeclared root schema h members := by
  rw [mapDeclared_eq_map, mapDeclared_eq_map, mapDeclared_eq_map, List.map_map]
  refine List.map_congr_left fun m _ => ?_
  rw [Function.comp_apply]
  cases property? root schema m.1 with
  | none => rfl
  | some sub => exact congrArg (Prod.mk m.1) (hf sub m.2)

theorem mapItems_mapItems (hf : ∀ sub a, f sub (g sub a) = h sub a) (items : List Json) :
    mapItems schema f (mapItems schema g items) = mapItems schema h items := by
  rw [mapItems, mapItems, mapItems]
  cases itemSchema? schema with
  | none => rfl
  | some sub => exact List.map_map.trans (List.map_congr_left fun a _ => hf sub a)

theorem mapDeclared_eq_self
    (hf : ∀ m ∈ members, ∀ sub, Entries.get? (properties root schema) m.1 = some sub →
      f sub m.2 = m.2) : mapDeclared root schema f members = members := by
  refine (List.map_congr_left fun m hm => ?_).trans (List.map_id members)
  cases hget : Entries.get? (properties root schema) m.1 with
  | none => simp only [hget, id]
  | some sub => simp only [hget, hf m hm sub hget, id]

theorem mapItems_eq_self
    (hf : ∀ a ∈ items, ∀ sub, itemSchema? schema = some sub → f sub a = a) :
    mapItems schema f items = items := by
  rw [mapItems]
  cases hsub : itemSchema? schema with
  | none => rfl
  | some sub => exact (List.map_congr_left fun a ha => hf a ha sub hsub).trans (List.map_id items)

/-- What can be taken is not declared, so it is the same member before and after the declared ones have
been changed. -/
theorem filter_mapDeclared (f : Json → Json → Json) (members : Entries Json) :
    (mapDeclared root schema f members).filter (fun m => ¬ Takes root mode schema m) =
      mapDeclared root schema f (members.filter fun m => ¬ Takes root mode schema m) := by
  rw [mapDeclared_eq_map, mapDeclared_eq_map, List.filter_map]
  refine congrArg (List.map _) (List.filter_congr fun m _ => ?_)
  rw [Function.comp_apply, decide_eq_decide, not_iff_not]
  cases hsub : property? root schema m.1 with
  | none => rfl
  | some sub =>
    have hdeclared := mem_keys_of_property? hsub
    exact iff_of_false (fun htakes => htakes.undeclared hdeclared) fun htakes =>
      htakes.undeclared hdeclared

/-- A value without the members that a mode takes from it, and with what is left pruned by a function,
after the schema that it stands under. -/
def pruneParts (root : Json) (mode : RemoveAdditional) (schema : Json) (f : Json → Json → Json) :
    Json → Json
  | .obj members =>
    .obj (mapDeclared root schema f (members.filter fun m => ¬ Takes root mode schema m))
  | .arr items => .arr (mapItems schema f items)
  | value => value

theorem pruneWithin_succ (hs : resolve root schema = some s) (value : Json) :
    pruneWithin root mode (n + 1) schema value =
      pruneParts root mode s (pruneWithin root mode n) value := by
  rw [pruneWithin, hs]
  cases value with
  | obj members => rw [pruneParts, ← keepMembers_properties]
  | _ => rfl

theorem pruneWithin_of_dangling (hs : resolve root schema = none) (value : Json) :
    pruneWithin root mode n schema value = value := by
  cases n with
  | zero => rfl
  | succ n => rw [pruneWithin, hs]

theorem pruneParts_pruneParts (hf : ∀ sub a, f sub (g sub a) = h sub a) (value : Json) :
    pruneParts root mode schema f (pruneParts root other schema g value) =
      pruneParts root (max mode other) schema h value := by
  cases value with
  | obj members =>
    refine congrArg Json.obj ?_
    rw [filter_mapDeclared, mapDeclared_mapDeclared hf, List.filter_filter]
    refine congrArg _ (List.filter_congr fun m _ => ?_)
    rw [← Bool.decide_and, decide_eq_decide, takes_max_iff, not_or]
  | arr items => exact congrArg Json.arr (mapItems_mapItems hf items)
  | _ => rfl

theorem thinned_pruneParts (hf : ∀ sub a, Thinned a (f sub a)) (value : Json) :
    Thinned value (pruneParts root mode schema f value) := by
  cases value with
  | obj members =>
    rw [pruneParts, mapDeclared_eq_map]
    refine .map_members List.filter_sublist fun m _ => ?_
    cases property? root schema m.1 with
    | none => exact .same
    | some sub => exact hf sub m.2
  | arr items =>
    rw [pruneParts, mapItems]
    cases itemSchema? schema with
    | none => exact .same
    | some sub => exact .map_items fun a _ => hf sub a
  | _ => exact .same

/-! ### All levels -/

/-- Nothing is removed unless a mode asks for it. -/
theorem pruneWithin_off (n : Nat) : ∀ schema value : Json,
    pruneWithin root .off n schema value = value := by
  induction n with
  | zero => exact fun _ _ => rfl
  | succ n ih =>
    intro schema value
    cases hs : resolve root schema with
    | none => exact pruneWithin_of_dangling hs value
    | some s =>
      rw [pruneWithin_succ hs]
      cases value with
      | obj members =>
        have hall : (members.filter fun m => ¬ Takes root .off s m) = members :=
          List.filter_eq_self.mpr fun m _ => decide_eq_true (not_takes_off m)
        rw [pruneParts, hall, mapDeclared_eq_self fun m _ sub _ => ih sub m.2]
      | arr items => exact congrArg Json.arr (mapItems_eq_self fun a _ sub _ => ih sub a)
      | _ => rfl

/-- Two prunings are one, in the stricter mode. -/
theorem pruneWithin_pruneWithin (n : Nat) : ∀ schema value : Json,
    pruneWithin root mode n schema (pruneWithin root other n schema value) =
      pruneWithin root (max mode other) n schema value := by
  induction n with
  | zero => exact fun _ _ => rfl
  | succ n ih =>
    intro schema value
    cases hs : resolve root schema with
    | none => simp only [pruneWithin_of_dangling hs]
    | some s =>
      rw [pruneWithin_succ hs, pruneWithin_succ hs, pruneWithin_succ hs]
      exact pruneParts_pruneParts ih value

theorem thinned_pruneWithin (n : Nat) : ∀ schema value : Json,
    Thinned value (pruneWithin root mode n schema value) := by
  induction n with
  | zero => exact fun _ _ => .same
  | succ n ih =>
    intro schema value
    cases hs : resolve root schema with
    | none =>
      rw [pruneWithin_of_dangling hs]
      exact .same
    | some s =>
      rw [pruneWithin_succ hs]
      exact thinned_pruneParts ih value

theorem prune_eq_pruneWithin (mode : RemoveAdditional) (schema value : Json) :
    prune mode schema value = pruneWithin schema mode levels schema value := by
  rw [prune]
  split
  · rename_i hoff
    rw [hoff, pruneWithin_off]
  · rfl

/-- **Pruning only takes members away.** -/
theorem thinned_prune (mode : RemoveAdditional) (schema value : Json) :
    Thinned value (prune mode schema value) :=
  prune_eq_pruneWithin mode schema value ▸ thinned_pruneWithin levels schema value

/-- **Two prunings are one**, in the stricter of their modes. -/
theorem prune_prune (mode other : RemoveAdditional) (schema value : Json) :
    prune mode schema (prune other schema value) = prune (max mode other) schema value := by
  simp only [prune_eq_pruneWithin, pruneWithin_pruneWithin]

/-- What a stricter mode leaves is a thinned version of what a milder one does. -/
theorem thinned_prune_of_le (hle : mode ≤ other) (schema value : Json) :
    Thinned (prune mode schema value) (prune other schema value) := by
  have honce := prune_prune other mode schema value
  rw [max_eq_left hle] at honce
  exact honce ▸ thinned_prune other schema (prune mode schema value)

/-- **Pruning only takes members away, and nothing twice; its modes form a chain.** -/
theorem prune_chain (schema value : Json) :
    (∀ mode, Thinned value (prune mode schema value)) ∧
    (∀ mode, prune mode schema (prune mode schema value) = prune mode schema value) ∧
    prune .off schema value = value ∧
    Thinned value (prune .declared schema value) ∧
    Thinned (prune .declared schema value) (prune .failing schema value) ∧
    Thinned (prune .failing schema value) (prune .all schema value) := by
  refine ⟨fun mode => thinned_prune mode schema value, fun mode => ?_, rfl,
    thinned_prune .declared schema value, thinned_prune_of_le ?_ schema value,
    thinned_prune_of_le ?_ schema value⟩
  · rw [prune_prune, max_self]
  · exact (show RemoveAdditional.rank .declared ≤ RemoveAdditional.rank .failing by decide)
  · exact (show RemoveAdditional.rank .failing ≤ RemoveAdditional.rank .all by decide)

end Schema

end RequestGate
