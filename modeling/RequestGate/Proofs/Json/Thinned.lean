import Mathlib.Data.List.Forall2
import RequestGate.Entries
import RequestGate.Json.Basic

/-!
# Values with members taken out

`RequestGate.Json.Thinned` relates a value to one that has lost members of objects, at any depth, and
nothing else: what is left of an object is in its order, an array is as long as it was, and a scalar is
what it was.
-/

namespace RequestGate.Json

/-- Whether the second value is the first one without some members of the objects in it. -/
inductive Thinned : (before after : Json) → Prop where
  | same {value : Json} : Thinned value value
  | arr {items items' : List Json} (hitems : List.Forall₂ Thinned items items') :
      Thinned (.arr items) (.arr items')
  | obj {members kept members' : Entries Json} (hkept : kept.Sublist members)
      (hkeys : Entries.keys kept = Entries.keys members')
      (hvalues : List.Forall₂ Thinned (kept.map Prod.snd) (members'.map Prod.snd)) :
      Thinned (.obj members) (.obj members')

variable {items : List Json} {members kept : Entries Json}

/-- Thinning the items of an array thins the array. -/
theorem Thinned.map_items {f : Json → Json} (h : ∀ a ∈ items, Thinned a (f a)) :
    Thinned (.arr items) (.arr (items.map f)) :=
  .arr (List.forall₂_map_right_iff.mpr (List.forall₂_same.mpr h))

/-- Taking members out of an object, and thinning the others, thins the object. -/
theorem Thinned.map_members {f : String × Json → Json} (hkept : kept.Sublist members)
    (h : ∀ m ∈ kept, Thinned m.2 (f m)) :
    Thinned (.obj members) (.obj (kept.map fun m => (m.1, f m))) := by
  refine .obj hkept ?_ ?_
  · rw [Entries.keys, Entries.keys, List.map_map]
    rfl
  · rw [List.map_map, List.forall₂_map_left_iff, List.forall₂_map_right_iff]
    exact List.forall₂_same.mpr h

end RequestGate.Json
