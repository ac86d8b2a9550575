import RequestGate.Proofs.Json.Extension
import RequestGate.Proofs.Schema.Supplied

/-!
# Filling extends a value

Along a path into a value a schema leads to the schemas of properties and of items
(`RequestGate.Schema.schemaAt?`). Filling in defaults extends a value, and what it adds in a place is the
default of the schema that the path leads to (`RequestGate.Schema.extends_fillWithin`).
-/

namespace RequestGate.Schema

open Json Entries

variable {root schema s sub value : Json} {declared members : Entries Json} {n : Nat}
  {f : Json → Json → Json} {supply : List Step → Option Json}

/-- The schema of the part that a step leads to. -/
def partSchema? (root schema : Json) (step : Step) : Option Json :=
  (resolve root schema).bind fun s =>
    match step with
    | .member name => property? root s name
    | .item _ => itemSchema? s

/-- The schema that a path leads to. -/
def schemaAt? (root : Json) : Json → List Step → Option Json
  | schema, [] => some schema
  | schema, step :: path => (partSchema? root schema step).bind fun sub => schemaAt? root sub path

/-- The default of the schema that a path leads to. -/
def defaultAt? (root schema : Json) (path : List Step) : Option Json :=
  (schemaAt? root schema path).bind (declaredDefault? root)

theorem partSchema?_member (hs : resolve root schema = some s) (name : String) :
    partSchema? root schema (.member name) = Entries.get? (properties root s) name := by
  rw [partSchema?, hs]
  exact rfl

theorem partSchema?_item (hs : resolve root schema = some s) (index : Nat) :
    partSchema? root schema (.item index) = itemSchema? s := by
  rw [partSchema?, hs, Option.bind_some]

theorem defaultAt?_cons (root schema : Json) (step : Step) (path : List Step) :
    defaultAt? root schema (step :: path) =
      (partSchema? root schema step).bind fun sub => defaultAt? root sub path := by
  rw [defaultAt?, schemaAt?, Option.bind_assoc]
  exact rfl

/-- Filling the properties of an object extends it, if filling extends their values. -/
theorem extends_fillProperties (hd : Distinct declared)
    (hsupply : ∀ name path, supply (.member name :: path) =
      (Entries.get? declared name).bind fun sub => defaultAt? root sub path)
    (hf : ∀ sub value : Json, value.Extends (defaultAt? root sub) (f sub value))
    (members : Entries Json) :
    (Json.obj members).Extends supply (.obj (declared.foldl (fillProperty root f) members)) := by
  refine extends_obj ?_ (fun name a ha => ?_) fun name d hmissing hd' => ?_
  · rw [keys_fillProperties hd]
    exact List.prefix_append _ _
  · rw [get?_fillProperties hd, ha]
    cases hsub : Entries.get? declared name with
    | none => exact ⟨a, rfl, .refl _ a⟩
    | some sub =>
      have hbelow : (fun path => supply (.member name :: path)) = defaultAt? root sub :=
        funext fun path => by rw [hsupply, hsub, Option.bind_some]
      exact ⟨f sub a, rfl, hbelow ▸ hf sub a⟩
  · -- a member that was missing can only have come from its own declaration
    rw [get?_fillProperties hd, hmissing] at hd'
    rw [hsupply]
    cases hsub : Entries.get? declared name with
    | none => rw [hsub] at hd'; cases hd'
    | some sub => rw [hsub] at hd'; exact hd'

/-- **Filling extends a value** by defaults of the schemas that govern the places where it puts them. -/
theorem extends_fillWithin (root : Json) : ∀ (n : Nat) (schema value : Json),
    value.Extends (defaultAt? root schema) (fillWithin root n schema value) := by
  intro n
  induction n with
  | zero => exact fun schema value => .refl _ value
  | succ n ih =>
    intro schema value
    cases hs : resolve root schema with
    | none =>
      rw [fillWithin_of_dangling hs]
      exact .refl _ value
    | some s =>
      rw [fillWithin_succ hs]
      cases value with
      | obj members =>
        refine extends_fillProperties (distinct_properties root s) (fun name path => ?_) ih members
        rw [defaultAt?_cons, partSchema?_member hs]
      | arr items =>
        rw [fillParts, mapItems]
        cases hsub : itemSchema? s with
        | none => exact .refl _ _
        | some sub =>
          refine extends_arr (fillWithin root n sub) fun index a _ => ?_
          -- below an item, the defaults are those of the schema of the items
          have hbelow : (fun path => defaultAt? root schema (.item index :: path)) =
              defaultAt? root sub :=
            funext fun path => by rw [defaultAt?_cons, partSchema?_item hs, hsub, Option.bind_some]
          exact hbelow ▸ ih sub a
      | _ => exact .refl _ _

end RequestGate.Schema
