import RequestGate.Json.Basic

/-!
# Values that extend others

A path leads into a value by names and indices (`RequestGate.Json.at?`). One value extends another if all
that a path leads to in the smaller one is still there in the larger one: scalars as they are, arrays as
long as they were, objects with their names in front. What the larger one has beyond that is accounted
for by a *supply*, which says for every path what may be put in there. It is asked only for the topmost
new members, since what is put in is put in as a whole (`RequestGate.Json.Extends`).
-/

namespace RequestGate.Json

open Entries

/-- One step down into a value. -/
inductive Step where
  | member (name : String)
  | item (index : Nat)
deriving DecidableEq

/-- The part of a value that a step leads to. -/
def step? : Json → Step → Option Json
  | .obj members, .member name => Entries.get? members name
  | .arr items, .item index => items[index]?
  | _, _ => none

/-- The value that a path leads to. -/
def at? : Json → List Step → Option Json
  | value, [] => some value
  | value, step :: path => (value.step? step).bind fun part => part.at? path

variable {before after a b d : Json} {members members' : Entries Json} {items items' : List Json}
  {supply : List Step → Option Json} {path : List Step} {step : Step} {name : String}

theorem at?_cons (value : Json) (step : Step) (path : List Step) :
    value.at? (step :: path) = (value.step? step).bind fun part => part.at? path := rfl

theorem at?_append (value : Json) (path rest : List Step) :
    value.at? (path ++ rest) = (value.at? path).bind fun part => part.at? rest := by
  induction path generalizing value with
  | nil => rfl
  | cons step path ih =>
    rw [List.cons_append, at?_cons, at?_cons, Option.bind_assoc]
    exact congrArg _ (funext ih)

/-- The member of an object that a path leads to. -/
theorem at?_member (h : before.at? path = some (.obj members)) (name : String) :
    before.at? (path ++ [.member name]) = Entries.get? members name := by
  rw [at?_append, h, Option.bind_some]
  exact Option.bind_fun_some _

/-- Whether two values are the same but for what their parts are, and for members that the second one
has behind those of the first. -/
def SameFrame : Json → Json → Prop
  | .arr items, .arr items' => items.length = items'.length
  | .obj members, .obj members' => keys members <+: keys members'
  | a, b => a = b

@[simp] theorem SameFrame.refl (value : Json) : SameFrame value value := by
  cases value with
  | arr items => exact rfl
  | obj members => exact List.prefix_refl _
  | _ => exact rfl

/-- Whether a value has all that another one has, in the same places, and beyond that only members that
are supplied. -/
structure Extends (supply : List Step → Option Json) (before after : Json) : Prop where
  /-- Whatever was there still is. -/
  kept : ∀ path a, before.at? path = some a → ∃ b, after.at? path = some b ∧ SameFrame a b
  /-- A member that an object has got is the one that is supplied in its place. -/
  added : ∀ path members name d, before.at? path = some (.obj members) →
    Entries.get? members name = none → after.at? (path ++ [.member name]) = some d →
      supply (path ++ [.member name]) = some d

theorem Extends.refl (supply : List Step → Option Json) (value : Json) : value.Extends supply value where
  kept _ a ha := ⟨a, ha, .refl a⟩
  added path members name d hmembers hmissing hd := by
    rw [at?_member hmembers, hmissing] at hd
    cases hd

/-- A value that is made of extended parts, in the same frame, is extended. -/
theorem extends_of_parts (hframe : SameFrame before after)
    (hkept : ∀ step a, before.step? step = some a →
      ∃ b, after.step? step = some b ∧ a.Extends (fun path => supply (step :: path)) b)
    (hadded : ∀ members name d, before = .obj members → Entries.get? members name = none →
      after.step? (.member name) = some d → supply [.member name] = some d) :
    before.Extends supply after where
  -- a path is empty or goes on from a part, for what is kept as for what is added
  kept path a ha := by
    cases path with
    | nil => exact ⟨after, rfl, Option.some.inj ha ▸ hframe⟩
    | cons step path =>
      obtain ⟨part, hpart, ha⟩ := Option.bind_eq_some_iff.mp ha
      obtain ⟨part', hpart', hextends⟩ := hkept step part hpart
      obtain ⟨b, hb, hsame⟩ := hextends.kept path a ha
      exact ⟨b, Option.bind_eq_some_iff.mpr ⟨part', hpart', hb⟩, hsame⟩
  added path members name d hmembers hmissing hd := by
    cases path with
    | nil =>
      refine hadded members name d (Option.some.inj hmembers) hmissing ?_
      obtain ⟨part, hpart, hsome⟩ := Option.bind_eq_some_iff.mp hd
      exact hpart.trans hsome
    | cons step path =>
      obtain ⟨part, hpart, hmembers⟩ := Option.bind_eq_some_iff.mp hmembers
      obtain ⟨part', hpart', hextends⟩ := hkept step part hpart
      refine hextends.added path members name d hmembers hmissing ?_
      rw [List.cons_append, at?_cons, hpart'] at hd
      exact hd

/-- An object is extended by extending its members, and by further ones behind them. -/
theorem extends_obj (hkeys : keys members <+: keys members')
    (hkept : ∀ name a, Entries.get? members name = some a →
      ∃ b, Entries.get? members' name = some b ∧
        a.Extends (fun path => supply (.member name :: path)) b)
    (hadded : ∀ name d, Entries.get? members name = none → Entries.get? members' name = some d →
      supply [.member name] = some d) :
    (Json.obj members).Extends supply (.obj members') := by
  refine extends_of_parts hkeys (fun step a ha => ?_) fun _ name d hobj hmissing hd => ?_
  · cases step with
    | member name => exact hkept name a ha
    | item index => cases ha
  · obtain rfl := Json.obj.inj hobj
    exact hadded name d hmissing hd

/-- An array is extended by extending its items. -/
theorem extends_arr (f : Json → Json)
    (hkept : ∀ (index : Nat) (a : Json), items[index]? = some a →
      a.Extends (fun path => supply (.item index :: path)) (f a)) :
    (Json.arr items).Extends supply (.arr (items.map f)) := by
  have hframe : SameFrame (.arr items) (.arr (items.map f)) := (List.length_map f).symm
  refine extends_of_parts hframe (fun step a ha => ?_) fun _ _ _ hobj => ?_
  · cases step with
    | member name => cases ha
    | item index =>
      have hitem : items[index]? = some a := ha
      refine ⟨f a, ?_, hkept index a ha⟩
      rw [step?, List.getElem?_map, hitem, Option.map_some]
  · cases hobj

end RequestGate.Json
