import RequestGate.Proofs.Draft7.Report
import RequestGate.Proofs.Schema.Chain
import RequestGate.Proofs.Text.Digits
import RequestGate.Proofs.Wording

/-!
# Walks through a schema

A violation is reported with the value of its keyword, which is looked up at a location in the schema. The
location tells a walk from the root: into members by their keys, into items by their indices, and on from
references to their targets. It may name the references that are followed, each by a segment `$ref`, or
leave them out, and the end of the walk is found all the same
(`RequestGate.Schema.lookup_of_walk`).

A walk that ends with a descent is a sequence of legs: some hops over references, and then one descent
(`RequestGate.Schema.Walk`). What a location leaves out must be found again, so two things are asked of a
leg. It has no more than `RequestGate.Schema.maxHops` hops. And no reference on the way has an entry of its
own under the segment that the leg descends by, since a look-up stops at the first value that has one. For
the same reason no leg ends with a descent by `$ref` from a reference, which always has an entry of that
name; a key `$ref` with anything but a string under it is a key like all others.
-/

namespace RequestGate

namespace Schema

open Json

variable {root node next last value : Json} {segment : String} {k j n : Nat}

/-! ### Legs -/

/-- Whether a segment leads from a value to a member of it, by its key, or to an item, by its index. -/
inductive Descends : Json → String → Json → Prop where
  | member {members : Entries Json} {key : String} {value : Json}
      (h : Entries.get? members key = some value) : Descends (.obj members) key value
  | item {items : List Json} {segment : String} {index : Nat} {value : Json}
      (hindex : Text.readNatBelow? Text.wordCount segment.toList = some index)
      (h : items[index]? = some value) : Descends (.arr items) segment value

/-- Whether a number of hops lead from one value to another, over references that have no entry of their
own under a segment. -/
inductive ClearHops (root : Json) (segment : String) : Nat → Json → Json → Prop where
  | refl (node : Json) : ClearHops root segment 0 node node
  | hop {k : Nat} {node next last : Json} (hclear : node.hasKey segment = false)
      (h : RefersTo root node next) (rest : ClearHops root segment k next last) :
      ClearHops root segment (k + 1) node last

/-- A part of a walk: so many hops, and then a descent by a segment. -/
structure Leg where
  hops : Nat
  segment : String
deriving DecidableEq

/-- Whether a sequence of legs leads from one value to another. -/
inductive Walk (root : Json) : Json → List Leg → Json → Prop where
  | done (node : Json) : Walk root node [] node
  | leg {node last next value : Json} {leg : Leg} {legs : List Leg}
      (hops : ClearHops root leg.segment leg.hops node last) (hmax : leg.hops ≤ maxHops)
      (hown : leg.segment = "$ref" → reference? last = none) (hdescent : Descends last leg.segment next)
      (rest : Walk root next legs value) : Walk root node (leg :: legs) value

/-- The segments of a leg that name so many of its hops. -/
def Leg.naming (hops : Nat) (leg : Leg) : List String :=
  List.replicate hops "$ref" ++ [leg.segment]

/-- Whether segments tell a walk, leg by leg, naming as many of the hops of each as they like. -/
inductive Tells : List String → List Leg → Prop where
  | nil : Tells [] []
  | leg {hops : Nat} {leg : Leg} {segments : List String} {legs : List Leg} (hle : hops ≤ leg.hops)
      (rest : Tells segments legs) : Tells (leg.naming hops ++ segments) (leg :: legs)

/-- The location of the end of a walk, with every hop. -/
def fullLocation (legs : List Leg) : String :=
  Pointer.render (legs.flatMap fun leg => leg.naming leg.hops)

/-- The location of the end of a walk, without any hops. -/
def shortLocation (legs : List Leg) : String :=
  Pointer.render (legs.map Leg.segment)

theorem tells_full (legs : List Leg) : Tells (legs.flatMap fun leg => leg.naming leg.hops) legs := by
  induction legs with
  | nil => exact .nil
  | cons leg legs ih => exact .leg (Nat.le_refl leg.hops) ih

theorem tells_short (legs : List Leg) : Tells (legs.map Leg.segment) legs := by
  induction legs with
  | nil => exact .nil
  | cons leg legs ih => exact .leg (Nat.zero_le leg.hops) ih

/-! ### One step of a look-up -/

/-- An index is written with its decimal digits. -/
theorem Descends.of_index {items : List Json} {index : Nat} (hindex : index < Text.wordCount)
    (h : items[index]? = some value) : Descends (.arr items) (toString index) value := by
  refine .item ?_ h
  rw [Nat.toString_eq_ofList_toDigits, String.toList_ofList]
  exact Text.readNatBelow?_toDigits hindex

theorem Descends.stepBy (h : Descends node segment next) :
    stepBy Draft7.index? node segment = some next := by
  cases h with
  | member h => exact h
  | item hindex h => exact Option.bind_eq_some_iff.mpr ⟨_, hindex, h⟩

/-- A reference has an entry of its own under `$ref`. -/
theorem RefersTo.hasKey (h : RefersTo root node next) : node.hasKey "$ref" = true := by
  obtain ⟨reference, href, -⟩ := h
  obtain ⟨value, hvalue, -⟩ := Option.bind_eq_some_iff.mp href
  rw [Json.hasKey, hvalue]
  rfl

/-- **A hop that is named** is taken, and nothing else is meant by `$ref` at a reference. -/
theorem pathStep?_named (h : RefersTo root node next) (n : Nat) :
    pathStep? root "$ref" (n + 1) node = some next := by
  obtain ⟨reference, href, htarget⟩ := h
  rw [pathStep?_eq, href, if_pos ⟨rfl, rfl⟩, Option.bind_some, htarget]

/-- **A hop that is left out** costs one of the hops that are allowed. -/
theorem pathStep?_of_clear (hclear : node.hasKey segment = false) (h : RefersTo root node next)
    (n : Nat) : pathStep? root segment (n + 1) node = pathStep? root segment n next := by
  have hsegment : segment ≠ "$ref" := by
    rintro rfl
    rw [h.hasKey] at hclear
    cases hclear
  have hfound : stepBy Draft7.index? node segment = none := by
    obtain ⟨reference, href, -⟩ := h
    cases node with
    | obj members =>
      change Entries.get? members segment = none
      simpa [Json.hasKey] using hclear
    | _ => cases href
  obtain ⟨reference, href, htarget⟩ := h
  rw [pathStep?_eq, if_neg fun hand => hsegment hand.1, hfound, Option.none_or, href,
    Option.bind_some, htarget, Option.bind_some]

theorem pathStep?_of_descends (hown : segment = "$ref" → reference? node = none)
    (h : Descends node segment next) (n : Nat) : pathStep? root segment (n + 1) node = some next := by
  have hnot : ¬(segment = "$ref" ∧ (reference? node).isSome = true) := by
    rintro ⟨hsegment, hsome⟩
    rw [hown hsegment] at hsome
    cases hsome
  rw [pathStep?_eq, if_neg hnot, h.stepBy, Option.some_or]

theorem ClearHops.pathStep?_eq (h : ClearHops root segment k node last) (n : Nat) :
    pathStep? root segment (n + k) node = pathStep? root segment n last := by
  induction h with
  | refl node => rfl
  | hop hclear hnext _ ih => rw [← Nat.add_assoc, pathStep?_of_clear hclear hnext, ih]

/-- **A leg is one step** if no hop of it is named. -/
theorem ClearHops.pathStep?_of_descends (h : ClearHops root segment k node last) (hk : k ≤ maxHops)
    (hown : segment = "$ref" → reference? last = none) (hdescent : Descends last segment next) :
    pathStep? root segment levels node = some next := by
  have hlevels : levels = maxHops - k + 1 + k := by
    rw [levels]
    omega
  rw [hlevels, h.pathStep?_eq, Schema.pathStep?_of_descends hown hdescent]

/-! ### Whole walks -/

/-- Looks up what segments lead to from a value. -/
def lookupFrom? (root node : Json) (segments : List String) : Option Json :=
  segments.foldlM (fun node segment => pathStep? root segment levels node) node

theorem lookupFrom?_cons (root node : Json) (segment : String) (segments : List String) :
    lookupFrom? root node (segment :: segments) =
      (pathStep? root segment levels node).bind fun next => lookupFrom? root next segments := rfl

/-- Hops that are named are taken one after the other, and fewer are left. -/
theorem ClearHops.lookupFrom?_replicate (h : ClearHops root segment k node last) (hj : j ≤ k)
    (segments : List String) :
    ∃ mid, ClearHops root segment (k - j) mid last ∧
      lookupFrom? root node (List.replicate j "$ref" ++ segments) = lookupFrom? root mid segments := by
  induction j generalizing k node with
  | zero => exact ⟨node, h, rfl⟩
  | succ j ih =>
    cases h with
    | refl => omega
    | @hop k _ next _ _ hnext rest =>
      obtain ⟨mid, hmid, hlookup⟩ := ih rest (by omega)
      refine ⟨mid, by rwa [Nat.add_sub_add_right], ?_⟩
      rw [List.replicate_succ, List.cons_append, lookupFrom?_cons, levels, pathStep?_named hnext,
        Option.bind_some, hlookup]

/-- **The end of a walk is found by whatever tells the walk**, with some of its hops or with all. -/
theorem Walk.lookupFrom?_eq {legs : List Leg} {segments : List String} (walk : Walk root node legs value)
    (htells : Tells segments legs) : lookupFrom? root node segments = some value := by
  induction walk generalizing segments with
  | done node =>
    cases htells
    rfl
  | @leg node last next value leg legs hops hmax hown hdescent _ ih =>
    cases htells with
    | @leg j _ segments _ hj htells =>
      rw [Leg.naming, List.append_assoc]
      obtain ⟨mid, hmid, hlookup⟩ := hops.lookupFrom?_replicate hj ([leg.segment] ++ segments)
      have hstep := hmid.pathStep?_of_descends (by omega) hown hdescent
      rw [hlookup, List.singleton_append, lookupFrom?_cons, hstep, Option.bind_some, ih htells]

/-- The value at a written location. -/
def lookupLocation? (root : Json) (location : String) : Option Json :=
  lookupPath? root (Pointer.segments location)

theorem lookupLocation?_render (root : Json) (segments : List String) :
    lookupLocation? root (Pointer.render segments) = lookupFrom? root root segments := by
  rw [lookupLocation?, Pointer.segments_render]
  rfl

/-- What a report shows as its keyword is the last piece of the location that it shows. -/
theorem keyword_eq_last_piece (root : Json) (v : Draft7.Violation) :
    (SchemaError.ofViolation root v).keyword =
      Pointer.unescapeText ((Text.split '/' (SchemaError.ofViolation root v).schemaPath).getLastD "") := by
  change v.schemaPath.getLastD "" =
    Pointer.unescapeText ((Text.split '/' (Pointer.render v.schemaPath)).getLastD "")
  have hlast : (v.schemaPath.map Pointer.escapeText).getLastD "" =
      Pointer.escapeText (v.schemaPath.getLastD "") := by
    rw [List.getLastD_eq_getLast?, List.getLastD_eq_getLast?, List.getLast?_map]
    cases v.schemaPath.getLast? <;> rfl
  rw [Pointer.split_render, List.getLastD_cons, hlast, Pointer.unescapeText_escapeText]

/-- What a report shows as the value of its keyword stands at the location that it shows. -/
theorem keywordValue_ofViolation (root : Json) (v : Draft7.Violation) :
    (SchemaError.ofViolation root v).keywordValue =
      lookupLocation? root (SchemaError.ofViolation root v).schemaPath :=
  (lookupLocation?_render root v.schemaPath).symm

/-- **Hops may be named or left out.** The location that names every hop of a walk and the one that names
none both lead to its end. -/
theorem lookup_of_walk {legs : List Leg} (walk : Walk root root legs value) :
    lookupLocation? root (fullLocation legs) = some value ∧
      lookupLocation? root (shortLocation legs) = some value := by
  rw [fullLocation, shortLocation, lookupLocation?_render, lookupLocation?_render]
  exact ⟨walk.lookupFrom?_eq (tells_full legs), walk.lookupFrom?_eq (tells_short legs)⟩

/-- A root with a reference to a reference, a key that must be escaped, and a property named `$ref`. -/
def petsRoot : Json :=
  .obj
    [("properties", .obj [("a/b~", .obj [("$ref", .str "#/components/schemas/x~1y")])]),
     ("components", .obj [("schemas", .obj
        [("x/y", .obj [("$ref", .str "#/components/schemas/Pets")]),
         ("Pets", .obj [("allOf", .arr
            [.obj [("properties", .obj [("$ref", .obj [("maximum", Json.ofInt 5)])])]])])])])]

/-- The walk to the bound of that property. -/
def petsLegs : List Leg :=
  [⟨0, "properties"⟩, ⟨0, "a/b~"⟩, ⟨2, "allOf"⟩, ⟨0, "0"⟩, ⟨0, "properties"⟩, ⟨0, "$ref"⟩,
    ⟨0, "maximum"⟩]

/-- The bound is found with both hops named and with none. -/
theorem lookup_of_walk_petsLegs :
    Walk petsRoot petsRoot petsLegs (Json.ofInt 5) ∧
      fullLocation petsLegs =
        "/properties/a~1b~0/$ref/$ref/allOf/0/properties/$ref/maximum" ∧
      shortLocation petsLegs = "/properties/a~1b~0/allOf/0/properties/$ref/maximum" ∧
      lookupLocation? petsRoot (fullLocation petsLegs) = some (Json.ofInt 5) ∧
      lookupLocation? petsRoot (shortLocation petsLegs) = some (Json.ofInt 5) := by
  have hmember : ∀ {members : Entries Json} {segment : String} {next value : Json} {legs : List Leg},
      (segment = "$ref" → reference? (.obj members) = none) →
      Entries.get? members segment = some next → Walk petsRoot next legs value →
      Walk petsRoot (.obj members) (⟨0, segment⟩ :: legs) value := fun hown h rest =>
    .leg (.refl _) (Nat.zero_le _) hown (.member h) rest
  have hhop : ∀ {key : String} {node next : Json}, node = .obj [("$ref", .str key)] →
      target? petsRoot key = some next → RefersTo petsRoot node next := fun hnode htarget =>
    ⟨_, hnode ▸ rfl, htarget⟩
  have hwalk : Walk petsRoot petsRoot petsLegs (Json.ofInt 5) := by
    refine hmember (by decide) rfl (hmember (by decide) rfl ?_)
    refine .leg (.hop (by decide) (hhop rfl rfl) (.hop (by decide) (hhop rfl rfl) (.refl _)))
      (by decide) (by decide) (.member rfl) ?_
    refine .leg (.refl _) (by decide) (by decide) (Descends.of_index (by decide : 0 < Text.wordCount) rfl) ?_
    exact hmember (by decide) rfl (hmember (fun _ => rfl) rfl (hmember (by decide) rfl (.done _)))
  have hlookup := lookup_of_walk hwalk
  exact ⟨hwalk, by decide, by decide, hlookup.1, hlookup.2⟩

end Schema

end RequestGate
