import RequestGate.Proofs.Schema.Pruning.Modes
import RequestGate.Proofs.Schema.Visits

/-!
# Where pruning has nothing to take

Pruning and judging look at a schema in two ways. Pruning goes by one table of properties, in which
those of all members of a composition are merged and the first of a name counts; the engine asks each
member for itself. A schema with `additionalProperties: false` that pruning goes by is therefore not
always one that the engine holds the same value to. It may stand in an alternative that the value does
not take, or be the property of one.

`RequestGate.Schema.Conservative` says that the two agree where it matters. It goes along with pruning
and keeps beside the schema that pruning goes by one that the value is known to have passed. Where
pruning would take members away, that schema must ensure that there are none to take. Then pruning in
the mode that takes what `additionalProperties: false` forbids changes nothing in a value that has
passed (`RequestGate.Schema.pruneWithin_eq_self`).
-/

namespace RequestGate.Schema

open Draft7

variable {formats : Formats} {root schema part value a : Json} {members own declared : Entries Json}
  {name : String} {names : List String}

/-! ### What the engine asks of the parts of a value -/

/-- Whether a schema lets through no names but those of a list. -/
inductive ClosedTo (names : List String) : (schema : Json) → Prop where
  | intro {members : Entries Json} (href : reference? (.obj members) = none)
      (hclosed : Entries.get? members "additionalProperties" = some (.bool false))
      (hnames : ∀ name, Describes members name → name ∈ names) : ClosedTo names (.obj members)

section Passed

variable (hschema : ∀ members, schema = .obj members → reference? schema = none →
  Upheld formats root members value)

include hschema

/-- A value has no names but those that a closed schema lets through. -/
theorem ClosedTo.mem_names (h : ClosedTo names schema) (ha : value.get? name = some a) :
    name ∈ names := by
  cases h with
  | intro href hclosed hnames =>
    obtain ⟨n, hold, -⟩ := hschema _ rfl href
    refine hnames name (not_not.mp fun hnot => ?_)
    have hfalse := hold.additionalProperties _ hclosed name a ha hnot
    exact ((decides_violations formats root n).leaf_iff _ a rfl).mp hfalse rfl

theorem HoldsMember.passes (h : HoldsMember name schema part) (ha : value.get? name = some a) :
    Passes formats root part a := by
  obtain ⟨members, rfl, href⟩ := h.exists_members
  obtain ⟨n, hold, hinside⟩ := hschema _ rfl href
  exact hinside part a (Json.mem_children_of_get? ha)
    ((membersHold_iff_holdsMember href).mp hold.toMembersHold name a ha part h)

theorem HoldsItems.passes {items : List Json} (h : HoldsItems schema part)
    (hvalue : value = .arr items) (ha : a ∈ items) : Passes formats root part a := by
  cases h with
  | intro href hget harr =>
    obtain ⟨n, hold, hinside⟩ := hschema _ rfl href
    exact hinside part a (hvalue ▸ ha) (hold.items part hget harr items hvalue a ha)

end Passed

/-! ### Pruning that takes nothing away -/

/-- Whether pruning takes members away at a schema: those that are not declared, if the schema has
properties at all, is closed, and has no patterns. -/
structure Strips (root schema : Json) : Prop where
  properties : properties root schema ≠ [] ∨ schema.hasKey "properties" = true
  noPatterns : schema.hasKey "patternProperties" = false
  closed : schema.get? "additionalProperties" = some (.bool false)

/-- Whether pruning by a schema takes nothing from a value that has passed `judge`, or from any value if
there is no judge. Wherever it takes members away, the judge ensures that there are none but the
declared ones; what it goes into is judged by what the judge holds it to. -/
def Conservative (root : Json) : (levels : Nat) → (judge : Option Json) → (schema : Json) → Prop
  | 0, _, _ => True
  | levels + 1, judge, schema =>
    ∀ s, resolve root schema = some s →
      (Strips root s →
        ∃ j ∈ judge, Ensures root (ClosedTo (Entries.keys (properties root s))) j) ∧
      (∀ name sub, Entries.get? (properties root s) name = some sub →
        Conservative root levels none sub ∨
          ∃ j ∈ judge, Ensures root
            (fun t => ∃ part, HoldsMember name t part ∧ Conservative root levels (some part) sub) j) ∧
      ∀ sub, itemSchema? s = some sub →
        Conservative root levels none sub ∨
          ∃ j ∈ judge, Ensures root
            (fun t => ∃ part, HoldsItems t part ∧ Conservative root levels (some part) sub) j

/-- Only a closed schema loses members, and only undeclared ones. -/
theorem keepMembers_eq_self
    (h : Strips root schema → ∀ m ∈ members, m.1 ∈ Entries.keys (properties root schema)) :
    keepMembers root .declared schema (properties root schema) members = members := by
  rw [keepMembers_properties]
  refine List.filter_eq_self.mpr fun m hm => decide_eq_true fun htakes => ?_
  exact htakes.undeclared (h ⟨htakes.consulted.properties, htakes.consulted.noPatterns,
    beq_iff_eq.mp htakes.removable⟩ m hm)

/-- What is inside a value that has passed has passed what the judge holds it to. -/
theorem exists_judge {holds : Json → Json → Prop} {judge : Option Json} {levels : Nat} {sub : Json}
    (hroot : root.WellFormed) (hvalue : value.WellFormed)
    (hjudge : ∀ j ∈ judge, j ∈ root.subvalues ∧ Passes formats root j value)
    (hholds : ∀ t ∈ root.subvalues, (∀ members, t = .obj members → reference? t = none →
      Upheld formats root members value) → ∀ part, holds t part →
        part ∈ root.subvalues ∧ Passes formats root part a)
    (h : Conservative root levels none sub ∨ ∃ j ∈ judge, Ensures root
      (fun t => ∃ part, holds t part ∧ Conservative root levels (some part) sub) j) :
    ∃ inner, Conservative root levels inner sub ∧
      ∀ j ∈ inner, j ∈ root.subvalues ∧ Passes formats root j a := by
  rcases h with hfree | ⟨j, hj, hensures⟩
  · exact ⟨none, hfree, by simp⟩
  · obtain ⟨hmem, hpasses⟩ := hjudge j hj
    obtain ⟨t, ht, ⟨part, hpart, hsub⟩, hkeywords⟩ :=
      hpasses.exists_of_ensures hroot hvalue hmem hensures
    refine ⟨some part, hsub, fun j hj => ?_⟩
    obtain rfl := Option.some.inj hj
    exact hholds t ht hkeywords part hpart

/-- **Pruning takes nothing from a value that has passed**, if it is conservative. -/
theorem pruneWithin_eq_self (hroot : root.WellFormed) :
    ∀ {levels : Nat} {judge : Option Json} {schema value : Json},
      Conservative root levels judge schema → value.WellFormed →
      (∀ j ∈ judge, j ∈ root.subvalues ∧ Passes formats root j value) →
      pruneWithin root .declared levels schema value = value := by
  intro levels
  induction levels with
  | zero => exact fun _ _ _ => rfl
  | succ levels ih =>
    intro judge schema value hconservative hvalue hjudge
    rw [pruneWithin]
    cases hresolve : resolve root schema with
    | none => rfl
    | some s =>
      obtain ⟨hstrips, hproperties, hitems⟩ := hconservative s hresolve
      cases value with
      | obj members =>
        have hget : ∀ m ∈ members, (Json.obj members).get? m.1 = some m.2 :=
          fun m hm => Entries.get?_of_mem hvalue.1 hm
        have hkept : keepMembers root .declared s (properties root s) members = members := by
          refine keepMembers_eq_self fun hs m hm => ?_
          -- the value has passed a closed schema, so the name is among those that it lets through
          obtain ⟨j, hj, hensures⟩ := hstrips hs
          obtain ⟨hmem, hpasses⟩ := hjudge j hj
          obtain ⟨t, -, hclosed, hkeywords⟩ :=
            hpasses.exists_of_ensures hroot hvalue hmem hensures
          exact hclosed.mem_names hkeywords (hget m hm)
        refine congrArg Json.obj ?_
        simp only [hkept]
        refine mapDeclared_eq_self fun m hm sub hsub => ?_
        obtain ⟨inner, hsub, hinner⟩ := exists_judge hroot hvalue hjudge
          (fun t ht hkeywords part hpart =>
            ⟨hpart.mem_subvalues ht, hpart.passes hkeywords (hget m hm)⟩) (hproperties m.1 sub hsub)
        exact ih hsub (hvalue.get? (hget m hm)) hinner
      | arr items =>
        refine congrArg Json.arr (mapItems_eq_self fun a ha sub hsub => ?_)
        obtain ⟨inner, hsub, hinner⟩ := exists_judge hroot hvalue hjudge
          (fun t ht hkeywords part hpart =>
            ⟨hpart.mem_subvalues ht, hpart.passes hkeywords rfl ha⟩) (hitems sub hsub)
        exact ih hsub (Json.wellFormedList_iff.mp hvalue a ha) hinner
      | _ => rfl

/-! ### Schemas without compositions

A schema that is no composition may still have `properties` that pruning does not see. A list of types
is taken for the first of them, and if that is a text, say, then no property counts as declared. -/

/-- Whether a schema is no composition, and has `properties` only where pruning sees an object. -/
structure Direct (s : Json) : Prop where
  members : (shape s).members = []
  object : s.hasKey "properties" = true → ∃ table, shape s = .object (some table)

/-- **Where all schemas are direct pruning is conservative**: a schema that has no patterns lets through
what it declares, and that is what pruning goes by. -/
theorem conservative_of_direct (hroot : root.WellFormed) : ∀ {levels : Nat} {schema : Json},
    schema ∈ root.subvalues → Along root Direct levels schema →
      Conservative root levels (some schema) schema := by
  intro levels
  induction levels with
  | zero => exact fun _ _ => trivial
  | succ levels ih =>
    intro schema hschema halong s hs
    obtain ⟨hleads, hdirect, hparts, hitems⟩ := halong s hs
    have href : reference? s = none := reference?_of_follow hs
    have hmem : s ∈ root.subvalues := hleads.mem_subvalues hschema
    have hws : s.WellFormed := hroot.of_mem_subvalues hmem
    -- undeclared members, properties and items: the schema itself accounts for all three
    refine ⟨fun hstrips => ⟨schema, rfl, hleads.ensures (.of_self ?_)⟩, fun name sub hsub => Or.inr ?_,
      fun sub hsub => Or.inr ?_⟩
    · have hshape := hstrips.properties.elim
        (fun hne => exists_table_of_properties href hdirect.members hne) hdirect.object
      obtain ⟨table, hshape⟩ := hshape
      obtain ⟨members, rfl, htable⟩ := exists_members_of_shape hshape
      refine .intro href hstrips.closed fun name hdescribes => ?_
      rw [properties_of_shape href hws hshape, ← htable]
      refine hdescribes.resolve_right ?_
      rintro ⟨e, he, -⟩
      obtain ⟨patterns, hget, -⟩ := mem_tableUnder.mp he
      have hno := hstrips.noPatterns
      simp [Json.hasKey, hget] at hno
    · have hholds := holdsMember_of_properties href hdirect.members hws hsub
      exact ⟨schema, rfl, hleads.ensures (.of_self
        ⟨sub, hholds, ih (hholds.mem_subvalues hmem) (hparts name sub hsub)⟩)⟩
    · have hholds := holdsItems_of_itemSchema? href hsub
      exact ⟨schema, rfl, hleads.ensures (.of_self
        ⟨sub, hholds, ih (hholds.mem_subvalues hmem) (hitems sub hsub)⟩)⟩

/-- A closed schema that is no composition loses what it declares, since it may be a text, too. -/
example :
    let s : Json := .obj [("type", .arr [.str "string", .str "object"]),
      ("properties", .obj [("a", .obj [])]), ("additionalProperties", .bool false)]
    prune .declared s (.obj [("a", .num (.int 1))]) = .obj [] := by
  decide

end RequestGate.Schema
