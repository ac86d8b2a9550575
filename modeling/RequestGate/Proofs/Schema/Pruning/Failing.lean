import Mathlib.Data.Fintype.EquivFin
import RequestGate.Proofs.Draft7.Additional
import RequestGate.Proofs.Draft7.Conformance
import RequestGate.Proofs.Schema.Inert
import RequestGate.Proofs.Schema.Pruning.Places
import RequestGate.Proofs.Schema.Visits

/-!
# Removing what fails

The mode for failing members asks a value one question about `additionalProperties`: whether it has, at a
glance, the first type other than `null`. A value can answer no and still conform. It may have another of
the types, and it may be a whole number that is written with a fraction.

So the mode removes nothing that conforms exactly if no schema that it goes by lets such values through
(`RequestGate.Schema.removesOnlyFailing_iff`). It is so for a schema without types, and for one whose
types are all covered by the one that is asked for (`RequestGate.Schema.Covers`); and of a schema that
has nothing but types this is the exact condition.
-/

namespace RequestGate.Schema

open Draft7 Json

variable {formats : Formats} {root schema extra s t a value types : Json} {type other : String}
  {path : List Step} {name : String}

/-! ### One type for another -/

/-- Whether every value of a type has another one at a glance. A whole number need not look like one, but
it looks like a number. -/
def Covers (type other : String) : Prop :=
  other ∉ knownTypes ∨ type ∉ knownTypes ∨ (other = type ∧ other ≠ "integer") ∨
    (other = "integer" ∧ type = "number")

instance (type other : String) : Decidable (Covers type other) :=
  inferInstanceAs (Decidable (_ ∨ _ ∨ _ ∨ _))

/-- A value of a type; a number is whole, and written with a fraction. -/
def sampleOf (type : String) : Json :=
  match type with
  | "null" => .null
  | "boolean" => .bool false
  | "string" => .str ""
  | "array" => .arr []
  | "object" => .obj []
  | _ => .num (.float (Binary64.zero false))

theorem wellFormed_sampleOf (type : String) : (sampleOf type).WellFormed := by
  unfold sampleOf
  split
  case h_5 => exact ⟨List.nodup_nil, trivial⟩
  all_goals trivial

theorem sampleOf_spec : ∀ other ∈ knownTypes, hasType (sampleOf other) other = true ∧
    ∀ type ∈ knownTypes, hasTypeAtAGlance (sampleOf other) type = true → Covers type other := by
  decide +kernel

theorem hasTypeAtAGlance_of_not_known (htype : type ∉ knownTypes) (a : Json) :
    hasTypeAtAGlance a type = true := by
  rw [hasTypeAtAGlance.eq_def]
  split <;> first | rfl | exact absurd (by decide) htype

/-- Types other than `integer` are seen at a glance. -/
theorem hasTypeAtAGlance_of_hasType (htype : type ≠ "integer") (h : hasType a type = true) :
    hasTypeAtAGlance a type = true := by
  rw [hasType.eq_def] at h
  split at h <;> first | rfl | exact absurd rfl htype | cases h

theorem hasTypeAtAGlance_number (h : hasType a "integer" = true) :
    hasTypeAtAGlance a "number" = true := by
  cases a with
  | num n => rfl
  | _ => cases h

/-- **What one type covers**, said by values. -/
theorem covers_iff :
    Covers type other ↔
      ∀ a : Json, a.WellFormed → hasType a other = true → hasTypeAtAGlance a type = true := by
  constructor
  · rintro (hother | htype | ⟨rfl, hinteger⟩ | ⟨rfl, rfl⟩) a - ha
    · rw [hasType_of_not_known hother] at ha
      cases ha
    · exact hasTypeAtAGlance_of_not_known htype a
    · exact hasTypeAtAGlance_of_hasType hinteger ha
    · exact hasTypeAtAGlance_number ha
  · intro h
    refine or_iff_not_imp_left.mpr fun hother => or_iff_not_imp_left.mpr fun htype => ?_
    obtain ⟨hhas, hcovers⟩ := sampleOf_spec other (not_not.mp hother)
    have hsample := h (sampleOf other) (wellFormed_sampleOf other) hhas
    have hcover := hcovers type (not_not.mp htype) hsample
    exact (hcover.resolve_left hother).resolve_left htype

/-! ### One schema -/

/-- Whether no value is removed that conforms to the schema of additional members. -/
def Spares (formats : Formats) (root extra : Json) : Prop :=
  ∀ a : Json, a.WellFormed → Conforms formats root extra a →
    isRemovable root .failing (some extra) a = false

/-- Whether the question for one type is as good as the schema of additional members: the engine follows
its references to the same schema, and the type that is asked for covers all of that. -/
def Trusted (root extra : Json) : Prop :=
  ∀ t type, resolve root extra = some t → primaryType t = some type →
    Leads root extra t ∧ ∀ other ∈ declaredTypes t, Covers type other

theorem isRemovable_failing_eq (hextra : ∀ allowed, extra ≠ .bool allowed) :
    isRemovable root .failing (some extra) a =
      ((resolve root extra).bind primaryType).any fun type => !hasTypeAtAGlance a type := by
  rw [isRemovable]
  · cases (resolve root extra).bind primaryType <;> rfl
  · exact hextra

theorem isRemovable_failing_iff :
    isRemovable root .failing (some extra) a = true ↔
      extra = .bool false ∨ ∃ t type, resolve root extra = some t ∧ primaryType t = some type ∧
        hasTypeAtAGlance a type = false := by
  cases extra with
  | bool allowed =>
    -- a Boolean is no reference and has no type
    have hs : resolve root (.bool allowed) = some (.bool allowed) := resolve_of_none rfl
    cases allowed <;> simp [isRemovable, hs, primaryType, Json.get?]
  | _ =>
    rw [isRemovable_failing_eq fun _ => Json.noConfusion, or_iff_right Json.noConfusion]
    simp only [Option.any_eq_true, Option.bind_eq_some_iff, Bool.not_eq_true']
    constructor
    · rintro ⟨type, ⟨t, ht, htype⟩, hglance⟩
      exact ⟨t, type, ht, htype, hglance⟩
    · rintro ⟨t, type, ht, htype, hglance⟩
      exact ⟨type, ⟨t, ht, htype⟩, hglance⟩

theorem declaredTypes_eq_typeNames (hget : t.get? "type" = some types) :
    declaredTypes t = typeNames types := by
  rw [declaredTypes, hget]
  cases types <;> rfl

theorem exists_types_of_primaryType (h : primaryType t = some type) :
    ∃ types, t.get? "type" = some types := by
  cases hget : t.get? "type" with
  | some types => exact ⟨types, rfl⟩
  | none =>
    rw [primaryType, hget] at h
    cases h

/-- What has one of the types that a schema gives is not removed, if the question covers them. -/
theorem Trusted.spares (h : Trusted root extra)
    (htypes : ∀ a : Json, a.WellFormed → Conforms formats root extra a → ∀ t type,
      resolve root extra = some t → primaryType t = some type → Leads root extra t →
        ∃ other ∈ declaredTypes t, hasType a other = true) : Spares formats root extra := by
  intro a ha hconforms
  rw [← Bool.not_eq_true, isRemovable_failing_iff]
  rintro (rfl | ⟨t, type, ht, htype, hglance⟩)
  · exact (conforms_leaf_iff rfl).mp hconforms rfl
  · obtain ⟨hleads, hcovers⟩ := h t type ht htype
    obtain ⟨other, hother, hhas⟩ := htypes a ha hconforms t type ht htype hleads
    have hseen := covers_iff.mp (hcovers other hother) a ha hhas
    rw [hglance] at hseen
    cases hseen

/-- **The question is as good as the schema** if it covers all types that the schema gives, and the
engine finds them where it does. -/
theorem spares_of_trusted (hroot : root.WellFormed) (hextra : extra ∈ root.subvalues)
    (h : Trusted root extra) : Spares formats root extra := by
  refine h.spares fun a ha hconforms t type ht htype hleads => ?_
  obtain ⟨types, hget⟩ := exists_types_of_primaryType htype
  have hpasses : Passes formats root extra a := ⟨_, le_rfl, hconforms⟩
  have hensures : Ensures root (· = t) extra := hleads.ensures (.of_self rfl)
  obtain ⟨u, -, hu, hupheld⟩ := hpasses.exists_of_ensures hroot ha hextra hensures
  cases t with
  | obj members =>
    obtain ⟨n, hold, -⟩ := hupheld members hu (hu ▸ reference?_of_follow ht)
    rw [declaredTypes_eq_typeNames hget]
    exact (hold.type types hget).resolve_left fun hnullable => nomatch hnullable.1.1
  | _ => cases hget

/-- A value conforms to a schema of nothing but types if it has one of them. -/
theorem conforms_type_iff :
    Conforms formats root (.obj [("type", types)]) a ↔
      ∃ other ∈ typeNames types, hasType a other = true := by
  rw [Conforms, stepsFor_eq, Accepts, violations_obj rfl, List.flatMap_singleton]
  exact Place.demand_eq_nil_iff.trans List.any_eq_true

/-- Of a schema of nothing but types, the values are spared only if the question covers them all. -/
theorem spares_type_iff :
    Spares formats root (.obj [("type", types)]) ↔ Trusted root (.obj [("type", types)]) := by
  have hdeclared : declaredTypes (.obj [("type", types)]) = typeNames types :=
    declaredTypes_eq_typeNames rfl
  have hself : resolve root (.obj [("type", types)]) = some (.obj [("type", types)]) :=
    resolve_of_none rfl
  constructor
  · intro h t type ht htype
    obtain rfl := Option.some.inj (hself.symm.trans ht)
    refine ⟨.refl, fun other hother => covers_iff.mpr fun a ha hhas => ?_⟩
    have hspared := h a ha (conforms_type_iff.mpr ⟨other, hdeclared ▸ hother, hhas⟩)
    refine Bool.not_eq_false _ |>.mp fun hglance => ?_
    rw [isRemovable_failing_iff.mpr (Or.inr ⟨_, type, hself, htype, hglance⟩)] at hspared
    cases hspared
  · refine fun h => h.spares fun a _ hconforms t type ht _ _ => ?_
    obtain rfl := Option.some.inj (hself.symm.trans ht)
    exact hdeclared ▸ conforms_type_iff.mp hconforms

/-! ### All schemas that the mode goes by -/

/-- Whether the mode for failing members goes by a schema of additional members, somewhere in what
pruning can reach. -/
def Rules (schema extra : Json) : Prop :=
  ∃ path s, path.length ≤ maxHops ∧ governing? schema schema path = some s ∧ Consulted schema s ∧
    s.get? "additionalProperties" = some extra

/-- Whether the mode for failing members removes only what does not conform to the schema of additional
members in its place. -/
def RemovesOnlyFailing (formats : Formats) (schema : Json) : Prop :=
  ∀ (value : Json) path s name a, value.WellFormed → governing? schema schema path = some s →
    value.at? (path ++ [.member name]) = some a →
    Removes .failing schema value (path ++ [.member name]) →
      ∃ extra, s.get? "additionalProperties" = some extra ∧ ¬ Conforms formats schema extra a

/-- Nothing is removed where a schema says nothing about additional members. -/
theorem exists_additional_of_takes (h : Takes root .failing s (name, a)) :
    ∃ extra, s.get? "additionalProperties" = some extra := by
  cases hget : s.get? "additionalProperties" with
  | some extra => exact ⟨extra, rfl⟩
  | none =>
    have hremovable := h.removable
    rw [hget] at hremovable
    cases hremovable

theorem exists_fresh (names : List String) : ∃ name, name ∉ names := by
  obtain ⟨name, hname⟩ := Infinite.exists_notMem_finset names.toFinset
  exact ⟨name, fun hmem => hname (List.mem_toFinset.mpr hmem)⟩

/-- **What is removed fails** exactly if all schemas that the mode goes by spare what conforms to them;
they do if the mode asks them for a type that covers all of theirs; and if they give nothing but types,
they do only then. -/
theorem removesOnlyFailing_iff (formats : Formats) (hschema : schema.WellFormed) :
    (RemovesOnlyFailing formats schema ↔ ∀ extra, Rules schema extra → Spares formats schema extra) ∧
    ((∀ extra, Rules schema extra → Trusted schema extra) → RemovesOnlyFailing formats schema) ∧
    ∀ types, Spares formats schema (.obj [("type", types)]) ↔
      Trusted schema (.obj [("type", types)]) := by
  have hspared : (∀ extra, Rules schema extra → Spares formats schema extra) →
      RemovesOnlyFailing formats schema := by
    intro hspares value path s name a hvalue hs ha hremoves
    obtain ⟨hlength, b, hb, htakes⟩ := takes_of_removes hs hremoves
    obtain rfl := Option.some.inj (ha.symm.trans hb)
    obtain ⟨extra, hextra⟩ := exists_additional_of_takes htakes
    refine ⟨extra, hextra, fun hconforms => ?_⟩
    have hkept := hspares extra ⟨path, s, hlength, hs, htakes.consulted, hextra⟩ a (hvalue.at? ha)
      hconforms
    have hremovable := htakes.removable
    rw [hextra, hkept] at hremovable
    cases hremovable
  refine ⟨⟨?_, hspared⟩, fun htrusted => hspared fun extra hrules => ?_, fun types => spares_type_iff⟩
  · -- a value that conforms and is not spared can stand under a name that is not declared
    rintro h extra ⟨path, s, hlength, hs, hconsulted, hextra⟩ a ha hconforms
    rw [← Bool.not_eq_true]
    intro hremovable
    obtain ⟨name, hname⟩ := exists_fresh (Entries.keys (properties schema s))
    have hat := at?_along (path ++ [.member name]) a
    have hwell := wellFormed_along (path ++ [.member name]) ha
    obtain ⟨extra', hextra', hnot⟩ := h _ path s name a hwell hs hat
      (removes_of_takes hwell hs hlength hat ⟨hconsulted, hname, hextra ▸ hremovable⟩)
    obtain rfl := Option.some.inj (hextra.symm.trans hextra')
    exact hnot hconforms
  · obtain ⟨path, s, -, hs, -, hextra⟩ := id hrules
    have hmem := mem_subvalues_of_governing? (mem_subvalues_self schema) hs
    exact spares_of_trusted hschema (mem_subvalues_of_get? hmem hextra) (htrusted extra hrules)

/-- An object schema that takes values of some types under all names. -/
def openTo (types : Json) : Json :=
  .obj
    [("type", .str "object"), ("properties", .obj []),
     ("additionalProperties", .obj [("type", types)])]

theorem removesOnlyFailing_openTo_string :
    (openTo (.str "string")).WellFormed ∧ RemovesOnlyFailing .builtin (openTo (.str "string")) := by
  have hwell : (openTo (.str "string")).WellFormed := by decide
  have hnothing : properties (openTo (.str "string")) (openTo (.str "string")) = [] := by
    decide
  refine ⟨hwell, (removesOnlyFailing_iff .builtin hwell).2.1 ?_⟩
  rintro extra ⟨path, s, -, hs, -, hextra⟩ t type ht htype
  cases path with
  | nil =>
    obtain rfl := Option.some.inj hs
    obtain rfl := Option.some.inj hextra
    obtain rfl := Option.some.inj ht
    obtain rfl := Option.some.inj htype
    exact ⟨.refl, by decide⟩
  | cons step path =>
    -- no path leads further, since nothing is declared
    have hnone : partSchema? (openTo (.str "string")) (openTo (.str "string")) step = none := by
      cases step with
      | member name =>
        rw [partSchema?_member (resolve_of_none (by decide)), hnothing, Entries.get?_nil]
      | item index => rfl
    rw [governing?, schemaAt?, hnone] at hs
    cases hs

/-- `null` is removed where strings and `null` are let through. -/
theorem not_removesOnlyFailing_openTo_nullable :
    ¬ RemovesOnlyFailing .builtin (openTo (ofStrings ["string", "null"])) := by
  intro h
  obtain ⟨extra, hextra, hnot⟩ := h (.obj [("a", .null), ("b", ofInt 2)]) []
    (openTo (ofStrings ["string", "null"])) "a" .null (by decide) (by decide)
    (by decide) ⟨by decide, by decide⟩
  obtain rfl := Option.some.inj hextra
  exact hnot (conforms_type_iff.mpr ⟨"null", by decide, rfl⟩)

end RequestGate.Schema
