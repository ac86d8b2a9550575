import RequestGate.Proofs.Parameter.QueryKeys
import RequestGate.Proofs.Schema.Pruning.Declared

/-!
# Two views of an object

Whether a schema describes an object is asked in two ways. By its type it does if the type that it
declares says so, or else that of the first member of `allOf` that has one
(`RequestGate.Schema.effectiveType`). By its looks it does if it is seen as an object, or as a composition
with such a member (`RequestGate.Schema.isObjectLike`), and then its properties are those that are seen
on the way. Query parameters go by looks: an object of another kind is not decoded as one.

The first question turns to a composition where there is no type, the second to the type where there is
no composition. So they part where a schema has both, and what it declares itself is lost to the second
one. `RequestGate.Schema.viewsAgree_iff` says which schemas are the same to both: those for which a plain
object is come upon, and one for each name that they declare themselves. Where no composition stands
beside the type of an object, or beside properties, that is so.
-/

namespace RequestGate.Schema

variable {root schema s t : Json} {name : String} {n : Nat}

/-! ### Schemas that are come upon -/

/-- The schemas that are looked at: what a schema stands for, and if it is seen as a composition those
that are looked at for its members. -/
inductive Viewed (root : Json) : (levels : Nat) → (schema t : Json) → Prop where
  | here {n : Nat} {schema s : Json} (hs : resolve root schema = some s) :
      Viewed root (n + 1) schema s
  | member {n : Nat} {schema s m t : Json} (hs : resolve root schema = some s)
      (hm : m ∈ (shape s).members) (h : Viewed root n m t) : Viewed root (n + 1) schema t

/-- Whether a composition is written in a schema. -/
def Composed (s : Json) : Prop :=
  ∃ keyword ∈ ["allOf", "oneOf", "anyOf"], ∃ members, s.getArr? keyword = some members

/-- Whether a schema describes an object by itself: it has the type of one, or properties and no type,
and no composition beside them. -/
structure PlainObject (s : Json) : Prop where
  whole : ¬ Composed s
  object : primaryType s = some "object" ∨ (primaryType s = none ∧ s.hasKey "properties" = true)

theorem not_composed_iff :
    ¬ Composed s ↔ s.getArr? "allOf" = none ∧ s.getArr? "oneOf" = none ∧ s.getArr? "anyOf" = none := by
  simp [Composed, Option.eq_none_iff_forall_ne_some]

theorem shape_of_not_composed (href : reference? s = none) (h : ¬ Composed s) :
    shape s = plainShape s := by
  obtain ⟨hall, hone, hany⟩ := not_composed_iff.mp h
  rw [shape, href]
  simp only [hall, hone, hany]

/-- **Only what is an object by itself** is seen as one. -/
theorem plainObject_iff (href : reference? s = none) :
    PlainObject s ↔ ∃ properties, shape s = .object properties := by
  constructor
  · intro h
    refine ⟨s.getObj? "properties", ?_⟩
    rw [shape_of_not_composed href h.whole, plainShape]
    rcases h.object with htype | ⟨htype, hkey⟩
    · simp [htype]
    · simp [htype, hkey]
  · rintro ⟨properties, h⟩
    have hwhole : ¬ Composed s := by
      rw [not_composed_iff]
      rw [shape, href] at h
      dsimp only at h
      split at h
      · cases h
      · split at h
        · cases h
        · split at h
          · cases h
          · exact ⟨‹_›, ‹_›, ‹_›⟩
    refine ⟨hwhole, ?_⟩
    rw [shape_of_not_composed href hwhole, plainShape] at h
    split at h
    · exact Or.inl ‹_›
    · cases h
    · split at h
      · exact Or.inr ⟨by assumption, by assumption⟩
      · split at h <;> cases h
    · cases h

/-! ### By their looks -/

/-- A schema is seen as an object if one is come upon. -/
theorem isObjectLikeWithin_iff :
    isObjectLikeWithin root n schema = true ↔ ∃ t, Viewed root n schema t ∧ PlainObject t := by
  induction n generalizing schema with
  | zero =>
    refine ⟨fun h => (by cases h), ?_⟩
    rintro ⟨t, ht, -⟩
    cases ht
  | succ n ih =>
    rw [isObjectLikeWithin]
    cases hs : resolve root schema with
    | none =>
      refine ⟨fun h => (by cases h), ?_⟩
      rintro ⟨t, ht, -⟩
      cases ht with
      | here hs' => cases hs.symm.trans hs'
      | member hs' _ _ => cases hs.symm.trans hs'
    | some s =>
      have href := reference?_of_follow hs
      dsimp only
      split
      · rename_i properties hshape
        exact ⟨fun _ => ⟨s, .here hs, (plainObject_iff href).mpr ⟨_, hshape⟩⟩, fun _ => rfl⟩
      · -- what is not an object by its shape is one if a member is seen as one
        rename_i hnot
        rw [List.any_eq_true]
        constructor
        · rintro ⟨m, hm, hlike⟩
          obtain ⟨t, ht, hplain⟩ := ih.mp hlike
          exact ⟨t, .member hs hm ht, hplain⟩
        · rintro ⟨t, ht, hplain⟩
          cases ht with
          | here hs' =>
            obtain rfl := Option.some.inj (hs.symm.trans hs')
            obtain ⟨properties, hshape⟩ := (plainObject_iff href).mp hplain
            exact absurd hshape (hnot properties)
          | member hs' hm ht =>
            obtain rfl := Option.some.inj (hs.symm.trans hs')
            exact ⟨_, hm, ih.mpr ⟨t, ht, hplain⟩⟩

/-- A name is seen if an object that declares it is come upon. -/
theorem seen_iff :
    Seen root n schema name ↔
      ∃ t, Viewed root n schema t ∧ PlainObject t ∧ DeclaresItself t name := by
  constructor
  · intro h
    induction h with
    | @own n schema s table name hs hshape hname =>
      exact ⟨s, .here hs, (plainObject_iff (reference?_of_follow hs)).mpr ⟨_, hshape⟩, table,
        getObj?_of_shape hshape, hname⟩
    | member hs hm _ ih =>
      obtain ⟨t, ht, hplain, hdeclares⟩ := ih
      exact ⟨t, .member hs hm ht, hplain, hdeclares⟩
  · rintro ⟨t, ht, hplain, hdeclares⟩
    induction ht with
    | here hs =>
      refine seen_of_declaresItself hs (fun _ => ?_) hdeclares _
      obtain ⟨hall, hone, hany⟩ := not_composed_iff.mp hplain.whole
      exact ⟨by simp [hall, hone, hany], hplain.object.imp_right And.left⟩
    | member hs hm _ ih => exact .member hs hm (ih hplain hdeclares)

/-! ### By their types -/

/-- What has the type of an object and is no composition is an object by itself. -/
theorem plainObject_of_effectiveTypeWithin (hs : resolve root schema = some s) (hwhole : ¬ Composed s)
    (h : effectiveTypeWithin root (n + 1) schema = some "object") : PlainObject s := by
  have href := reference?_of_follow hs
  rw [effectiveTypeWithin, hs] at h
  dsimp only at h
  split at h
  · rename_i type htype
    obtain rfl := Option.some.inj h
    exact ⟨hwhole, Or.inl htype⟩
  · split at h
    · rename_i members hshape
      -- a composition is written where one is seen
      obtain hobject | ⟨-, hnil | ⟨keyword, hkeyword, hget⟩⟩ := shape_cases s
      · cases hobject.symm.trans hshape
      · rw [hshape] at hnil
        rw [show members = [] from hnil] at h
        cases h
      · exact absurd ⟨keyword, hkeyword, _, hget⟩ hwhole
    · rename_i hshape
      exact (plainObject_iff href).mpr ⟨_, hshape⟩
    · simp at h
    · cases h

/-- **Where no composition stands beside the type of an object**, one is come upon. -/
theorem exists_plainObject_of_effectiveTypeWithin
    (hplain : ∀ t, Viewed root n schema t → Composed t → primaryType t ≠ some "object")
    (h : effectiveTypeWithin root n schema = some "object") :
    ∃ t, Viewed root n schema t ∧ PlainObject t := by
  induction n generalizing schema with
  | zero => cases h
  | succ n ih =>
    cases hs : resolve root schema with
    | none =>
      rw [effectiveTypeWithin, hs] at h
      cases h
    | some s =>
      -- a composition is not typed as an object itself, so one of its members is
      by_cases hcomposed : Composed s
      · have htype := hplain s (.here hs) hcomposed
        rw [effectiveTypeWithin, hs] at h
        dsimp only at h
        split at h
        · rename_i hsome
          obtain rfl := Option.some.inj h
          exact absurd hsome htype
        · split at h
          · rename_i members hshape
            have hmembers : (shape s).members = members := by rw [hshape]; rfl
            obtain ⟨m, hm, hmember⟩ := List.exists_of_findSome?_eq_some h
            rw [← hmembers] at hm
            obtain ⟨t, ht, hobject⟩ := ih (fun t ht => hplain t (.member hs hm ht)) hmember
            exact ⟨t, .member hs hm ht, hobject⟩
          · rename_i hshape
            exact ⟨s, .here hs, (plainObject_iff (reference?_of_follow hs)).mpr ⟨_, hshape⟩⟩
          · simp at h
          · cases h
      · exact ⟨s, .here hs, plainObject_of_effectiveTypeWithin hs hcomposed h⟩

/-! ### Both views -/

/-- Whether a schema that has the type of an object is one by its looks as well, with all properties
that it declares itself, and so are the query parameters that it describes. -/
structure ViewsAgree (root schema : Json) : Prop where
  objectLike : isObjectLike root schema = true
  properties : ∀ s name, resolve root schema = some s → DeclaresItself s name →
    name ∈ Entries.keys (properties root schema)
  query : ∀ p : Parameter, p.schema = schema → p.location = .query → p.contentMediaType = none →
    Style.isQueryObject root p = true

theorem viewsAgree_of (hs : resolve root schema = some s)
    (hobject : ∃ t, Viewed root levels schema t ∧ PlainObject t)
    (hnames : ∀ name, DeclaresItself s name →
      ∃ t, Viewed root levels schema t ∧ PlainObject t ∧ DeclaresItself t name) :
    ViewsAgree root schema where
  objectLike := isObjectLikeWithin_iff.mpr hobject
  properties s' name hs' hdeclares := by
    obtain rfl := Option.some.inj (hs.symm.trans hs')
    exact mem_keys_properties_iff.mpr (seen_iff.mpr (hnames name hdeclares))
  query p hp hlocation hcontent :=
    Style.isQueryObject_iff.mpr ⟨hlocation, hcontent, hp ▸ isObjectLikeWithin_iff.mpr hobject⟩

/-- **When what has the type of an object is seen as one.** Both views of a schema agree if and only if a
plain object is come upon, and one for each name that the schema declares itself. They do if no
composition that is come upon stands beside the type of an object, and none beside properties in the
schema itself. -/
theorem viewsAgree_iff (h : effectiveType root schema = some "object") :
    ∃ s, resolve root schema = some s ∧
      (ViewsAgree root schema ↔
        (∃ t, Viewed root levels schema t ∧ PlainObject t) ∧
          ∀ name, DeclaresItself s name →
            ∃ t, Viewed root levels schema t ∧ PlainObject t ∧ DeclaresItself t name) ∧
      ((∀ t, Viewed root levels schema t → Composed t → primaryType t ≠ some "object") →
        (Composed s → ∀ name, ¬ DeclaresItself s name) → ViewsAgree root schema) := by
  cases hs : resolve root schema with
  | none =>
    rw [effectiveType, levels, effectiveTypeWithin, hs] at h
    cases h
  | some s =>
    refine ⟨s, rfl, ⟨fun hagree => ⟨isObjectLikeWithin_iff.mp hagree.objectLike, ?_⟩, fun hviews =>
      viewsAgree_of hs hviews.1 hviews.2⟩, fun hplain hown => ?_⟩
    · intro name hdeclares
      exact seen_iff.mp (mem_keys_properties_iff.mp (hagree.properties s name hs hdeclares))
    · refine viewsAgree_of hs (exists_plainObject_of_effectiveTypeWithin hplain h) ?_
      intro name hdeclares
      have hwhole : ¬ Composed s := fun hcomposed => hown hcomposed name hdeclares
      exact ⟨s, .here hs, plainObject_of_effectiveTypeWithin hs hwhole h, hdeclares⟩

/-- A root with one named schema, an object. -/
def colorRoot : Json :=
  .obj [("components", .obj [("schemas", .obj
    [("Color", .obj [("type", .str "object"), ("properties", .obj [("color", .obj [])])])])])]

/-- A composition that refers to an object. -/
def colorReferring : Json :=
  .obj [("allOf", .arr [.obj [("$ref", .str "#/components/schemas/Color")]])]

/-- A composition declares nothing itself, and has the type of the object that it refers to. -/
theorem viewsAgree_iff_colorReferring :
    effectiveType colorRoot colorReferring = some "object" ∧ ViewsAgree colorRoot colorReferring := by
  have htype : effectiveType colorRoot colorReferring = some "object" := by decide
  refine ⟨htype, ?_⟩
  obtain ⟨s, hs, hiff, -⟩ := viewsAgree_iff htype
  obtain rfl : s = colorReferring :=
    Option.some.inj (hs.symm.trans (by decide :
      resolve colorRoot colorReferring = some colorReferring))
  have hview : isObjectLikeWithin colorRoot levels colorReferring = true := by decide
  refine hiff.mpr ⟨isObjectLikeWithin_iff.mp hview, ?_⟩
  rintro name ⟨table, htable, -⟩
  exact absurd (hasKey_of_getObj? htable) (by decide)

/-- An object that demands one of its properties by way of a composition. -/
def colorBesideAllOf : Json :=
  .obj
    [("type", .str "object"),
     ("properties", .obj [("color", .obj [("type", .str "string")])]),
     ("allOf", .arr [.obj [("required", .arr [.str "color"])]])]

/-- It has the type of an object, and is not seen as one: its composition comes first. -/
theorem not_viewsAgree_colorBesideAllOf :
    effectiveType (.obj []) colorBesideAllOf = some "object" ∧
      isObjectLike (.obj []) colorBesideAllOf = false ∧ properties (.obj []) colorBesideAllOf = [] ∧
      ¬ ViewsAgree (.obj []) colorBesideAllOf := by
  have hlike : isObjectLike (.obj []) colorBesideAllOf = false := by decide
  refine ⟨by decide, hlike, by decide, fun hagree => ?_⟩
  rw [hagree.objectLike] at hlike
  cases hlike

end RequestGate.Schema
