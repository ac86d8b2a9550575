import RequestGate.Proofs.Schema.Pruning.Places

/-!
# Declared members that are removed

What a schema declares is collected from one view of it (`RequestGate.Schema.Seen`), and the view does
not show all that is written there. A composition hides the properties that stand beside it, and a type
that is not that of an object hides them too. But where there are properties at all, the members that
the view does not show are taken for undeclared.

So pruning keeps what is declared exactly if the view shows it wherever members can be taken
(`RequestGate.Schema.keepsDeclared_iff`); and it shows it if no composition stands beside properties, and
no other type above them.
-/

namespace RequestGate.Schema

open Json

variable {root schema s t value : Json} {name : String} {known more table : Entries Json} {n : Nat}

/-! ### What the view shows -/

/-- Whether a name is seen among the properties of a schema: in the table of one that is seen as an
object, or in a member of what is seen as a composition, with references followed. -/
inductive Seen (root : Json) : (levels : Nat) → (schema : Json) → (name : String) → Prop where
  | own {n : Nat} {schema s : Json} {table : Entries Json} {name : String}
      (hs : resolve root schema = some s) (hshape : shape s = .object (some table))
      (hname : name ∈ Entries.keys table) : Seen root (n + 1) schema name
  | member {n : Nat} {schema s m : Json} {name : String} (hs : resolve root schema = some s)
      (hm : m ∈ (shape s).members) (h : Seen root n m name) : Seen root (n + 1) schema name

theorem mem_keys_addNew :
    name ∈ Entries.keys (addNew known more) ↔
      name ∈ Entries.keys known ∨ name ∈ Entries.keys more := by
  rw [← Entries.contains_iff, ← Entries.contains_iff, ← Entries.contains_iff, Entries.contains,
    Entries.contains, Entries.contains, get?_addNew, Option.isSome_or, Bool.or_eq_true]

theorem mem_keys_collectProperties : name ∈ Entries.keys (collectProperties root n known schema) ↔
    name ∈ Entries.keys known ∨ Seen root n schema name := by
  induction n generalizing known schema with
  | zero => exact ⟨Or.inl, fun h => h.resolve_right fun hseen => by cases hseen⟩
  | succ n ih =>
    -- the members add to one table in turn, so what is known has to vary
    have hfold : ∀ (members : List Json) (known : Entries Json),
        name ∈ Entries.keys (members.foldl (collectProperties root n) known) ↔
          name ∈ Entries.keys known ∨ ∃ m ∈ members, Seen root n m name := by
      intro members
      induction members with
      | nil => simp
      | cons m members ihmembers =>
        intro known
        rw [List.foldl_cons, ihmembers, ih, List.exists_mem_cons_iff, or_assoc]
    rw [collectProperties]
    cases hs : resolve root schema with
    | none =>
      refine ⟨Or.inl, fun h => h.resolve_right fun hseen => ?_⟩
      cases hseen with
      | own hs' _ _ => cases hs.symm.trans hs'
      | member hs' _ _ => cases hs.symm.trans hs'
    | some s =>
      dsimp only
      split
      · -- an object adds its own properties and does not look at members
        rename_i table hshape
        rw [mem_keys_addNew]
        refine or_congr_right ⟨fun hname => .own hs hshape hname, fun hseen => ?_⟩
        cases hseen with
        | own hs' hshape' hname =>
          obtain rfl := Option.some.inj (hs.symm.trans hs')
          obtain rfl := Option.some.inj (Shape.object.inj (hshape.symm.trans hshape'))
          exact hname
        | member hs' hm _ =>
          obtain rfl := Option.some.inj (hs.symm.trans hs')
          rw [hshape] at hm
          cases hm
      · rename_i hnot
        rw [hfold]
        refine or_congr_right ⟨?_, fun hseen => ?_⟩
        · rintro ⟨m, hm, hseen⟩
          exact .member hs hm hseen
        · cases hseen with
          | own hs' hshape _ =>
            obtain rfl := Option.some.inj (hs.symm.trans hs')
            exact absurd hshape (hnot _)
          | member hs' hm hseen =>
            obtain rfl := Option.some.inj (hs.symm.trans hs')
            exact ⟨_, hm, hseen⟩

/-- **What pruning takes for declared** is what is seen. -/
theorem mem_keys_properties_iff :
    name ∈ Entries.keys (properties root schema) ↔ Seen root levels schema name := by
  rw [properties, mem_keys_collectProperties, Entries.keys_nil, or_iff_right List.not_mem_nil]

/-! ### What is declared -/

/-- Whether a schema has a name under its own `properties`. -/
def DeclaresItself (s : Json) (name : String) : Prop :=
  ∃ table, s.getObj? "properties" = some table ∧ name ∈ Entries.keys table

/-- Whether a schema declares a name, itself or by a member of `allOf`, with references followed. -/
def Declares (root s : Json) (name : String) : Prop :=
  DeclaresItself s name ∨
    ∃ members, s.getArr? "allOf" = some members ∧ ∃ m ∈ members, ∃ t, resolve root m = some t ∧
      DeclaresItself t name

/-- Whether nothing hides the properties of a schema, nor those of the members of its `allOf`. -/
structure Legible (root s : Json) : Prop where
  own : s.hasKey "properties" = true → Unhidden s
  members : ∀ members, s.getArr? "allOf" = some members → ∀ m ∈ members, ∀ t,
    resolve root m = some t → t.hasKey "properties" = true → Unhidden t

theorem seen_of_declaresItself (hs : resolve root schema = some s)
    (hunhidden : s.hasKey "properties" = true → Unhidden s) (h : DeclaresItself s name) (n : Nat) :
    Seen root (n + 1) schema name := by
  obtain ⟨table, htable, hname⟩ := h
  have hshape := (hunhidden (hasKey_of_getObj? htable)).shape (reference?_of_follow hs) htable
  exact .own hs hshape hname

/-- What is declared and not hidden is seen. -/
theorem Legible.seen (h : Legible root s) (href : reference? s = none)
    (hdeclares : Declares root s name) : Seen root levels s name := by
  rcases hdeclares with hown | ⟨members, hmembers, m, hm, t, ht, hown⟩
  · exact seen_of_declaresItself (resolve_of_none href) h.own hown maxHops
  · have hshape : shape s = .allOf members := by rw [shape, href, hmembers]
    refine .member (resolve_of_none href) (by rwa [hshape]) ?_
    exact seen_of_declaresItself ht (h.members members hmembers m hm t ht) hown _

/-! ### What is kept -/

/-- Whether no mode removes what is declared from any object that a schema governs. -/
def KeepsDeclared (schema : Json) : Prop :=
  ∀ mode value path s name, governing? schema schema path = some s → Declares schema s name →
    ¬ Removes mode schema value (path ++ [.member name])

/-- What is seen is never removed. -/
theorem Seen.not_removes {mode : RemoveAdditional} {path : List Step} (h : Seen schema levels s name)
    (hs : governing? schema schema path = some s) :
    ¬ Removes mode schema value (path ++ [.member name]) := by
  intro hremoves
  obtain ⟨-, a, -, htakes⟩ := takes_of_removes hs hremoves
  exact htakes.undeclared (mem_keys_properties_iff.mpr h)

/-- **Declared members are kept exactly if they are seen** wherever members can be taken; and they are
seen where nothing hides them. -/
theorem keepsDeclared_iff (schema : Json) :
    (KeepsDeclared schema ↔
      ∀ path s, path.length ≤ maxHops → governing? schema schema path = some s →
        Consulted schema s → ∀ name, Declares schema s name → Seen schema levels s name) ∧
    ((∀ path s, path.length ≤ maxHops → governing? schema schema path = some s →
        Consulted schema s → Legible schema s) →
      KeepsDeclared schema) := by
  have hkept : (∀ path s, path.length ≤ maxHops → governing? schema schema path = some s →
      Consulted schema s → ∀ name, Declares schema s name → Seen schema levels s name) →
        KeepsDeclared schema := by
    intro hseen mode value path s name hs hdeclares hremoves
    obtain ⟨hlength, a, -, htakes⟩ := takes_of_removes hs hremoves
    exact (hseen path s hlength hs htakes.consulted name hdeclares).not_removes hs hremoves
  refine ⟨⟨fun h path s hlength hs hconsulted name hdeclares => ?_, hkept⟩, fun hlegible => ?_⟩
  · -- an object with no other member, from which the mode that takes all takes what is not seen
    by_contra hunseen
    refine h .all (along (path ++ [.member name]) .null) path s name hs hdeclares ?_
    exact removes_of_takes (wellFormed_along _ trivial) hs hlength (at?_along _ _)
      ⟨hconsulted, fun hname => hunseen (mem_keys_properties_iff.mp hname), rfl⟩
  · refine hkept fun path s hlength hs hconsulted name hdeclares => ?_
    obtain ⟨sub, -, hsub⟩ := Option.bind_eq_some_iff.mp hs
    exact (hlegible path s hlength hs hconsulted).seen (reference?_of_follow hsub) hdeclares

/-- An object schema that adds a property of its own to those of another. -/
def ownBesideAllOf : Json :=
  .obj
    [("type", .str "object"),
     ("properties", .obj [("a", .obj [])]),
     ("allOf", .arr [.obj [("type", .str "object"), ("properties", .obj [("b", .obj [])])]]),
     ("additionalProperties", .bool false)]

/-- A property beside `allOf` is declared, and removed. -/
theorem not_keepsDeclared_ownBesideAllOf : ¬ KeepsDeclared ownBesideAllOf := by
  intro h
  have hdeclares : Declares ownBesideAllOf ownBesideAllOf "a" :=
    Or.inl ⟨[("a", .obj [])], by decide, by decide⟩
  refine h .declared (.obj [("a", ofInt 1), ("b", ofInt 2)]) [] ownBesideAllOf "a" ?_ hdeclares
    ⟨?_, ?_⟩ <;> decide

end RequestGate.Schema
