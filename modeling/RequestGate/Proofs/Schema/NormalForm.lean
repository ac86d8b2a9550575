import RequestGate.Proofs.Schema.Dialect

/-!
# The Draft 7 form is a normal form

Schemas are brought to Draft 7 at several places, and the schema of one place may hold what another has
done already. The file proves that this is harmless: a second pass changes nothing, not even the order of
the keys (`RequestGate.Schema.normalize_normalForm`).

A schema stands at a *place* within another, which is a list of steps through keywords
(`RequestGate.Schema.heldAt?`). Each place of the form holds the form of what stood there
(`RequestGate.Schema.heldAt?_normalize`), so it is enough to look at one schema at a time:

* in the form neither `nullable` nor a Boolean flag is left (`RequestGate.Schema.isNormal_normalMembers`),
  provided that no *bound* is a Boolean, since a bound may come to stand under the keyword of its flag;
* where neither is, there is nothing to replace (`RequestGate.Schema.normalize_eq_self`);
* what describes data is kept (`RequestGate.Schema.keepsData_normalMembers`).

That a form means what its schema means is another matter, and proved with the dialects.
-/

namespace RequestGate

namespace Schema

variable {members : Entries Json} {schema s value : Json} {keyword : String}

/-! ### Places within a schema -/

/-- A step from a schema to one that it holds. -/
inductive Part where
  /-- The schema under a keyword. -/
  | single (keyword : String)
  /-- One of the schemas in the array under a keyword. -/
  | item (keyword : String) (index : Nat)
  /-- One of the schemas in the object under a keyword. -/
  | entry (keyword name : String)
deriving DecidableEq

/-- The schema that a step leads to. -/
def part? : Json → Part → Option Json
  | .obj members, .single keyword =>
    if nesting keyword = .oneOrMany then
      (Entries.get? members keyword).bind fun value => if value.isArr then none else some value
    else none
  | .obj members, .item keyword index =>
    if nesting keyword = .oneOrMany ∨ nesting keyword = .many then (listUnder members keyword)[index]?
    else none
  | .obj members, .entry keyword name =>
    if nesting keyword = .table then Entries.get? (tableUnder members keyword) name else none
  | _, _ => none

/-- The schema at a place within another. -/
def heldAt? (schema : Json) : List Part → Option Json
  | [] => some schema
  | part :: path => (part? schema part).bind (heldAt? · path)

/-- Whether all objects at places within a schema are of a kind, itself included. -/
def EveryHeld (P : Entries Json → Prop) (schema : Json) : Prop :=
  ∀ path members, heldAt? schema path = some (.obj members) → P members

theorem mem_subschemas_of_part? {part : Part} (h : part? (.obj members) part = some s) :
    s ∈ subschemas members := by
  cases part with
  | single keyword =>
    rw [part?] at h
    split at h
    · rename_i hkeyword
      obtain ⟨value, hget, hvalue⟩ := Option.bind_eq_some_iff.mp h
      split at hvalue
      · cases hvalue
      · obtain rfl := Option.some.inj hvalue
        exact mem_subschemas_of_single hkeyword hget
    · cases h
  | item keyword index =>
    rw [part?] at h
    split at h
    · rename_i hkeyword
      obtain ⟨schemas, hget, hmem⟩ := mem_listUnder.mp (List.mem_of_getElem? h)
      refine mem_subschemas_of_get? hget ?_
      rcases hkeyword with hkeyword | hkeyword
      · exact hkeyword ▸ List.mem_cons_of_mem _ hmem
      · exact hkeyword ▸ hmem
    · cases h
  | entry keyword name =>
    rw [part?] at h
    split at h
    · rename_i hkeyword
      exact mem_subschemas_of_mem_table hkeyword (Entries.mem_of_get? h)
    · cases h

namespace EveryHeld

variable {P : Entries Json → Prop}

theorem here (h : EveryHeld P (.obj members)) : P members :=
  h [] members rfl

theorem part {part : Part} (h : EveryHeld P schema) (hpart : part? schema part = some s) :
    EveryHeld P s := by
  intro path members hat
  exact h (part :: path) members (by rw [heldAt?, hpart, Option.bind_some, hat])

theorem of_leaf (h : schema.isObj = false) : EveryHeld P schema := by
  intro path members hat
  cases path with
  | nil =>
    rw [heldAt?, Option.some.injEq] at hat
    rw [hat] at h
    cases h
  | cons part path =>
    have hnone : part? schema part = none := by
      cases schema with
      | obj _ => cases h
      | _ => cases part <;> rfl
    rw [heldAt?, hnone] at hat
    cases hat

theorem obj (hhere : P members) (hparts : ∀ s ∈ subschemas members, EveryHeld P s) :
    EveryHeld P (.obj members) := by
  intro path found hat
  cases path with
  | nil =>
    rw [heldAt?, Option.some.injEq, Json.obj.injEq] at hat
    exact hat ▸ hhere
  | cons part path =>
    obtain ⟨s, hs, hat⟩ := Option.bind_eq_some_iff.mp hat
    exact hparts s (mem_subschemas_of_part? hs) path found hat

end EveryHeld

/-! ### Places of the form -/

theorem nesting_of_changed (h : keyword ∈ changed) : nesting keyword = .nothing := by
  simp only [changed, List.mem_cons, List.not_mem_nil, or_false] at h
  rcases h with rfl | rfl | rfl | rfl | rfl | rfl | rfl <;> rfl

theorem normalizeUnder_single (h : value.isArr = false) :
    normalizeUnder .oneOrMany value = normalize value := by
  cases value with
  | obj members => exact normalizeUnder_oneOrMany_obj members
  | arr items => cases h
  | _ => simp [normalizeUnder, normalize]

/-- Each step leads to the form of what it led to. -/
theorem part?_normalize (hw : schema.WellFormed) (part : Part) :
    part? (normalize schema) part = (part? schema part).map normalize := by
  cases schema with
  | obj members =>
    -- keywords that hold schemas are not among those that change
    have hkept : ∀ {keyword}, nesting keyword ≠ .nothing → keyword ∉ changed :=
      fun hne hchanged => hne (nesting_of_changed hchanged)
    rw [normalize_obj]
    cases part with
    | single keyword =>
      simp only [part?]
      split
      · rename_i hkeyword
        rw [get?_normalMembers_of_not_changed hw (hkept (by simp [hkeyword])), hkeyword]
        cases Entries.get? members keyword with
        | none => rfl
        | some value =>
          rw [Option.map_some, Option.bind_some, Option.bind_some, isArr_normalizeUnder]
          cases harr : value.isArr with
          | true => rfl
          | false => simp [normalizeUnder_single harr]
      · rfl
    | item keyword index =>
      simp only [part?]
      split
      · rename_i hkeyword
        have hne : nesting keyword ≠ .nothing := by rcases hkeyword with h | h <;> simp [h]
        rw [listUnder_normalMembers hw hkeyword (hkept hne), List.getElem?_map]
      · rfl
    | entry keyword name =>
      simp only [part?]
      split
      · rename_i hkeyword
        rw [tableUnder_normalMembers hw hkeyword (hkept (by simp [hkeyword])), Entries.get?_mapValues]
      · rfl
  | _ => cases part <;> rw [normalize_leaf rfl] <;> rfl

theorem wellFormed_of_part? {part : Part} (hw : schema.WellFormed) (h : part? schema part = some s) :
    s.WellFormed := by
  cases schema with
  | obj members => exact wellFormed_of_mem_subschemas hw (mem_subschemas_of_part? h)
  | _ => cases part <;> cases h

theorem wellFormed_of_heldAt? (hw : schema.WellFormed) {path : List Part}
    (h : heldAt? schema path = some s) : s.WellFormed := by
  induction path generalizing schema with
  | nil => exact Option.some.inj h ▸ hw
  | cons part path ih =>
    obtain ⟨held, hpart, hat⟩ := Option.bind_eq_some_iff.mp h
    exact ih (wellFormed_of_part? hw hpart) hat

/-- **Each place of the form holds the form** of what stood there. -/
theorem heldAt?_normalize (hw : schema.WellFormed) (path : List Part) :
    heldAt? (normalize schema) path = (heldAt? schema path).map normalize := by
  induction path generalizing schema with
  | nil => rfl
  | cons part path ih =>
    rw [heldAt?, heldAt?, part?_normalize hw]
    cases hpart : part? schema part with
    | none => rfl
    | some s => exact ih (wellFormed_of_part? hw hpart)

/-! ### Normal schemas -/

/-- Whether there is nothing to replace in a schema. -/
structure IsNormal (members : Entries Json) : Prop where
  nullable : "nullable" ∉ Entries.keys members
  flags : ∀ flag ∈ ["exclusiveMinimum", "exclusiveMaximum"], ∀ b,
    Entries.get? members flag ≠ some (.bool b)

/-- Whether the bounds of a schema are no flags. -/
def HasBounds (members : Entries Json) : Prop :=
  ∀ bound ∈ ["minimum", "maximum"], ∀ b, Entries.get? members bound ≠ some (.bool b)

instance (members : Entries Json) : Decidable (HasBounds members) :=
  inferInstanceAs (Decidable (∀ _ ∈ _, _))

theorem replaceExclusive_eq_self {exclusive inclusive : String}
    (h : ∀ b, Entries.get? members exclusive ≠ some (.bool b)) :
    replaceExclusive exclusive inclusive members = members := by
  rw [replaceExclusive]
  split
  · exact absurd ‹_› (h true)
  · exact absurd ‹_› (h false)
  · rfl

theorem replaceKeywords_eq_self (h : IsNormal members) : replaceKeywords members = members := by
  have hnullable : replaceNullable members = members := by
    rw [replaceNullable, Entries.get?_eq_none_iff.mpr h.nullable]
  rw [replaceKeywords, hnullable, replaceExclusive_eq_self (h.flags "exclusiveMinimum" (by simp)),
    replaceExclusive_eq_self (h.flags "exclusiveMaximum" (by simp))]

/-- A flag gives way to a bound, which is none. -/
theorem get?_replaceExclusive_ne_flag {exclusive inclusive : String} (hd : Entries.Distinct members)
    (h : ∀ b, Entries.get? members inclusive ≠ some (.bool b)) (b : Bool) :
    Entries.get? (replaceExclusive exclusive inclusive members) exclusive ≠ some (.bool b) := by
  rw [get?_replaceExclusive_self exclusive inclusive hd]
  split
  · exact h b
  · rename_i htrue
    split
    · simp
    · rename_i hfalse
      cases b
      · exact hfalse
      · exact htrue

/-- **One pass leaves nothing to replace.** -/
theorem isNormal_normalMembers (hw : (Json.obj members).WellFormed) (hbounds : HasBounds members) :
    IsNormal (normalMembers members) := by
  have hwn := wellFormed_normalizeMembers_obj hw
  have hnullable := wellFormed_replaceNullable hwn
  have hminimum := wellFormed_replaceExclusive "exclusiveMinimum" "minimum" hnullable
  -- what ends up under the exclusive keywords are bounds, and no bound is a boolean
  have hbound : ∀ bound ∈ ["minimum", "maximum"], ∀ b,
      Entries.get? (replaceNullable (normalizeMembers members)) bound ≠ some (.bool b) := by
    intro bound hmem b
    have hnothing : nesting bound = .nothing := by
      rcases List.mem_pair.mp hmem with rfl | rfl <;> rfl
    have hget : Entries.get? (normalizeMembers members) bound ≠ some (.bool b) := by
      rw [get?_normalizeMembers_of_nothing hnothing]
      exact hbounds bound hmem b
    rw [get?_replaceNullable hwn.1]
    rcases List.mem_pair.mp hmem with rfl | rfl <;> simpa using hget
  refine ⟨?_, fun flag hflag b => ?_⟩
  · rw [← Entries.get?_eq_none_iff, get?_normalMembers_of_not_bound hw (by decide), if_pos rfl]
  · rw [normalMembers, replaceKeywords]
    rcases List.mem_pair.mp hflag with rfl | rfl
    · rw [get?_replaceExclusive_of_ne _ _ hminimum.1 (by decide), if_neg (by simp)]
      exact get?_replaceExclusive_ne_flag hnullable.1 (hbound "minimum" (by simp)) b
    · refine get?_replaceExclusive_ne_flag hminimum.1 (fun b => ?_) b
      rw [get?_replaceExclusive_of_ne _ _ hnullable.1 (by decide), if_neg (by simp)]
      exact hbound "maximum" (by simp) b

theorem normalizeUnder_eq_self {n : Nesting} (h : ∀ s ∈ heldUnder n value, normalize s = s) :
    normalizeUnder n value = value := by
  have hlist : ∀ {schemas : List Json}, (∀ s ∈ schemas, normalize s = s) →
      normalizeList schemas = schemas := by
    intro schemas hall
    rw [normalizeList_eq, List.map_congr_left hall, List.map_id']
  cases n with
  | oneOrMany =>
    cases value with
    | arr schemas =>
      -- the list is held as well, but only its items have forms
      rw [normalizeUnder, if_pos (Or.inl rfl), hlist fun s hs => h s (List.mem_cons_of_mem _ hs)]
    | obj members => rw [normalizeUnder_oneOrMany_obj, h _ (List.mem_singleton_self _)]
    | _ => simp [normalizeUnder]
  | many =>
    cases value with
    | arr schemas =>
      have hheld : normalizeList schemas = schemas := hlist h
      rw [normalizeUnder, if_pos (Or.inr rfl), hheld]
    | _ => simp [normalizeUnder]
  | table =>
    cases value with
    | obj table =>
      have hentries : ∀ e ∈ table, (e.1, normalize e.2) = e := fun e he =>
        Prod.ext rfl (h e.2 (List.mem_map_of_mem (f := Prod.snd) he))
      simp only [normalizeUnder, normalizeTable_eq, Entries.mapValues]
      rw [List.map_congr_left hentries, List.map_id']
    | _ => simp [normalizeUnder]
  | nothing => exact normalizeUnder_nothing value

theorem normalizeMembers_eq_self (h : ∀ s ∈ subschemas members, normalize s = s) :
    normalizeMembers members = members := by
  induction members with
  | nil => rfl
  | cons e members ih =>
    obtain ⟨k, v⟩ := e
    rw [subschemas, List.flatMap_cons, List.forall_mem_append] at h
    rw [normalizeMembers, normalizeUnder_eq_self h.1, ih h.2]

/-- Objects that a schema holds are reached by a step. -/
theorem exists_part_of_mem_subschemas (hw : (Json.obj members).WellFormed)
    (h : s ∈ subschemas members) : s.isObj = false ∨ ∃ part, part? (.obj members) part = some s := by
  obtain ⟨⟨keyword, value⟩, he, hs⟩ := List.mem_flatMap.mp h
  have hget := Entries.get?_of_mem hw.1 he
  have hvalue := hw.2.of_mem he
  have hitem : ∀ schemas, value = .arr schemas → s ∈ schemas →
      nesting keyword = .oneOrMany ∨ nesting keyword = .many →
      ∃ part, part? (.obj members) part = some s := by
    rintro schemas rfl hmem hkeyword
    obtain ⟨index, hindex⟩ := List.mem_iff_getElem?.mp hmem
    refine ⟨.item keyword index, ?_⟩
    rw [part?, if_pos hkeyword, listUnder, hget]
    exact hindex
  dsimp only at hs
  cases hkeyword : nesting keyword with
  | oneOrMany =>
    rw [hkeyword] at hs
    cases value with
    | arr schemas =>
      -- the list itself counts among what is held, but it is no object
      rcases List.mem_cons.mp hs with rfl | hs
      · exact Or.inl rfl
      · exact Or.inr (hitem schemas rfl hs (Or.inl hkeyword))
    | _ =>
      obtain rfl := List.mem_singleton.mp hs
      refine Or.inr ⟨.single keyword, ?_⟩
      rw [part?, if_pos hkeyword, hget]
      rfl
  | many =>
    rw [hkeyword] at hs
    cases value with
    | arr schemas => exact Or.inr (hitem schemas rfl hs (Or.inr hkeyword))
    | _ => cases hs
  | table =>
    rw [hkeyword] at hs
    cases value with
    | obj table =>
      obtain ⟨⟨name, found⟩, hmem, rfl⟩ := List.mem_map.mp hs
      refine Or.inr ⟨.entry keyword name, ?_⟩
      rw [part?, if_pos hkeyword, tableUnder, hget]
      exact Entries.get?_of_mem hvalue.1 hmem
    | _ => cases hs
  | nothing =>
    rw [hkeyword] at hs
    cases value <;> cases hs

/-- **A schema that is normal at all places is its own form.** -/
theorem normalize_eq_self (hw : schema.WellFormed) (h : EveryHeld IsNormal schema) :
    normalize schema = schema := by
  -- on the size: the schemas that one holds are smaller
  induction hsize : schema.size using Nat.strong_induction_on generalizing schema with
  | _ n ih =>
    cases schema with
    | obj members =>
      rw [normalize_obj, normalMembers, normalizeMembers_eq_self, replaceKeywords_eq_self h.here]
      intro s hs
      rcases exists_part_of_mem_subschemas hw hs with hobj | ⟨part, hpart⟩
      · exact normalize_leaf hobj
      · exact ih s.size (hsize ▸ size_lt_of_mem_subschemas hs) (wellFormed_of_mem_subschemas hw hs)
          (h.part hpart) rfl
    | _ => exact normalize_leaf rfl

/-- **The form is normal at all places.** -/
theorem everyHeld_isNormal_normalize (hw : schema.WellFormed) (h : EveryHeld HasBounds schema) :
    EveryHeld IsNormal (normalize schema) := by
  intro path normal hat
  rw [heldAt?_normalize hw] at hat
  obtain ⟨s, hs, hnormal⟩ := Option.map_eq_some_iff.mp hat
  have hws : s.WellFormed := wellFormed_of_heldAt? hw hs
  cases s with
  | obj members =>
    rw [normalize_obj, Json.obj.injEq] at hnormal
    exact hnormal ▸ isNormal_normalMembers hws (h path members hs)
  | _ =>
    rw [normalize_leaf rfl] at hnormal
    cases hnormal

/-! ### What describes data -/

/-- Whether the data of a schema are those of another: all values that are no schemas and that the
dialects do not read differently, such as `default` and `example`, the names of described members, and
the values of `enum`, but for a `null` at their end. -/
structure KeepsData (before after : Entries Json) : Prop where
  data : ∀ keyword, nesting keyword = .nothing → keyword ∉ changed →
    Entries.get? after keyword = Entries.get? before keyword
  names : ∀ keyword, nesting keyword = .table →
    Entries.keys (tableUnder after keyword) = Entries.keys (tableUnder before keyword)
  enum : Entries.get? after "enum" = Entries.get? before "enum" ∨
    ∃ values, Entries.get? before "enum" = some (.arr values) ∧ IsNullable before ∧
      .null ∉ values ∧ Entries.get? after "enum" = some (.arr (values ++ [.null]))

/-- Whether a value may stand in a form where another one stood: an object that keeps the data of the
other, or the other itself if that is no object. -/
inductive KeepsPlace : Json → Json → Prop where
  | leaf {s : Json} (h : s.isObj = false) : KeepsPlace s s
  | obj {before after : Entries Json} (h : KeepsData before after) :
    KeepsPlace (.obj before) (.obj after)

theorem keepsData_normalMembers (hw : (Json.obj members).WellFormed) :
    KeepsData members (normalMembers members) where
  data keyword hkeyword h := by
    rw [get?_normalMembers_of_not_changed hw h, hkeyword, funext normalizeUnder_nothing]
    exact Option.map_id'
  names keyword hkeyword := by
    have hkept : keyword ∉ changed := fun h => by simp [nesting_of_changed h] at hkeyword
    rw [tableUnder_normalMembers hw hkeyword hkept]
    simp [Entries.mapValues, Entries.keys]
  enum := by
    rw [get?_enum_normalMembers hw]
    split
    · -- `null` joins the values of a nullable schema, unless it is among them
      rename_i hnullable
      cases henum : Entries.get? members "enum" with
      | none => exact Or.inl rfl
      | some value =>
        cases value with
        | arr values =>
          rw [Option.map_some, widenEnum]
          split
          · exact Or.inl rfl
          · rename_i hnull
            exact Or.inr ⟨values, rfl, hnullable, fun h => hnull (List.contains_iff_mem.mpr h), rfl⟩
        | _ => exact Or.inl rfl
    · exact Or.inl rfl

/-- **Bringing a schema to Draft 7 reaches a normal form.** For every schema in which no bound is a
flag, a second pass changes nothing, and at no place of the form is there a `nullable` or a Boolean flag
left. The places are those of the schema, and at each of them the data are the same. -/
theorem normalize_normalForm (hw : schema.WellFormed) (hbounds : EveryHeld HasBounds schema) :
    normalize (normalize schema) = normalize schema ∧
      EveryHeld IsNormal (normalize schema) ∧
      ∀ path, Option.Rel KeepsPlace (heldAt? schema path) (heldAt? (normalize schema) path) := by
  have hnormal := everyHeld_isNormal_normalize hw hbounds
  refine ⟨normalize_eq_self (wellFormed_normalize schema hw) hnormal, hnormal, fun path => ?_⟩
  rw [heldAt?_normalize hw]
  cases hat : heldAt? schema path with
  | none => exact .none
  | some s =>
    refine .some ?_
    cases s with
    | obj members =>
      rw [normalize_obj]
      exact .obj (keepsData_normalMembers (wellFormed_of_heldAt? hw hat))
    | _ =>
      rw [normalize_leaf rfl]
      exact .leaf rfl

/-- The age may be `null` and has a bound, and a second pass leaves both as they are. -/
theorem normalize_normalForm_petMembers :
    (Json.obj petMembers).WellFormed ∧ EveryHeld HasBounds (.obj petMembers) ∧
      normalize (normalize (.obj petMembers)) = normalize (.obj petMembers) ∧
      heldAt? (normalize (.obj petMembers)) [.entry "properties" "age"] =
        some (.obj [("type", .arr [.str "integer", .str "null"]), ("exclusiveMinimum", .num (.int 0))]) ∧
      EveryHeld IsNormal (normalize (.obj petMembers)) := by
  have hage : subschemas ageMembers = [] := by decide
  have hflag : subschemas [("enum", .arr [.bool true])] = [] := by decide
  have hparts : subschemas petMembers =
      [.obj ageMembers, .obj [("enum", .arr [.bool true])], .bool false] := by decide
  have hbounds : EveryHeld HasBounds (.obj petMembers) := by
    refine .obj (by decide) ?_
    rw [hparts]
    refine List.forall_mem_cons.mpr ⟨.obj (by decide) (by simp [hage]),
      List.forall_mem_cons.mpr ⟨.obj (by decide) (by simp [hflag]),
        List.forall_mem_cons.mpr ⟨.of_leaf rfl, List.forall_mem_nil _⟩⟩⟩
  obtain ⟨hagain, hnormal, -⟩ := normalize_normalForm wellFormed_petMembers hbounds
  exact ⟨wellFormed_petMembers, hbounds, hagain, by decide, hnormal⟩

/-- A bound that is a flag comes to stand where flags do, and is read as one by a second pass. -/
example :
    normalize (.obj [("minimum", .bool true), ("exclusiveMinimum", .bool true)]) =
        .obj [("exclusiveMinimum", .bool true)] ∧
      normalize (.obj [("exclusiveMinimum", .bool true)]) = .obj [] := by
  decide

end Schema

end RequestGate
