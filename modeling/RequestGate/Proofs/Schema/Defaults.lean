import RequestGate.Proofs.Draft7.Conformance
import RequestGate.Proofs.Schema.Filling
import RequestGate.Proofs.Schema.Visits

/-!
# Defaults that break nothing

Filling in defaults goes by one table of properties, in which those of all members of a composition are
merged. So a default may end up in an object that a schema elsewhere in the composition closes, or that
an alternative demanded to be without it, and a value that conformed does not conform any more.

`RequestGate.Schema.FillsSafely` lists what keeps that from happening. It goes along with filling and
keeps beside the schema that filling goes by one that the value is judged by. Every schema by which the
judge lets the value be judged must do with what is put in
(`RequestGate.Schema.AdmitsFilling`). Then a value that conforms to the judge still does when it has been
filled (`RequestGate.Schema.conforms_fillWithin`).

Above all filling is safe where these schemas hold a name to one and the same schema
(`RequestGate.Schema.fillsSafely_of_agreed`), as a schema that combines no others does, and open schemas
that declare no name in two ways.
-/

namespace RequestGate.Schema

open Draft7

variable {formats : Formats} {root schema filler judge part sub s value a : Json}
  {members own : Entries Json} {name : String} {f : Json → Json → Json} {n : Nat}
  {safe : (sub part : Json) → Prop}

/-- Whether no value conforms to both of two schemas. -/
def Exclusive (formats : Formats) (root s t : Json) : Prop :=
  ∀ value : Json, value.WellFormed → ¬ (Conforms formats root s value ∧ Conforms formats root t value)

/-- What the keywords of a schema need so that filling breaks nothing: a value that is filled may not be
compared, what a part is held to admits the filling of the part and the default that is put in its place
if it is missing, and alternatives stay apart. -/
structure KeywordsAdmit (formats : Formats) (root : Json) (safe : (sub part : Json) → Prop)
    (filler : Json) (members : Entries Json) : Prop where
  enum : ∀ a ∈ listUnder members "enum", a.isObj = false ∧ a.isArr = false
  member : ∀ name sub, Entries.get? (properties root filler) name = some sub →
    ∀ part, HoldsMember name (.obj members) part → safe sub part
  default : ∀ name sub, Entries.get? (properties root filler) name = some sub →
    ∀ part, HoldsMember name (.obj members) part →
      part = sub ∨ ∀ d, declaredDefault? root sub = some d → Conforms formats root part d
  items : ∀ sub, itemSchema? filler = some sub →
    ∀ part, HoldsItems (.obj members) part → safe sub part
  tuple : ∀ schemas, Entries.get? members "items" = some (.arr schemas) → itemSchema? filler = none
  oneOf : (listUnder members "oneOf").Pairwise (Exclusive formats root)
  not : Entries.get? members "not" = none

/-- Whether a judge, and everything it hands the value on to, admits filling. -/
inductive AdmitsFilling (formats : Formats) (root : Json) (safe : (sub part : Json) → Prop)
    (filler : Json) : (judge : Json) → Prop where
  | leaf {judge : Json} (h : judge.isObj = false) : AdmitsFilling formats root safe filler judge
  | reference {judge : Json} {reference : String} (href : reference? judge = some reference)
      (h : ∀ t, resolve? root reference = some t → AdmitsFilling formats root safe filler t) :
      AdmitsFilling formats root safe filler judge
  | keywords {members : Entries Json} (href : reference? (.obj members) = none)
      (hcombined : ∀ t ∈ combined members, AdmitsFilling formats root safe filler t)
      (h : KeywordsAdmit formats root safe filler members) :
      AdmitsFilling formats root safe filler (.obj members)

/-- Whether what conforms to a judge can be filled by a schema: the judge admits it, on all levels, or
nothing is ever filled in. -/
def FillsSafely (formats : Formats) (root : Json) : (levels : Nat) → (filler judge : Json) → Prop
  | 0, _, _ => True
  | levels + 1, filler, judge =>
    ∀ s, resolve root filler = some s →
      (∀ value, fillWithin root (levels + 1) filler value = value) ∨
        AdmitsFilling formats root (FillsSafely formats root levels) s judge

/-! ### Keyword by keyword -/

theorem isObj_of_equal (h : equal (.obj own) a = true) : a.isObj = true := by
  cases a <;> simp [equal, Json.isObj] at h ⊢

theorem isArr_of_equal {items : List Json} (h : equal (.arr items) a = true) : a.isArr = true := by
  cases a <;> simp [equal, Json.isArr] at h ⊢

theorem boundHolds_fillParts (holds : Ordering → Bool) (bound : Json) :
    boundHolds holds bound (fillParts root s f value) = boundHolds holds bound value := by
  cases bound <;> cases value <;> rfl

/-- Filling is not noticed by the keywords that hold no schemas, unless a value that is filled is
compared. -/
theorem valueHolds_fillParts {d : Dialect}
    (henum : ∀ a ∈ listUnder members "enum", a.isObj = false ∧ a.isArr = false)
    (h : ValueHolds d members value) : ValueHolds d members (fillParts root s f value) where
  type types hget := (h.type types hget).imp (fun ⟨hflag, hnull⟩ => ⟨hflag, by rw [hnull]; rfl⟩)
    fun ht => by simpa only [hasType_fillParts] using ht
  enum values hget := by
    rcases h.enum values hget with ⟨hflag, rfl⟩ | ⟨a, ha, hequal⟩
    · exact Or.inl ⟨hflag, rfl⟩
    · -- what equals a scalar is one itself, and filling leaves it as it is
      refine Or.inr ⟨a, ha, ?_⟩
      obtain ⟨hobj, harr⟩ := henum a ha
      rwa [fillParts_of_scalar]
      · cases value with
        | obj own => rw [isObj_of_equal hequal] at hobj; cases hobj
        | _ => rfl
      · cases value with
        | arr items => rw [isArr_of_equal hequal] at harr; cases harr
        | _ => rfl
  minimum bound hget := by simpa only [boundHolds_fillParts] using h.minimum bound hget
  exclusiveMinimum hd bound hget := by
    simpa only [boundHolds_fillParts] using h.exclusiveMinimum hd bound hget
  maximum bound hget := by simpa only [boundHolds_fillParts] using h.maximum bound hget
  exclusiveMaximum hd bound hget := by
    simpa only [boundHolds_fillParts] using h.exclusiveMaximum hd bound hget
  required name hname filled hfilled := by
    cases value with
    | obj own =>
      obtain rfl := Json.obj.inj hfilled
      exact mem_keys_fillProperties (distinct_properties root s) (h.required name hname own rfl)
    | _ => cases hfilled

theorem exactlyOne_of_exclusive {items : List Json} {filled : Json}
    (hexclusive : items.Pairwise (Exclusive formats root)) (hfilled : filled.WellFormed)
    (himp : ∀ t ∈ items, Conforms formats root t value → Conforms formats root t filled)
    (hold : ExactlyOne (fun t => Conforms formats root t value) items) :
    ExactlyOne (fun t => Conforms formats root t filled) items := by
  obtain ⟨before, t, after, rfl, ht, -⟩ := hold
  -- the alternative that was taken still is, and rules out all others
  have hconforms := himp t (by simp) ht
  obtain ⟨-, hafter, hbetween⟩ := List.pairwise_append.mp hexclusive
  refine ⟨before, t, after, rfl, hconforms, fun u hu hother => ?_⟩
  rcases List.mem_append.mp hu with hu | hu
  · exact hbetween u hu t (by simp) filled hfilled ⟨hother, hconforms⟩
  · exact (List.pairwise_cons.mp hafter).1 u hu filled hfilled ⟨hconforms, hother⟩

section Parts

variable (hroot : root.WellFormed) (hs : s.WellFormed)
  (h : KeywordsAdmit formats root safe s members) (hvalue : value.WellFormed)
  (href : reference? (.obj members) = none)
  -- filling a part breaks nothing, and every default conforms to the schema that carries it
  (hfill : ∀ sub part, sub.WellFormed → part ∈ subschemas members → safe sub part →
    ∀ a : Json, a.WellFormed → Conforms formats root part a → Conforms formats root part (f sub a))
  (hdefault : ∀ part ∈ subschemas members, ∀ d, declaredDefault? root part = some d →
    Conforms formats root part d)

include hs h hvalue hfill

include hroot href hdefault in
theorem membersHold_fillParts (hold : MembersHold (Conforms formats root) members value) :
    MembersHold (Conforms formats root) members (fillParts root s f value) := by
  rw [membersHold_iff_holdsMember href] at hold ⊢
  intro name a ha part hpart
  cases value with
  | obj own =>
    rw [fillParts, Json.get?_obj, get?_fillProperties (distinct_properties root s)] at ha
    cases hown : Entries.get? own name with
    | some b =>
      -- the member was there, and has been filled by the schema of its property
      have hb : Conforms formats root part b := hold name b hown part hpart
      cases hsub : Entries.get? (properties root s) name with
      | some sub =>
        rw [hown, hsub] at ha
        obtain rfl := Option.some.inj ha
        have hw := wellFormed_of_mem_properties hroot hs _ (Entries.mem_of_get? hsub)
        exact hfill sub part hw hpart.mem_subschemas (h.member name sub hsub part hpart) b
          (hvalue.get? hown) hb
      | none =>
        rw [hown, hsub] at ha
        exact Option.some.inj ha ▸ hb
    | none =>
      -- the member is a default that has been put in
      cases hsub : Entries.get? (properties root s) name with
      | some sub =>
        rw [hown, hsub] at ha
        rcases h.default name sub hsub part hpart with rfl | hconforms
        · exact hdefault part hpart.mem_subschemas a ha
        · exact hconforms a ha
      | none =>
        rw [hown, hsub] at ha
        cases ha
  | _ => cases ha

theorem conforms_of_mem_fillParts {part : Json} (hpart : HoldsItems (.obj members) part)
    (hold : ∀ own, value = .arr own → ∀ a ∈ own, Conforms formats root part a) {filled : List Json}
    (hfilled : fillParts root s f value = .arr filled) (ha : a ∈ filled) :
    Conforms formats root part a := by
  cases value with
  | arr items =>
    obtain rfl := Json.arr.inj hfilled
    rw [mapItems] at ha
    cases hsub : itemSchema? s with
    | none =>
      rw [hsub] at ha
      exact hold items rfl a ha
    | some sub =>
      rw [hsub] at ha
      obtain ⟨b, hb, rfl⟩ := List.mem_map.mp ha
      exact hfill sub part (hs.get? (Option.filter_eq_some_iff.mp hsub).1) hpart.mem_subschemas
        (h.items sub hsub part hpart) b (Json.wellFormedList_iff.mp hvalue b hb)
        (hold items rfl b hb)
  | _ => cases hfilled

include hroot href hdefault in
/-- **The keywords of a schema that admits filling** hold of the filled value if they held before. -/
theorem keywordsHold_fillParts (hfilled : (fillParts root s f value).WellFormed)
    (hcombined : ∀ t ∈ combined members, Conforms formats root t value →
      Conforms formats root t (fillParts root s f value))
    (hold : KeywordsHold .draft7 (Conforms formats root) members value) :
    KeywordsHold .draft7 (Conforms formats root) members (fillParts root s f value) where
  toValueHolds := valueHolds_fillParts h.enum hold.toValueHolds
  toMembersHold := membersHold_fillParts hroot hs h hvalue href hfill hdefault hold.toMembersHold
  items part hget harr filled hvalues a ha :=
    conforms_of_mem_fillParts hs h hvalue hfill (.intro href hget harr) (hold.items part hget harr)
      hvalues ha
  tuple schemas hget filled hvalues p hp := by
    cases value with
    | arr items =>
      -- a tuple has no schema for all items, so nothing is filled in
      obtain rfl := Json.arr.inj hvalues
      rw [mapItems, h.tuple schemas hget] at hp
      exact hold.tuple schemas hget items rfl p hp
    | _ => cases hvalues
  allOf t ht := hcombined t (by simp [combined, ht]) (hold.allOf t ht)
  anyOf schemas hget := by
    obtain ⟨t, ht, hconforms⟩ := hold.anyOf schemas hget
    exact ⟨t, ht, hcombined t (by simp [combined, ht]) hconforms⟩
  oneOf schemas hget := exactlyOne_of_exclusive h.oneOf hfilled
    (fun t ht => hcombined t (by simp [combined, ht])) (hold.oneOf schemas hget)
  not t hget := by rw [h.not] at hget; cases hget

end Parts

/-! ### Schema by schema -/

/-- Whether a default conforms to the schema that carries it. -/
def DefaultConforms (formats : Formats) (root s : Json) : Prop :=
  ∀ d, declaredDefault? root s = some d → Conforms formats root s d

instance (formats : Formats) (root s : Json) : Decidable (DefaultConforms formats root s) :=
  inferInstanceAs (Decidable (∀ d ∈ declaredDefault? root s, Conforms formats root s d))

/-- Filling breaks nothing at a judge that admits it. -/
theorem AdmitsFilling.conforms (hroot : root.WellFormed) (hs : s.WellFormed)
    (hvalue : value.WellFormed) (hfilled : (fillParts root s f value).WellFormed)
    (hfill : ∀ sub part, sub.WellFormed → part ∈ root.subvalues →
      Throughout root (Readable root) part → Throughout root (DefaultConforms formats root) part →
        safe sub part → ∀ a : Json, a.WellFormed → Conforms formats root part a →
          Conforms formats root part (f sub a))
    (h : AdmitsFilling formats root safe s judge) : judge ∈ root.subvalues →
      Throughout root (Readable root) judge → Throughout root (DefaultConforms formats root) judge →
        Conforms formats root judge value →
          Conforms formats root judge (fillParts root s f value) := by
  induction h with
  | leaf hleaf =>
    intro _ _ _ hconforms
    exact (conforms_leaf_iff hleaf).mpr ((conforms_leaf_iff hleaf).mp hconforms)
  | reference href _ ih =>
    intro hmem hreadable hdefaults hconforms
    refine (conforms_reference_iff hroot hmem hreadable hfilled href).mpr fun t ht => ?_
    have huses := mem_usedBy_of_handedBy (mem_handedBy_of_reference href ht)
    exact ih t ht (mem_subvalues_of_mem_usedBy hmem huses) (hreadable.of_mem_usedBy huses)
      (hdefaults.of_mem_usedBy huses)
      ((conforms_reference_iff hroot hmem hreadable hvalue href).mp hconforms t ht)
  | keywords href _ hadmits ih =>
    -- parts have their hypotheses from `hfill`, combined schemas from the induction
    intro hmem hreadable hdefaults hconforms
    have hold := (conforms_obj_iff hroot hmem hreadable hvalue href).mp hconforms
    refine (conforms_obj_iff hroot hmem hreadable hfilled href).mpr
      (keywordsHold_fillParts hroot hs hadmits hvalue href (fun sub part hsub hpart hsafe => ?_)
        (fun part hpart => ?_) hfilled (fun t ht => ?_) hold)
    · have huses := mem_usedBy_of_subschemas root href hpart
      exact hfill sub part hsub (mem_subvalues_of_mem_usedBy hmem huses) (hreadable.of_mem_usedBy huses)
        (hdefaults.of_mem_usedBy huses) hsafe
    · exact (hdefaults.of_mem_usedBy (mem_usedBy_of_subschemas root href hpart)).self
    · have huses := mem_usedBy_of_handedBy (mem_handedBy_of_combined root href ht)
      exact ih t ht (mem_subvalues_of_mem_usedBy hmem huses) (hreadable.of_mem_usedBy huses)
        (hdefaults.of_mem_usedBy huses)

/-- **What conforms to a judge still does when it has been filled**, if that is safe. -/
theorem conforms_fillWithin (hroot : root.WellFormed) : ∀ {n : Nat} {filler judge value : Json},
    filler.WellFormed → judge ∈ root.subvalues → Throughout root (Readable root) judge →
      Throughout root (DefaultConforms formats root) judge →
        FillsSafely formats root n filler judge → value.WellFormed →
          Conforms formats root judge value →
            Conforms formats root judge (fillWithin root n filler value) := by
  intro n
  induction n with
  | zero => exact fun _ _ _ _ _ _ h => h
  | succ n ih =>
    intro filler judge value hfiller hmem hreadable hdefaults hsafe hvalue hconforms
    cases hs : resolve root filler with
    | none => rwa [fillWithin_of_dangling hs]
    | some s =>
      have hfilled := wellFormed_fillWithin hroot (n := n + 1) hfiller hvalue
      -- either nothing is filled in here, or the judge admits it
      rcases hsafe s hs with hidle | hadmits
      · rwa [hidle]
      · rw [fillWithin_succ hs] at hfilled ⊢
        refine hadmits.conforms hroot (wellFormed_resolve hroot hfiller hs) hvalue hfilled ?_ hmem
          hreadable hdefaults hconforms
        intro sub part hsub hpart hpartReadable hpartDefaults hpartSafe a ha
        exact ih hsub hpart hpartReadable hpartDefaults hpartSafe ha

/-! ### One schema for a name -/

theorem Leads.handsOnTo {t : Json} (h : Leads root s t) : HandsOnTo root s t := by
  induction h with
  | refl => exact .refl
  | step href htarget _ ih => exact .head (mem_handedBy_of_reference href htarget) ih

theorem Leads.admitsFilling {t : Json} (h : Leads root s t)
    (hadmits : AdmitsFilling formats root safe filler t) :
    AdmitsFilling formats root safe filler s := by
  induction h with
  | refl => exact hadmits
  | step href htarget _ ih =>
    refine .reference href fun t ht => ?_
    obtain rfl := Option.some.inj (htarget.symm.trans ht)
    exact ih hadmits

/-- A judge admits filling if all that it hands the value on to do, since that comes to an end. -/
theorem admitsFilling_of_rounds : ∀ {rounds : Nat} {judge : Json},
    Rounds (groundRule root) rounds judge →
      (∀ members, HandsOnTo root judge (.obj members) → reference? (.obj members) = none →
        KeywordsAdmit formats root safe filler members) →
          AdmitsFilling formats root safe filler judge := by
  intro rounds
  induction rounds with
  | zero => exact fun h => h.elim
  | succ rounds ih =>
    intro judge hrounds hadmits
    have hnext : ∀ t ∈ handedBy root judge, AdmitsFilling formats root safe filler t :=
      fun t ht => ih (hrounds t ht) fun members hmembers => hadmits members (.head ht hmembers)
    cases href : reference? judge with
    | some reference =>
      exact .reference href fun t ht => hnext t (mem_handedBy_of_reference href ht)
    | none =>
      cases judge with
      | obj members =>
        exact .keywords href (fun t ht => hnext t (mem_handedBy_of_combined root href ht))
          (hadmits members .refl href)
      | _ => exact .leaf rfl

/-- Where a name has one schema, the default that is put in under it is that of this schema. -/
theorem KeywordsAdmit.of_eq
    (henum : ∀ a ∈ listUnder members "enum", a.isObj = false ∧ a.isArr = false)
    (hown : ∀ name sub, Entries.get? (properties root filler) name = some sub →
      ∀ part, HoldsMember name (.obj members) part → part = sub)
    (hitems : ∀ sub, itemSchema? filler = some sub → ∀ part, HoldsItems (.obj members) part → part = sub)
    (htuple : ∀ schemas, Entries.get? members "items" = some (.arr schemas) →
      itemSchema? filler = none)
    (honeOf : listUnder members "oneOf" = []) (hnot : Entries.get? members "not" = none) :
    KeywordsAdmit formats root (fun sub part => part = sub) filler members where
  enum := henum
  member := hown
  default name sub hsub part hpart := Or.inl (hown name sub hsub part hpart)
  items := hitems
  tuple := htuple
  oneOf := honeOf ▸ List.Pairwise.nil
  not := hnot

/-- Whether all to which a schema hands a value on hold every name to the schema that filling takes for
it, or to none, and the items of a list likewise. -/
def Agreed (formats : Formats) (root s : Json) : Prop :=
  ∀ members, HandsOnTo root s (.obj members) → reference? (.obj members) = none →
    KeywordsAdmit formats root (fun sub part => part = sub) s members

/-- **Where a name has one schema, filling is safe**: a default is put in under the schema that carries
it. -/
theorem fillsSafely_of_agreed : ∀ {levels : Nat} {schema : Json}, schema ∈ root.subvalues →
    Throughout root (Readable root) schema → Along root (Agreed formats root) levels schema →
      FillsSafely formats root levels schema schema := by
  intro levels
  induction levels with
  | zero => exact fun _ _ _ => trivial
  | succ levels ih =>
    intro schema hschema hreadable halong s hs
    obtain ⟨hleads, hagreed, hparts, hitems⟩ := halong s hs
    have hmem : s ∈ root.subvalues := hleads.mem_subvalues hschema
    have hsReadable := hreadable.of_handsOnTo hleads.handsOnTo
    obtain ⟨rounds, hrounds⟩ := hsReadable.self.grounded
    refine Or.inr (hleads.admitsFilling (admitsFilling_of_rounds hrounds fun members hhands href => ?_))
    have hadmits := hagreed members hhands href
    -- filling and judge go on with the same schema, so that agreement is all that is asked of it
    have hpart : ∀ part ∈ subschemas members, Along root (Agreed formats root) levels part →
        FillsSafely formats root levels part part := by
      intro part hpart
      have huses := mem_usedBy_of_subschemas root href hpart
      exact ih (mem_subvalues_of_mem_usedBy (hhands.mem_subvalues hmem) huses)
        ((hsReadable.of_handsOnTo hhands).of_mem_usedBy huses)
    refine ⟨hadmits.enum, fun name sub hsub part hholds => ?_, hadmits.default,
      fun sub hsub part hholds => ?_, hadmits.tuple, hadmits.oneOf, hadmits.not⟩
    · obtain rfl := hadmits.member name sub hsub part hholds
      exact hpart part hholds.mem_subschemas (hparts name part hsub)
    · obtain rfl := hadmits.items sub hsub part hholds
      exact hpart part hholds.mem_subschemas (hitems part hsub)

/-! ### Schemas by themselves -/

/-- Whether a schema combines no others, has no patterns, and lists scalars alone. -/
structure Simple (members : Entries Json) : Prop where
  combined : combined members = []
  patterns : tableUnder members "patternProperties" = []
  enum : ∀ a ∈ listUnder members "enum", a.isObj = false ∧ a.isArr = false

theorem members_shape_of_combined (h : combined members = []) :
    (shape (.obj members)).members = [] := by
  refine List.eq_nil_iff_forall_not_mem.mpr fun t ht => ?_
  obtain ⟨keyword, hkeyword, schemas, hget, hmem⟩ := exists_keyword_of_mem_members ht
  have hlist : listUnder members keyword = schemas := by
    rw [listUnder, ← Json.get?_obj, ← Json.getArr?, hget, Option.getD_some]
  simp only [combined, List.append_eq_nil_iff] at h
  obtain ⟨⟨⟨hall, hany⟩, hone⟩, -⟩ := h
  have hnil : listUnder members keyword = [] := by
    simp only [List.mem_cons, List.not_mem_nil, or_false] at hkeyword
    rcases hkeyword with rfl | rfl | rfl
    · exact hall
    · exact hone
    · exact hany
  rw [← hlist, hnil] at hmem
  cases hmem

/-- The one schema that a declared member is held to is that of its property. -/
theorem HoldsMember.eq_of_property (hpatterns : tableUnder members "patternProperties" = [])
    (hsub : Entries.get? (tableUnder members "properties") name = some sub)
    (h : HoldsMember name (.obj members) part) : part = sub := by
  cases h with
  | property _ hget => exact Option.some.inj (hget.symm.trans hsub)
  | pattern _ he => rw [hpatterns] at he; cases he
  | additional _ _ hnot =>
    refine absurd (Or.inl ?_) hnot
    rw [← Entries.contains_iff, Entries.contains, hsub, Option.isSome_some]

theorem Simple.keywordsAdmit (h : Simple members) (hmembers : (Json.obj members).WellFormed)
    (href : reference? (.obj members) = none) :
    KeywordsAdmit formats root (fun sub part => part = sub) (.obj members) members := by
  obtain ⟨hcombined, hpatterns, henum⟩ := h
  have hown : ∀ name sub, Entries.get? (properties root (.obj members)) name = some sub →
      ∀ part, HoldsMember name (.obj members) part → part = sub := by
    intro name sub hsub part hpart
    obtain ⟨_, hobj, hget⟩ :=
      exists_own_property href (members_shape_of_combined hcombined) hmembers hsub
    obtain rfl := Json.obj.inj hobj
    exact hpart.eq_of_property hpatterns hget
  simp only [Schema.combined, List.append_eq_nil_iff, Option.toList_eq_nil_iff] at hcombined
  refine .of_eq henum hown (fun sub hsub part hpart => ?_) (fun schemas hget => ?_) hcombined.1.2
    hcombined.2
  · obtain ⟨hitem, -⟩ := Option.filter_eq_some_iff.mp hsub
    cases hpart with
    | intro _ hget _ => exact Option.some.inj (hget.symm.trans hitem)
  · rw [itemSchema?, Json.get?_obj, hget]
    rfl

theorem agreed_of_simple (hs : s.WellFormed) (href : reference? s = none)
    (h : ∀ members, s = .obj members → Simple members) : Agreed formats root s := by
  have hnil : handedBy root s = [] := by
    cases s with
    | obj members => simp only [handedBy, href, (h members rfl).combined]
    | _ => rfl
  intro members hhands _
  -- the value is handed on to no other schema
  obtain rfl | ⟨t, ht, -⟩ := hhands.cases_head
  · exact (h members rfl).keywordsAdmit hs href
  · rw [hnil] at ht
    cases ht

/-- **A schema that combines no others agrees with itself**, closed or not. -/
theorem along_agreed_of_simple (hroot : root.WellFormed) (hschema : schema ∈ root.subvalues)
    (h : Along root (fun s => ∀ members, s = .obj members → Simple members) n schema) :
    Along root (Agreed formats root) n schema := by
  refine h.mono hroot (fun s hs href hsimple => ⟨?_, ?_⟩) hschema
  · cases s with
    | obj members => exact members_shape_of_combined (hsimple members rfl).combined
    | _ => rfl
  · exact agreed_of_simple (hroot.of_mem_subvalues hs) href hsimple

/-! ### Open schemas together -/

/-- Whether a schema is open, and declares names only as another one takes them to be declared. -/
structure OpenWithin (root s : Json) (members : Entries Json) : Prop where
  enum : ∀ a ∈ listUnder members "enum", a.isObj = false ∧ a.isArr = false
  properties : ∀ p ∈ tableUnder members "properties",
    Entries.get? (properties root s) p.1 = some p.2
  patterns : tableUnder members "patternProperties" = []
  additional : Entries.get? members "additionalProperties" = none
  items : Entries.get? members "items" = none
  oneOf : listUnder members "oneOf" = []
  not : Entries.get? members "not" = none

instance (root s : Json) (members : Entries Json) : Decidable (OpenWithin root s members) :=
  decidable_of_iff
    ((∀ a ∈ listUnder members "enum", a.isObj = false ∧ a.isArr = false) ∧
      (∀ p ∈ tableUnder members "properties",
        Entries.get? (Schema.properties root s) p.1 = some p.2) ∧
      tableUnder members "patternProperties" = [] ∧
      Entries.get? members "additionalProperties" = none ∧
      Entries.get? members "items" = none ∧
      listUnder members "oneOf" = [] ∧ Entries.get? members "not" = none)
    ⟨fun ⟨henum, hproperties, hpatterns, hadditional, hitems, honeOf, hnot⟩ =>
      ⟨henum, hproperties, hpatterns, hadditional, hitems, honeOf, hnot⟩,
    fun h => ⟨h.enum, h.properties, h.patterns, h.additional, h.items, h.oneOf, h.not⟩⟩

theorem OpenWithin.keywordsAdmit (h : OpenWithin root s members) :
    KeywordsAdmit formats root (fun sub part => part = sub) s members := by
  have hown : ∀ name sub, Entries.get? (Schema.properties root s) name = some sub →
      ∀ part, HoldsMember name (.obj members) part → part = sub := by
    intro name sub hsub part hpart
    cases hpart with
    | property _ hget =>
      exact Option.some.inj ((h.properties _ (Entries.mem_of_get? hget)).symm.trans hsub)
    | pattern _ he => rw [h.patterns] at he; cases he
    | additional _ hget => rw [h.additional] at hget; cases hget
  refine .of_eq h.enum hown (fun sub hsub part hpart => ?_) (fun schemas hget => ?_) h.oneOf h.not
  · cases hpart with
    | intro _ hget _ => rw [h.items] at hget; cases hget
  · rw [h.items] at hget
    cases hget

/-- **Open schemas that declare no name in two ways agree**, however they are combined. -/
theorem agreed_of_open {schemas : List Json} (hs : s ∈ schemas)
    (hclosed : ∀ t ∈ schemas, ∀ u ∈ handedBy root t, u ∈ schemas)
    (hopen : ∀ t ∈ schemas, OpenWithin root s ((t.obj?).getD [])) : Agreed formats root s := by
  have hmem : ∀ {t : Json}, HandsOnTo root s t → t ∈ schemas := fun hhands => by
    induction hhands with
    | refl => exact hs
    | tail _ hu ih => exact hclosed _ ih _ hu
  exact fun members hhands _ => (hopen _ (hmem hhands)).keywordsAdmit

end RequestGate.Schema
