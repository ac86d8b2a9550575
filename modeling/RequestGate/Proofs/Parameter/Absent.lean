import RequestGate.Proofs.Json.WellFormed
import RequestGate.Proofs.Parameter.QueryKeys
import RequestGate.Proofs.Schema.NoDefault

/-!
# Query parameters that are not sent

Decoding works through all parameters on one table, so two things can put a value under the name of a
parameter that has not been sent: the parameter itself, from the keys that belong to it or from a
default, and none of the others, which only write under their own names
(`RequestGate.Style.loses_decodeEntry`). If no key belongs to the parameter and no default is declared,
its place stays empty, save that an object of style `deepObject` is supplied as the empty one
(`RequestGate.Style.Supplies`, `RequestGate.Style.staysAbsent_decode`).

There is one more way. Another parameter may have a name that belongs to this one, since an exploded
object takes the keys of its properties from whatever is in the table by then. That is what
`RequestGate.Parameter.KeepsClear` excludes.
-/

namespace RequestGate

open Entries

namespace Style

variable {root schema : Json} {p q : Parameter} {name key : String}
  {table next last : Entries Json} {value : Json}

/-! ### What a parameter does to the entries of others -/

/-- A move of the parameter `name` at most takes other entries away, and repeats no key. -/
def Loses (name : String) (table next : Entries Json) : Prop :=
  Distinct table → Distinct next ∧
    ∀ key value, key ≠ name → get? next key = some value → get? table key = some value

theorem Loses.trans (h : Loses name table next) (h' : Loses name next last) :
    Loses name table last := by
  intro hd
  obtain ⟨hnext, hvalues⟩ := h hd
  obtain ⟨hlast, hvalues'⟩ := h' hnext
  exact ⟨hlast, fun key value hkey hget => hvalues key value hkey (hvalues' key value hkey hget)⟩

theorem loses_refl (name : String) (table : Entries Json) : Loses name table table :=
  fun hd => ⟨hd, fun _ _ _ h => h⟩

theorem loses_insert (value : Json) : Loses name table (insert table name value) := by
  refine fun hd => ⟨hd.insert name value, fun key v hkey hget => ?_⟩
  rwa [get?_insert_of_ne _ _ hkey.symm] at hget

theorem loses_modify (f : Json → Json) : Loses name table (modify table name f) := by
  refine fun hd => ⟨by rwa [Distinct, keys_modify], fun key v hkey hget => ?_⟩
  rwa [get?_modify_of_ne _ _ hkey.symm] at hget

theorem loses_readJson (table : Entries Json) (name : String) :
    Loses name table (readJson table name) := by
  rw [readJson_eq_modify]
  exact loses_modify _

theorem loses_addMembers (table : Entries Json) (name : String) (members : Entries Json) :
    Loses name table (addMembers table name members) := by
  rw [addMembers]
  split
  · exact loses_refl _ _
  · split
    · exact loses_insert _
    · exact loses_insert _

theorem loses_splitDelimited (delimiter : Char) (name : String) (table : Entries Json) :
    Loses name table (splitDelimited delimiter name table) := by
  rw [splitDelimited_eq_modify]
  exact loses_modify _

/-- Taking entries out leaves the others as they are. -/
theorem loses_takeEntries (names : List (String × String)) (name : String) (table : Entries Json) :
    Loses name table (takeEntries names table).2 := by
  refine List.foldlRecOn
    (motive := fun state : Entries Json × Entries Json => Loses name table state.2) names _
    (loses_refl name table) ?_
  rintro ⟨taken, left⟩ hleft ⟨first, newName⟩ -
  dsimp only
  split
  · refine hleft.trans fun hd => ⟨hd.swapRemove first, fun key v _ hv => ?_⟩
    rw [get?_swapRemove hd] at hv
    split at hv
    · cases hv
    · exact hv
  · exact hleft

theorem loses_collapseExploded (root schema : Json) (name : String) (table : Entries Json) :
    Loses name table (collapseExploded root schema name table) :=
  (loses_takeEntries _ name table).trans (loses_addMembers _ name _)

theorem loses_collapseDeepObject (name : String) (table : Entries Json) :
    Loses name table (collapseDeepObject name table) :=
  (loses_takeEntries _ name table).trans (loses_addMembers _ name _)

theorem loses_supplied (default : Option Json) (name : String) (table : Entries Json) :
    Loses name table (supplied default name table) := by
  rw [supplied.eq_def]
  split
  · exact loses_refl _ _
  · split
    · exact loses_insert _
    · exact loses_refl _ _

/-- **Decoding a parameter writes nothing under other names.** -/
theorem loses_decodeEntry (h : decodeEntry root p table = .ok next) : Loses p.name table next := by
  cases decoding_of_decodeEntry h with
  | json => exact loses_readJson table p.name
  | text => exact loses_refl _ _
  | exploded => exact (loses_readJson table p.name).trans (loses_collapseExploded _ _ p.name _)
  | bracketed =>
    exact ((loses_collapseDeepObject p.name table).trans (loses_supplied _ p.name _)).trans
      (loses_readJson _ p.name)
  | whole => exact loses_readJson table p.name
  | wrapped => exact loses_modify _
  | cut => exact loses_splitDelimited _ p.name table
  | scattered => exact loses_collapseExploded _ _ p.name table
  | unchanged => exact loses_refl _ _

/-! ### What a parameter makes of nothing -/

/-- Whether decoding puts an object where none was sent. -/
def Supplies (root : Json) (p : Parameter) : Prop :=
  isQueryObject root p = true ∧ p.style = "deepObject" ∧
    (Schema.defaultValue root p.schema).isSome = true

theorem readJson_of_absent (h : get? table name = none) : readJson table name = table := by
  rw [readJson, h]

theorem takeEntries_of_absent {names : List (String × String)}
    (h : ∀ pair ∈ names, get? table pair.1 = none) : takeEntries names table = ([], table) := by
  rw [takeEntries]
  refine List.foldlRecOn (motive := fun state => state = (([] : Entries Json), table)) _ _ rfl ?_
  rintro _ rfl pair hpair
  simp only [h pair hpair]

theorem collapseExploded_of_absent
    (h : ∀ key ∈ keys (Schema.properties root schema), key ≠ name → get? table key = none) :
    collapseExploded root schema name table = table := by
  have htaken : takeEntries (((Schema.properties root schema).filter fun p => p.1 != name).map
      fun p => (p.1, p.1)) table = ([], table) := by
    refine takeEntries_of_absent fun pair hpair => ?_
    obtain ⟨e, he, rfl⟩ := List.mem_map.mp hpair
    obtain ⟨he, hne⟩ := List.mem_filter.mp he
    exact h e.1 (List.mem_map_of_mem he) (by simpa using hne)
  simp [collapseExploded, htaken, addMembers]

theorem collapseDeepObject_of_absent
    (h : ∀ inner, get? table (name ++ "[" ++ inner ++ "]") = none) :
    collapseDeepObject name table = table := by
  have hnone : (table.filterMap fun entry =>
      (bracketed? name entry.1).map fun p => (entry.1, p)) = [] := by
    refine List.filterMap_eq_nil_iff.mpr fun entry hentry => ?_
    rw [Option.map_eq_none_iff, ← Option.not_isSome_iff_eq_none, bracketed?_isSome_iff]
    rintro ⟨inner, hinner⟩
    exact get?_eq_none_iff.mp (h inner) (hinner ▸ List.mem_map_of_mem hentry)
  simp [collapseDeepObject, hnone, takeEntries, addMembers]

/-- **A parameter that is not there stays away**, or is supplied as the empty object. -/
theorem decodeEntry_of_absent (hp : p.location = .query) (hnone : Schema.NoDefault root p.schema)
    (hname : get? table p.name = none) (hcovers : ∀ key ∈ keys table, ¬p.Covers root key)
    (h : decodeEntry root p table = .ok next) :
    next = table ∨ Supplies root p ∧ next = insert table p.name (.obj []) := by
  have habsent : ∀ key, p.Covers root key → get? table key = none :=
    fun key hkey => get?_eq_none_iff.mpr fun hmem => hcovers key hmem hkey
  cases decoding_of_decodeEntry h with
  | json => exact Or.inl (readJson_of_absent hname)
  | text => exact Or.inl rfl
  | exploded hobject hform =>
    obtain ⟨-, hcontent, hlike⟩ := isQueryObject_iff.mp hobject
    rw [readJson_of_absent hname]
    exact Or.inl (collapseExploded_of_absent fun key hkey hne =>
      habsent key ⟨hp, hcontent, hlike, Or.inl ⟨hform.1, hform.2, hne, hkey⟩⟩)
  | bracketed hobject hdeep =>
    obtain ⟨-, hcontent, hlike⟩ := isQueryObject_iff.mp hobject
    have hkept := collapseDeepObject_of_absent fun inner =>
      habsent _ ⟨hp, hcontent, hlike, Or.inr ⟨hdeep, inner, rfl⟩⟩
    simp only [hkept, supplied, hname, Option.any_none, Bool.false_eq_true, if_false]
    cases hdefault : Schema.defaultValue root p.schema with
    | none => exact Or.inl (readJson_of_absent hname)
    | some value =>
      -- without declared defaults it can only be the empty object
      obtain ⟨-, rfl⟩ := Schema.eq_empty_of_defaultWithin hnone hdefault
      refine Or.inr ⟨⟨hobject, hdeep, by rw [hdefault]; rfl⟩, ?_⟩
      simp [readJson]
  | whole => exact Or.inl (readJson_of_absent hname)
  | wrapped => exact Or.inl (modify_eq_self fun v hv => by rw [hname] at hv; cases hv)
  | cut => exact Or.inl (by rw [splitDelimited, hname])
  | scattered hother =>
    refine Or.inl (collapseExploded_of_absent fun key hkey _ => ?_)
    rw [Schema.properties_of_not_isObjectLike (hother.isObjectLike_eq hp)] at hkey
    cases hkey
  | unchanged => exact Or.inl rfl

/-! ### All parameters -/

end Style

/-- No other parameter gets in the way of a query parameter: names are not used twice, and none of the
other query parameters has a name that this one takes for its own. -/
structure Parameter.KeepsClear (root : Json) (p : Parameter) (parameters : List Parameter) : Prop where
  once : parameters.Pairwise fun q q' => q.location = q'.location → q.name ≠ q'.name
  names : ∀ q ∈ parameters, q.location = .query → q.name = p.name → q = p
  covers : ∀ q ∈ parameters, q.location = .query → ¬p.Covers root q.name

theorem Parameter.KeepsClear.of_append {root : Json} {p : Parameter} {done rest : List Parameter}
    (h : p.KeepsClear root (done ++ rest)) : p.KeepsClear root done where
  once := (List.pairwise_append.mp h.once).1
  names q hq := h.names q (List.mem_append_left _ hq)
  covers q hq := h.covers q (List.mem_append_left _ hq)

namespace Style

variable {root : Json} {route : String} {p q : Parameter} {parameters done : List Parameter}
  {request : Request} {r last decoded : NormalizedRequest} {sent table : Entries Json}

/-- What decoding makes of a query in which a parameter is missing: every key has been sent or is the
name of a parameter, and there is nothing under the name of the missing one unless it is supplied. -/
structure StaysAbsent (root : Json) (p : Parameter) (done : List Parameter)
    (sent table : Entries Json) : Prop where
  distinct : Distinct table
  known : ∀ key ∈ keys table, key ∈ keys sent ∨ ∃ q ∈ done, q.location = .query ∧ q.name = key
  value : ∀ v, get? table p.name = some v → p ∈ done ∧ Supplies root p ∧ v = .obj []

theorem StaysAbsent.decodeParameter (hp : p.location = .query)
    (hnone : Schema.NoDefault root p.schema) (hcovers : ∀ key ∈ keys sent, ¬p.Covers root key)
    (hclear : p.KeepsClear root (done ++ [q])) (hr : StaysAbsent root p done sent r.query)
    (h : decodeParameter root route q r = .ok last) :
    StaysAbsent root p (done ++ [q]) sent last.query := by
  have hknown : ∀ key ∈ keys r.query, key ∈ keys sent ∨
      ∃ q' ∈ done ++ [q], q'.location = .query ∧ q'.name = key := fun key hkey =>
    (hr.known key hkey).imp_right fun ⟨q', hq', hname⟩ => ⟨q', List.mem_append_left _ hq', hname⟩
  have hvalue : ∀ v, get? r.query p.name = some v → p ∈ done ++ [q] ∧ Supplies root p ∧ v = .obj [] :=
    fun v hv => (hr.value v hv).imp_left (List.mem_append_left _)
  obtain ⟨next, hnext, rfl⟩ := decodeParameter_eq_ok_iff.mp h
  by_cases hq : q.location = .query
  · rw [hq] at hnext ⊢
    change decodeEntry root q r.query = .ok next at hnext
    change StaysAbsent root p (done ++ [q]) sent next
    obtain ⟨hdistinct, hkeys⟩ := takes_decodeEntry hq hnext hr.distinct
    have hknown' : ∀ key ∈ keys next, key ∈ keys sent ∨
        ∃ q' ∈ done ++ [q], q'.location = .query ∧ q'.name = key := by
      intro key hkey
      by_cases hname : key = q.name
      · exact Or.inr ⟨q, by simp, hq, hname.symm⟩
      · exact hknown key ((hkeys key hname).mp hkey).1
    refine ⟨hdistinct, hknown', fun v hv => ?_⟩
    by_cases hself : q = p
    · subst hself
      -- it has not been decoded before
      have hfresh : q ∉ done := fun hmem =>
        (List.pairwise_append.mp hclear.once).2.2 q hmem q (by simp) rfl rfl
      have habsent : get? r.query q.name = none := by
        rw [← Option.not_isSome_iff_eq_none, Option.isSome_iff_exists]
        rintro ⟨v, hv⟩
        exact hfresh (hr.value v hv).1
      have hfree : ∀ key ∈ keys r.query, ¬q.Covers root key := fun key hkey =>
        (hr.known key hkey).elim (hcovers key) fun ⟨q', hq', hl, hname⟩ =>
          hname ▸ hclear.of_append.covers q' hq' hl
      rcases decodeEntry_of_absent hq hnone habsent hfree hnext with rfl | ⟨hsupplies, rfl⟩
      · rw [habsent] at hv
        cases hv
      · rw [get?_insert_self] at hv
        exact ⟨by simp, hsupplies, (Option.some.inj hv).symm⟩
    · have hne : p.name ≠ q.name := fun hname => hself (hclear.names q (by simp) hq hname.symm)
      exact hvalue v ((loses_decodeEntry hnext hr.distinct).2 p.name v hne hv)
  · rw [NormalizedRequest.query_withTable_of_ne _ _ hq]
    exact ⟨hr.distinct, hknown, hvalue⟩

/-- **A parameter that is not sent stays absent** while the query is decoded. -/
theorem staysAbsent_decode (hp : p.location = .query) (hnone : Schema.NoDefault root p.schema)
    (hd : Distinct (request.query.getD [])) (hname : p.name ∉ keys (request.query.getD []))
    (hcovers : ∀ key ∈ keys (request.query.getD []), ¬p.Covers root key)
    (hclear : p.KeepsClear root parameters)
    (h : decode root route parameters request = .ok decoded) :
    StaysAbsent root p parameters (request.query.getD []) decoded.query := by
  refine foldlM_induction
    (P := fun done r => p.KeepsClear root done →
      StaysAbsent root p done (request.query.getD []) (NormalizedRequest.query r))
    (fun done q r last hr hstep hclear =>
      (hr hclear.of_append).decodeParameter hp hnone hcovers hclear hstep) (fun _ => ?_) h hclear
  refine ⟨hd, fun key hkey => Or.inl hkey, fun v hv => ?_⟩
  have hkey : p.name ∈ keys (request.query.getD []) :=
    contains_iff.mp (by rw [contains]; exact Option.isSome_of_eq_some hv)
  exact absurd hkey hname

end Style

end RequestGate
