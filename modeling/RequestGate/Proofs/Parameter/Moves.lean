import RequestGate.Proofs.Ascending
import RequestGate.Proofs.Parameter.Absent
import RequestGate.Proofs.Schema.Shape

/-!
# What is found after a move

A parameter is decoded by a few moves on a table. Entries are taken out and become the members of an
object, text is read or cut, a default is put in. What a move has done is seen by looking up any one
key before and after, and the file says for every move what is then found. Each of them answers in
the same form: something new under the name of the parameter, nothing under the keys that were
taken, and what had been there under all others.
-/

namespace RequestGate

open Entries

namespace Style

variable {root schema : Json} {name key member : String} {table : Entries Json}
  {names : List (String × String)}

/-! ### Taking entries out -/

theorem takeEntries_concat (names : List (String × String)) (key newName : String)
    (table : Entries Json) :
    takeEntries (names ++ [(key, newName)]) table =
      match get? (takeEntries names table).2 key with
      | some value =>
        (insert (takeEntries names table).1 newName value,
          swapRemove (takeEntries names table).2 key)
      | none => takeEntries names table := by
  rw [takeEntries, takeEntries, List.foldl_append]
  rfl

theorem distinct_takeEntries (hd : Distinct table) (names : List (String × String)) :
    Distinct (takeEntries names table).2 :=
  (loses_takeEntries names "" table hd).1

/-- What is not taken out stays. -/
theorem get?_takeEntries (hd : Distinct table) (names : List (String × String)) (key : String) :
    get? (takeEntries names table).2 key =
      if key ∈ names.map Prod.fst then none else get? table key := by
  induction names using List.reverseRecOn with
  | nil => simp [takeEntries]
  | append_singleton names name ih =>
    obtain ⟨first, newName⟩ := name
    rw [takeEntries_concat]
    simp only [List.map_append, List.map_singleton, List.mem_append, List.mem_singleton]
    cases hfirst : get? (takeEntries names table).2 first with
    | some value =>
      simp only
      rw [get?_swapRemove (distinct_takeEntries hd names), ih]
      by_cases hkey : first = key
      · rw [if_pos hkey, if_pos (Or.inr hkey.symm)]
      · rw [if_neg hkey]
        exact (if_congr (or_iff_left (Ne.symm hkey)) rfl rfl).symm
    | none =>
      -- what is not there counts as taken out
      simp only
      rw [ih]
      by_cases hkey : first = key
      · rw [if_pos (Or.inr hkey.symm), ← ih, ← hkey, hfirst]
      · exact (if_congr (or_iff_left (Ne.symm hkey)) rfl rfl).symm

/-- **What is taken out** is what stands under the listed keys, in the order of the list. -/
theorem takeEntries_fst (hd : Distinct table) (hkeys : (names.map Prod.fst).Nodup)
    (hnew : (names.map Prod.snd).Nodup) :
    (takeEntries names table).1 =
      names.filterMap fun n => (get? table n.1).map fun value => (n.2, value) := by
  -- `takeEntries` collects from the left, so the induction is on the end of the list
  induction names using List.reverseRecOn with
  | nil => rfl
  | append_singleton names name ih =>
    obtain ⟨first, newName⟩ := name
    rw [List.map_append, List.map_singleton, List.nodup_append] at hkeys hnew
    have ih := ih hkeys.1 hnew.1
    have hnot : first ∉ names.map Prod.fst := fun hmem => hkeys.2.2 first hmem first (by simp) rfl
    rw [takeEntries_concat, get?_takeEntries hd, if_neg hnot, List.filterMap_append]
    cases hfirst : get? table first with
    | none => simp [ih, hfirst]
    | some value =>
      have hfresh : newName ∉ keys (takeEntries names table).1 := by
        rw [ih]
        intro hmem
        obtain ⟨e, he, rfl⟩ := List.mem_map.mp hmem
        obtain ⟨n, hn, hvalue⟩ := List.mem_filterMap.mp he
        obtain ⟨v, -, rfl⟩ := Option.map_eq_some_iff.mp hvalue
        exact hnew.2.2 n.2 (List.mem_map_of_mem hn) n.2 (by simp) rfl
      simp only
      rw [insert_of_not_mem value hfresh, ih]
      simp [hfirst]

/-! ### Adding members -/

/-- What stands under a name after members have been added to the object there: they win over its
own, and over a value that is no object. -/
def joined (own : Option Json) (members : Entries Json) : Option Json :=
  if members.isEmpty then own
  else
    match own with
    | some (.obj existing) => some (.obj (insertAll existing members))
    | _ => some (.obj members)

/-- A key that is looked up under its own name. -/
theorem get?_ite (table : Entries Json) (name key : String) :
    (if key = name then get? table name else get? table key) = get? table key := by
  split
  · rename_i hkey
    rw [hkey]
  · rfl

theorem get?_addMembers (table : Entries Json) (name : String) (members : Entries Json)
    (key : String) :
    get? (addMembers table name members) key =
      if key = name then joined (get? table name) members else get? table key := by
  rw [addMembers, joined.eq_def]
  by_cases hempty : members.isEmpty = true
  · rw [if_pos hempty, if_pos hempty, get?_ite]
  · rw [if_neg hempty, if_neg hempty]
    cases get? table name with
    | none => simp only [get?_insert, eq_comm (a := name)]
    | some own =>
      cases own <;> simp only [get?_insert, eq_comm (a := name)]

/-- What is put into an object for a property that is sent on its own. -/
def asMember (root sub value : Json) : Json :=
  if Schema.effectiveType root sub = some "array" then wrap value else value

/-- The members that are sent under the names of an object's properties, in the order of
declaration. -/
def siblings (root schema : Json) (name : String) (table : Entries Json) : Entries Json :=
  ((Schema.properties root schema).filter fun q => q.1 != name).filterMap fun q =>
    (get? table q.1).map fun value => (q.1, asMember root q.2 value)

/-- What is sent under other names does not depend on what stands under the name itself. -/
theorem siblings_congr {other : Entries Json}
    (h : ∀ key, key ≠ name → get? table key = get? other key) :
    siblings root schema name table = siblings root schema name other := by
  refine List.filterMap_congr fun q hq => ?_
  have hne : q.1 ≠ name := by simpa using (List.mem_filter.mp hq).2
  rw [h q.1 hne]

/-- **An exploded object** is joined with what is sent under the names of its properties. -/
theorem get?_collapseExploded (hd : Distinct table) (root schema : Json) (name key : String) :
    get? (collapseExploded root schema name table) key =
      if key = name then joined (get? table name) (siblings root schema name table)
      else if key ∈ keys (Schema.properties root schema) then none else get? table key := by
  set others := (Schema.properties root schema).filter fun q => q.1 != name with hothers
  have hdistinct : Distinct others :=
    (List.filter_sublist.map Prod.fst).nodup (Schema.distinct_properties root schema)
  have hfst : (others.map fun q => (q.1, q.1)).map Prod.fst = keys others := by simp [keys]
  have hsnd : (others.map fun q => (q.1, q.1)).map Prod.snd = keys others := by simp [keys]
  -- the schema that is looked up for an entry is the one that it is paired with
  have hmembers : ((takeEntries (others.map fun q => (q.1, q.1)) table).1.map fun e =>
      (e.1, (get? others e.1).elim e.2 fun sub => asMember root sub e.2)) =
        siblings root schema name table := by
    rw [takeEntries_fst hd (hfst ▸ hdistinct) (hsnd ▸ hdistinct), List.filterMap_map,
      List.map_filterMap, siblings]
    refine List.filterMap_congr fun q hq => ?_
    obtain ⟨property, sub⟩ := q
    rw [Function.comp_apply, Option.map_map]
    refine congrArg (Option.map · _) (funext fun value => ?_)
    simp only [Function.comp_apply, get?_of_mem hdistinct hq, Option.elim_some]
  have hmem : key ∈ (others.map fun q => (q.1, q.1)).map Prod.fst ↔
      key ≠ name ∧ key ∈ keys (Schema.properties root schema) := by
    rw [hfst, hothers]
    simp only [keys, List.mem_map, List.mem_filter, bne_iff_ne]
    constructor
    · rintro ⟨q, ⟨hq, hne⟩, rfl⟩
      exact ⟨hne, q, hq, rfl⟩
    · rintro ⟨hne, q, hq, rfl⟩
      exact ⟨q, ⟨hq, hne⟩, rfl⟩
  -- the name itself is not taken out, even if a property goes by it
  have hrest : get? (takeEntries (others.map fun q => (q.1, q.1)) table).2 name =
      get? table name := by
    rw [get?_takeEntries hd, hfst, if_neg]
    simp [hothers, keys]
  have hcollapse : collapseExploded root schema name table =
      addMembers (takeEntries (others.map fun q => (q.1, q.1)) table).2 name
        (siblings root schema name table) := by
    rw [← hmembers, collapseExploded]
    refine congrArg (addMembers _ name) (List.map_congr_left fun e _ => ?_)
    dsimp only
    rw [← hothers]
    cases get? others e.1 with
    | some sub =>
      simp only [Option.elim_some, asMember]
      split <;> rfl
    | none => rfl
  rw [hcollapse, get?_addMembers, hrest, get?_takeEntries hd]
  by_cases hkey : key = name
  · rw [if_pos hkey, if_pos hkey]
  · rw [if_neg hkey, if_neg hkey]
    exact if_congr (hmem.trans (and_iff_right hkey)) rfl rfl

/-- The members that are sent under keys with the name of an object and brackets, as they are
sent. -/
def bracketMembers (name : String) (table : Entries Json) : Entries Json :=
  table.filterMap fun e => (bracketed? name e.1).map fun member => (member, e.2)

/-- The keys in brackets that a table has, with the members that they denote. -/
def bracketKeys (name : String) (table : Entries Json) : List (String × String) :=
  table.filterMap fun e => (bracketed? name e.1).map fun member => (e.1, member)

theorem mem_bracketKeys {pair : String × String} :
    pair ∈ bracketKeys name table ↔ pair.1 ∈ keys table ∧ bracketed? name pair.1 = some pair.2 := by
  simp only [bracketKeys, List.mem_filterMap, Option.map_eq_some_iff, keys, List.mem_map]
  constructor
  · rintro ⟨e, he, member, hmember, rfl⟩
    exact ⟨⟨e, he, rfl⟩, hmember⟩
  · rintro ⟨⟨e, he, hkey⟩, hmember⟩
    exact ⟨e, he, pair.2, hkey ▸ hmember, by rw [hkey]⟩

theorem nodup_bracketKeys (hd : Distinct table) (name : String) :
    ((bracketKeys name table).map Prod.fst).Nodup ∧
      ((bracketKeys name table).map Prod.snd).Nodup := by
  have hfst : ((bracketKeys name table).map Prod.fst).Nodup :=
    (keys_filterMap_sublist fun e new hnew => by
      obtain ⟨member, -, rfl⟩ := Option.map_eq_some_iff.mp hnew
      rfl).nodup hd
  refine ⟨hfst, hfst.of_map.map_on fun x hx y hy hxy => ?_⟩
  -- a member belongs to one key only
  have hkey : x.1 = y.1 := by
    rw [bracketed?_eq_some_iff.mp (mem_bracketKeys.mp hx).2,
      bracketed?_eq_some_iff.mp (mem_bracketKeys.mp hy).2, hxy]
  exact Prod.ext hkey hxy

theorem bracketed?_self (name : String) : bracketed? name name = none := by
  rw [← Option.not_isSome_iff_eq_none, bracketed?_isSome_iff]
  rintro ⟨inner, hinner⟩
  have hlength := congrArg String.length hinner
  simp only [String.length_append] at hlength
  have hbracket : "[".length = 1 := by decide
  omega

/-- **An object in brackets** is joined with what is sent under the keys with its name. -/
theorem get?_collapseDeepObject (hd : Distinct table) (name key : String) :
    get? (collapseDeepObject name table) key =
      if key = name then joined (get? table name) (bracketMembers name table)
      else if (bracketed? name key).isSome then none else get? table key := by
  obtain ⟨hfst, hsnd⟩ := nodup_bracketKeys hd name
  have hmembers : (takeEntries (bracketKeys name table) table).1 = bracketMembers name table := by
    rw [takeEntries_fst hd hfst hsnd, bracketKeys, List.filterMap_filterMap, bracketMembers]
    refine List.filterMap_congr fun e he => ?_
    rw [Option.bind_map, Option.map_eq_bind]
    simp only [Function.comp_def, get?_of_mem hd he, Option.map_some]
  have hmem : ∀ key, key ∈ (bracketKeys name table).map Prod.fst ↔
      key ∈ keys table ∧ (bracketed? name key).isSome = true := by
    intro key
    rw [List.mem_map, Option.isSome_iff_exists]
    constructor
    · rintro ⟨pair, hpair, rfl⟩
      obtain ⟨hkey, hmember⟩ := mem_bracketKeys.mp hpair
      exact ⟨hkey, pair.2, hmember⟩
    · rintro ⟨hkey, member, hmember⟩
      exact ⟨(key, member), mem_bracketKeys.mpr ⟨hkey, hmember⟩, rfl⟩
  have hcollapse : collapseDeepObject name table =
      addMembers (takeEntries (bracketKeys name table) table).2 name
        (bracketMembers name table) := by
    rw [← hmembers]
    rfl
  have hrest : get? (takeEntries (bracketKeys name table) table).2 name = get? table name := by
    rw [get?_takeEntries hd, if_neg]
    rw [hmem, bracketed?_self]
    simp
  rw [hcollapse, get?_addMembers, hrest, get?_takeEntries hd]
  by_cases hkey : key = name
  · rw [if_pos hkey, if_pos hkey]
  · rw [if_neg hkey, if_neg hkey, if_congr (hmem key) rfl rfl]
    -- a key in brackets that is not sent is not there in either case
    by_cases hsent : key ∈ keys table
    · exact if_congr (and_iff_right hsent) rfl rfl
    · rw [get?_eq_none_iff.mpr hsent, ite_self, ite_self]

/-! ### Rewriting a value -/

theorem get?_supplied (default : Option Json) (name : String) (table : Entries Json)
    (key : String) :
    get? (supplied default name table) key =
      if key = name then
        if (get? table name).any isGiven then get? table name else default.or (get? table name)
      else get? table key := by
  by_cases hgiven : (get? table name).any isGiven = true
  · rw [supplied.eq_def, if_pos hgiven, if_pos hgiven, get?_ite]
  · rw [if_neg hgiven]
    cases default with
    | some value =>
      rw [supplied.eq_def, if_neg hgiven, Option.some_or]
      exact (get?_insert table name key value).trans (if_congr eq_comm rfl rfl)
    | none =>
      have hsame : supplied none name table = table := by
        rw [supplied.eq_def, if_neg hgiven]
      rw [hsame, Option.none_or, get?_ite]

end Style

end RequestGate
