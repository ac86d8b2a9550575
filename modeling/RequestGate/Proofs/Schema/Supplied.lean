import RequestGate.Proofs.Schema.Filling
import RequestGate.Proofs.Schema.Rearranged

/-!
# The order in which defaults are put in

A default that is filled in stands behind everything that has been there. So the outcome depends on the
order of the properties, but only of those that have a default (`RequestGate.Schema.supplied`). Two
schemas whose members stand in different orders fill values alike if at every level they supply the same
in the same order (`RequestGate.Schema.SuppliesAlike`).
-/

namespace RequestGate

open Entries Json

/-- Tables are the same if they have the same keys in the same order and the same values. -/
theorem Entries.eq_of_get? {α : Type*} {entries others : Entries α} (hd : Distinct entries)
    (hkeys : keys entries = keys others) (hget : ∀ key, get? entries key = get? others key) :
    entries = others := by
  induction entries generalizing others with
  | nil => exact (List.map_eq_nil_iff.mp hkeys.symm).symm
  | cons e entries ih =>
    cases others with
    | nil => cases hkeys
    | cons o others =>
      obtain ⟨key, value⟩ := e
      obtain ⟨key', value'⟩ := o
      obtain ⟨rfl, htail⟩ := List.cons.inj hkeys
      obtain ⟨hnot, hrest⟩ := List.nodup_cons.mp hd
      have hvalue := hget key
      simp only [get?_cons, if_true, Option.some_inj] at hvalue
      subst hvalue
      refine congrArg _ (ih hrest htail fun name => ?_)
      by_cases hname : key = name
      · have hnot' : key ∉ keys others := by
          rw [keys, ← htail]
          exact hnot
        rw [← hname, get?_eq_none_iff.mpr hnot, get?_eq_none_iff.mpr hnot']
      · have hboth := hget name
        rwa [get?_cons, get?_cons, if_neg hname, if_neg hname] at hboth

namespace Schema

variable {root root' s t value : Json} {n : Nat} {name : String} {declared members : Entries Json}
  {f : Json → Json → Json}

/-- The defaults of properties, in the order in which they are declared. -/
def defaultsOf (root : Json) (declared : Entries Json) : Entries Json :=
  declared.filterMap fun p => (declaredDefault? root p.2).map fun value => (p.1, value)

/-- What a schema supplies to an object that has nothing. -/
def supplied (root schema : Json) : Entries Json :=
  defaultsOf root (properties root schema)

theorem keys_defaultsOf_sublist (root : Json) (declared : Entries Json) :
    (keys (defaultsOf root declared)).Sublist (keys declared) :=
  keys_filterMap_sublist fun p e he => by
    obtain ⟨v, -, rfl⟩ := Option.map_eq_some_iff.mp he
    rfl

theorem get?_defaultsOf (hd : Distinct declared) (name : String) :
    Entries.get? (defaultsOf root declared) name =
      (Entries.get? declared name).bind (declaredDefault? root) := by
  induction declared with
  | nil => rfl
  | cons p declared ih =>
    obtain ⟨hnot, hrest⟩ := List.nodup_cons.mp hd
    rw [defaultsOf, List.filterMap_cons, get?_cons]
    have hih := ih hrest
    rw [defaultsOf] at hih
    cases hdefault : declaredDefault? root p.2 with
    | none =>
      rw [Option.map_none, hih]
      split
      · rename_i hname
        rw [get?_eq_none_iff.mpr (hname ▸ hnot), Option.bind_some, hdefault]
        rfl
      · rfl
    | some value =>
      rw [Option.map_some, get?_cons, hih]
      split
      · exact hdefault.symm
      · rfl

/-- **Defaults are put behind what is there**, in the order in which they are declared. -/
theorem keys_fillProperties (hd : Distinct declared) (members : Entries Json) :
    keys (declared.foldl (fillProperty root f) members) =
      keys members ++ (keys (defaultsOf root declared)).filter fun name => name ∉ keys members := by
  induction declared generalizing members with
  | nil => simp [defaultsOf]
  | cons p declared ih =>
    obtain ⟨hnot, hrest⟩ := List.nodup_cons.mp hd
    rw [List.foldl_cons, ih hrest]
    have hstep : defaultsOf root (p :: declared) =
        (declaredDefault? root p.2).elim (defaultsOf root declared) fun value =>
          (p.1, value) :: defaultsOf root declared := by
      rw [defaultsOf, List.filterMap_cons]
      cases declaredDefault? root p.2 <;> rfl
    rw [hstep, fillProperty]
    split
    · rename_i hcontains
      have hmem := contains_iff.mp hcontains
      rw [keys_modify]
      cases declaredDefault? root p.2 with
      | none => rfl
      | some value => simp [hmem]
    · rename_i hmissing
      have hmissing : p.1 ∉ keys members := fun hmem => hmissing (contains_iff.mpr hmem)
      cases declaredDefault? root p.2 with
      | none => rfl
      | some value =>
        -- the default goes to the end, and no later one goes by its name
        have hlater : ∀ name ∈ keys (defaultsOf root declared), name ≠ p.1 := by
          rintro name hname rfl
          exact hnot ((keys_defaultsOf_sublist root declared).subset hname)
        rw [Option.elim_some, keys_insert, if_neg hmissing, keys_cons,
          List.filter_cons_of_pos (by simpa using hmissing), List.append_assoc]
        refine congrArg _ (congrArg _ (List.filter_congr fun name hname => ?_))
        simp [hlater name hname]

theorem distinct_fillProperties (hd : Distinct declared) (h : Distinct members) :
    Distinct (declared.foldl (fillProperty root f) members) := by
  rw [Distinct, keys_fillProperties hd]
  refine List.Nodup.append h (((keys_defaultsOf_sublist root declared).nodup hd).filter _) ?_
  intro name hname hnew
  simpa [hname] using List.of_mem_filter hnew

/-- Whether two schemas supply the same in the same order, and so do the schemas of their properties and
items, as far as filling goes. -/
def SuppliesAlike (root root' : Json) : (levels : Nat) → (s t : Json) → Prop
  | 0, _, _ => True
  | levels + 1, s, t =>
    ∀ s' ∈ resolve root s, ∀ t' ∈ resolve root' t,
      supplied root s' = supplied root' t' ∧
      (∀ e ∈ properties root s', ∀ sub ∈ Entries.get? (properties root' t') e.1,
        SuppliesAlike root root' levels e.2 sub) ∧
      ∀ sub ∈ itemSchema? s', ∀ sub' ∈ itemSchema? t', SuppliesAlike root root' levels sub sub'

instance decidableSuppliesAlike (root root' : Json) :
    (levels : Nat) → (s t : Json) → Decidable (SuppliesAlike root root' levels s t)
  | 0, _, _ => inferInstanceAs (Decidable True)
  | levels + 1, s, t =>
    have : ∀ s t, Decidable (SuppliesAlike root root' levels s t) :=
      decidableSuppliesAlike root root' levels
    inferInstanceAs (Decidable (∀ s' ∈ resolve root s, ∀ t' ∈ resolve root' t, _ ∧ _ ∧ _))

theorem fillWithin_eq (h : Rearranged root root') (n : Nat) :
    ∀ s t value, Rearranged s t → SuppliesAlike root root' n s t → value.WellFormed →
      fillWithin root n s value = fillWithin root' n t value := by
  induction n with
  | zero => exact fun _ _ _ _ _ _ => rfl
  | succ n ih =>
    intro s t value hst halike hvalue
    rcases rel_cases (resolve_rel h hst) with ⟨ha, hb⟩ | ⟨s', t', ha, hb, hst⟩
    · rw [fillWithin_of_dangling ha, fillWithin_of_dangling hb]
    · obtain ⟨hsupplied, hproperties, hitems⟩ := halike s' ha t' hb
      rw [fillWithin_succ ha, fillWithin_succ hb]
      cases value with
      | obj members =>
        -- the tables are equal, not only rearranged: the keys come in one order
        refine congrArg Json.obj (eq_of_get? ?_ ?_ fun name => ?_)
        · exact distinct_fillProperties (distinct_properties _ _) hvalue.1
        · rw [keys_fillProperties (distinct_properties _ _), keys_fillProperties (distinct_properties _ _)]
          exact congrArg _ (congrArg _ (congrArg keys hsupplied))
        · rw [get?_fillProperties (distinct_properties _ _),
            get?_fillProperties (distinct_properties _ _)]
          have hdefault := congrArg (fun table => Entries.get? table name) hsupplied
          simp only [supplied, get?_defaultsOf (distinct_properties _ _)] at hdefault
          rcases rel_cases (get?_properties_rel h hst name) with ⟨hp, hq⟩ | ⟨sub, sub', hp, hq, hsub⟩
          · rw [hp, hq]
            cases Entries.get? members name <;> rfl
          · rw [hp, hq, Option.bind_some, Option.bind_some] at hdefault
            rw [hp, hq]
            cases hget : Entries.get? members name with
            | none => exact hdefault
            | some a =>
              have hwell : a.WellFormed := wellFormedMembers_iff.mp hvalue.2 _ (mem_of_get? hget)
              exact congrArg some (ih sub sub' a hsub (hproperties _ (mem_of_get? hp) sub' hq) hwell)
      | arr items =>
        rw [fillParts, fillParts, mapItems, mapItems]
        rcases rel_cases (itemSchema?_rel hst) with ⟨hp, hq⟩ | ⟨sub, sub', hp, hq, hsub⟩
        · rw [hp, hq]
        · rw [hp, hq]
          refine congrArg Json.arr (List.map_congr_left fun item hitem => ?_)
          exact ih sub sub' item hsub (hitems sub hp sub' hq) (wellFormedList_iff.mp hvalue item hitem)
      | _ => rw [fillParts_of_scalar rfl rfl, fillParts_of_scalar rfl rfl]

/-- **Defaults are filled in alike** by schemas that supply the same in the same order. -/
theorem fillDefaults_eq (h : Rearranged root root') (hst : Rearranged s t)
    (halike : SuppliesAlike root root' levels s t) (hvalue : value.WellFormed) :
    fillDefaults root s value = fillDefaults root' t value :=
  fillWithin_eq h levels s t value hst halike hvalue

end Schema

end RequestGate
