import RequestGate.Proofs.Json.Measures
import RequestGate.Proofs.Schema.Supplied

/-!
# When filling is complete

Filling is complete if nothing is missing that has a default, as deep as filling goes. Since filling only
makes values larger, this is so exactly if it changes nothing
(`RequestGate.Schema.fillWithin_eq_self_iff`). But a value that has been filled need not be complete: what
is put in is put in as it stands in the schema, and is not filled itself. So it comes down to the defaults
that are put in, each of which has to be complete (`RequestGate.Schema.nothingMissing_fillWithin_iff`).
All values are filled completely exactly if the defaults of all properties are complete that filling
comes to (`RequestGate.Schema.forall_everyMissing_iff`).

All of this is about properties that are missing somewhere in a value, so there is one way of speaking
about these (`RequestGate.Schema.EveryMissing`).
-/

namespace RequestGate

open Entries Json

/-! ### Steps that change nothing or add something -/

section Growing

variable {α β : Type*} {size : β → Nat} {step : β → α → β}

/-- If every step changes nothing or adds something, so does a run of steps. -/
theorem foldl_grows (h : ∀ b x, step b x = b ∨ size b < size (step b x)) (l : List α) (b : β) :
    l.foldl step b = b ∨ size b < size (l.foldl step b) := by
  induction l generalizing b with
  | nil => exact Or.inl rfl
  | cons x l ih =>
    rw [List.foldl_cons]
    rcases h b x with hsame | hlt
    · rw [hsame]
      exact ih b
    · refine Or.inr ?_
      rcases ih (step b x) with hsame | hrest
      · rwa [hsame]
      · exact hlt.trans hrest

/-- **What one step adds, no later one takes away**: a run changes nothing only if none of its steps
does. -/
theorem foldl_eq_self_iff (h : ∀ b x, step b x = b ∨ size b < size (step b x)) (l : List α) (b : β) :
    l.foldl step b = b ↔ ∀ x ∈ l, step b x = b := by
  induction l with
  | nil => simp
  | cons x l ih =>
    rw [List.foldl_cons, List.forall_mem_cons]
    rcases h b x with hsame | hlt
    · rw [hsame, ih]
      exact (and_iff_right rfl).symm
    · -- the first step has added something, and it is still there in the end
      have hne : step b x ≠ b := fun hsame => (hsame ▸ hlt).ne rfl
      refine iff_of_false (fun hfold => ?_) fun hall => hne hall.1
      rcases foldl_grows h l (step b x) with hsame | hrest
      · exact hne (hsame.symm.trans hfold)
      · exact (hlt.trans hrest).ne (congrArg size hfold.symm)

end Growing

namespace Json

variable {members : Entries Json} {items : List Json} {name : String} {a : Json}

theorem sizeMembers_modify (h : Entries.get? members name = some a) (f : Json → Json) :
    sizeMembers (Entries.modify members name f) + a.size = sizeMembers members + (f a).size := by
  induction members with
  | nil => cases h
  | cons e members ih =>
    obtain ⟨key, value⟩ := e
    rw [get?_cons] at h
    rw [Entries.modify]
    split at h
    · rename_i hkey
      obtain rfl := Option.some.inj h
      rw [if_pos hkey, sizeMembers, sizeMembers]
      omega
    · rename_i hkey
      have hrest := ih h
      rw [if_neg hkey, sizeMembers, sizeMembers]
      omega

theorem sizeMembers_insert (h : Entries.get? members name = none) (a : Json) :
    sizeMembers (Entries.insert members name a) = sizeMembers members + a.size := by
  induction members with
  | nil => simp [Entries.insert, sizeMembers]
  | cons e members ih =>
    obtain ⟨key, value⟩ := e
    rw [get?_cons] at h
    split at h
    · cases h
    · rename_i hkey
      rw [Entries.insert, if_neg hkey, sizeMembers, sizeMembers, ih h, Nat.add_assoc]

theorem map_grows {f : Json → Json} (h : ∀ a : Json, f a = a ∨ a.size < (f a).size)
    (items : List Json) : items.map f = items ∨ sizeList items < sizeList (items.map f) := by
  induction items with
  | nil => exact Or.inl rfl
  | cons a items ih =>
    rw [List.map_cons, sizeList, sizeList]
    rcases h a with hsame | hlt
    · rcases ih with hitems | hitems
      · exact Or.inl (by rw [hsame, hitems])
      · exact Or.inr (by rw [hsame]; omega)
    · rcases ih with hitems | hitems
      · exact Or.inr (by rw [hitems]; omega)
      · exact Or.inr (by omega)

end Json

namespace Schema

variable {root schema s sub value : Json} {declared members : Entries Json} {p : String × Json}
  {f : Json → Json → Json} {missing : Json → Prop} {there : Json → Json → Prop}
  {P : Nat → Json → Prop} {n : Nat}

/-! ### Filling that changes nothing -/

/-- A property is left as it is if its value is, or if it is missing without a default. -/
theorem fillProperty_eq_self_iff :
    fillProperty root f members p = members ↔
      (Entries.get? members p.1).elim (declaredDefault? root p.2 = none) fun a => f p.2 a = a := by
  rw [fillProperty, contains]
  cases hget : Entries.get? members p.1 with
  | some a =>
    rw [Option.isSome_some, if_pos rfl, Option.elim_some]
    refine ⟨fun h => ?_, fun h => modify_eq_self fun b hb => ?_⟩
    · have hself := congrArg (Entries.get? · p.1) h
      simp only [get?_modify_self, hget, Option.map_some, Option.some_inj] at hself
      exact hself
    · obtain rfl := Option.some.inj (hget.symm.trans hb)
      exact h
  | none =>
    rw [Option.isSome_none, if_neg Bool.false_ne_true, Option.elim_none]
    cases hdefault : declaredDefault? root p.2 with
    | none => exact iff_of_true rfl rfl
    | some d =>
      refine iff_of_false (fun h => ?_) (Option.some_ne_none d)
      have hself := congrArg (Entries.get? · p.1) h
      simp only [get?_insert_self, hget] at hself
      cases hself

theorem fillProperty_grows (hf : ∀ sub a : Json, f sub a = a ∨ a.size < (f sub a).size)
    (members : Entries Json) (p : String × Json) :
    fillProperty root f members p = members ∨
      sizeMembers members < sizeMembers (fillProperty root f members p) := by
  rw [fillProperty, contains]
  cases hget : Entries.get? members p.1 with
  | some a =>
    rw [Option.isSome_some, if_pos rfl]
    rcases hf p.2 a with hsame | hlt
    · refine Or.inl (modify_eq_self fun b hb => ?_)
      obtain rfl := Option.some.inj (hget.symm.trans hb)
      exact hsame
    · have hsize := sizeMembers_modify hget (f p.2)
      exact Or.inr (by omega)
  | none =>
    rw [Option.isSome_none, if_neg Bool.false_ne_true]
    cases hdefault : declaredDefault? root p.2 with
    | none => exact Or.inl rfl
    | some d =>
      have hsize := sizeMembers_insert hget d
      have hpos := size_pos d
      exact Or.inr (by dsimp only; omega)

/-- **Filling changes nothing or adds something.** -/
theorem fillWithin_grows (root : Json) : ∀ (n : Nat) (schema value : Json),
    fillWithin root n schema value = value ∨ value.size < (fillWithin root n schema value).size := by
  intro n
  induction n with
  | zero => exact fun _ _ => Or.inl rfl
  | succ n ih =>
    intro schema value
    cases hs : resolve root schema with
    | none => exact Or.inl (fillWithin_of_dangling hs)
    | some s =>
      rw [fillWithin_succ hs]
      cases value with
      | obj members =>
        rw [fillParts, size, size, Json.obj.injEq, Nat.add_lt_add_iff_right]
        exact foldl_grows (fillProperty_grows ih) _ members
      | arr items =>
        rw [fillParts, mapItems]
        cases itemSchema? s with
        | none => exact Or.inl rfl
        | some sub =>
          rw [size, size, Json.arr.injEq, Nat.add_lt_add_iff_right]
          exact map_grows (ih sub) items
      | _ => exact Or.inl rfl

/-! ### Properties that are missing -/

/-- Asks something of the parts of a value, and something of the schemas of those that are missing. -/
def ForParts (root schema : Json) (missing : Json → Prop) (there : Json → Json → Prop) : Json → Prop
  | .obj members =>
    ∀ p ∈ properties root schema, (Entries.get? members p.1).elim (missing p.2) (there p.2)
  | .arr items => ∀ sub ∈ itemSchema? schema, ∀ a ∈ items, there sub a
  | _ => True

/-- Asks something of the schemas of all properties that are missing in a value, at every level to which
filling goes. It may depend on how many levels are left below. -/
def EveryMissing (root : Json) (P : Nat → Json → Prop) : (levels : Nat) → (schema value : Json) → Prop
  | 0, _, _ => True
  | n + 1, schema, value =>
    ∀ s ∈ resolve root schema, ForParts root s (P n) (EveryMissing root P n) value

/-- Asks something of the schemas of all properties, at every level to which filling goes. -/
def EveryProperty (root : Json) (P : Nat → Json → Prop) : (levels : Nat) → (schema : Json) → Prop
  | 0, _ => True
  | n + 1, schema =>
    ∀ s ∈ resolve root schema,
      (∀ p ∈ properties root s, P n p.2 ∧ EveryProperty root P n p.2) ∧
        ∀ sub ∈ itemSchema? s, EveryProperty root P n sub

/-- Whether there is no default. -/
def Defaultless (root : Json) (_levels : Nat) (schema : Json) : Prop :=
  declaredDefault? root schema = none

/-- Whether the default, if there is one, lacks nothing itself for which there is a default. -/
def CompleteDefault (root : Json) (levels : Nat) (schema : Json) : Prop :=
  ∀ d ∈ declaredDefault? root schema, EveryMissing root (Defaultless root) levels schema d

instance [DecidablePred missing] [∀ sub, DecidablePred (there sub)] (entry : Option Json) (sub : Json) :
    Decidable (entry.elim (missing sub) (there sub)) :=
  match entry with
  | none => inferInstanceAs (Decidable (missing sub))
  | some a => inferInstanceAs (Decidable (there sub a))

instance [DecidablePred missing] [∀ sub, DecidablePred (there sub)] :
    DecidablePred (ForParts root schema missing there)
  | .obj members =>
    inferInstanceAs (Decidable (∀ p ∈ properties root schema,
      (Entries.get? members p.1).elim (missing p.2) (there p.2)))
  | .arr items => inferInstanceAs (Decidable (∀ sub ∈ itemSchema? schema, ∀ a ∈ items, there sub a))
  | .null | .bool _ | .num _ | .str _ => inferInstanceAs (Decidable True)

instance decidableEveryMissing [∀ n, DecidablePred (P n)] :
    (levels : Nat) → (schema value : Json) → Decidable (EveryMissing root P levels schema value)
  | 0, _, _ => inferInstanceAs (Decidable True)
  | n + 1, schema, value =>
    have : ∀ sub, DecidablePred (EveryMissing root P n sub) := decidableEveryMissing n
    inferInstanceAs (Decidable (∀ s ∈ resolve root schema,
      ForParts root s (P n) (EveryMissing root P n) value))

instance decidableEveryProperty [∀ n, DecidablePred (P n)] :
    (levels : Nat) → (schema : Json) → Decidable (EveryProperty root P levels schema)
  | 0, _ => inferInstanceAs (Decidable True)
  | n + 1, schema =>
    have : DecidablePred (EveryProperty root P n) := decidableEveryProperty n
    inferInstanceAs (Decidable (∀ s ∈ resolve root schema, _ ∧ _))

instance (n : Nat) : DecidablePred (Defaultless root n) := fun schema =>
  inferInstanceAs (Decidable (declaredDefault? root schema = none))

instance (n : Nat) : DecidablePred (CompleteDefault root n) := fun schema =>
  inferInstanceAs (Decidable (∀ d ∈ declaredDefault? root schema,
    EveryMissing root (Defaultless root) n schema d))

theorem forParts_congr {missing' : Json → Prop} {there' : Json → Json → Prop}
    (hmissing : ∀ sub, missing sub ↔ missing' sub) (hthere : ∀ sub a, there sub a ↔ there' sub a) :
    ForParts root s missing there value ↔ ForParts root s missing' there' value := by
  obtain rfl : missing = missing' := funext fun sub => propext (hmissing sub)
  obtain rfl : there = there' := funext fun sub => funext fun a => propext (hthere sub a)
  exact Iff.rfl

theorem everyMissing_succ (hs : resolve root schema = some s) :
    EveryMissing root P (n + 1) schema value ↔
      ForParts root s (P n) (EveryMissing root P n) value := by
  rw [EveryMissing, hs]
  exact ⟨fun h => h s rfl, fun h t ht => Option.some.inj ht ▸ h⟩

theorem everyMissing_of_dangling (hs : resolve root schema = none) :
    EveryMissing root P (n + 1) schema value := by
  intro s hs'
  rw [hs] at hs'
  cases hs'

/-! ### One level -/

/-- Parts are left as they are if each of them is, and nothing with a default is missing. -/
theorem fillParts_eq_self_iff (hf : ∀ sub a : Json, f sub a = a ∨ a.size < (f sub a).size) :
    fillParts root s f value = value ↔
      ForParts root s (fun sub => declaredDefault? root sub = none) (fun sub a => f sub a = a)
        value := by
  cases value with
  | obj members =>
    rw [fillParts, Json.obj.injEq, foldl_eq_self_iff (fillProperty_grows hf)]
    exact forall₂_congr fun p _ => fillProperty_eq_self_iff
  | arr items =>
    rw [fillParts, Json.arr.injEq, mapItems, ForParts]
    cases itemSchema? s with
    | none => simp
    | some sub =>
      simp only [Option.mem_def, Option.some_inj, forall_eq']
      nth_rewrite 2 [← List.map_id items]
      exact List.map_inj_left
  | _ => exact iff_of_true rfl trivial

/-- What is asked of a property after filling, asked of it before. -/
theorem elim_fillProperties_iff (hd : Distinct declared) (hp : p ∈ declared) (members : Entries Json) :
    (Entries.get? (declared.foldl (fillProperty root f) members) p.1).elim (missing p.2) (there p.2) ↔
      (Entries.get? members p.1).elim ((declaredDefault? root p.2).elim (missing p.2) (there p.2))
        fun a => there p.2 (f p.2 a) := by
  rw [get?_fillProperties hd, get?_of_mem hd hp]
  cases Entries.get? members p.1 <;> exact Iff.rfl

/-- What can be asked of a filled value, asked of the value: of the defaults instead of what is missing,
and of the parts when they have been filled. -/
theorem forParts_fillParts_iff :
    ForParts root s missing there (fillParts root s f value) ↔
      ForParts root s (fun sub => (declaredDefault? root sub).elim (missing sub) (there sub))
        (fun sub a => there sub (f sub a)) value := by
  cases value with
  | obj members =>
    exact forall₂_congr fun p hp => elim_fillProperties_iff (distinct_properties root s) hp members
  | arr items =>
    refine forall₂_congr fun sub hsub => ?_
    rw [mapItems, hsub]
    exact List.forall_mem_map
  | _ => exact Iff.rfl

/-- What is asked of all values is asked of all properties, and of the items. -/
theorem forall_forParts_iff :
    (∀ value, ForParts root s missing there value) ↔
      (∀ p ∈ properties root s, missing p.2 ∧ ∀ a, there p.2 a) ∧
        ∀ sub ∈ itemSchema? s, ∀ a, there sub a := by
  constructor
  · refine fun h => ⟨fun p hp => ⟨h (.obj []) p hp, fun a => ?_⟩, fun sub hsub a => ?_⟩
    · have hpart := h (.obj [(p.1, a)]) p hp
      rwa [get?_cons, if_pos rfl] at hpart
    · exact h (.arr [a]) sub hsub a (List.mem_singleton_self a)
  · rintro ⟨hproperties, hitems⟩ value
    cases value with
    | obj members =>
      intro p hp
      cases Entries.get? members p.1 with
      | none => exact (hproperties p hp).1
      | some a => exact (hproperties p hp).2 a
    | arr items => exact fun sub hsub a _ => hitems sub hsub a
    | _ => trivial

/-! ### All levels -/

/-- **Filling changes nothing exactly if nothing with a default is missing.** -/
theorem fillWithin_eq_self_iff : ∀ {n : Nat} {schema value : Json},
    fillWithin root n schema value = value ↔ EveryMissing root (Defaultless root) n schema value := by
  intro n
  induction n with
  | zero => exact iff_of_true rfl trivial
  | succ n ih =>
    intro schema value
    cases hs : resolve root schema with
    | none => exact iff_of_true (fillWithin_of_dangling hs) (everyMissing_of_dangling hs)
    | some s =>
      rw [fillWithin_succ hs, fillParts_eq_self_iff (fillWithin_grows root n), everyMissing_succ hs]
      exact forParts_congr (fun _ => Iff.rfl) fun _ _ => ih

/-- What is missing no more lacks nothing if there was no default for it, or a complete one. -/
theorem elim_declaredDefault?_iff :
    (declaredDefault? root sub).elim (Defaultless root n sub)
        (EveryMissing root (Defaultless root) n sub) ↔ CompleteDefault root n sub := by
  rw [CompleteDefault, Defaultless]
  cases declaredDefault? root sub with
  | none => simp
  | some d => simp

/-- **A value is complete after filling** exactly if the defaults are that have been put in. -/
theorem nothingMissing_fillWithin_iff : ∀ {n : Nat} {schema value : Json},
    EveryMissing root (Defaultless root) n schema (fillWithin root n schema value) ↔
      EveryMissing root (CompleteDefault root) n schema value := by
  intro n
  induction n with
  | zero => exact Iff.rfl
  | succ n ih =>
    intro schema value
    cases hs : resolve root schema with
    | none => exact iff_of_true (everyMissing_of_dangling hs) (everyMissing_of_dangling hs)
    | some s =>
      -- a default that is put in has one level less below it than the value it is put into
      rw [fillWithin_succ hs, everyMissing_succ hs, everyMissing_succ hs, forParts_fillParts_iff]
      exact forParts_congr (fun _ => elim_declaredDefault?_iff) fun _ _ => ih

/-- **What is asked of all values** is asked of all properties that filling comes to. -/
theorem forall_everyMissing_iff : ∀ {n : Nat} {schema : Json},
    (∀ value, EveryMissing root P n schema value) ↔ EveryProperty root P n schema := by
  intro n
  induction n with
  | zero => exact iff_of_true (fun _ => trivial) trivial
  | succ n ih =>
    intro schema
    cases hs : resolve root schema with
    | none =>
      refine iff_of_true (fun _ => everyMissing_of_dangling hs) fun s hs' => ?_
      rw [hs] at hs'
      cases hs'
    | some s =>
      simp only [everyMissing_succ hs, forall_forParts_iff, ih, EveryProperty, hs, Option.mem_def,
        Option.some_inj, forall_eq']

end Schema

end RequestGate
