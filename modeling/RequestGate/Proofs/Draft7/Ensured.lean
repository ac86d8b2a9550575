import RequestGate.Proofs.Draft7.Verdict
import RequestGate.Proofs.Rounds

/-!
# What a schema ensures

A value that passes a schema passes others with it: the target of a reference, every member of `allOf`,
and one of `anyOf` or `oneOf`. If all ways lead to schemas with a certain property, the schema ensures
the property (`RequestGate.Draft7.Ensures`): each value that passes has passed a schema which has it
(`RequestGate.Draft7.Passes.exists_of_ensures`).

The schemas meant are those of one root. References may run in circles, but what is ensured is found
within as many rounds as the root has parts, and a check takes more steps than that at every level of a
value. So there are steps left to go on with inside the value.
-/

namespace RequestGate.Draft7

open Schema

variable {formats : Formats} {root s t value : Json} {members : Entries Json} {n : Nat}

/-! ### Where references lead -/

theorem mem_children_of_step? {segment : String} (h : step? value segment = some t) :
    t ∈ value.children := by
  cases value with
  | arr items =>
    obtain ⟨i, -, hi⟩ := Option.bind_eq_some_iff.mp h
    exact List.mem_of_getElem? hi
  | obj members => exact Json.mem_children_of_get? h
  | _ => cases h

theorem mem_subvalues_of_steps {segments : List String} (hs : s ∈ root.subvalues)
    (h : segments.foldlM step? s = some t) : t ∈ root.subvalues := by
  induction segments generalizing s with
  | nil => exact Option.some.inj h ▸ hs
  | cons segment segments ih =>
    obtain ⟨next, hstep, hrest⟩ := Option.bind_eq_some_iff.mp h
    exact ih (Json.mem_subvalues_of_mem_children hs (mem_children_of_step? hstep)) hrest

/-- **A reference leads to a part of the root.** -/
theorem mem_subvalues_of_resolve? {reference : String} (h : resolve? root reference = some t) :
    t ∈ root.subvalues := by
  rw [resolve?] at h
  split at h
  · exact Option.some.inj h ▸ Json.mem_subvalues_self root
  · exact Option.some.inj h ▸ Json.mem_subvalues_self root
  · obtain ⟨pointer, -, h⟩ := Option.bind_eq_some_iff.mp h
    exact mem_subvalues_of_steps (Json.mem_subvalues_self root) h
  · cases h

theorem mem_subvalues_of_mem_subschemas (hmembers : .obj members ∈ root.subvalues)
    (h : s ∈ subschemas members) : s ∈ root.subvalues := by
  obtain ⟨held, hheld, rfl | hs⟩ := exists_child_of_mem_subschemas h
  · exact Json.mem_subvalues_of_mem_children hmembers hheld
  · exact Json.mem_subvalues_of_mem_children
      (Json.mem_subvalues_of_mem_children hmembers hheld) hs

theorem mem_subvalues_of_mem_listUnder {keyword : String} (hkeyword : nesting keyword = .many)
    (hmembers : .obj members ∈ root.subvalues) (h : s ∈ listUnder members keyword) :
    s ∈ root.subvalues :=
  mem_subvalues_of_mem_subschemas hmembers (mem_subschemas_of_mem_list hkeyword h)

/-! ### Ensuring -/

/-- One step of reasoning about what passes: a schema has the property itself, or hands the value on to
schemas that ensure it. -/
inductive EnsuresStep (root : Json) (P ensured : Json → Prop) : Json → Prop where
  | here {s : Json} (h : P s) : EnsuresStep root P ensured s
  | reference {s t : Json} {reference : String} (href : reference? s = some reference)
      (htarget : resolve? root reference = some t) (h : ensured t) : EnsuresStep root P ensured s
  | allOf {members : Entries Json} {s : Json} (href : reference? (.obj members) = none)
      (hs : s ∈ listUnder members "allOf") (h : ensured s) : EnsuresStep root P ensured (.obj members)
  | anyOf {members : Entries Json} {schemas : Json} (href : reference? (.obj members) = none)
      (hget : Entries.get? members "anyOf" = some schemas)
      (h : ∀ s ∈ listUnder members "anyOf", ensured s) : EnsuresStep root P ensured (.obj members)
  | oneOf {members : Entries Json} {schemas : Json} (href : reference? (.obj members) = none)
      (hget : Entries.get? members "oneOf" = some schemas)
      (h : ∀ s ∈ listUnder members "oneOf", ensured s) : EnsuresStep root P ensured (.obj members)

/-- Whether each value that a schema lets through is let through by a schema with a property, as far as
references and compositions show. -/
def Ensures (root : Json) (P : Json → Prop) (s : Json) : Prop :=
  ∃ n, Rounds (EnsuresStep root P) n s

variable {P : Json → Prop}

theorem Ensures.of_self (h : P s) : Ensures root P s :=
  ⟨1, .here h⟩

theorem EnsuresStep.mono {ensured others : Json → Prop} (himp : ∀ s, ensured s → others s) (s : Json)
    (h : EnsuresStep root P ensured s) : EnsuresStep root P others s := by
  cases h with
  | here h => exact .here h
  | reference href htarget h => exact .reference href htarget (himp _ h)
  | allOf href hs h => exact .allOf href hs (himp _ h)
  | anyOf href hget h => exact .anyOf href hget fun s hs => himp s (h s hs)
  | oneOf href hget h => exact .oneOf href hget fun s hs => himp s (h s hs)

theorem staysIn_subvalues (root : Json) (P : Json → Prop) :
    StaysIn root.subvalues (EnsuresStep root P) := by
  intro ensured s hs h
  cases h with
  | here h => exact .here h
  | reference href htarget h =>
    exact .reference href htarget ⟨mem_subvalues_of_resolve? htarget, h⟩
  | allOf href hmem h => exact .allOf href hmem ⟨mem_subvalues_of_mem_listUnder rfl hs hmem, h⟩
  | anyOf href hget h =>
    exact .anyOf href hget fun s hmem => ⟨mem_subvalues_of_mem_listUnder rfl hs hmem, h s hmem⟩
  | oneOf href hget h =>
    exact .oneOf href hget fun s hmem => ⟨mem_subvalues_of_mem_listUnder rfl hs hmem, h s hmem⟩

/-! ### Passing -/

/-- As many steps as a check of a value takes at most before it stands inside the value. -/
theorem accepts_of_rounds (hroot : root.WellFormed) (hvalue : value.WellFormed)
    (hn : 0 < n) : ∀ {rounds : Nat} {s : Json}, s ∈ root.subvalues →
      Rounds (EnsuresStep root P) rounds s → Accepts formats root (n + rounds) s value →
      ∃ t ∈ root.subvalues, P t ∧ ∃ m ≥ n, Accepts formats root m t value := by
  intro rounds
  induction rounds with
  | zero => exact fun _ h => h.elim
  | succ rounds ih =>
    intro s hs h haccepts
    -- what the keywords demand of the parts is checked with one step less
    have hkeywords : ∀ {members : Entries Json}, s = .obj members → reference? s = none →
        KeywordsHold .draft7 (Accepts formats root (n + rounds)) members value := by
      rintro members rfl href
      obtain ⟨k, hk⟩ : ∃ k, n + rounds = k + 1 := ⟨n + rounds - 1, by omega⟩
      rw [hk]
      refine keywordsHold_of_accepts (hroot.of_mem_subvalues hs) hvalue href ?_
      rwa [← Nat.add_assoc, hk] at haccepts
    cases h with
    | here h => exact ⟨s, hs, h, _, by omega, haccepts⟩
    | reference href htarget h =>
      exact ih (mem_subvalues_of_resolve? htarget) h
        ((accepts_reference_iff href).mp haccepts _ htarget)
    | allOf href hmem h =>
      exact ih (mem_subvalues_of_mem_listUnder rfl hs hmem) h ((hkeywords rfl href).allOf _ hmem)
    | anyOf href hget h =>
      obtain ⟨t, hmem, ht⟩ := (hkeywords rfl href).anyOf _ hget
      exact ih (mem_subvalues_of_mem_listUnder rfl hs hmem) (h t hmem) ht
    | @oneOf members _ href hget h =>
      obtain ⟨before, t, after, hsplit, ht, -⟩ := (hkeywords rfl href).oneOf _ hget
      have hmem : t ∈ listUnder members "oneOf" := by simp [hsplit]
      exact ih (mem_subvalues_of_mem_listUnder rfl hs hmem) (h t hmem) ht

/-- Whether a value passes a schema, with steps left for all that is inside it. -/
def Passes (formats : Formats) (root s value : Json) : Prop :=
  ∃ n ≥ stepsFor root value, Accepts formats root n s value

/-- Whether the keywords of a schema hold of a value, with steps left for all that is inside it. -/
def Upheld (formats : Formats) (root : Json) (members : Entries Json) (value : Json) : Prop :=
  ∃ n, KeywordsHold .draft7 (Accepts formats root (n + 1)) members value ∧
    ∀ s, ∀ a ∈ value.children, Accepts formats root (n + 1) s a → Passes formats root s a

/-- A step into a value takes what one level of it is given. -/
theorem stepsFor_le_of_mem_children (root : Json) {a : Json} (ha : a ∈ value.children) :
    stepsFor root a ≤ (value.depth + 1) * (root.size + 1) :=
  Nat.mul_le_mul_right _ (Nat.succ_le_succ (Json.depth_lt_of_mem_children ha))

/-- **A value that passes has passed a schema with the property that is ensured**, and if that is one of
keywords, they hold. -/
theorem Passes.exists_of_ensures (hroot : root.WellFormed) (hvalue : value.WellFormed)
    (hs : s ∈ root.subvalues) (h : Passes formats root s value) (hensures : Ensures root P s) :
    ∃ t ∈ root.subvalues, P t ∧ ∀ members, t = .obj members → reference? t = none →
      Upheld formats root members value := by
  obtain ⟨rounds, hrounds⟩ := hensures
  have hwithin := hrounds.within_length (fun _ _ => EnsuresStep.mono) (staysIn_subvalues root P) hs
  rw [Json.length_subvalues] at hwithin
  obtain ⟨n, hn, haccepts⟩ := h
  -- the last summand pays for the rounds, the rest is left for the value
  have hsteps : stepsFor root value = (value.depth + 1) * (root.size + 1) + 1 + root.size := by
    rw [stepsFor, Nat.succ_mul]
    omega
  obtain ⟨k, rfl⟩ : ∃ k, n = (value.depth + 1) * (root.size + 1) + 1 + k + root.size :=
    ⟨n - stepsFor root value, by omega⟩
  obtain ⟨t, ht, hP, m, hm, haccepts⟩ :=
    accepts_of_rounds hroot hvalue (by omega) hs hwithin haccepts
  refine ⟨t, ht, hP, ?_⟩
  rintro members rfl href
  have hpos : 0 < (value.depth + 1) * (root.size + 1) :=
    Nat.mul_pos (Nat.succ_pos _) (Nat.succ_pos _)
  obtain ⟨m, rfl⟩ : ∃ l, m = l + 2 := ⟨m - 2, by omega⟩
  refine ⟨m, keywordsHold_of_accepts (hroot.of_mem_subvalues ht) hvalue href haccepts, ?_⟩
  intro s a ha hinside
  have hle := stepsFor_le_of_mem_children root ha
  exact ⟨m + 1, by omega, hinside⟩

end RequestGate.Draft7
