import Mathlib.Logic.Relation
import RequestGate.Proofs.Draft7.Ensured

/-!
# Conformance

A check is bounded by a number of steps, and the verdict of one that runs out of them says nothing. For
a schema in which no way along references and compositions comes back to where it started, the bound is
never felt: all checks of a value with as many steps as the engine takes, or more, come to the same
verdict (`RequestGate.Draft7.accepts_iff_accepts`). So one can speak of a value that conforms to a part
of a root, and forget about steps: it conforms to a reference if it conforms to the target, and to any
other schema if the keywords hold, where further schemas are read in the same way
(`RequestGate.Draft7.conforms_obj_iff`).
-/

namespace RequestGate.Draft7

open Schema

variable {formats : Formats} {root s t value : Json} {members : Entries Json} {reference : String}
  {n m : Nat}

/-! ### From schema to schema -/

/-- The schemas that the engine hands a value on to from a schema. -/
def handedBy (root s : Json) : List Json :=
  match reference? s, s with
  | some reference, _ => (resolve? root reference).toList
  | none, .obj members => combined members
  | none, _ => []

/-- The schemas that the engine goes on to from a schema, for the value or for parts of it. -/
def usedBy (root s : Json) : List Json :=
  match reference? s, s with
  | some reference, _ => (resolve? root reference).toList
  | none, .obj members => subschemas members
  | none, _ => []

theorem mem_handedBy_of_reference (href : reference? s = some reference)
    (ht : resolve? root reference = some t) : t ∈ handedBy root s := by
  simp [handedBy, href, ht]

theorem mem_handedBy_of_combined (root : Json) (href : reference? (.obj members) = none)
    (ht : t ∈ combined members) : t ∈ handedBy root (.obj members) := by
  simpa only [handedBy, href] using ht

theorem mem_usedBy_of_subschemas (root : Json) (href : reference? (.obj members) = none)
    (ht : t ∈ subschemas members) : t ∈ usedBy root (.obj members) := by
  simpa only [usedBy, href] using ht

theorem mem_usedBy_of_handedBy (h : t ∈ handedBy root s) : t ∈ usedBy root s := by
  cases href : reference? s with
  | some reference => simpa only [handedBy, usedBy, href] using h
  | none =>
    cases s with
    | obj members =>
      simp only [handedBy, usedBy, href] at h ⊢
      exact mem_subschemas_of_mem_combined h
    | _ => simp [handedBy, href] at h

theorem mem_subvalues_of_mem_usedBy (hs : s ∈ root.subvalues) (h : t ∈ usedBy root s) :
    t ∈ root.subvalues := by
  cases href : reference? s with
  | some reference =>
    simp only [usedBy, href, Option.mem_toList] at h
    exact mem_subvalues_of_resolve? h
  | none =>
    cases s with
    | obj members =>
      simp only [usedBy, href] at h
      exact mem_subvalues_of_mem_subschemas hs h
    | _ => simp [usedBy, href] at h

/-- Whether a schema hands a value on to another, in any number of steps. -/
def HandsOnTo (root : Json) : (s t : Json) → Prop :=
  Relation.ReflTransGen fun s t => t ∈ handedBy root s

theorem HandsOnTo.mem_subvalues (h : HandsOnTo root s t) (hs : s ∈ root.subvalues) :
    t ∈ root.subvalues := by
  induction h with
  | refl => exact hs
  | tail _ ht ih => exact mem_subvalues_of_mem_usedBy ih (mem_usedBy_of_handedBy ht)

/-- A property of a schema and of all schemas that are used by it. -/
def Throughout (root : Json) (P : Json → Prop) (s : Json) : Prop :=
  ∀ t, Relation.ReflTransGen (fun s t => t ∈ usedBy root s) s t → P t

variable {P : Json → Prop}

theorem Throughout.self (h : Throughout root P s) : P s :=
  h s .refl

theorem Throughout.of_mem_usedBy (h : Throughout root P s) (ht : t ∈ usedBy root s) :
    Throughout root P t :=
  fun u hu => h u (.head ht hu)

theorem Throughout.of_handsOnTo (h : Throughout root P s) (ht : HandsOnTo root s t) :
    Throughout root P t := by
  induction ht with
  | refl => exact h
  | tail _ ht ih => exact ih.of_mem_usedBy (mem_usedBy_of_handedBy ht)

/-- The schemas that are used by a schema, within a number of steps. -/
def usedWithin (root : Json) : Nat → Json → List Json
  | 0, s => [s]
  | n + 1, s => s :: (usedBy root s).flatMap (usedWithin root n)

theorem mem_usedWithin_self (root : Json) (n : Nat) (s : Json) : s ∈ usedWithin root n s := by
  cases n <;> simp [usedWithin]

/-- If no further schemas are used, those within the steps are all that there are. -/
theorem throughout_of_usedWithin
    (hclosed : ∀ t ∈ usedWithin root n s, ∀ u ∈ usedBy root t, u ∈ usedWithin root n s)
    (hP : ∀ t ∈ usedWithin root n s, P t) : Throughout root P s := by
  intro t ht
  refine hP t ?_
  induction ht with
  | refl => exact mem_usedWithin_self root n s
  | tail _ hu ih => exact hclosed _ ih _ hu

/-- A schema is grounded if all that it hands a value on to are. -/
def groundRule (root : Json) (grounded : Json → Prop) (s : Json) : Prop :=
  ∀ t ∈ handedBy root s, grounded t

/-- Whether no way from a schema for the same value is endless. -/
def Grounded (root s : Json) : Prop :=
  ∃ n, Rounds (groundRule root) n s

/-- Whether the reading of schemas covers a schema. -/
structure Readable (root s : Json) : Prop where
  keywords : ∀ members, s = .obj members → ∀ keyword ∈ Entries.keys members, keyword ∈ vocabulary
  grounded : Grounded root s

theorem throughout_readable_of_usedWithin
    (hclosed : ∀ t ∈ usedWithin root n s, ∀ u ∈ usedBy root t, u ∈ usedWithin root n s)
    (hkeywords : ∀ t ∈ usedWithin root n s,
      ∀ keyword ∈ Entries.keys ((t.obj?).getD []), keyword ∈ vocabulary)
    (hrounds : ∀ t ∈ usedWithin root n s, Rounds (groundRule root) (n + 1) t) :
    Throughout root (Readable root) s := by
  refine throughout_of_usedWithin hclosed fun t ht => ⟨?_, n + 1, hrounds t ht⟩
  rintro members rfl
  exact hkeywords _ ht

theorem Grounded.rounds (h : Grounded root s) (hs : s ∈ root.subvalues) :
    Rounds (groundRule root) root.size s := by
  obtain ⟨n, hn⟩ := h
  rw [← Json.length_subvalues]
  refine hn.within_length (fun _ _ himp s h t ht => himp t (h t ht)) (fun _ s hs h t ht => ?_) hs
  exact ⟨mem_subvalues_of_mem_usedBy hs (mem_usedBy_of_handedBy ht), h t ht⟩

instance decidableRounds (root : Json) :
    ∀ (n : Nat) (s : Json), Decidable (Rounds (groundRule root) n s)
  | 0, _ => instDecidableFalse
  | n + 1, s =>
    have : DecidablePred (Rounds (groundRule root) n) := decidableRounds root n
    inferInstanceAs (Decidable (∀ t ∈ handedBy root s, Rounds (groundRule root) n t))

/-! ### Enough steps -/

theorem accepts_leaf_iff (hobj : s.isObj = false) :
    Accepts formats root (n + 1) s value ↔ s ≠ .bool false :=
  (decides_violations formats root n).leaf_iff s value hobj

/-- The verdict stays the same once there are steps for all levels of the value and for the ways that
are left at this one. -/
theorem accepts_iff_of_rounds (hroot : root.WellFormed) :
    ∀ {levels rounds : Nat} {s value : Json} {n m : Nat}, s ∈ root.subvalues →
      Throughout root (Readable root) s →
      Rounds (groundRule root) rounds s →
      value.WellFormed → value.depth ≤ levels → levels * (root.size + 1) + rounds < n →
      levels * (root.size + 1) + rounds < m →
      (Accepts formats root n s value ↔ Accepts formats root m s value) := by
  intro levels
  induction levels using Nat.strong_induction_on with
  | _ levels ihLevels =>
    intro rounds
    induction rounds with
    | zero => exact fun _ _ h => h.elim
    | succ rounds ihRounds =>
      intro s value n m hs hreadable hrounds hvalue hdepth hn hm
      obtain ⟨n, rfl⟩ : ∃ k, n = k + 2 := ⟨n - 2, by omega⟩
      obtain ⟨m, rfl⟩ : ∃ k, m = k + 2 := ⟨m - 2, by omega⟩
      have hsame : ∀ t ∈ handedBy root s,
          (Accepts formats root (n + 1) t value ↔ Accepts formats root (m + 1) t value) :=
        fun t ht => ihRounds (mem_subvalues_of_mem_usedBy hs (mem_usedBy_of_handedBy ht))
          (hreadable.of_mem_usedBy (mem_usedBy_of_handedBy ht)) (hrounds t ht) hvalue hdepth
          (by omega) (by omega)
      cases href : reference? s with
      | some reference =>
        rw [accepts_reference_iff href, accepts_reference_iff href]
        exact forall₂_congr fun t ht => hsame t (mem_handedBy_of_reference href ht)
      | none =>
        cases s with
        | obj members =>
          have hw := hroot.of_mem_subvalues hs
          have hkeywords := hreadable.self.keywords members rfl
          rw [accepts_obj_iff hw hvalue href hkeywords, accepts_obj_iff hw hvalue href hkeywords]
          refine keywordsHold_congr
            ⟨fun t ht => hsame t (mem_handedBy_of_combined root href ht), fun t ht a ha => ?_⟩
          -- a part is less deep, and its level pays for all ways that there can be
          have huses := mem_usedBy_of_subschemas root href ht
          have hpart := Json.depth_lt_of_mem_children ha
          have hmem := mem_subvalues_of_mem_usedBy hs huses
          have hlevel : a.depth * (root.size + 1) + (root.size + 1) ≤ levels * (root.size + 1) :=
            calc a.depth * (root.size + 1) + (root.size + 1)
                = (a.depth + 1) * (root.size + 1) := (Nat.succ_mul _ _).symm
              _ ≤ levels * (root.size + 1) := Nat.mul_le_mul_right _ (by omega)
          exact ihLevels a.depth (by omega) hmem (hreadable.of_mem_usedBy huses)
            ((hreadable.of_mem_usedBy huses).self.grounded.rounds hmem) (hvalue.of_mem_children ha)
            le_rfl (by omega) (by omega)
        | _ => rw [accepts_leaf_iff rfl, accepts_leaf_iff rfl]

/-- **The bound on steps is never felt.** -/
theorem accepts_iff_accepts (hroot : root.WellFormed) (hs : s ∈ root.subvalues)
    (hreadable : Throughout root (Readable root) s) (hvalue : value.WellFormed)
    (hn : (value.depth + 1) * (root.size + 1) ≤ n) (hm : (value.depth + 1) * (root.size + 1) ≤ m) :
    Accepts formats root n s value ↔ Accepts formats root m s value := by
  rw [Nat.succ_mul] at hn hm
  exact accepts_iff_of_rounds hroot hs hreadable (hreadable.self.grounded.rounds hs) hvalue le_rfl
    (by omega) (by omega)

/-! ### Conformance -/

instance (formats : Formats) (root : Json) (n : Nat) (s value : Json) :
    Decidable (Accepts formats root n s value) :=
  decidable_of_iff _ List.isEmpty_iff

/-- Whether a value conforms to a part of a root, in as many steps as the engine takes for it. -/
def Conforms (formats : Formats) (root s value : Json) : Prop :=
  Accepts formats root (stepsFor root value) s value

instance (formats : Formats) (root s value : Json) : Decidable (Conforms formats root s value) :=
  inferInstanceAs (Decidable (Accepts _ _ _ _ _))

/-- A value conforms to a whole root if the engine finds nothing against it. -/
theorem conforms_root_iff : Conforms formats root root value ↔ allViolations formats root value = [] :=
  Iff.rfl

theorem stepsFor_eq (root value : Json) :
    stepsFor root value = (value.depth + 1) * (root.size + 1) + root.size + 1 :=
  Nat.succ_mul _ _

theorem conforms_leaf_iff (hobj : s.isObj = false) :
    Conforms formats root s value ↔ s ≠ .bool false := by
  rw [Conforms, stepsFor_eq, accepts_leaf_iff hobj]

section

variable (hroot : root.WellFormed) (hs : s ∈ root.subvalues)
  (hreadable : Throughout root (Readable root) s) (hvalue : value.WellFormed)

include hroot hs hreadable hvalue

theorem conforms_iff_accepts (hn : (value.depth + 1) * (root.size + 1) ≤ n) :
    Conforms formats root s value ↔ Accepts formats root n s value :=
  accepts_iff_accepts hroot hs hreadable hvalue (by rw [stepsFor_eq]; omega) hn

/-- A value conforms to a reference if it conforms to its target. -/
theorem conforms_reference_iff (href : reference? s = some reference) :
    Conforms formats root s value ↔
      ∀ t, resolve? root reference = some t → Conforms formats root t value := by
  rw [Conforms, stepsFor_eq, accepts_reference_iff href]
  refine forall₂_congr fun t ht => ?_
  have huses := mem_usedBy_of_handedBy (mem_handedBy_of_reference href ht)
  exact (conforms_iff_accepts hroot (mem_subvalues_of_mem_usedBy hs huses)
    (hreadable.of_mem_usedBy huses) hvalue (by omega)).symm

end

/-- **A value conforms to a schema if its keywords hold.** -/
theorem conforms_obj_iff (hroot : root.WellFormed) (hs : .obj members ∈ root.subvalues)
    (hreadable : Throughout root (Readable root) (.obj members)) (hvalue : value.WellFormed)
    (href : reference? (.obj members) = none) :
    Conforms formats root (.obj members) value ↔
      KeywordsHold .draft7 (Conforms formats root) members value := by
  have hpos := root.size_pos
  obtain ⟨n, hn⟩ : ∃ n, stepsFor root value = n + 2 :=
    ⟨stepsFor root value - 2, by rw [stepsFor_eq]; omega⟩
  have hsteps := stepsFor_eq root value
  rw [Conforms, hn, accepts_obj_iff (hroot.of_mem_subvalues hs) hvalue href
    (hreadable.self.keywords members rfl)]
  have hheld : ∀ t ∈ subschemas members, ∀ a : Json, a.WellFormed → a.depth ≤ value.depth →
      (Accepts formats root (n + 1) t a ↔ Conforms formats root t a) := by
    intro t ht a ha hdepth
    have huses := mem_usedBy_of_subschemas root href ht
    have hle : (a.depth + 1) * (root.size + 1) ≤ (value.depth + 1) * (root.size + 1) :=
      Nat.mul_le_mul_right _ (by omega)
    exact (conforms_iff_accepts hroot (mem_subvalues_of_mem_usedBy hs huses)
      (hreadable.of_mem_usedBy huses) ha (by omega)).symm
  -- the schemas that are asked next have fewer steps, but enough
  exact keywordsHold_congr
    ⟨fun t ht => hheld t (mem_subschemas_of_mem_combined ht) value hvalue le_rfl,
      fun t ht a ha => hheld t ht a (hvalue.of_mem_children ha)
        (Json.depth_lt_of_mem_children ha).le⟩

end RequestGate.Draft7
