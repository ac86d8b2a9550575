import Mathlib.Data.List.Sort
import RequestGate.Proofs.Json.Canonical

/-!
# Values that differ in the order of members

Canonical text does not tell in which order the members of an object stand. Two schemas that differ in
nothing else are `RequestGate.Json.Rearranged`. The values of some keywords are exempt, for there the
order does matter: what stands under `enum` or `const` is compared as it stands, and a bound is shown in
messages as it stands (`RequestGate.Json.literalKeywords`).

That two values are rearrangements of each other can be computed, by putting all members in the order of
their keys. Everything that is made of them by looking up members, but not by their order, is related in
the same way, beginning with the values of their members (`RequestGate.Json.Rearranged.get?`).
-/

namespace RequestGate.Json

/-- The keywords whose values are compared or shown as they stand. -/
def literalKeywords : List String :=
  ["enum", "const", "minLength", "maxLength", "pattern", "format", "minimum", "maximum",
   "exclusiveMinimum", "exclusiveMaximum", "minItems", "maxItems", "minProperties", "maxProperties",
   "multipleOf"]

mutual

/-- The value with the members of every object in the order of their keys, except for values under
literal keywords. -/
def arranged : Json → Json
  | .arr items => .arr (arrangedList items)
  | .obj members => .obj ((arrangedMembers members).insertionSort fun m n => m.1 ≤ n.1)
  | value => value

/-- Items with their members in order. -/
def arrangedList : List Json → List Json
  | [] => []
  | a :: as => arranged a :: arrangedList as

/-- Members with the members within them in order. -/
def arrangedMembers : List (String × Json) → List (String × Json)
  | [] => []
  | (k, a) :: as => (k, if k ∈ literalKeywords then a else arranged a) :: arrangedMembers as

end

/-- Well-formed values that differ at most in the order of members. -/
structure Rearranged (a b : Json) : Prop where
  left : a.WellFormed
  right : b.WellFormed
  arranged_eq : a.arranged = b.arranged

instance (a b : Json) : Decidable (Rearranged a b) :=
  decidable_of_iff (a.WellFormed ∧ b.WellFormed ∧ a.arranged = b.arranged)
    ⟨fun h => ⟨h.1, h.2.1, h.2.2⟩, fun h => ⟨h.left, h.right, h.arranged_eq⟩⟩

variable {a b : Json} {items : List Json} {members : Entries Json}

theorem arrangedList_eq (items : List Json) : arrangedList items = items.map arranged := by
  induction items with
  | nil => rfl
  | cons a items ih => rw [arrangedList, ih, List.map_cons]

theorem arrangedMembers_eq (members : Entries Json) :
    arrangedMembers members =
      members.map fun m => (m.1, if m.1 ∈ literalKeywords then m.2 else m.2.arranged) := by
  induction members with
  | nil => rfl
  | cons m members ih => rw [arrangedMembers, ih, List.map_cons]

namespace Rearranged

theorem refl (h : a.WellFormed) : Rearranged a a := ⟨h, h, rfl⟩

theorem symm (h : Rearranged a b) : Rearranged b a := ⟨h.right, h.left, h.arranged_eq.symm⟩

/-! ### Kind by kind -/

theorem eq_null (h : Rearranged .null b) : b = .null := by
  have heq := h.arranged_eq
  cases b <;> simp [arranged] at heq ⊢

theorem eq_bool {v : Bool} (h : Rearranged (.bool v) b) : b = .bool v := by
  have heq := h.arranged_eq
  cases b <;> simp_all [arranged]

theorem eq_num {n : Number} (h : Rearranged (.num n) b) : b = .num n := by
  have heq := h.arranged_eq
  cases b <;> simp_all [arranged]

theorem eq_str {s : String} (h : Rearranged (.str s) b) : b = .str s := by
  have heq := h.arranged_eq
  cases b <;> simp_all [arranged]

/-- The items of arrays correspond. -/
theorem exists_arr (h : Rearranged (.arr items) b) :
    ∃ items', b = .arr items' ∧ List.Forall₂ Rearranged items items' := by
  have heq := h.arranged_eq
  cases b with
  | arr items' =>
    rw [arranged, arranged, arrangedList_eq, arrangedList_eq] at heq
    have hitems := Json.arr.inj heq
    rw [← List.forall₂_eq_eq_eq, List.forall₂_map_left_iff, List.forall₂_map_right_iff] at hitems
    refine ⟨items', rfl, List.forall₂_iff_get.mpr ⟨hitems.length_eq, fun i hi hi' => ?_⟩⟩
    exact ⟨wellFormedList_iff.mp h.left _ (List.get_mem ..),
      wellFormedList_iff.mp h.right _ (List.get_mem ..), hitems.get hi hi'⟩
  | _ => simp [arranged] at heq

/-- How the values under a key are related: those of literal keywords are the same. -/
def Under (key : String) (v w : Json) : Prop := Rearranged v w ∧ (key ∈ literalKeywords → v = w)

/-- **The members of objects correspond**, in some order. -/
theorem exists_obj (h : Rearranged (.obj members) b) :
    ∃ members', b = .obj members' ∧ members.Permuted Under members' := by
  have heq := h.arranged_eq
  cases b with
  | obj members' =>
    rw [arranged, arranged] at heq
    have hperm : (arrangedMembers members).Perm (arrangedMembers members') := by
      have hsort := List.perm_insertionSort (fun m n => m.1 ≤ n.1) (arrangedMembers members)
      rw [Json.obj.inj heq] at hsort
      exact hsort.symm.trans (List.perm_insertionSort _ _)
    rw [arrangedMembers_eq, arrangedMembers_eq] at hperm
    refine ⟨members', rfl, .of_map_perm hperm fun m hm m' hm' hpair => ?_⟩
    obtain ⟨hkey, hvalue⟩ := Prod.mk.inj hpair
    have hleft := wellFormedMembers_iff.mp h.left.2 m hm
    have hright := wellFormedMembers_iff.mp h.right.2 m' hm'
    rw [← hkey] at hvalue
    refine ⟨hkey, ?_⟩
    split at hvalue
    · exact ⟨hvalue ▸ refl hleft, fun _ => hvalue⟩
    · rename_i hliteral
      exact ⟨⟨hleft, hright, hvalue⟩, fun hmem => absurd hmem hliteral⟩
  | _ => simp [arranged] at heq

theorem Under.refl (h : a.WellFormed) (key : String) : Under key a a := ⟨Rearranged.refl h, fun _ => rfl⟩

theorem Under.of_not_literal {key : String} (hkey : key ∉ literalKeywords) (h : Rearranged a b) :
    Under key a b := ⟨h, fun hliteral => absurd hliteral hkey⟩

/-- Objects correspond if their members do. -/
theorem of_forall₂ {members' : Entries Json} (hd : Entries.Distinct members)
    (h : List.Forall₂ (fun m m' => m.1 = m'.1 ∧ Under m.1 m.2 m'.2) members members') :
    Rearranged (.obj members) (.obj members') := by
  have hkeys : Entries.keys members = Entries.keys members' :=
    Entries.map_eq_of_forall₂ (h.imp fun _ _ hm => hm.1)
  have hvalues : (∀ m ∈ members, m.2.WellFormed) ∧ ∀ m ∈ members', m.2.WellFormed := by
    clear hd hkeys
    induction h with
    | nil => exact ⟨fun _ hm => absurd hm List.not_mem_nil, fun _ hm => absurd hm List.not_mem_nil⟩
    | cons hhead _ ih =>
      exact ⟨List.forall_mem_cons.mpr ⟨hhead.2.1.left, ih.1⟩,
        List.forall_mem_cons.mpr ⟨hhead.2.1.right, ih.2⟩⟩
  refine ⟨wellFormed_obj_iff.mpr ⟨hd, hvalues.1⟩,
    wellFormed_obj_iff.mpr ⟨by rwa [Entries.Distinct, ← hkeys], hvalues.2⟩, ?_⟩
  rw [arranged, arranged, arrangedMembers_eq, arrangedMembers_eq, Entries.map_eq_of_forall₂]
  refine h.imp fun m m' hm => Prod.ext hm.1 ?_
  obtain ⟨hkey, hunder, hliteral⟩ := hm
  dsimp only
  rw [← hkey]
  split
  · exact hliteral ‹_›
  · exact hunder.arranged_eq

/-- What two values can be that differ in the order of members: both are arrays, both are objects, or
they are the same. -/
inductive Cases : Json → Json → Prop where
  | same {v : Json} (harr : v.arr? = none) (hobj : v.obj? = none) : Cases v v
  | arr {items items' : List Json} (h : List.Forall₂ Rearranged items items') :
    Cases (.arr items) (.arr items')
  | obj {members members' : Entries Json} (h : Rearranged (.obj members) (.obj members'))
    (hmembers : members.Permuted Under members') : Cases (.obj members) (.obj members')

theorem toCases (h : Rearranged a b) : Cases a b := by
  cases a with
  | obj members =>
    obtain ⟨members', rfl, hmembers⟩ := h.exists_obj
    exact .obj h hmembers
  | arr items =>
    obtain ⟨items', rfl, hitems⟩ := h.exists_arr
    exact .arr hitems
  | null =>
    rw [h.eq_null]
    exact .same rfl rfl
  | bool v =>
    rw [h.eq_bool]
    exact .same rfl rfl
  | num n =>
    rw [h.eq_num]
    exact .same rfl rfl
  | str s =>
    rw [h.eq_str]
    exact .same rfl rfl

/-- Induction over two values that differ in the order of members. -/
theorem induct {P : Json → Json → Prop} (same : ∀ v, P v v)
    (arr : ∀ items items', List.Forall₂ P items items' → P (.arr items) (.arr items'))
    (obj : ∀ members members' : Entries Json, Entries.Distinct members →
      members.Permuted (fun _ => P) members' → P (.obj members) (.obj members'))
    (h : Rearranged a b) : P a b := by
  induction hsize : a.size using Nat.strongRecOn generalizing a b with
  | ind n ih =>
    subst hsize
    have hchild : ∀ v ∈ a.children, ∀ w, Rearranged v w → P v w :=
      fun v hv w hvw => ih v.size (size_lt_of_mem_children hv) hvw rfl
    cases h.toCases with
    | same _ _ => exact same a
    | @arr items items' hitems =>
      refine arr _ _ (((List.forall₂_and_left items items').mpr ⟨hchild, hitems⟩).imp ?_)
      exact fun v w hvw => hvw.1 w hvw.2
    | @obj members members' _ hmembers =>
      obtain ⟨ordered, hperm, hordered⟩ := hmembers
      refine obj _ _ h.left.1 ⟨ordered, hperm, ?_⟩
      have hmem : ∀ m ∈ ordered, ∀ w, Rearranged m.2 w → P m.2 w := fun m hm =>
        hchild m.2 (List.mem_map_of_mem (f := Prod.snd) (hperm.mem_iff.mpr hm))
      refine ((List.forall₂_and_left ordered members').mpr ⟨hmem, hordered⟩).imp ?_
      exact fun m m' hm => ⟨hm.2.1, hm.1 _ hm.2.2.1⟩

/-- The order does not change the size. -/
theorem size_eq (h : Rearranged a b) : a.size = b.size := by
  refine h.induct (P := fun a b => a.size = b.size) (fun _ => rfl) (fun items items' hitems => ?_)
    fun members members' _ hmembers => ?_
  · rw [size, size, sizeList_eq, sizeList_eq]
    rw [Entries.map_eq_of_forall₂ hitems]
  · obtain ⟨ordered, hperm, hordered⟩ := hmembers
    rw [size, size, sizeMembers_eq, sizeMembers_eq, (hperm.map fun m => m.2.size).sum_eq]
    rw [Entries.map_eq_of_forall₂ (hordered.imp fun _ _ hm => hm.2)]

/-- **The canonical text does not tell the order.** -/
theorem alike (h : Rearranged a b) : Alike a b := by
  refine h.induct Alike.refl (fun items items' hitems => ?_) fun members members' hd hmembers => ?_
  · rw [Alike, canonical, canonical, canonicalList_eq, canonicalList_eq]
    rw [Entries.map_eq_of_forall₂ hitems]
  · have hperm : (canonicalMembers members).Perm (canonicalMembers members') := by
      obtain ⟨ordered, hperm, hordered⟩ := hmembers
      rw [canonicalMembers_eq, canonicalMembers_eq]
      refine (hperm.map _).trans (.of_eq (Entries.map_eq_of_forall₂ ?_))
      exact hordered.imp fun m m' hm => Prod.ext (congrArg quote hm.1) hm.2
    rw [Alike, canonical, canonical, sortByKey_eq_of_perm hd hperm]

/-! ### Access -/

variable {key : String}

theorem permuted {members' : Entries Json} (h : Rearranged (.obj members) (.obj members')) :
    members.Permuted Under members' := by
  obtain ⟨_, heq, hpermuted⟩ := h.exists_obj
  exact Json.obj.inj heq ▸ hpermuted

/-- **What is found under a key corresponds.** -/
theorem get? (h : Rearranged a b) (key : String) :
    Option.Rel (Under key) (a.get? key) (b.get? key) := by
  cases h.toCases with
  | obj h hmembers => exact hmembers.get? h.left.1 key
  | arr _ => exact .none
  | same _ hobj =>
    have hnone : a.get? key = none := by
      cases a <;> first | rfl | cases hobj
    rw [hnone]
    exact .none

/-- What is found under a key corresponds, and is the same if the keyword is literal. -/
theorem get?_cases (h : Rearranged a b) (key : String) :
    a.get? key = none ∧ b.get? key = none ∨
      ∃ v w, a.get? key = some v ∧ b.get? key = some w ∧ Under key v w :=
  Entries.rel_cases (h.get? key)

theorem member_cases {members' : Entries Json} (h : Rearranged (.obj members) (.obj members'))
    (key : String) :
    Entries.get? members key = none ∧ Entries.get? members' key = none ∨
      ∃ v w, Entries.get? members key = some v ∧ Entries.get? members' key = some w ∧
        Under key v w :=
  h.get?_cases key

theorem hasKey_eq (h : Rearranged a b) (key : String) : a.hasKey key = b.hasKey key := by
  rw [hasKey, hasKey]
  rcases h.get?_cases key with ⟨ha, hb⟩ | ⟨v, w, ha, hb, -⟩ <;> simp [ha, hb]

theorem str?_eq (h : Rearranged a b) : a.str? = b.str? := by
  cases h.toCases <;> rfl

/-- The strings among corresponding items are the same. -/
theorem strings_eq {items items' : List Json} (h : List.Forall₂ Rearranged items items') :
    items.filterMap Json.str? = items'.filterMap Json.str? := by
  induction h with
  | nil => rfl
  | cons hhead _ ih => rw [List.filterMap_cons, List.filterMap_cons, hhead.str?_eq, ih]

theorem isObj_eq (h : Rearranged a b) : a.isObj = b.isObj := by
  cases h.toCases <;> rfl

theorem arr? (h : Rearranged a b) : Option.Rel (List.Forall₂ Rearranged) a.arr? b.arr? := by
  cases h.toCases with
  | obj _ _ => exact .none
  | arr hitems => exact .some hitems
  | same harr _ =>
    rw [harr]
    exact .none

theorem obj? (h : Rearranged a b) :
    Option.Rel (fun members members' => Rearranged (.obj members) (.obj members'))
      a.obj? b.obj? := by
  cases h.toCases with
  | obj h _ => exact .some h
  | arr _ => exact .none
  | same _ hobj =>
    rw [hobj]
    exact .none

theorem getStr?_eq (h : Rearranged a b) (key : String) : a.getStr? key = b.getStr? key := by
  rw [getStr?, getStr?]
  rcases h.get?_cases key with ⟨ha, hb⟩ | ⟨v, w, ha, hb, hunder⟩
  · rw [ha, hb]
  · rw [ha, hb]
    exact hunder.1.str?_eq

theorem getArr? (h : Rearranged a b) (key : String) :
    Option.Rel (List.Forall₂ Rearranged) (a.getArr? key) (b.getArr? key) := by
  exact Entries.rel_bind (h.get? key) fun _ _ hunder => hunder.1.arr?

theorem getObj? (h : Rearranged a b) (key : String) :
    Option.Rel (fun members members' => Rearranged (.obj members) (.obj members'))
      (a.getObj? key) (b.getObj? key) := by
  exact Entries.rel_bind (h.get? key) fun _ _ hunder => hunder.1.obj?

end Rearranged

/-! ### Steps into values -/

/-- One step into a value: to a member by its key, to an item by its index, for a way of reading
indices. -/
def stepBy (index? : String → Option Nat) (value : Json) (segment : String) : Option Json :=
  match value with
  | .obj members => Entries.get? members segment
  | .arr items => (index? segment).bind fun i => items[i]?
  | _ => none

theorem rel_getElem? {α β : Type} {S : α → β → Prop} {xs : List α} {ys : List β}
    (h : List.Forall₂ S xs ys) (i : Nat) : Option.Rel S xs[i]? ys[i]? := by
  induction h generalizing i with
  | nil => exact .none
  | cons hhead _ ih =>
    cases i with
    | zero => exact .some hhead
    | succ i => exact ih i

/-- **A step leads to what corresponds**; to the same if it goes to the value of a literal keyword. -/
theorem Rearranged.stepBy (h : Rearranged a b) {index? : String → Option Nat} (segment : String) :
    Option.Rel (fun v w => Rearranged v w ∧ (segment ∈ literalKeywords → index? segment = none → v = w))
      (stepBy index? a segment) (stepBy index? b segment) := by
  cases h.toCases with
  | obj hobj _ =>
    rw [Json.stepBy, Json.stepBy]
    rcases hobj.member_cases segment with ⟨ha, hb⟩ | ⟨v, w, ha, hb, hunder⟩
    · rw [ha, hb]
      exact .none
    · rw [ha, hb]
      exact .some ⟨hunder.1, fun hliteral _ => hunder.2 hliteral⟩
  | arr hitems =>
    rw [Json.stepBy, Json.stepBy]
    cases hindex : index? segment with
    | none => exact .none
    | some i =>
      exact Entries.rel_imp (rel_getElem? hitems i) fun v w hvw => ⟨hvw, fun _ hnone => by cases hnone⟩
  | same harr hobj =>
    cases a with
    | obj members => exact (Option.some_ne_none _ hobj).elim
    | arr items => exact (Option.some_ne_none _ harr).elim
    | _ => exact .none

/-- Runs of a partial function that keeps a relation end in related results. -/
theorem rel_foldlM {α β γ : Type} {S : α → β → Prop} {f : α → γ → Option α} {g : β → γ → Option β}
    (h : ∀ a b x, S a b → Option.Rel S (f a x) (g b x)) (xs : List γ) {a : α} {b : β} (hab : S a b) :
    Option.Rel S (xs.foldlM f a) (xs.foldlM g b) := by
  induction xs generalizing a b with
  | nil => exact .some hab
  | cons x xs ih =>
    rw [List.foldlM_cons, List.foldlM_cons]
    exact Entries.rel_bind (h a b x hab) fun _ _ => ih

end RequestGate.Json
