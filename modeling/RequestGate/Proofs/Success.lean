import Mathlib.Data.List.Forall2

/-!
# Runs that succeed

Most functions of the library answer in `Except`, and most of what is proved about them starts from
an answer that is no error. The lemmas here take such a run apart: a sequence succeeds exactly if
both of its steps do, and a fold or a `mapM` over a list exactly if every step does. The one for
folds, `RequestGate.foldlM_induction`, carries an invariant that may speak of the part of the list
that has been worked off, which is what a table built by a loop needs.
-/

namespace RequestGate

universe u v

variable {ε : Type u} {α β : Type v}

theorem bind_eq_ok_iff {x : Except ε α} {f : α → Except ε β} {b : β} :
    (x >>= f) = .ok b ↔ ∃ a, x = .ok a ∧ f a = .ok b := by
  cases x with
  | error e => simp [bind, Except.bind]
  | ok a => simp [bind, Except.bind]

theorem bind_eq_error_iff {x : Except ε α} {f : α → Except ε β} {e : ε} :
    (x >>= f) = .error e ↔ x = .error e ∨ ∃ a, x = .ok a ∧ f a = .error e := by
  cases x with
  | error e' => simp [bind, Except.bind]
  | ok a => simp [bind, Except.bind]

theorem map_eq_ok_iff {x : Except ε α} {f : α → β} {b : β} :
    x.map f = .ok b ↔ ∃ a, x = .ok a ∧ f a = b := by
  cases x with
  | error e => simp [Except.map]
  | ok a => simp [Except.map]

theorem mapError_eq_ok_iff {ε' : Type u} {x : Except ε α} {f : ε → ε'} {a : α} :
    x.mapError f = .ok a ↔ x = .ok a := by
  cases x with
  | error e => simp [Except.mapError]
  | ok a => simp [Except.mapError]

theorem mapError_eq_error_iff {ε' : Type u} {x : Except ε α} {f : ε → ε'} {e' : ε'} :
    x.mapError f = .error e' ↔ ∃ e, x = .error e ∧ f e = e' := by
  cases x with
  | error e => simp [Except.mapError]
  | ok a => simp [Except.mapError]

/-- A run that leaves a result has succeeded. -/
theorem exists_eq_ok_of_isSome {x : Except ε α} (h : x.toOption.isSome = true) :
    ∃ a, x = .ok a := by
  cases x with
  | error e => cases h
  | ok a => exact ⟨a, rfl⟩

/-- **An invariant of a fold**: if every step that succeeds takes the invariant for the part done to
the one for the part done and the next item, then a fold that succeeds ends in the invariant for
everything. -/
theorem foldlM_induction {P : List α → β → Prop} {f : β → α → Except ε β}
    (hstep : ∀ done a b b', P done b → f b a = .ok b' → P (done ++ [a]) b') {l : List α} {b b' : β}
    (hb : P [] b) (h : l.foldlM f b = .ok b') : P l b' := by
  -- the induction is on what is still to be done, after any part that has been done
  have hrest : ∀ (rest done : List α) (b : β), P done b → rest.foldlM f b = .ok b' →
      P (done ++ rest) b' := by
    intro rest
    induction rest with
    | nil =>
      intro done b hb h
      obtain rfl : b = b' := by simpa [pure, Except.pure] using h
      simpa using hb
    | cons a rest ih =>
      intro done b hb h
      rw [List.foldlM_cons] at h
      obtain ⟨next, hnext, hrest⟩ := bind_eq_ok_iff.mp h
      simpa using ih (done ++ [a]) next (hstep done a b next hb hnext) hrest
  exact hrest l [] b hb h

/-- An invariant that does not speak of what has been done. -/
theorem foldlM_mem_induction {P : β → Prop} {f : β → α → Except ε β} {l : List α}
    (hstep : ∀ a ∈ l, ∀ b b', P b → f b a = .ok b' → P b') {b b' : β} (hb : P b)
    (h : l.foldlM f b = .ok b') : P b' := by
  induction l generalizing b with
  | nil => exact Except.ok.inj h ▸ hb
  | cons a l ih =>
    rw [List.foldlM_cons] at h
    obtain ⟨next, hnext, hrest⟩ := bind_eq_ok_iff.mp h
    exact ih (fun a ha => hstep a (List.mem_cons_of_mem _ ha))
      (hstep a (by simp) b next hb hnext) hrest

/-- A fold succeeds if every step does, from whatever state. -/
theorem foldlM_isOk {f : β → α → Except ε β} {l : List α}
    (hstep : ∀ a ∈ l, ∀ b, ∃ b', f b a = .ok b') : ∀ b, ∃ b', l.foldlM f b = .ok b' := by
  induction l with
  | nil => exact fun b => ⟨b, rfl⟩
  | cons a l ih =>
    intro b
    obtain ⟨next, hnext⟩ := hstep a (by simp) b
    obtain ⟨last, hlast⟩ := ih (fun a ha => hstep a (List.mem_cons_of_mem _ ha)) next
    refine ⟨last, ?_⟩
    rw [List.foldlM_cons]
    exact bind_eq_ok_iff.mpr ⟨next, hnext, hlast⟩

/-- A fold that fails fails at a step. -/
theorem exists_of_foldlM_eq_error {f : β → α → Except ε β} {e : ε} :
    ∀ {l : List α} {b : β}, l.foldlM f b = .error e → ∃ a ∈ l, ∃ b, f b a = .error e
  | a :: l, b, h => by
    rw [List.foldlM_cons] at h
    rcases bind_eq_error_iff.mp h with hstep | ⟨next, -, hrest⟩
    · exact ⟨a, by simp, b, hstep⟩
    · obtain ⟨a', ha', hf⟩ := exists_of_foldlM_eq_error hrest
      exact ⟨a', List.mem_cons_of_mem _ ha', hf⟩

/-- **A fold whose steps fail by themselves**, whatever the state: it fails where the first item that
is bad is found, and in the way of this item. -/
theorem foldlM_eq_error_iff {f : β → α → Except ε β} {bad : α → Prop} [DecidablePred bad]
    {fault : α → ε} (hstep : ∀ a b e, f b a = .error e ↔ bad a ∧ e = fault a) {l : List α} {b : β}
    {e : ε} : l.foldlM f b = .error e ↔ ∃ a, l.find? bad = some a ∧ e = fault a := by
  induction l generalizing b with
  | nil => simp [pure, Except.pure]
  | cons a l ih =>
    rw [List.foldlM_cons, bind_eq_error_iff, List.find?_cons]
    by_cases ha : bad a
    · have hfails : f b a = .error (fault a) := (hstep a b _).mpr ⟨ha, rfl⟩
      simp [hfails, ha, eq_comm]
    · obtain ⟨next, hnext⟩ : ∃ next, f b a = .ok next := by
        cases hf : f b a with
        | ok next => exact ⟨next, rfl⟩
        | error e => exact absurd ((hstep a b e).mp hf).1 ha
      simp [hnext, ha, ih]

theorem mapM_eq_ok_iff {f : α → Except ε β} :
    ∀ {l : List α} {r : List β}, l.mapM f = .ok r ↔ List.Forall₂ (fun a b => f a = .ok b) l r
  | [], r => by
    rw [List.mapM_nil, List.forall₂_nil_left_iff]
    exact ⟨fun h => (Except.ok.inj h).symm, fun h => h ▸ rfl⟩
  | a :: l, r => by
    rw [List.mapM_cons, List.forall₂_cons_left_iff]
    constructor
    · intro h
      obtain ⟨b, hb, hrest⟩ := bind_eq_ok_iff.mp h
      obtain ⟨bs, hbs, hr⟩ := bind_eq_ok_iff.mp hrest
      exact ⟨b, bs, hb, mapM_eq_ok_iff.mp hbs, (Except.ok.inj hr).symm⟩
    · rintro ⟨b, bs, hb, hbs, rfl⟩
      exact bind_eq_ok_iff.mpr ⟨b, hb, bind_eq_ok_iff.mpr ⟨bs, mapM_eq_ok_iff.mpr hbs, rfl⟩⟩

/-- A `mapM` that fails fails at an item. -/
theorem exists_of_mapM_eq_error {f : α → Except ε β} {e : ε} :
    ∀ {l : List α}, l.mapM f = .error e → ∃ a ∈ l, f a = .error e
  | a :: l, h => by
    rw [List.mapM_cons] at h
    rcases bind_eq_error_iff.mp h with ha | ⟨b, -, hrest⟩
    · exact ⟨a, by simp, ha⟩
    · rcases bind_eq_error_iff.mp hrest with hl | ⟨bs, -, hpure⟩
      · obtain ⟨a', ha', hf⟩ := exists_of_mapM_eq_error hl
        exact ⟨a', List.mem_cons_of_mem _ ha', hf⟩
      · cases hpure

/-- Searches through two lists that agree item by item find items that belong together. -/
theorem find?_rel {R : α → β → Prop} {p : α → Bool} {q : β → Bool} {l : List α} {r : List β}
    (h : List.Forall₂ R l r) (hpq : ∀ a b, R a b → p a = q b) :
    (l.find? p = none ∧ r.find? q = none) ∨
      ∃ a b, l.find? p = some a ∧ r.find? q = some b ∧ R a b := by
  induction h with
  | nil => exact Or.inl ⟨rfl, rfl⟩
  | @cons a b l r hab _ ih =>
    rw [List.find?_cons, List.find?_cons, hpq a b hab]
    cases q b with
    | true => exact Or.inr ⟨a, b, rfl, rfl, hab⟩
    | false => exact ih

/-- Where an item of a `mapM` that succeeds comes from. -/
theorem exists_of_mem_mapM {f : α → Except ε β} {l : List α} {r : List β} (h : l.mapM f = .ok r)
    {b : β} (hb : b ∈ r) : ∃ a ∈ l, f a = .ok b := by
  induction mapM_eq_ok_iff.mp h with
  | nil => simp at hb
  | @cons a b' l r hab hrest ih =>
    rcases List.mem_cons.mp hb with rfl | hb
    · exact ⟨a, by simp, hab⟩
    · obtain ⟨a', ha', hf⟩ := ih (mapM_eq_ok_iff.mpr hrest) hb
      exact ⟨a', List.mem_cons_of_mem _ ha', hf⟩

/-- What a `mapM` that succeeds makes of an item. -/
theorem exists_of_mapM_eq_ok {f : α → Except ε β} {l : List α} {r : List β}
    (h : l.mapM f = .ok r) {a : α} (ha : a ∈ l) : ∃ b ∈ r, f a = .ok b := by
  induction mapM_eq_ok_iff.mp h with
  | nil => simp at ha
  | @cons a' b l r hab hrest ih =>
    rcases List.mem_cons.mp ha with rfl | ha
    · exact ⟨b, by simp, hab⟩
    · obtain ⟨b', hb', hf⟩ := ih (mapM_eq_ok_iff.mpr hrest) ha
      exact ⟨b', List.mem_cons_of_mem _ hb', hf⟩

end RequestGate
