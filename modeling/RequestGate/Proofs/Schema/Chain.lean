import RequestGate.Document.Basic
import RequestGate.Proofs.Success

/-!
# How far chains of references are followed

References are followed in two places, in schemas and in the declarations of a document. Both give up
after `RequestGate.Schema.maxHops` values, and the last of these may still be a reference: then its
target has been looked up and is not looked at any more. So a chain is followed to its end if and only
if it has *fewer* than `RequestGate.Schema.maxHops` hops, and a chain of just as many counts as too long
(`RequestGate.Schema.resolve_iff_lt_maxHops`).

What there is to follow is said without a bound (`RequestGate.Schema.Hops`): so many references, each
with a target, lead from one value to another.
-/

namespace RequestGate

namespace Schema

variable {root value s t : Json} {reference : String} {k l n : Nat}

/-- Whether a value is a reference to another one that exists. -/
def RefersTo (root value target : Json) : Prop :=
  ∃ reference, reference? value = some reference ∧ target? root reference = some target

/-- Whether a number of references, one after the other, lead from one value to another. -/
inductive Hops (root : Json) : Nat → Json → Json → Prop where
  | refl (value : Json) : Hops root 0 value value
  | hop {k : Nat} {value next t : Json} (h : RefersTo root value next) (rest : Hops root k next t) :
      Hops root (k + 1) value t

namespace Hops

theorem append (h : Hops root k value s) (h' : Hops root l s t) : Hops root (l + k) value t := by
  induction h with
  | refl value => exact h'
  | hop hnext _ ih => exact .hop hnext (ih h')

/-- The first hops of a chain are a chain. -/
theorem exists_of_le (h : Hops root k value t) (hl : l ≤ k) : ∃ s, Hops root l value s := by
  induction l generalizing k value with
  | zero => exact ⟨value, .refl value⟩
  | succ l ih =>
    cases h with
    | refl => omega
    | hop hnext rest =>
      obtain ⟨s, hs⟩ := ih rest (by omega)
      exact ⟨s, .hop hnext hs⟩

/-- A value that is led to from itself is led to by chains of any length. -/
theorem exists_of_cycle (h : Hops root (n + 1) s s) : ∀ l, ∃ k t, l ≤ k ∧ Hops root k s t := by
  intro l
  induction l with
  | zero => exact ⟨0, s, Nat.le_refl 0, .refl s⟩
  | succ l ih =>
    obtain ⟨k, t, hl, ht⟩ := ih
    exact ⟨k + (n + 1), t, by omega, h.append ht⟩

theorem of_chain {f : Nat → Json} (h : ∀ i < k, RefersTo root (f i) (f (i + 1))) :
    Hops root k (f 0) (f k) := by
  induction k generalizing f with
  | zero => exact .refl _
  | succ k ih =>
    exact .hop (h 0 (by omega)) (ih fun i hi => h (i + 1) (by omega))

end Hops

/-- **What following references finds** is the end of a chain with fewer hops than there are steps. -/
theorem follow_eq_some_iff :
    follow root n value = some t ↔ ∃ k < n, Hops root k value t ∧ reference? t = none := by
  induction n generalizing value with
  | zero => exact ⟨fun h => (by cases h), fun ⟨_, hk, _⟩ => absurd hk (Nat.not_lt_zero _)⟩
  | succ n ih =>
    rw [follow]
    cases href : reference? value with
    | none =>
      constructor
      · intro h
        obtain rfl := Option.some.inj h
        exact ⟨0, Nat.succ_pos n, .refl value, href⟩
      · rintro ⟨k, -, hops, -⟩
        -- a value without a reference is where its chain ends
        cases hops with
        | refl => rfl
        | hop hnext _ =>
          obtain ⟨reference, hreference, -⟩ := hnext
          cases href.symm.trans hreference
    | some reference =>
      dsimp only
      rw [Option.bind_eq_some_iff]
      constructor
      · rintro ⟨next, htarget, hfollow⟩
        obtain ⟨k, hk, hops, hend⟩ := ih.mp hfollow
        exact ⟨k + 1, by omega, .hop ⟨reference, href, htarget⟩ hops, hend⟩
      · rintro ⟨k, hk, hops, hend⟩
        cases hops with
        | refl => cases href.symm.trans hend
        | @hop k _ next _ hnext rest =>
          obtain ⟨reference', hreference, htarget⟩ := hnext
          obtain rfl := Option.some.inj (href.symm.trans hreference)
          exact ⟨next, htarget, ih.mpr ⟨k, by omega, rest, hend⟩⟩

end Schema

namespace Document

open Schema

variable {document : Document} {route reference : String} {value s t : Json} {k n : Nat}

/-- **Every hop costs one**: after a part of a chain, the rest is followed with what is left. -/
theorem dereferenceWithin_of_hops (h : Hops document.root k value s) (n : Nat) :
    dereferenceWithin document (n + k) value = dereferenceWithin document n s := by
  induction h with
  | refl => rfl
  | hop hnext _ ih =>
    obtain ⟨reference, href, htarget⟩ := hnext
    rw [← Nat.add_assoc, dereferenceWithin]
    simp only [href, htarget, ih]

theorem dereferenceWithin_of_lt (h : Hops document.root k value s) (hk : k < n) :
    dereferenceWithin document n value = dereferenceWithin document (n - k - 1 + 1) s := by
  rw [← dereferenceWithin_of_hops h]
  congr 1
  omega

/-- The end of a chain is found if a hop is left. -/
theorem dereferenceWithin_of_end (h : Hops document.root k value t) (hend : reference? t = none)
    (hk : k < n) : dereferenceWithin document n value = .ok t := by
  rw [dereferenceWithin_of_lt h hk, dereferenceWithin, hend]

/-- So is a reference that leads nowhere. -/
theorem dereferenceWithin_of_dangling (h : Hops document.root k value t)
    (href : reference? t = some reference) (htarget : target? document.root reference = none)
    (hk : k < n) : dereferenceWithin document n value = .error (.danglingReference reference) := by
  rw [dereferenceWithin_of_lt h hk, dereferenceWithin]
  simp only [href, htarget]

/-- What comes after the last hop is not looked at, whatever it is. -/
theorem dereferenceWithin_of_long (h : Hops document.root k value t) (hk : n ≤ k) :
    dereferenceWithin document n value = .error (.referenceChainTooLong maxHops) := by
  obtain ⟨s, hs⟩ := h.exists_of_le hk
  have hnone := dereferenceWithin_of_hops hs 0
  rwa [Nat.zero_add] at hnone

/-- **Chains that are too long**, and those that run in a circle, are given up. -/
theorem dereference_of_long (h : Hops document.root k value t)
    (hlong : maxHops ≤ k ∨ ∃ n, Hops document.root (n + 1) t t) :
    document.dereference route value =
      .error (.structural route (.referenceChainTooLong maxHops)) := by
  obtain ⟨l, s, hl, hs⟩ : ∃ l s, maxHops ≤ l ∧ Hops document.root l value s := by
    rcases hlong with hk | ⟨n, hcycle⟩
    · exact ⟨k, t, hk, h⟩
    · obtain ⟨l, s, hl, hs⟩ := hcycle.exists_of_cycle maxHops
      exact ⟨l + k, s, by omega, h.append hs⟩
  rw [dereference, dereferenceWithin_of_long hs hl]
  rfl

theorem dereference_eq_ok_iff_of_end (h : Hops document.root k value t) (hend : reference? t = none) :
    document.dereference route value = .ok t ↔ k < maxHops := by
  constructor
  · intro hok
    by_contra hk
    rw [dereference_of_long h (Or.inl (Nat.le_of_not_lt hk))] at hok
    cases hok
  · intro hk
    rw [dereference, dereferenceWithin_of_end h hend hk]
    rfl

theorem dereference_of_dangling (h : Hops document.root k value t)
    (href : reference? t = some reference) (htarget : target? document.root reference = none) :
    document.dereference route value = .error (.structural route
      (if k < maxHops then .danglingReference reference else .referenceChainTooLong maxHops)) := by
  split
  · rename_i hk
    rw [dereference, dereferenceWithin_of_dangling h href htarget hk]
    rfl
  · rename_i hk
    exact dereference_of_long h (Or.inl (Nat.le_of_not_lt hk))

/-- References between schemas are followed as those of declarations are. -/
theorem follow_eq_toOption (document : Document) (n : Nat) (value : Json) :
    follow document.root n value = (dereferenceWithin document n value).toOption := by
  induction n generalizing value with
  | zero => rfl
  | succ n ih =>
    rw [follow, dereferenceWithin]
    cases reference? value with
    | none => rfl
    | some reference =>
      dsimp only
      cases target? document.root reference with
      | none => rfl
      | some next => exact ih next

end Document

namespace Schema

open Document

theorem resolve_eq_toOption (document : Document) (route : String) (value : Json) :
    resolve document.root value = (document.dereference route value).toOption := by
  rw [resolve, follow_eq_toOption, dereference]
  cases dereferenceWithin document maxHops value <;> rfl

theorem resolve_eq_some_iff (document : Document) (route : String) (value t : Json) :
    resolve document.root value = some t ↔ document.dereference route value = .ok t := by
  rw [resolve_eq_toOption document route]
  cases document.dereference route value <;> simp [Except.toOption]

theorem resolve_eq_none_of_error {document : Document} {route : String} {e : GateError}
    (h : document.dereference route value = .error e) : resolve document.root value = none := by
  rw [resolve_eq_toOption document route, h]
  rfl

/-- **A chain is followed to its end exactly if it has fewer hops than the bound.** From longer chains,
from circles and from references that lead nowhere nothing comes but a fault of the declaration. -/
theorem resolve_iff_lt_maxHops (document : Document) (route : String) (value : Json) :
    (∀ k t, Hops document.root k value t → reference? t = none →
      (resolve document.root value = some t ↔ k < maxHops) ∧
        (document.dereference route value = .ok t ↔ k < maxHops)) ∧
    (∀ k t, Hops document.root k value t → (maxHops ≤ k ∨ ∃ n, Hops document.root (n + 1) t t) →
      resolve document.root value = none ∧
        document.dereference route value =
          .error (.structural route (.referenceChainTooLong maxHops))) ∧
    (∀ k t reference, Hops document.root k value t → reference? t = some reference →
      target? document.root reference = none →
        resolve document.root value = none ∧
          document.dereference route value = .error (.structural route
            (if k < maxHops then .danglingReference reference
              else .referenceChainTooLong maxHops))) := by
  simp only [resolve_eq_some_iff document route]
  refine ⟨fun k t h hend => ?_, fun k t h hlong => ?_, fun k t reference h href htarget => ?_⟩
  · exact ⟨dereference_eq_ok_iff_of_end h hend, dereference_eq_ok_iff_of_end h hend⟩
  · have hfails : document.dereference route value = _ := dereference_of_long h hlong
    exact ⟨resolve_eq_none_of_error hfails, hfails⟩
  · have hfails : document.dereference route value = _ :=
      dereference_of_dangling h href htarget
    exact ⟨resolve_eq_none_of_error hfails, hfails⟩

/-- A reference to the next item of an array. -/
def link (index : Nat) : Json :=
  .obj [("$ref", .str ("#/" ++ toString (index + 1)))]

/-- An array of references, each to the next item, with an object schema at its end. -/
def linked (n : Nat) : Json :=
  .arr ((List.range n).map link ++ [.obj [("type", .str "object")]])

/-- The items of such an array, as the references lead through them. -/
def linkedItem (n i : Nat) : Json :=
  if i < n then link i else .obj [("type", .str "object")]

theorem hops_linked : ∀ n ∈ [31, 32], Hops (linked n) n (linkedItem n 0) (linkedItem n n) := by
  have hsteps : ∀ n ∈ [31, 32], ∀ i < n, (reference? (linkedItem n i)).bind (target? (linked n)) =
      some (linkedItem n (i + 1)) := by decide
  intro n hn
  exact Hops.of_chain fun i hi => Option.bind_eq_some_iff.mp (hsteps n hn i hi)

/-- A chain with one hop less than the bound. -/
theorem resolve_iff_lt_maxHops_linked :
    Hops (linked 31) 31 (linkedItem 31 0) (linkedItem 31 31) ∧
      resolve (linked 31) (linkedItem 31 0) = some (.obj [("type", .str "object")]) := by
  have hhops := hops_linked 31 (by simp)
  have hchain := (resolve_iff_lt_maxHops ⟨linked 31⟩ "/deref" (linkedItem 31 0)).1 31 _ hhops
    (by decide)
  exact ⟨hhops, hchain.1.mpr (by decide)⟩

/-- **A chain with as many hops as the bound** is not followed to its end. -/
theorem not_resolve_iff_le_maxHops :
    ¬ ∀ root value t k, Hops root k value t → reference? t = none →
      (resolve root value = some t ↔ k ≤ maxHops) := by
  intro h
  have hresolves := (h (linked 32) (linkedItem 32 0) (linkedItem 32 32) 32 (hops_linked 32 (by simp))
    (by decide)).mpr (by decide)
  exact absurd hresolves (by decide)

end Schema

end RequestGate
