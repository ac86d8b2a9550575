import Mathlib.Data.Finset.Card
import Mathlib.Data.Finset.Dedup
import Mathlib.Order.Monotone.Basic

/-!
# Rules that run dry

Following references and compositions, an argument passes from one schema to others, and the schemas
of a root are finitely many. What can be derived about them at all can therefore be derived in as many
rounds as there are schemas: a round that brings nothing new is the last one that brings anything
(`RequestGate.Rounds.within_length`). This is what bounds on steps are compared with.
-/

namespace RequestGate

variable {α : Type*} {rule : (α → Prop) → α → Prop} {items : List α} {a : α} {n : Nat}

/-- What a rule derives in a number of rounds, each from what the one before has derived. -/
def Rounds (rule : (α → Prop) → α → Prop) : Nat → α → Prop
  | 0, _ => False
  | n + 1, a => rule (Rounds rule n) a

variable (hmono : ∀ P Q : α → Prop, (∀ a, P a → Q a) → ∀ a, rule P a → rule Q a)

include hmono

theorem Rounds.succ (h : Rounds rule n a) : Rounds rule (n + 1) a := by
  induction n generalizing a with
  | zero => exact h.elim
  | succ n ih => exact hmono _ _ (fun b hb => ih hb) a h

/-- Whether what a rule derives of an item rests on items. -/
def StaysIn (items : List α) (rule : (α → Prop) → α → Prop) : Prop :=
  ∀ P : α → Prop, ∀ a ∈ items, rule P a → rule (fun b => b ∈ items ∧ P b) a

open Classical in
/-- After as many rounds as there are items one more brings nothing new. -/
theorem rounds_of_rule (hitems : StaysIn items rule) (ha : a ∈ items)
    (h : rule (Rounds rule items.length) a) : Rounds rule items.length a := by
  let derived (n : Nat) : Finset α := items.toFinset.filter (Rounds rule n)
  have hderived : ∀ {n b}, b ∈ derived n ↔ b ∈ items ∧ Rounds rule n b := by
    simp [derived]
  have hsubset : ∀ n, derived n ⊆ derived (n + 1) := fun n b hb =>
    hderived.mpr ⟨(hderived.mp hb).1, (hderived.mp hb).2.succ hmono⟩
  -- a round that brings nothing new is followed by one that brings nothing new
  have hstable : ∀ n, derived n = derived (n + 1) → derived (n + 1) = derived (n + 2) := by
    intro n heq
    refine (hsubset _).antisymm fun b hb => ?_
    obtain ⟨hmem, hrule⟩ := hderived.mp hb
    refine hderived.mpr ⟨hmem, hmono _ _ (fun c hc => ?_) b (hitems _ b hmem hrule)⟩
    exact (hderived.mp (heq ▸ hderived.mpr hc)).2
  have hcard : ∀ n, (derived n).card = (derived (n + 1)).card → derived n = derived (n + 1) :=
    fun n heq => Finset.eq_of_subset_of_card_le (hsubset n) heq.ge
  have hlast : (derived (items.length + 1)).card = (derived items.length).card :=
    Nat.stabilises_of_monotone (f := fun n => (derived n).card)
      (monotone_nat_of_le_succ fun n => Finset.card_le_card (hsubset n))
      (fun n => (Finset.card_filter_le _ _).trans (List.toFinset_card_le items))
      (fun n heq => congrArg Finset.card (hstable n (hcard n heq))) (Nat.le_succ _)
  have hsucc : a ∈ derived (items.length + 1) := hderived.mpr ⟨ha, h⟩
  rw [← hcard _ hlast.symm] at hsucc
  exact (hderived.mp hsucc).2

/-- **What can be derived of an item is derived in as many rounds as there are items.** -/
theorem Rounds.within_length (hitems : StaysIn items rule) (ha : a ∈ items) (h : Rounds rule n a) :
    Rounds rule items.length a := by
  induction n generalizing a with
  | zero => exact h.elim
  | succ n ih =>
    refine rounds_of_rule hmono hitems ha ?_
    exact hmono _ _ (fun b hb => ih hb.1 hb.2) a (hitems _ a ha h)

end RequestGate
