import RequestGate.Proofs.Draft7.Verdict
import RequestGate.Proofs.Json.Rearranged

/-!
# What the order of a schema does to a report

The engine goes through the keywords and the properties of a schema in the order in which they stand, so
the order of a report depends on them. Nothing else does: a schema whose members stand in another order
is violated in the same places, in the same way (`RequestGate.Draft7.sameUpToOrder_violations`).
-/

namespace RequestGate

open Entries Json

namespace Draft7

variable {formats : Formats} {root root' : Json} {n : Nat} {check other : Check} {place : Place}
  {siblings siblings' members table table' : Entries Json} {s t value : Json} {keyword : String}

/-- Whether two checks report the same of rearranged schemas, in some order. -/
def SameUpToOrder (check other : Check) : Prop :=
  ∀ s t place value, Rearranged s t → (check s place value).Perm (other t place value)

/-! ### Without further schemas -/

theorem requiredViolations_eq (h : Rearranged s t) :
    requiredViolations place s members = requiredViolations place t members := by
  cases h.toCases with
  | same _ _ => rfl
  | arr hitems => simp only [requiredViolations, Rearranged.strings_eq hitems]
  | obj _ _ => rfl

theorem typeNames_eq (h : Rearranged s t) : typeNames s = typeNames t := by
  cases h.toCases with
  | same _ _ => rfl
  | arr hitems => exact Rearranged.strings_eq hitems
  | obj _ _ => rfl

/-- The strings beside a keyword are the same. -/
theorem sibling_str?_eq (h : Rearranged (.obj siblings) (.obj siblings')) (key : String) :
    (Entries.get? siblings key).bind Json.str? = (Entries.get? siblings' key).bind Json.str? :=
  h.getStr?_eq key

theorem contentViolations_eq {text : String} (h : Rearranged (.obj siblings) (.obj siblings')) :
    contentViolations place siblings keyword text = contentViolations place siblings' keyword text := by
  simp only [contentViolations, sibling_str?_eq h]

theorem additionalTakesOver_eq (h : Rearranged (.obj siblings) (.obj siblings')) :
    additionalTakesOver siblings = additionalTakesOver siblings' := by
  rw [additionalTakesOver, additionalTakesOver]
  rcases h.member_cases "additionalProperties" with ⟨ha, hb⟩ | ⟨v, w, ha, hb, hunder⟩
  · rw [ha, hb]
  · rw [ha, hb]
    cases hunder.1.toCases <;> rfl

/-- How the patterns of two schemas are related. -/
def PatternRel (e e' : String × Pattern × Json) : Prop :=
  e.1 = e'.1 ∧ e.2.1 = e'.2.1 ∧ Rearranged e.2.2 e'.2.2

theorem patternsOf_rel (h : Rearranged (.obj siblings) (.obj siblings')) :
    InSomeOrder PatternRel (patternsOf siblings) (patternsOf siblings') := by
  rw [patternsOf, patternsOf]
  rcases h.member_cases "patternProperties" with ⟨ha, hb⟩ | ⟨v, w, ha, hb, hunder⟩
  · rw [ha, hb]
    exact .of_forall₂ .nil
  · rw [ha, hb]
    cases hunder.1.toCases with
    | obj htable hmembers =>
      refine InSomeOrder.filterMap hmembers ?_
      rintro ⟨text, v⟩ ⟨text', w⟩ ⟨rfl, hvw⟩
      dsimp only
      cases Pattern.parse? text with
      | none => exact .none
      | some pattern => exact .some ⟨rfl, rfl, hvw.1⟩
    | arr _ => exact .of_forall₂ .nil
    | same harr hobj =>
      cases v <;> first | exact .of_forall₂ .nil | cases hobj

/-- The tables of properties correspond. -/
theorem declared_cases (h : Rearranged (.obj siblings) (.obj siblings')) :
    (Entries.get? siblings "properties").bind Json.obj? = none ∧
        (Entries.get? siblings' "properties").bind Json.obj? = none ∨
      ∃ table table', (Entries.get? siblings "properties").bind Json.obj? = some table ∧
        (Entries.get? siblings' "properties").bind Json.obj? = some table' ∧
        Rearranged (.obj table) (.obj table') :=
  rel_cases (h.getObj? "properties")

/-- Which names have a schema of their own does not depend on the order. -/
theorem known_eq (h : Rearranged (.obj siblings) (.obj siblings')) (name : String) :
    (((Entries.get? siblings "properties").bind Json.obj?).any
        (fun table => Entries.contains table name) ||
      !((patternsOf siblings).filter fun e => e.2.1.matchesIn name).isEmpty) =
    (((Entries.get? siblings' "properties").bind Json.obj?).any
        (fun table => Entries.contains table name) ||
      !((patternsOf siblings').filter fun e => e.2.1.matchesIn name).isEmpty) := by
  have hmatching := (patternsOf_rel h).filter (p := fun e => e.2.1.matchesIn name)
    (q := fun e => e.2.1.matchesIn name) fun e e' he => by rw [he.2.1]
  rw [hmatching.isEmpty_eq]
  rcases declared_cases h with ⟨ha, hb⟩ | ⟨table, table', ha, hb, htable⟩
  · rw [ha, hb]
  · have hcontains : Entries.contains table name = Entries.contains table' name :=
      htable.hasKey_eq name
    rw [ha, hb, Option.any_some, Option.any_some, hcontains]

theorem forall₂_zipIdx {α β : Type} {S : α → β → Prop} {l : List α} {l' : List β}
    (h : List.Forall₂ S l l') (start : Nat) :
    List.Forall₂ (fun e e' => S e.1 e'.1 ∧ e.2 = e'.2) (l.zipIdx start) (l'.zipIdx start) := by
  induction h generalizing start with
  | nil => exact .nil
  | cons hhead _ ih => exact .cons ⟨hhead, rfl⟩ (ih (start + 1))

theorem forall₂_zip {α β γ : Type} {S : α → β → Prop} {l : List α} {l' : List β} (items : List γ)
    (h : List.Forall₂ S l l') :
    List.Forall₂ (fun e e' => e.1 = e'.1 ∧ S e.2 e'.2) (items.zip l) (items.zip l') := by
  induction h generalizing items with
  | nil => simp
  | cons hhead _ ih =>
    cases items with
    | nil => exact .nil
    | cons item items => exact .cons ⟨rfl, hhead⟩ (ih items)

section Checks

variable (h : SameUpToOrder check other)

include h

theorem accepts_eq (hst : Rearranged s t) (value : Json) :
    accepts check s value = accepts other t value := by
  rw [accepts, accepts, Bool.eq_iff_iff, List.isEmpty_iff, List.isEmpty_iff]
  exact ⟨fun hnil => List.Perm.eq_nil (hnil ▸ (h s t _ value hst).symm),
    fun hnil => List.Perm.eq_nil (hnil ▸ h s t _ value hst)⟩

theorem perm_propertyViolations (htable : table.Permuted Rearranged.Under table') :
    (propertyViolations check place table members).Perm
      (propertyViolations other place table' members) := by
  refine InSomeOrder.perm_flatMap htable ?_
  rintro ⟨name, v⟩ ⟨name', w⟩ ⟨rfl, hvw⟩
  dsimp only
  split
  · exact h _ _ _ _ hvw.1
  · exact .refl _

theorem perm_patternViolations (hs : Rearranged (.obj siblings) (.obj siblings')) :
    (patternViolations check place siblings members).Perm
      (patternViolations other place siblings' members) := by
  refine InSomeOrder.perm_flatMap (patternsOf_rel hs) ?_
  rintro ⟨text, pattern, v⟩ ⟨text', pattern', w⟩ ⟨rfl, rfl, hvw⟩
  refine List.Perm.flatMap_left _ fun m _ => ?_
  dsimp only
  split
  · exact h _ _ _ _ hvw
  · exact .refl _

theorem perm_additionalViolations (hs : Rearranged (.obj siblings) (.obj siblings'))
    (hst : Rearranged s t) : (additionalViolations check place siblings s members).Perm
      (additionalViolations other place siblings' t members) := by
  have hbool : ∀ b, s = .bool b ↔ t = .bool b := by
    intro b
    cases hst.toCases <;> simp
  have hnone : ((Entries.get? siblings "properties").bind Json.obj?).isNone =
      ((Entries.get? siblings' "properties").bind Json.obj?).isNone := by
    rcases declared_cases hs with ⟨ha, hb⟩ | ⟨table, table', ha, hb, -⟩ <;> rw [ha, hb]
    rfl
  have hpatterns : Entries.contains siblings "patternProperties" =
      Entries.contains siblings' "patternProperties" := hs.hasKey_eq "patternProperties"
  simp only [additionalViolations, hbool, hnone, hpatterns, known_eq hs]
  split
  · exact .refl _
  · split
    · exact .refl _
    · -- what is said of a member: by its property, by the patterns, and as an additional one
      refine List.Perm.append_right _ (List.Perm.flatMap_left _ fun m _ => .append (.append ?_ ?_) ?_)
      · rcases declared_cases hs with ⟨ha, hb⟩ | ⟨table, table', ha, hb, htable⟩
        · rw [ha, hb]
          exact .refl _
        · rw [ha, hb, Option.bind_some, Option.bind_some]
          rcases htable.member_cases m.1 with ⟨ha, hb⟩ | ⟨v, w, ha, hb, hunder⟩
          · rw [ha, hb]
          · rw [ha, hb]
            exact h _ _ _ _ hunder.1
      · refine InSomeOrder.perm_flatMap ((patternsOf_rel hs).filter fun e e' he => by rw [he.2.1]) ?_
        rintro ⟨text, pattern, v⟩ ⟨text', pattern', w⟩ ⟨rfl, rfl, hvw⟩
        exact h _ _ _ _ hvw
      · split
        · exact .refl _
        · exact h _ _ _ _ hst

theorem perm_dependencyViolations (htable : table.Permuted Rearranged.Under table') :
    (dependencyViolations check place table members).Perm
      (dependencyViolations other place table' members) := by
  refine InSomeOrder.perm_flatMap htable ?_
  rintro ⟨name, v⟩ ⟨name', w⟩ ⟨rfl, hvw⟩
  dsimp only
  split
  · cases hvw.1.toCases with
    | arr hitems => exact requiredViolations_eq hvw.1 ▸ .refl _
    | obj hobj _ => exact h _ _ _ _ hobj
    | same harr _ => cases v <;> first | exact h _ _ _ _ hvw.1 | cases harr
  · exact .refl _

theorem perm_nameViolations (hst : Rearranged s t) :
    (nameViolations check place s members).Perm (nameViolations other place t members) := by
  have hall : (members.flatMap fun m => check s place (.str m.1)).Perm
      (members.flatMap fun m => other t place (.str m.1)) :=
    List.Perm.flatMap_left _ fun m _ => h s t _ _ hst
  cases hst.toCases with
  | arr _ => exact hall
  | obj _ _ => exact hall
  | same _ _ =>
    unfold nameViolations
    split
    · exact .refl _
    · exact .refl _
    · exact hall

theorem perm_itemViolations {start : Nat} {items : List Json} (hst : Rearranged s t) :
    (itemViolations check place s start items).Perm (itemViolations other place t start items) :=
  List.Perm.flatMap_left _ fun _ _ => h s t _ _ hst

theorem perm_itemsViolations {items : List Json} (hst : Rearranged s t) :
    (itemsViolations check place s items).Perm (itemsViolations other place t items) := by
  have hall : (itemViolations check place s 0 items).Perm (itemViolations other place t 0 items) :=
    perm_itemViolations h hst
  cases hst.toCases with
  | arr hschemas =>
    refine (InSomeOrder.of_forall₂ (forall₂_zipIdx (forall₂_zip items hschemas) 0)).perm_flatMap ?_
    rintro ⟨⟨item, v⟩, i⟩ ⟨⟨item', w⟩, i'⟩ ⟨⟨rfl, hvw⟩, rfl⟩
    exact h _ _ _ _ hvw
  | obj _ _ => exact hall
  | same harr _ =>
    unfold itemsViolations
    split
    · cases harr
    · exact .refl _
    · exact hall

theorem perm_extraItemViolations {items : List Json} (hs : Rearranged (.obj siblings) (.obj siblings'))
    (hst : Rearranged s t) : (extraItemViolations check place siblings s items).Perm
      (extraItemViolations other place siblings' t items) := by
  rw [extraItemViolations, extraItemViolations]
  rcases hs.member_cases "items" with ⟨ha, hb⟩ | ⟨v, w, ha, hb, hunder⟩
  · rw [ha, hb]
  · rw [ha, hb]
    cases hunder.1.toCases with
    | arr hitems =>
      dsimp only
      rw [hitems.length_eq]
      cases hst.toCases with
      | arr _ => exact .refl _
      | obj _ _ => exact perm_itemViolations h hst
      | same _ hobj =>
        split
        · exact .refl _
        · cases hobj
        · exact .refl _
    | obj _ _ => exact .refl _
    | same harr _ => cases v <;> first | exact .refl _ | cases harr

theorem perm_conditionalViolations (hs : Rearranged (.obj siblings) (.obj siblings'))
    (hst : Rearranged s t) : (conditionalViolations check place siblings s value).Perm
      (conditionalViolations other place siblings' t value) := by
  simp only [conditionalViolations, accepts_eq h hst]
  split
  · rcases hs.member_cases "then" with ⟨ha, hb⟩ | ⟨v, w, ha, hb, hunder⟩
    · rw [ha, hb]
    · rw [ha, hb]
      exact h _ _ _ _ hunder.1
  · rcases hs.member_cases "else" with ⟨ha, hb⟩ | ⟨v, w, ha, hb, hunder⟩
    · rw [ha, hb]
    · rw [ha, hb]
      exact h _ _ _ _ hunder.1

theorem any_accepts_eq {schemas schemas' : List Json} (hschemas : List.Forall₂ Rearranged schemas schemas')
    (value : Json) : (schemas.any fun s => accepts check s value) =
      schemas'.any fun s => accepts other s value := by
  induction hschemas with
  | nil => rfl
  | cons hhead _ ih => rw [List.any_cons, List.any_cons, accepts_eq h hhead, ih]

theorem exactlyOne_accepts_eq {schemas schemas' : List Json}
    (hschemas : List.Forall₂ Rearranged schemas schemas') (value : Json) :
    exactlyOne (fun s => accepts check s value) schemas =
      exactlyOne (fun s => accepts other s value) schemas' := by
  have hfilter := (InSomeOrder.of_forall₂ hschemas).filter (p := fun s => accepts check s value)
    (q := fun s => accepts other s value) fun s t hst => accepts_eq h hst value
  rw [exactlyOne, exactlyOne, hfilter.length_eq]

/-- **A keyword demands the same**, in some order. -/
theorem perm_keywordViolations {demand demand' : Json}
    (hs : Rearranged (.obj siblings) (.obj siblings'))
    (hdemand : Rearranged.Under keyword demand demand') :
    (keywordViolations formats check siblings place value keyword demand).Perm
      (keywordViolations formats other siblings' place value keyword demand') := by
  have hbool : ∀ b, demand = .bool b ↔ demand' = .bool b := by
    intro b
    cases hdemand.1.toCases <;> simp
  have hschemas : List.Forall₂ Rearranged ((demand.arr?).getD []) ((demand'.arr?).getD []) := by
    rcases rel_cases hdemand.1.arr? with ⟨ha, hb⟩ | ⟨v, w, ha, hb, hvw⟩
    · rw [ha, hb]
      exact .nil
    · rw [ha, hb]
      exact hvw
  have htable : ((demand.obj?).getD []).Permuted Rearranged.Under ((demand'.obj?).getD []) := by
    rcases rel_cases hdemand.1.obj? with ⟨ha, hb⟩ | ⟨v, w, ha, hb, hvw⟩
    · rw [ha, hb]
      exact .of_forall₂ .nil
    · rw [ha, hb]
      exact hvw.permuted
  unfold keywordViolations
  -- what is compared or shown as it stands is the same
  split <;> try rw [hdemand.2 (by decide)]
  · rw [typeNames_eq hdemand.1]
  · rw [contentViolations_eq hs]
  · rw [contentViolations_eq hs]
  · have htrue : (demand != .bool true) = (demand' != .bool true) := by
      rw [Bool.eq_iff_iff, bne_iff_ne, bne_iff_ne, ne_eq, ne_eq, hbool true]
    rw [htrue]
  · exact perm_itemsViolations h hdemand.1
  · exact perm_extraItemViolations h hs hdemand.1
  · have haccepts : accepts check demand = accepts other demand' := funext (accepts_eq h hdemand.1)
    rw [haccepts]
  · rw [requiredViolations_eq hdemand.1]
  · rw [additionalTakesOver_eq hs]
    split
    · exact .refl _
    · exact perm_propertyViolations h htable
  · rw [additionalTakesOver_eq hs]
    split
    · exact .refl _
    · exact perm_patternViolations h hs
  · exact perm_additionalViolations h hs hdemand.1
  · exact perm_dependencyViolations h htable
  · exact perm_nameViolations h hdemand.1
  · refine (InSomeOrder.of_forall₂ (forall₂_zipIdx hschemas 0)).perm_flatMap ?_
    rintro ⟨v, i⟩ ⟨w, i'⟩ ⟨hvw, rfl⟩
    exact h _ _ _ _ hvw
  · rw [any_accepts_eq h hschemas]
  · rw [exactlyOne_accepts_eq h hschemas]
  · rw [accepts_eq h hdemand.1]
  · exact perm_conditionalViolations h hs hdemand.1
  · exact .refl _

end Checks

/-! ### Following references -/

/-- The index that a segment of a path denotes for the engine, which forgives superfluous zeros. -/
def index? (segment : String) : Option Nat :=
  Text.readNatBelow? Text.wordCount segment.toList

theorem step?_eq (value : Json) (segment : String) : step? value segment = stepBy index? value segment := by
  cases value <;> rfl

/-- **References lead to what corresponds.** -/
theorem resolve?_rel (h : Rearranged root root') (reference : String) :
    Option.Rel Rearranged (resolve? root reference) (resolve? root' reference) := by
  rw [resolve?, resolve?]
  split
  · exact .some h
  · exact .some h
  · rename_i pointer _
    cases percentDecode? pointer with
    | none => exact .none
    | some pointer =>
      refine rel_foldlM (fun v w segment hvw => ?_) _ h
      rw [step?_eq, step?_eq]
      exact rel_imp (hvw.stepBy segment) fun _ _ hstep => hstep.1
  · exact .none

/-- **A schema with its members in another order is violated in the same way**, in some order. -/
theorem sameUpToOrder_violations (formats : Formats) (h : Rearranged root root') (n : Nat) :
    SameUpToOrder (violations formats root n) (violations formats root' n) := by
  induction n with
  | zero => exact fun _ _ _ _ _ => .refl _
  | succ n ih =>
    intro s t place value hst
    cases hst.toCases with
    | @obj members members' hobj hmembers =>
      -- without a reference, each keyword is violated in the same way
      have hall : (members.flatMap fun e => keywordViolations formats (violations formats root n)
          members place value e.1 e.2).Perm
          (members'.flatMap fun e => keywordViolations formats (violations formats root' n)
            members' place value e.1 e.2) := by
        refine InSomeOrder.perm_flatMap hmembers ?_
        rintro ⟨keyword, v⟩ ⟨keyword', w⟩ ⟨rfl, hvw⟩
        exact perm_keywordViolations ih hobj hvw
      rw [violations, violations]
      rcases hobj.member_cases "$ref" with ⟨ha, hb⟩ | ⟨v, w, ha, hb, hunder⟩
      · rw [ha, hb]
        exact hall
      · rw [ha, hb]
        cases hunder.1.toCases with
        | obj _ _ => exact hall
        | arr _ => exact hall
        | same _ _ =>
          split
          · rename_i reference _
            rcases rel_cases (resolve?_rel h reference) with ⟨ha, hb⟩ | ⟨v, w, ha, hb, hvw⟩
            · rw [ha, hb]
            · rw [ha, hb]
              -- a reference leads to targets that differ in nothing but order
              exact ih _ _ _ _ hvw
          · exact hall
    | arr _ => exact .refl _
    | same harr hobj =>
      cases s with
      | obj members => exact (Option.some_ne_none _ hobj).elim
      | arr items => exact (Option.some_ne_none _ harr).elim
      | bool b => cases b <;> exact .refl _
      | _ => exact .refl _

/-- **A report has the same violations**, in some order. -/
theorem perm_allViolations (formats : Formats) (h : Rearranged s t) (value : Json) :
    (allViolations formats s value).Perm (allViolations formats t value) := by
  rw [allViolations, allViolations, stepsFor, stepsFor, h.size_eq]
  exact sameUpToOrder_violations formats h _ s t Place.root value h

end Draft7

end RequestGate
