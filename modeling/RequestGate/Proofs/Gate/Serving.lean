import RequestGate.Gate
import RequestGate.Proofs.Entries
import RequestGate.Proofs.Success

/-!
# What a gate does with one request

A gate that is asked looks into the slot of the request's key, and if the slot is empty it fills it.
This file says once what filling can do (`RequestGate.Gate.fillSlot_eq`) and what a request is answered
in each case (`RequestGate.Gate.validate_of_filled`, `RequestGate.Gate.validate_of_fill`,
`RequestGate.Gate.validate_of_fault`), so that nothing later has to open `RequestGate.Gate.validate`
again.

Three facts about a single step carry everything that is proved about whole runs: source and options
never change, a filled slot keeps what it holds, and so does a predicate that has been compiled. A step
that fails leaves an open slot behind; that it is empty, as it was before, is
`RequestGate.Gate.slotAt_of_fillSlot`.
-/

namespace RequestGate

/-- The content type that a request is judged by. -/
def Request.contentType (r : Request) : ContentType :=
  .ofHeaders (r.headers.getD [])

/-- The key whose slot a request is served from. -/
def Request.key (r : Request) : OperationKey :=
  .of r.method r.route r.contentType

theorem OperationKey.eq_iff {a b : OperationKey} : a = b ↔ a.text = b.text := by
  cases a
  cases b
  simp

namespace Gate

/-- The blueprint for a request. -/
def blueprintOf (gate : Gate) (r : Request) : Except GateError (Option Blueprint) :=
  gate.blueprint r.key r.method r.route r.contentType

theorem blueprintOf_of_undeclared {options : Options} {document : Document} {r : Request}
    (h : document.operation? r.method r.route = none) :
    (ofDocument options document).blueprintOf r = .ok none := by
  simp only [blueprintOf, blueprint, ofDocument, h]

theorem blueprintOf_of_declared {options : Options} {document : Document} {r : Request}
    {operation : Operation} (h : document.operation? r.method r.route = some operation) :
    (ofDocument options document).blueprintOf r =
      (Blueprint.ofOperation options document r.contentType operation).map some := by
  simp only [blueprintOf, blueprint, ofDocument, h]

/-- The predicate that a blueprint's own schema is compiled to. -/
def compileOwn (gate : Gate) (b : Blueprint) : Except CompileFault Predicate :=
  Engine.compile gate.options (b.schema.toEngineSchema gate.source.components)

/-- How a request is answered out of a slot. -/
def answer (options : Options) (slot : Option Validator) (r : Request) :
    Except GateError NormalizedRequest :=
  match slot with
  | some validator => validator.validate options r
  | none => .ok (.ofRequest r)

/-- The gate after a number of requests, whose answers are of no interest. -/
def after (gate : Gate) (history : List Request) : Gate :=
  history.foldl (fun gate r => (gate.validate r).2) gate

variable {gate next : Gate} {r : Request} {slot : Option Validator} {b : Blueprint}
  {key : OperationKey} {method route text : String} {contentType : ContentType}
  {result : Except GateError (Option Validator)}

@[simp] theorem after_nil (gate : Gate) : gate.after [] = gate := rfl

@[simp] theorem after_cons (gate : Gate) (r : Request) (history : List Request) :
    gate.after (r :: history) = (gate.validate r).2.after history := rfl

theorem after_append (gate : Gate) (first second : List Request) :
    gate.after (first ++ second) = (gate.after first).after second :=
  List.foldl_append

/-! ### Slots -/

/-- The gate with a slot filled. -/
def withSlot (gate : Gate) (key : OperationKey) (slot : Option Validator) : Gate :=
  gate.setSlot key { entry := some slot }

theorem slotAt_setSlot (gate : Gate) (key : OperationKey) (slot : Slot) (text : String) :
    (gate.setSlot key slot).slotAt text = if key.text = text then slot else gate.slotAt text := by
  simp only [slotAt, setSlot, Entries.get?_insert]
  split <;> rfl

theorem entryAt_withSlot (gate : Gate) (key : OperationKey) (slot : Option Validator) :
    (gate.withSlot key slot).entryAt key.text = some slot := by
  rw [entryAt, withSlot, slotAt_setSlot, if_pos rfl]

/-- What is put into a slot takes the place of what was put there before. -/
theorem setSlot_setSlot (gate : Gate) (key : OperationKey) (slot other : Slot) :
    (gate.setSlot key slot).setSlot key other = gate.setSlot key other := by
  simp only [setSlot, Entries.insert_insert]

/-- Opening a slot makes no difference to what is put there afterwards. -/
theorem setSlot_openSlot (gate : Gate) (key : OperationKey) (slot : Slot) :
    (gate.openSlot key).setSlot key slot = gate.setSlot key slot := by
  rw [openSlot]
  split
  · rfl
  · exact setSlot_setSlot ..

/-- A slot that is filled is open. -/
theorem openSlot_of_filled (h : gate.entryAt key.text = some slot) : gate.openSlot key = gate := by
  rw [openSlot, if_pos]
  rw [entryAt, slotAt] at h
  rw [Entries.contains]
  cases hget : Entries.get? gate.slots key.text with
  | some _ => rfl
  | none =>
    rw [hget] at h
    cases h

/-- A slot looks the same after it has been opened. -/
theorem entryAt_openSlot (gate : Gate) (key : OperationKey) (text : String) :
    (gate.openSlot key).entryAt text = gate.entryAt text := by
  rw [openSlot]
  split
  · rfl
  · rename_i hclosed
    rw [entryAt, entryAt, slotAt_setSlot]
    split
    · rename_i htext
      have hnone : Entries.get? gate.slots key.text = none := by
        simpa [Entries.contains] using hclosed
      rw [slotAt, ← htext, hnone, Option.getD_none]
    · rfl

/-! ### Filling a slot -/

/-- **Filling is building with an empty slot**, and what comes of it is put into the slot. -/
theorem fillSlot_eq (gate : Gate) (key : OperationKey) (method route : String)
    (contentType : ContentType) :
    gate.fillSlot key method route contentType =
      match gate.blueprint key method route contentType with
      | .error e => (.error e, gate.setSlot key {})
      | .ok none => (.ok none, gate.withSlot key none)
      | .ok (some b) =>
        match gate.predicateOf b with
        | .error e => (.error e, gate.setSlot key {})
        | .ok p =>
          let slot := some (b.validator key contentType p)
          (.ok slot, (gate.withSlot key slot).withPredicate b.fingerprint p) := by
  -- neither the blueprint nor the predicate depends on the slots
  have hblue : (gate.setSlot key { compiling := true }).blueprint key method route contentType =
      gate.blueprint key method route contentType := rfl
  have hpred : ∀ b, (gate.setSlot key { compiling := true }).predicateOf b = gate.predicateOf b :=
    fun _ => rfl
  rw [fillSlot, build, hblue]
  cases gate.blueprint key method route contentType with
  | error e => simp only [setSlot_setSlot]
  | ok b? =>
    cases b? with
    | none => simp only [setSlot_setSlot, withSlot]
    | some b =>
      simp only [hpred]
      cases gate.predicateOf b with
      | error e => simp only [setSlot_setSlot]
      | ok p =>
        have hcomm : ((gate.setSlot key { compiling := true }).withPredicate b.fingerprint p).setSlot
            key { entry := some (some (b.validator key contentType p)) } =
            ((gate.setSlot key { compiling := true }).setSlot key
              { entry := some (some (b.validator key contentType p)) }).withPredicate
                b.fingerprint p := rfl
        simp only [hcomm, setSlot_setSlot, withSlot]

/-- **What filling a slot can do** if it succeeds. Either the operation is not declared and the slot is
marked so, or there is a blueprint with a predicate, and both caches grow. The key may be any. -/
theorem fillSlot_eq_ok_iff_blueprint :
    gate.fillSlot key method route contentType = (.ok slot, next) ↔
      (gate.blueprint key method route contentType = .ok none ∧ slot = none ∧
        next = gate.withSlot key none) ∨
      ∃ b p, gate.blueprint key method route contentType = .ok (some b) ∧
        gate.predicateOf b = .ok p ∧ slot = some (b.validator key contentType p) ∧
        next = (gate.withSlot key slot).withPredicate b.fingerprint p := by
  rw [fillSlot_eq]
  constructor
  · intro h
    split at h
    · cases h
    · rename_i hb
      obtain ⟨hslot, rfl⟩ := Prod.mk.inj h
      obtain rfl := Except.ok.inj hslot
      exact Or.inl ⟨hb, rfl, rfl⟩
    · rename_i b hb
      split at h
      · cases h
      · rename_i p hp
        obtain ⟨hslot, rfl⟩ := Prod.mk.inj h
        obtain rfl := Except.ok.inj hslot
        exact Or.inr ⟨b, p, hb, hp, rfl, rfl⟩
  · rintro (⟨hb, rfl, rfl⟩ | ⟨b, p, hb, hp, rfl, rfl⟩)
    · rw [hb]
    · rw [hb]
      simp only [hp]

/-- Filling the slot of a request. -/
theorem fillSlot_eq_ok_iff :
    gate.fillSlot r.key r.method r.route r.contentType = (.ok slot, next) ↔
      (gate.blueprintOf r = .ok none ∧ slot = none ∧ next = gate.withSlot r.key none) ∨
      ∃ b p, gate.blueprintOf r = .ok (some b) ∧ gate.predicateOf b = .ok p ∧
        slot = some (b.validator r.key r.contentType p) ∧
        next = (gate.withSlot r.key slot).withPredicate b.fingerprint p :=
  fillSlot_eq_ok_iff_blueprint

/-- **What keeps a slot from being filled** is the blueprint or its predicate. The slot is left open and
empty. -/
theorem fillSlot_eq_error_iff_blueprint {e : GateError} :
    gate.fillSlot key method route contentType = (.error e, next) ↔
      (gate.blueprint key method route contentType = .error e ∨
        ∃ b, gate.blueprint key method route contentType = .ok (some b) ∧
          gate.predicateOf b = .error e) ∧
      next = gate.setSlot key {} := by
  rw [fillSlot_eq]
  constructor
  · intro h
    split at h
    · rename_i e' hb
      obtain ⟨he, rfl⟩ := Prod.mk.inj h
      obtain rfl := Except.error.inj he
      exact ⟨Or.inl hb, rfl⟩
    · cases h
    · rename_i b hb
      split at h
      · rename_i e' hp
        obtain ⟨he, rfl⟩ := Prod.mk.inj h
        obtain rfl := Except.error.inj he
        exact ⟨Or.inr ⟨b, hb, hp⟩, rfl⟩
      · cases h
  · rintro ⟨hb | ⟨b, hb, hp⟩, rfl⟩
    · rw [hb]
    · rw [hb]
      simp only [hp]

/-- What keeps the slot of a request from being filled. -/
theorem fillSlot_eq_error_iff {e : GateError} :
    gate.fillSlot r.key r.method r.route r.contentType = (.error e, next) ↔
      (gate.blueprintOf r = .error e ∨
        ∃ b, gate.blueprintOf r = .ok (some b) ∧ gate.predicateOf b = .error e) ∧
      next = gate.setSlot r.key {} :=
  fillSlot_eq_error_iff_blueprint

/-- A predicate comes from the cache, or else from the blueprint's own schema. -/
theorem predicateOf_eq_ok_iff {p : Predicate} :
    gate.predicateOf b = .ok p ↔
      Entries.get? gate.predicates b.fingerprint.hex = some p ∨
      (Entries.get? gate.predicates b.fingerprint.hex = none ∧ gate.compileOwn b = .ok p) := by
  rw [predicateOf]
  cases hfiled : Entries.get? gate.predicates b.fingerprint.hex with
  | some q => simp
  | none =>
    simp only [reduceCtorEq, false_or, true_and]
    exact mapError_eq_ok_iff

/-- What keeps a predicate from being made is a fault of the blueprint's own schema. -/
theorem predicateOf_eq_error_iff {e : GateError} :
    gate.predicateOf b = .error e ↔
      Entries.get? gate.predicates b.fingerprint.hex = none ∧
        ∃ fault, gate.compileOwn b = .error fault ∧
          .structural b.route (.notCompilable fault) = e := by
  rw [predicateOf]
  cases hfiled : Entries.get? gate.predicates b.fingerprint.hex with
  | some q => simp
  | none =>
    simp only [true_and]
    exact mapError_eq_error_iff

/-- Filling changes neither the source nor the options. -/
theorem fillSlot_frame (h : gate.fillSlot key method route contentType = (result, next)) :
    next.source = gate.source ∧ next.options = gate.options := by
  cases result with
  | error e =>
    obtain ⟨-, rfl⟩ := fillSlot_eq_error_iff_blueprint.mp h
    exact ⟨rfl, rfl⟩
  | ok slot =>
    rcases fillSlot_eq_ok_iff_blueprint.mp h with ⟨-, -, rfl⟩ | ⟨b, p, -, -, -, rfl⟩
    · exact ⟨rfl, rfl⟩
    · exact ⟨rfl, rfl⟩

/-- **Filling touches one slot**, and leaves it with what has come of it, or empty. In either case nothing
is being built any more. -/
theorem slotAt_of_fillSlot (h : gate.fillSlot key method route contentType = (result, next))
    (text : String) :
    next.slotAt text = if key.text = text then { entry := result.toOption } else gate.slotAt text := by
  cases result with
  | error e =>
    obtain ⟨-, rfl⟩ := fillSlot_eq_error_iff_blueprint.mp h
    exact slotAt_setSlot ..
  | ok slot =>
    rcases fillSlot_eq_ok_iff_blueprint.mp h with ⟨-, rfl, rfl⟩ | ⟨b, p, -, -, rfl, rfl⟩
    · exact slotAt_setSlot ..
    · exact slotAt_setSlot ..

theorem entryAt_of_fillSlot (h : gate.fillSlot key method route contentType = (result, next))
    (text : String) :
    next.entryAt text = if key.text = text then result.toOption else gate.entryAt text := by
  rw [entryAt, slotAt_of_fillSlot h]
  split <;> rfl

/-- A predicate that has been compiled stays. -/
theorem get?_predicates_fillSlot_of_filed {hex : String} {p : Predicate}
    (h : gate.fillSlot key method route contentType = (result, next))
    (hfiled : Entries.get? gate.predicates hex = some p) :
    Entries.get? next.predicates hex = some p := by
  cases result with
  | error e =>
    obtain ⟨-, rfl⟩ := fillSlot_eq_error_iff_blueprint.mp h
    exact hfiled
  | ok slot =>
    rcases fillSlot_eq_ok_iff_blueprint.mp h with ⟨-, -, rfl⟩ | ⟨b, q, -, hq, -, rfl⟩
    · exact hfiled
    · change Entries.get? (Entries.insert gate.predicates b.fingerprint.hex q) hex = some p
      rw [Entries.get?_insert]
      split
      · rename_i hhex
        -- what is put under a fingerprint is what was found there
        rcases predicateOf_eq_ok_iff.mp hq with hq | ⟨hq, -⟩
        · rw [← hfiled, ← hhex, hq]
        · rw [hhex, hfiled] at hq
          cases hq
      · exact hfiled

/-- **Where predicates come from**: one that is filed after filling was filed before, or is that of the
request's own schema, and then the slot is filled. -/
theorem get?_predicates_of_fillSlot {hex : String} {p : Predicate}
    (h : gate.fillSlot r.key r.method r.route r.contentType = (result, next))
    (hget : Entries.get? next.predicates hex = some p) :
    Entries.get? gate.predicates hex = some p ∨
      next.entryAt r.key.text ≠ none ∧ ∃ b, gate.blueprintOf r = .ok (some b) ∧
        b.fingerprint.hex = hex ∧ gate.compileOwn b = .ok p := by
  have hentry : next.entryAt r.key.text = result.toOption := by
    rw [entryAt_of_fillSlot h, if_pos rfl]
  cases result with
  | error e =>
    obtain ⟨-, rfl⟩ := fillSlot_eq_error_iff.mp h
    exact Or.inl hget
  | ok slot =>
    rcases fillSlot_eq_ok_iff.mp h with ⟨-, -, rfl⟩ | ⟨b, q, hb, hq, -, rfl⟩
    · exact Or.inl hget
    · change Entries.get? (Entries.insert gate.predicates b.fingerprint.hex q) hex = some p at hget
      rw [Entries.get?_insert] at hget
      split at hget
      · rename_i hhex
        obtain rfl : q = p := by simpa using hget
        rcases predicateOf_eq_ok_iff.mp hq with hfiled | ⟨-, hown⟩
        · exact Or.inl (hhex ▸ hfiled)
        · refine Or.inr ⟨?_, b, hb, hhex, hown⟩
          rw [hentry]
          exact Option.some_ne_none slot
      · exact Or.inl hget

/-! ### Answering a request -/

theorem validatorUnder_of_filled (h : gate.entryAt key.text = some slot) :
    gate.validatorUnder key method route contentType = (.ok slot, gate) := by
  rw [validatorUnder, openSlot_of_filled h, h]

/-- An empty slot is filled, whether it has been open or not. -/
theorem validatorUnder_of_empty (h : gate.entryAt key.text = none) :
    gate.validatorUnder key method route contentType =
      gate.fillSlot key method route contentType := by
  have hopen : (gate.openSlot key).fillSlot key method route contentType =
      gate.fillSlot key method route contentType := by
    rw [fillSlot, setSlot_openSlot, fillSlot]
  simp only [validatorUnder, entryAt_openSlot, h, hopen]

/-- What is found for a request is what is found under its key. -/
theorem validatorFor_eq_ok_iff :
    gate.validatorFor r.method r.route r.contentType = .ok (slot, next) ↔
      gate.validatorUnder r.key r.method r.route r.contentType = (.ok slot, next) := by
  rw [validatorFor, Request.key]
  cases gate.validatorUnder (.of r.method r.route r.contentType) r.method r.route r.contentType with
  | mk result found => cases result <;> simp

/-- **Whatever validator is found answers**, or else the fault does. -/
theorem validate_of_validatorUnder
    (h : gate.validatorUnder r.key r.method r.route r.contentType = (result, next)) :
    gate.validate r = (result.bind fun slot => answer next.options slot r, next) := by
  rw [Request.key, Request.contentType] at h
  rw [validate, h]
  cases result with
  | error e => rfl
  | ok slot => cases slot <;> rfl

/-- A filled slot answers, and nothing changes. -/
theorem validate_of_filled (h : gate.entryAt r.key.text = some slot) :
    gate.validate r = (answer gate.options slot r, gate) :=
  validate_of_validatorUnder (validatorUnder_of_filled h)

/-- An empty slot is filled and then answers. -/
theorem validate_of_fill (h : gate.entryAt r.key.text = none)
    (hfill : gate.fillSlot r.key r.method r.route r.contentType = (.ok slot, next)) :
    gate.validate r = (answer gate.options slot r, next) := by
  rw [validate_of_validatorUnder ((validatorUnder_of_empty h).trans hfill), (fillSlot_frame hfill).2]
  rfl

/-- A slot that cannot be filled stays empty, and the fault is the answer. -/
theorem validate_of_fault {e : GateError} (h : gate.entryAt r.key.text = none)
    (hfill : gate.fillSlot r.key r.method r.route r.contentType = (.error e, next)) :
    gate.validate r = (.error e, next) :=
  validate_of_validatorUnder ((validatorUnder_of_empty h).trans hfill)

/-! An empty slot is filled for this very request, so the answer can be told from its blueprint. -/

theorem validate_fst_of_undeclared (h : gate.entryAt r.key.text = none)
    (hb : gate.blueprintOf r = .ok none) : (gate.validate r).1 = .ok (.ofRequest r) := by
  rw [validate_of_fill h (fillSlot_eq_ok_iff.mpr (Or.inl ⟨hb, rfl, rfl⟩))]
  rfl

theorem validate_fst_of_predicate {p : Predicate} (h : gate.entryAt r.key.text = none)
    (hb : gate.blueprintOf r = .ok (some b)) (hp : gate.predicateOf b = .ok p) :
    (gate.validate r).1 = (b.validator r.key r.contentType p).validate gate.options r := by
  rw [validate_of_fill h (fillSlot_eq_ok_iff.mpr (Or.inr ⟨b, p, hb, hp, rfl, rfl⟩))]
  rfl

theorem validate_fst_of_fault {e : GateError} (h : gate.entryAt r.key.text = none)
    (he : gate.blueprintOf r = .error e ∨
      ∃ b, gate.blueprintOf r = .ok (some b) ∧ gate.predicateOf b = .error e) :
    (gate.validate r).1 = .error e := by
  rw [validate_of_fault h (fillSlot_eq_error_iff.mpr ⟨he, rfl⟩)]

/-- **The cases of asking for a validator**: either nothing changes, or a slot was empty and has been
filled, as far as that was possible. -/
theorem validatorUnder_snd_cases (gate : Gate) (key : OperationKey) (method route : String)
    (contentType : ContentType) :
    (gate.validatorUnder key method route contentType).2 = gate ∨
      gate.entryAt key.text = none ∧ ∃ result, gate.fillSlot key method route contentType =
        (result, (gate.validatorUnder key method route contentType).2) := by
  cases hslot : gate.entryAt key.text with
  | some slot => exact Or.inl (by rw [validatorUnder_of_filled hslot])
  | none =>
    rw [validatorUnder_of_empty hslot]
    exact Or.inr ⟨rfl, _, rfl⟩

theorem validate_snd (gate : Gate) (r : Request) :
    (gate.validate r).2 = (gate.validatorUnder r.key r.method r.route r.contentType).2 :=
  congrArg Prod.snd (validate_of_validatorUnder rfl)

end Gate

end RequestGate
