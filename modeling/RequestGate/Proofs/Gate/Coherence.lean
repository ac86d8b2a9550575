import RequestGate.Proofs.Artifact.Tables
import RequestGate.Proofs.Gate.Transparency

/-!
# The caches of a gate over whole runs

A gate is asked to judge requests, and it may also be asked for the validator under a key, which need
not be the key of the method, the route and the content type that come with it. The file says what
such calls, in any number and any order, make of the two caches
(`RequestGate.Gate.Reachable.cacheLaws`), whether the gate has started from a document or from an
artifact that was compiled from one:

* what stands in a slot stays there;
* a call that cannot fill its slot changes nothing that can be seen: it leaves the slot open and empty,
  which looks like a slot that has never been asked for, now and after any further calls
  (`RequestGate.Gate.LooksLike`);
* every validator in a slot holds the predicate that is filed under the fingerprint of its schema, so
  validators with one fingerprint share one predicate.

The last of these rests on the source: a schema that is taken from an artifact comes with the
fingerprint that it stands under, and this must be its own (`RequestGate.Source.Sound`). Compiling
sees to that.
-/

namespace RequestGate

/-- Every schema that can be taken from the source stands under its own fingerprint. -/
def Source.Sound : Source → Prop
  | .document _ => True
  | .artifact _ payload => ∀ e ∈ payload.schemas, e.2.fingerprint.hex = e.1

/-- What a gate is asked. -/
inductive Call where
  /-- To judge a request. -/
  | validate (request : Request)
  /-- For the validator under a key. -/
  | validatorUnder (key : OperationKey) (method route : String) (contentType : ContentType)

namespace Call

/-- The key whose slot is looked into. -/
def key : Call → OperationKey
  | validate r => r.key
  | validatorUnder key .. => key

/-- The method that an empty slot is filled for. -/
def method : Call → String
  | validate r => r.method
  | validatorUnder _ method .. => method

/-- The route that an empty slot is filled for. -/
def route : Call → String
  | validate r => r.route
  | validatorUnder _ _ route _ => route

/-- The content type that an empty slot is filled for. -/
def contentType : Call → ContentType
  | validate r => r.contentType
  | validatorUnder _ _ _ contentType => contentType

end Call

namespace Gate

/-- The validator that a call is served by, or why it could not be made. -/
def serve (gate : Gate) (call : Call) : Except GateError (Option Validator) :=
  (gate.validatorUnder call.key call.method call.route call.contentType).1

/-- The gate after a call. -/
def afterCall (gate : Gate) : Call → Gate
  | .validate r => (gate.validate r).2
  | .validatorUnder key method route contentType =>
    (gate.validatorUnder key method route contentType).2

/-- The gate after a number of calls. -/
def afterCalls (gate : Gate) (calls : List Call) : Gate :=
  calls.foldl afterCall gate

/-- The gates that a run starts with. -/
inductive Initial : Gate → Prop where
  | live (options : Options) (document : Document) : Initial (ofDocument options document)
  /-- The artifact of a document may be loaded with other options than it was compiled with. -/
  | loaded {compiledWith options : Options} {now : Timestamp} {document : Document} {a : Artifact}
      {path : String} {gate : Gate} : Artifact.compile compiledWith now document = .ok a →
      Artifact.load options path a = .ok gate → Initial gate

/-- The gates that a run may come to. -/
inductive Reachable : Gate → Prop where
  | start {gate : Gate} : Initial gate → Reachable gate
  | step {gate : Gate} (call : Call) : Reachable gate → Reachable (gate.afterCall call)

/-- What can be relied on whatever a gate has been asked before. -/
structure CacheLaws (gate : Gate) : Prop where
  /-- A slot that is filled keeps what it holds. -/
  ready_stays : ∀ key, gate.compileState key = .ready → ∀ later,
    (gate.afterCalls later).compileState key = .ready ∧
      (gate.afterCalls later).cached? key = gate.cached? key
  /-- Between calls nothing is being compiled: a slot is filled or it is not. -/
  settled : ∀ key, gate.compileState key = (gate.slotState key).toCompileState
  /-- A call that cannot be served changes nothing that can be seen. -/
  fault_unseen : ∀ call e, gate.serve call = .error e →
    (gate.afterCall call).cachedKeys = gate.cachedKeys ∧
      (∀ key, (gate.afterCall call).cached? key = gate.cached? key ∧
        (gate.afterCall call).compileState key = gate.compileState key) ∧
      (gate.afterCall call).predicateCount = gate.predicateCount
  /-- Nor can it be noticed by any call that comes later. -/
  fault_forgotten : ∀ call e, gate.serve call = .error e → ∀ later other,
    ((gate.afterCall call).afterCalls later).serve other = (gate.afterCalls later).serve other
  /-- A validator goes by the fingerprint of its schema, and holds the predicate that is filed there. -/
  filed : ∀ key v, gate.cached? key = some v → v.fingerprint = v.schema.fingerprint ∧
    Entries.get? gate.predicates v.fingerprint.hex = some v.predicate
  /-- Validators of one fingerprint share their predicate. -/
  shared : ∀ key other v w, gate.cached? key = some v → gate.cached? other = some w →
    v.fingerprint = w.fingerprint → v.predicate = w.predicate

/-- Two gates that nobody can tell apart: the slots look the same, whether they are open or not. -/
structure LooksLike (gate other : Gate) : Prop where
  source_eq : gate.source = other.source
  options_eq : gate.options = other.options
  predicates_eq : gate.predicates = other.predicates
  slotAt_eq : ∀ text, gate.slotAt text = other.slotAt text
  cachedKeys_eq : gate.cachedKeys = other.cachedKeys

variable {gate next other : Gate} {call : Call} {slot : Option Validator} {b : Blueprint}
  {key : OperationKey} {method route text : String} {contentType : ContentType}
  {result : Except GateError (Option Validator)}

@[simp] theorem afterCalls_nil (gate : Gate) : gate.afterCalls [] = gate := rfl

@[simp] theorem afterCalls_cons (gate : Gate) (call : Call) (calls : List Call) :
    gate.afterCalls (call :: calls) = (gate.afterCall call).afterCalls calls := rfl

/-! ### One call -/

theorem afterCall_eq (gate : Gate) (call : Call) : gate.afterCall call =
    (gate.validatorUnder call.key call.method call.route call.contentType).2 := by
  cases call with
  | validate r => exact validate_snd gate r
  | validatorUnder key method route contentType => rfl

theorem afterCall_of_fillSlot (hempty : gate.entryAt call.key.text = none)
    (h : gate.fillSlot call.key call.method call.route call.contentType = (result, next)) :
    gate.afterCall call = next := by
  rw [afterCall_eq, validatorUnder_of_empty hempty, h]

/-- **The cases of a call**: either nothing changes, or a slot was empty and has been filled, as far as
that was possible. -/
theorem afterCall_cases (gate : Gate) (call : Call) :
    gate.afterCall call = gate ∨
      gate.entryAt call.key.text = none ∧ ∃ result,
        gate.fillSlot call.key call.method call.route call.contentType =
          (result, gate.afterCall call) := by
  rw [afterCall_eq]
  exact validatorUnder_snd_cases ..

/-- A call that is not served has tried to fill an empty slot. -/
theorem fillSlot_of_serve_eq_error {e : GateError} (h : gate.serve call = .error e) :
    gate.entryAt call.key.text = none ∧
      gate.fillSlot call.key call.method call.route call.contentType =
        (.error e, gate.afterCall call) := by
  rw [serve] at h
  cases hentry : gate.entryAt call.key.text with
  | some slot =>
    rw [validatorUnder_of_filled hentry] at h
    cases h
  | none =>
    rw [validatorUnder_of_empty hentry] at h
    refine ⟨rfl, ?_⟩
    rw [afterCall_eq, validatorUnder_of_empty hentry, ← h]

/-- No call empties a slot or fills it anew. -/
theorem entryAt_afterCall (h : gate.entryAt text = some slot) (call : Call) :
    (gate.afterCall call).entryAt text = some slot := by
  rcases afterCall_cases gate call with hsame | ⟨hempty, result, hfill⟩
  · rw [hsame]
    exact h
  · rw [entryAt_of_fillSlot hfill, if_neg]
    · exact h
    · rintro rfl
      rw [hempty] at h
      cases h

theorem entryAt_afterCalls (calls : List Call) :
    ∀ {gate : Gate}, gate.entryAt text = some slot →
      (gate.afterCalls calls).entryAt text = some slot := by
  induction calls with
  | nil => exact fun h => h
  | cons call calls ih => exact fun h => ih (entryAt_afterCall h call)

/-! ### What the caches can be seen from -/

theorem compileState_eq_ready_iff :
    gate.compileState key = .ready ↔ ∃ slot, gate.entryAt key.text = some slot := by
  rw [compileState, Slot.state, ← Option.isSome_iff_exists, entryAt]
  split
  · simp_all
  · split <;> simp_all

theorem cached?_eq_some_iff {v : Validator} :
    gate.cached? key = some v ↔ gate.entryAt key.text = some (some v) := by
  rw [cached?, Option.bind_eq_some_iff]
  simp

/-- The keys of the filled slots after something has been put into an empty one. -/
theorem mem_cachedKeys_setSlot (h : gate.entryAt key.text = none) (slot : Slot) :
    text ∈ (gate.setSlot key slot).cachedKeys ↔
      key.text = text ∧ slot.entry.isSome = true ∨ text ∈ gate.cachedKeys := by
  rw [cachedKeys, cachedKeys, mem_sortedDistinct, mem_sortedDistinct]
  have hold : ∀ old, Entries.get? gate.slots key.text = some old → old.entry.isSome = false := by
    intro old hold
    rw [entryAt, slotAt, hold] at h
    rw [show old.entry = none from h, Option.isSome_none]
  exact Entries.mem_keys_filter_insert hold

theorem cachedKeys_congr (h : ∀ text, text ∈ gate.cachedKeys ↔ text ∈ other.cachedKeys) :
    gate.cachedKeys = other.cachedKeys := by
  simp only [cachedKeys, mem_sortedDistinct] at h
  exact sortedDistinct_congr h

/-! ### Gates that look alike -/

theorem LooksLike.refl (gate : Gate) : gate.LooksLike gate :=
  ⟨rfl, rfl, rfl, fun _ => rfl, rfl⟩

theorem LooksLike.entryAt_eq (h : gate.LooksLike other) (text : String) :
    gate.entryAt text = other.entryAt text :=
  congrArg Slot.entry (h.slotAt_eq text)

/-- Something that is put into an empty slot of both leaves both looking alike. -/
theorem LooksLike.setSlot (h : gate.LooksLike other) (hempty : other.entryAt key.text = none)
    (slot : Slot) : (gate.setSlot key slot).LooksLike (other.setSlot key slot) where
  source_eq := h.source_eq
  options_eq := h.options_eq
  predicates_eq := h.predicates_eq
  slotAt_eq text := by rw [slotAt_setSlot, slotAt_setSlot, h.slotAt_eq]
  cachedKeys_eq := by
    have hempty' : gate.entryAt key.text = none := (h.entryAt_eq key.text).trans hempty
    refine cachedKeys_congr fun text => ?_
    rw [mem_cachedKeys_setSlot hempty', mem_cachedKeys_setSlot hempty, h.cachedKeys_eq]

/-- **Gates that look alike do the same**, and look alike afterwards. -/
theorem LooksLike.validatorUnder (h : gate.LooksLike other) (key : OperationKey)
    (method route : String) (contentType : ContentType) :
    (gate.validatorUnder key method route contentType).1 =
        (other.validatorUnder key method route contentType).1 ∧
      (gate.validatorUnder key method route contentType).2.LooksLike
        (other.validatorUnder key method route contentType).2 := by
  cases hentry : other.entryAt key.text with
  | some slot =>
    rw [validatorUnder_of_filled ((h.entryAt_eq key.text).trans hentry),
      validatorUnder_of_filled hentry]
    exact ⟨rfl, h⟩
  | none =>
    have hblue : gate.blueprint key method route contentType =
        other.blueprint key method route contentType := by
      rw [blueprint, blueprint, h.source_eq, h.options_eq]
    have hpred : ∀ b, gate.predicateOf b = other.predicateOf b := by
      intro b
      rw [predicateOf, predicateOf, h.predicates_eq, h.options_eq, h.source_eq]
    rw [validatorUnder_of_empty ((h.entryAt_eq key.text).trans hentry),
      validatorUnder_of_empty hentry, fillSlot_eq, fillSlot_eq, hblue]
    cases other.blueprint key method route contentType with
    | error e => exact ⟨rfl, h.setSlot hentry {}⟩
    | ok b? =>
      cases b? with
      | none => exact ⟨rfl, h.setSlot hentry _⟩
      | some b =>
        simp only [hpred]
        cases other.predicateOf b with
        | error e => exact ⟨rfl, h.setSlot hentry {}⟩
        | ok p =>
          have hset := h.setSlot hentry { entry := some (some (b.validator key contentType p)) }
          have hfiled : Entries.insert gate.predicates b.fingerprint.hex p =
              Entries.insert other.predicates b.fingerprint.hex p := by rw [h.predicates_eq]
          exact ⟨rfl, hset.source_eq, hset.options_eq, hfiled, hset.slotAt_eq, hset.cachedKeys_eq⟩

theorem LooksLike.serve_eq (h : gate.LooksLike other) (call : Call) :
    gate.serve call = other.serve call :=
  (h.validatorUnder ..).1

theorem LooksLike.afterCalls (calls : List Call) :
    ∀ {gate other : Gate}, gate.LooksLike other →
      (gate.afterCalls calls).LooksLike (other.afterCalls calls) := by
  induction calls with
  | nil => exact fun h => h
  | cons call calls ih =>
    intro gate other h
    rw [afterCalls_cons, afterCalls_cons, afterCall_eq, afterCall_eq]
    exact ih (h.validatorUnder ..).2

/-- **A call that fails leaves a gate that looks the same**, if nothing was being built before: the slot
that it has opened is as empty as one that is not there. -/
theorem looksLike_of_serve_eq_error {e : GateError}
    (hidle : (gate.slotAt call.key.text).compiling = false) (h : gate.serve call = .error e) :
    (gate.afterCall call).LooksLike gate := by
  obtain ⟨hempty, hfill⟩ := fillSlot_of_serve_eq_error h
  obtain ⟨-, hnext⟩ := fillSlot_eq_error_iff_blueprint.mp hfill
  rw [hnext]
  refine ⟨rfl, rfl, rfl, fun text => ?_, cachedKeys_congr fun text => ?_⟩
  · rw [slotAt_setSlot]
    split
    · rename_i htext
      rw [← htext]
      cases hslot : gate.slotAt call.key.text with
      | mk entry compiling =>
        rw [entryAt, hslot] at hempty
        rw [hslot] at hidle
        rw [show entry = none from hempty, show compiling = false from hidle]
    · rfl
  · rw [mem_cachedKeys_setSlot hempty]
    simp

/-! ### The invariant -/

/-- The blueprints of a sound source carry the fingerprints of their schemas. -/
theorem fingerprint_of_blueprint (hsound : gate.source.Sound)
    (h : gate.blueprint key method route contentType = .ok (some b)) :
    b.fingerprint = b.schema.fingerprint := by
  rw [blueprint] at h
  split at h
  · -- a document: the fingerprint is computed from the schema
    split at h
    · cases h
    · obtain ⟨b', hb, hsome⟩ := map_eq_ok_iff.mp h
      obtain rfl := Option.some.inj hsome
      obtain ⟨plan, -, hb⟩ := bind_eq_ok_iff.mp hb
      obtain rfl := Except.ok.inj hb
      rfl
  · -- an artifact: the schema is looked up under the fingerprint
    rename_i path payload hsource
    rw [hsource] at hsound
    split at h
    · cases h
    · obtain ⟨b', hb, hsome⟩ := map_eq_ok_iff.mp h
      obtain rfl := Option.some.inj hsome
      rw [Blueprint.ofRecord] at hb
      split at hb
      · cases hb
      · split at hb
        · cases hb
        · rename_i fingerprint _ _ schema hschema
          obtain rfl := Except.ok.inj hb
          have hown : schema.fingerprint.hex = fingerprint.hex :=
            hsound (fingerprint.hex, schema) (Entries.mem_of_get? hschema)
          exact congrArg Fingerprint.mk hown.symm

/-- **The invariant of a run**: the source is sound, nothing is being built, and every validator in a slot
holds the predicate that is filed under the fingerprint of its schema. -/
structure Coherent (gate : Gate) : Prop where
  sound : gate.source.Sound
  idle : ∀ text, (gate.slotAt text).compiling = false
  filed : ∀ text v, gate.entryAt text = some (some v) →
    v.fingerprint = v.schema.fingerprint ∧
      Entries.get? gate.predicates v.fingerprint.hex = some v.predicate

/-- What is filled into a slot is filed. -/
theorem filed_of_fillSlot {v : Validator} (hsound : gate.source.Sound)
    (h : gate.fillSlot key method route contentType = (.ok (some v), next)) :
    v.fingerprint = v.schema.fingerprint ∧
      Entries.get? next.predicates v.fingerprint.hex = some v.predicate := by
  rcases fillSlot_eq_ok_iff_blueprint.mp h with ⟨-, hnone, -⟩ | ⟨b, p, hb, -, hv, rfl⟩
  · cases hnone
  · obtain rfl := Option.some.inj hv
    exact ⟨fingerprint_of_blueprint hsound hb, Entries.get?_insert_self ..⟩

/-- **A call keeps the invariant.** -/
theorem Coherent.afterCall (h : Coherent gate) (call : Call) : Coherent (gate.afterCall call) := by
  rcases afterCall_cases gate call with hsame | ⟨-, result, hfill⟩
  · rw [hsame]
    exact h
  · refine ⟨(fillSlot_frame hfill).1 ▸ h.sound, fun text => ?_, fun text v hv => ?_⟩
    · rw [slotAt_of_fillSlot hfill]
      split
      · rfl
      · exact h.idle text
    · rw [entryAt_of_fillSlot hfill] at hv
      split at hv
      · cases result with
        | error e => cases hv
        | ok slot =>
          obtain rfl := Option.some.inj hv
          exact filed_of_fillSlot h.sound hfill
      · obtain ⟨hprint, hfiled⟩ := h.filed text v hv
        exact ⟨hprint, get?_predicates_fillSlot_of_filed hfill hfiled⟩

/-- A run starts without slots, and with a source that is sound. -/
theorem Initial.coherent (h : Initial gate) : Coherent gate := by
  cases h with
  | live options document => exact ⟨trivial, fun _ => rfl, fun _ _ hv => by cases hv⟩
  | loaded ha hload =>
    obtain ⟨plans, -, -, rfl⟩ := Artifact.payload_of_compile ha
    obtain ⟨hsource, hslots⟩ := Artifact.load_eq_ok hload
    have hslot : ∀ text, gate.slotAt text = {} := fun text => by rw [slotAt, hslots]; rfl
    refine ⟨?_, fun text => by rw [hslot], fun text v hv => ?_⟩
    · -- the source is sound because compiling files schemas under their own fingerprints
      rw [hsource]
      exact fun e he => Artifact.fingerprint_of_mem_schemaTable he
    · rw [entryAt, hslot] at hv
      cases hv

/-- **Every run keeps the invariant.** -/
theorem Reachable.coherent (h : Reachable gate) : Coherent gate := by
  induction h with
  | start hstart => exact hstart.coherent
  | step call _ ih => exact ih.afterCall call

/-- **The laws of the caches** hold in every gate that a run comes to. -/
theorem Reachable.cacheLaws (h : Reachable gate) : CacheLaws gate := by
  have hcoherent := h.coherent
  have hfault : ∀ call e, gate.serve call = .error e → (gate.afterCall call).LooksLike gate :=
    fun call e => looksLike_of_serve_eq_error (hcoherent.idle call.key.text)
  refine ⟨?_, ?_, ?_, ?_, ?_, ?_⟩
  · -- a slot that is filled is never written again
    intro key hready later
    obtain ⟨slot, hslot⟩ := compileState_eq_ready_iff.mp hready
    have hlater := entryAt_afterCalls later hslot
    refine ⟨compileState_eq_ready_iff.mpr ⟨slot, hlater⟩, ?_⟩
    rw [cached?, cached?, hslot, hlater]
  · -- whoever raises the flag takes it down again
    intro key
    rw [slotState, compileState, Slot.state, hcoherent.idle key.text]
    split <;> simp [SlotState.toCompileState]
  · -- a slot that is open and empty looks like one that is not there
    intro call e he
    have hlooks := hfault call e he
    refine ⟨hlooks.cachedKeys_eq, fun key => ⟨?_, ?_⟩, congrArg List.length hlooks.predicates_eq⟩
    · rw [cached?, cached?, hlooks.entryAt_eq]
    · rw [compileState, compileState, hlooks.slotAt_eq]
  · intro call e he later other
    exact ((hfault call e he).afterCalls later).serve_eq other
  · intro key v hv
    exact hcoherent.filed key.text v (cached?_eq_some_iff.mp hv)
  · -- both predicates are the one that is filed under their fingerprint
    intro key other v w hv hw hprint
    obtain ⟨-, hfiledv⟩ := hcoherent.filed key.text v (cached?_eq_some_iff.mp hv)
    obtain ⟨-, hfiledw⟩ := hcoherent.filed other.text w (cached?_eq_some_iff.mp hw)
    rw [hprint, hfiledw] at hfiledv
    exact (Option.some.inj hfiledv).symm

/-- They hold in a gate that was loaded, judged a request, and was then asked for the same operation
under another key. -/
theorem cacheLaws_loaded :
    ∃ a loaded, Artifact.compile {} ⟨0, 0⟩ ⟨petsRoot⟩ = .ok a ∧
      Artifact.load {} "api.oav.json" a = .ok loaded ∧
      CacheLaws ((loaded.afterCall (.validate misspelt)).afterCall
        (.validatorUnder ⟨"pets"⟩ "get" "/Pets" .notProvided)) := by
  obtain ⟨a, ha⟩ : ∃ a, Artifact.compile {} ⟨0, 0⟩ ⟨petsRoot⟩ = .ok a :=
    exists_eq_ok_of_isSome (by decide)
  obtain ⟨loaded, hloaded⟩ := Artifact.exists_load_of_compile "api.oav.json" ha
  have hstart : Reachable loaded := .start (.loaded ha hloaded)
  exact ⟨a, loaded, ha, hloaded, Reachable.cacheLaws ((hstart.step _).step _)⟩

end Gate

end RequestGate
