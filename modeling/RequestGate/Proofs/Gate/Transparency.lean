import RequestGate.Proofs.Gate.Serving
import RequestGate.Proofs.Validator.Run

/-!
# When serving from the caches can be noticed

A gate that has served other requests before answers out of its caches, and the question is whether
it still answers as a fresh gate would. The file settles it for every document and every set of
requests that may come (`RequestGate.Gate.history_irrelevant_iff`): it comes down to *two* earlier
requests, however long the history was.

* One of them, the **filler**, has filled the slot that the request is served from. Its key is that
  of the request, which does not make it a request to the same operation: keys are in lower case, and
  they hold nothing of a content type but its class.
* The other, the **compiler**, has compiled the predicate that stands in that slot. Its schema has the
  fingerprint of the filler's, which does not make it the same schema: a fingerprint forgets the order
  of members and how numbers are written. It is the filler itself, or it has filled a slot of its
  own before.

What such a pair can leave in a slot is `RequestGate.Gate.MayFill`. That nothing else ever stands
there is the invariant `RequestGate.Gate.Traced` of runs.
-/

namespace RequestGate.Gate

/-- The slot that `filler` leaves behind if the predicate for it is taken from `compiler`. -/
inductive MayFill (fresh : Gate) (compiler filler : Request) : Option Validator → Prop where
  /-- The operation is not declared. -/
  | undeclared : fresh.blueprintOf filler = .ok none → MayFill fresh compiler filler none
  /-- The two schemas have one fingerprint, and that of the compiler can be compiled. -/
  | declared {b c : Blueprint} {p : Predicate} : fresh.blueprintOf filler = .ok (some b) →
      fresh.blueprintOf compiler = .ok (some c) → c.fingerprint = b.fingerprint →
      fresh.compileOwn c = .ok p →
      MayFill fresh compiler filler (some (b.validator filler.key filler.contentType p))

/-- Whether `compiler` can have compiled what `filler` finds: it is the same request, or one with
another key. -/
def MayPrecede (compiler filler : Request) : Prop :=
  compiler = filler ∨ compiler.key ≠ filler.key

/-- **The invariant of a run**: whatever the caches hold goes back to a filler and a compiler among
the requests of the traffic. -/
structure Traced (fresh : Gate) (traffic : Request → Prop) (gate : Gate) : Prop where
  source_eq : gate.source = fresh.source
  options_eq : gate.options = fresh.options
  slots : ∀ key slot, gate.entryAt key = some slot →
    ∃ compiler filler, traffic compiler ∧ traffic filler ∧ filler.key.text = key ∧
      MayPrecede compiler filler ∧ MayFill fresh compiler filler slot
  predicates : ∀ hex p, Entries.get? gate.predicates hex = some p →
    ∃ compiler c, traffic compiler ∧ gate.entryAt compiler.key.text ≠ none ∧
      fresh.blueprintOf compiler = .ok (some c) ∧ c.fingerprint.hex = hex ∧
      fresh.compileOwn c = .ok p

variable {fresh gate next : Gate} {traffic : Request → Prop} {r : Request}
  {slot : Option Validator} {b : Blueprint} {p : Predicate}
  {result : Except GateError (Option Validator)}

theorem blueprintOf_congr (h : gate.source = fresh.source) (ho : gate.options = fresh.options)
    (r : Request) : gate.blueprintOf r = fresh.blueprintOf r := by
  rw [blueprintOf, blueprintOf, blueprint, blueprint, h, ho]

theorem compileOwn_congr (h : gate.source = fresh.source) (ho : gate.options = fresh.options)
    (b : Blueprint) : gate.compileOwn b = fresh.compileOwn b := by
  rw [compileOwn, compileOwn, h, ho]

/-! ### Runs keep the invariant -/

/-- A gate that has compiled nothing has nothing to account for. -/
theorem traced_refl (hs : ∀ text, fresh.entryAt text = none) (hp : fresh.predicates = []) :
    Traced fresh traffic fresh := by
  refine ⟨rfl, rfl, ?_, ?_⟩
  · intro key slot h
    rw [hs] at h
    cases h
  · intro hex p h
    simp [hp] at h

/-- A predicate that is found or compiled while the slot of `r` is still empty goes back to a request
that may have come before `r`. -/
theorem Traced.compiler_of_predicateOf (h : Traced fresh traffic gate) (hr : traffic r)
    (hempty : gate.entryAt r.key.text = none) (hb : fresh.blueprintOf r = .ok (some b))
    (hp : gate.predicateOf b = .ok p) :
    ∃ compiler c, traffic compiler ∧ MayPrecede compiler r ∧
      fresh.blueprintOf compiler = .ok (some c) ∧ c.fingerprint = b.fingerprint ∧
      fresh.compileOwn c = .ok p := by
  rcases predicateOf_eq_ok_iff.mp hp with hfiled | ⟨-, hown⟩
  · obtain ⟨compiler, c, hc, hfilled, hbc, hhex, hcomp⟩ := h.predicates _ _ hfiled
    -- its slot is filled and that of `r` is not, so the keys differ
    have hne : compiler.key ≠ r.key := fun heq => hfilled (heq ▸ hempty)
    have hprint : c.fingerprint = b.fingerprint := congrArg Fingerprint.mk hhex
    exact ⟨compiler, c, hc, Or.inr hne, hbc, hprint, hcomp⟩
  · rw [compileOwn_congr h.source_eq h.options_eq] at hown
    exact ⟨r, b, hr, Or.inl rfl, hb, rfl, hown⟩

/-- What fills an empty slot is accounted for. -/
theorem Traced.mayFill_of_fillSlot (h : Traced fresh traffic gate) (hr : traffic r)
    (hempty : gate.entryAt r.key.text = none)
    (hfill : gate.fillSlot r.key r.method r.route r.contentType = (.ok slot, next)) :
    ∃ compiler, traffic compiler ∧ MayPrecede compiler r ∧ MayFill fresh compiler r slot := by
  have hblue : gate.blueprintOf r = fresh.blueprintOf r :=
    blueprintOf_congr h.source_eq h.options_eq r
  rcases fillSlot_eq_ok_iff.mp hfill with ⟨hb, rfl, -⟩ | ⟨b, p, hb, hp, rfl, -⟩
  · exact ⟨r, hr, Or.inl rfl, .undeclared (hblue ▸ hb)⟩
  · obtain ⟨compiler, c, hc, hprec, hbc, hprint, hcomp⟩ :=
      h.compiler_of_predicateOf hr hempty (hblue ▸ hb) hp
    exact ⟨compiler, hc, hprec, .declared (hblue ▸ hb) hbc hprint hcomp⟩

/-- Filling keeps the invariant, and so does an attempt that fails. -/
theorem Traced.fillSlot (h : Traced fresh traffic gate) (hr : traffic r)
    (hempty : gate.entryAt r.key.text = none)
    (hfill : gate.fillSlot r.key r.method r.route r.contentType = (result, next)) :
    Traced fresh traffic next := by
  obtain ⟨hsource, hoptions⟩ := fillSlot_frame hfill
  refine ⟨hsource.trans h.source_eq, hoptions.trans h.options_eq, ?_, ?_⟩
  · intro key slot' hget
    rw [entryAt_of_fillSlot hfill] at hget
    split at hget
    · rename_i hkey
      cases result with
      | error e => cases hget
      | ok slot =>
        obtain ⟨compiler, hc, hprec, hmay⟩ := h.mayFill_of_fillSlot hr hempty hfill
        obtain rfl : slot = slot' := Option.some.inj hget
        exact ⟨compiler, r, hc, hr, hkey, hprec, hmay⟩
    · exact h.slots key slot' hget
  · intro hex p hget
    rcases get?_predicates_of_fillSlot hfill hget with hfiled | ⟨hfilled, b, hb, hhex, hown⟩
    · obtain ⟨a, c, ha, hfilled, hrest⟩ := h.predicates hex p hfiled
      refine ⟨a, c, ha, ?_, hrest⟩
      -- the slot of `r` was empty, so that of `a` is another one, and no other is touched
      rw [entryAt_of_fillSlot hfill, if_neg]
      · exact hfilled
      · exact fun hkey => hfilled (hkey ▸ hempty)
    · refine ⟨r, b, hr, hfilled, ?_, hhex, ?_⟩
      · exact (blueprintOf_congr h.source_eq h.options_eq r).symm.trans hb
      · exact (compileOwn_congr h.source_eq h.options_eq b).symm.trans hown

theorem Traced.validate (h : Traced fresh traffic gate) (hr : traffic r) :
    Traced fresh traffic (gate.validate r).2 := by
  rw [validate_snd]
  rcases validatorUnder_snd_cases gate r.key r.method r.route r.contentType with
    hsame | ⟨hempty, result, hfill⟩
  · rw [hsame]
    exact h
  · exact h.fillSlot hr hempty hfill

/-- **Every history of the traffic keeps the invariant.** -/
theorem Traced.after {history : List Request} :
    ∀ {gate : Gate}, Traced fresh traffic gate → (∀ r ∈ history, traffic r) →
      Traced fresh traffic (gate.after history) := by
  induction history with
  | nil => exact fun h _ => h
  | cons r history ih =>
    intro gate h hall
    rw [after_cons]
    exact ih (h.validate (hall r (by simp))) fun a ha => hall a (List.mem_cons_of_mem r ha)

theorem traced_after (options : Options) (document : Document) {history : List Request}
    (h : ∀ r ∈ history, traffic r) :
    Traced (ofDocument options document) traffic ((ofDocument options document).after history) :=
  Traced.after (traced_refl (fun _ => rfl) rfl) h

/-- What a live gate keeps in a slot has been put there for some request. -/
theorem exists_mayFill_of_slot {options : Options} {document : Document} {history : List Request}
    {key : String}
    (h : ((ofDocument options document).after history).entryAt key = some slot) :
    ∃ compiler filler, MayFill (ofDocument options document) compiler filler slot := by
  have htraced : Traced (ofDocument options document) (fun _ => True)
      ((ofDocument options document).after history) :=
    traced_after options document fun _ _ => trivial
  obtain ⟨compiler, filler, -, -, -, -, hmay⟩ := htraced.slots key _ h
  exact ⟨compiler, filler, hmay⟩

/-! ### From the invariant to answers -/

/-- A slot that nobody has filled is filled as it would be in a fresh gate, unless a predicate has
been filed meanwhile; so if all that may fill a slot answers like a fresh gate, everything does. -/
theorem Traced.validate_fst (h : Traced fresh traffic gate) (hs : ∀ text, fresh.entryAt text = none)
    (hp : fresh.predicates = []) (hr : traffic r)
    (hagree : ∀ compiler filler, traffic compiler → traffic filler → filler.key = r.key →
      MayPrecede compiler filler → ∀ slot, MayFill fresh compiler filler slot →
      answer fresh.options slot r = (fresh.validate r).1) :
    (gate.validate r).1 = (fresh.validate r).1 := by
  cases hslot : gate.entryAt r.key.text with
  | some slot =>
    obtain ⟨compiler, filler, hc, hf, hkey, hprec, hmay⟩ := h.slots _ _ hslot
    rw [validate_of_filled hslot, h.options_eq]
    exact hagree compiler filler hc hf (OperationKey.eq_iff.mpr hkey) hprec slot hmay
  | none =>
    cases hfill : gate.fillSlot r.key r.method r.route r.contentType with
    | mk result next =>
      cases result with
      | ok slot =>
        obtain ⟨compiler, hc, hprec, hmay⟩ := h.mayFill_of_fillSlot hr hslot hfill
        rw [validate_of_fill hslot hfill, h.options_eq]
        exact hagree compiler r hc hr rfl hprec slot hmay
      | error e =>
        -- a fault leaves no room for a filed predicate, and without one both gates do the same
        rw [validate_of_fault hslot hfill, validate_fst_of_fault (hs _)]
        rw [← blueprintOf_congr h.source_eq h.options_eq]
        refine (fillSlot_eq_error_iff.mp hfill).1.imp_right ?_
        rintro ⟨b, hb, hpredicate⟩
        obtain ⟨-, fault, hown, rfl⟩ := predicateOf_eq_error_iff.mp hpredicate
        rw [compileOwn_congr h.source_eq h.options_eq] at hown
        exact ⟨b, hb, predicateOf_eq_error_iff.mpr ⟨by simp [hp], fault, hown, rfl⟩⟩

/-- A request whose slot is empty and can be filled leaves the gate with its slot filled. -/
theorem after_append_of_fill (history : List Request)
    (hempty : (fresh.after history).entryAt r.key.text = none)
    (hfill : (fresh.after history).fillSlot r.key r.method r.route r.contentType =
      (.ok slot, next)) :
    fresh.after (history ++ [r]) = next ∧ next.entryAt r.key.text = some slot := by
  refine ⟨?_, by rw [entryAt_of_fillSlot hfill, if_pos rfl]; rfl⟩
  rw [after_append, after_cons, after_nil, validate_of_fill hempty hfill]

/-- **Two requests are enough** to leave in a slot whatever may be left there. -/
theorem exists_history_of_mayFill (hs : ∀ text, fresh.entryAt text = none)
    (hp : fresh.predicates = [])
    {compiler filler : Request} (hprec : MayPrecede compiler filler)
    (hmay : MayFill fresh compiler filler slot) :
    ∃ history, (∀ a ∈ history, a = compiler ∨ a = filler) ∧
      (fresh.after history).entryAt filler.key.text = some slot ∧
      (fresh.after history).options = fresh.options := by
  cases hmay with
  | undeclared hb =>
    have hfill := fillSlot_eq_ok_iff.mpr (Or.inl ⟨hb, rfl, rfl⟩)
    obtain ⟨hafter, hget⟩ := after_append_of_fill [] (hs _) hfill
    exact ⟨[filler], by simp, hafter ▸ hget, hafter ▸ (fillSlot_frame hfill).2⟩
  | @declared b c p hb hbc hprint hcomp =>
    have hfirst := fillSlot_eq_ok_iff.mpr (Or.inr ⟨c, p, hbc,
      predicateOf_eq_ok_iff.mpr (Or.inr ⟨by simp [hp], hcomp⟩), rfl, rfl⟩)
    obtain ⟨hmid, hget⟩ := after_append_of_fill [] (hs _) hfirst
    obtain ⟨hsource, hoptions⟩ := fillSlot_frame hfirst
    rcases hprec with rfl | hne
    · obtain rfl : c = b := by simpa using hbc.symm.trans hb
      exact ⟨[compiler], by simp, hmid ▸ hget, hmid ▸ hoptions⟩
    · -- the compiler comes first and leaves its predicate, which the filler then finds
      rw [List.nil_append] at hmid
      rw [← hmid] at hsource hoptions
      have hempty : (fresh.after [compiler]).entryAt filler.key.text = none := by
        rw [hmid, entryAt_of_fillSlot hfirst, if_neg (mt OperationKey.eq_iff.mpr hne)]
        exact hs _
      have hfiled : Entries.get? (fresh.after [compiler]).predicates b.fingerprint.hex = some p := by
        rw [hmid, ← hprint]
        exact Entries.get?_insert_self ..
      have hsecond := fillSlot_eq_ok_iff.mpr (Or.inr ⟨b, p,
        (blueprintOf_congr hsource hoptions filler).trans hb,
        predicateOf_eq_ok_iff.mpr (Or.inl hfiled), rfl, rfl⟩)
      obtain ⟨hafter, hget⟩ := after_append_of_fill [compiler] hempty hsecond
      refine ⟨[compiler, filler], by simp, ?_, ?_⟩
      · exact hafter ▸ hget
      · exact hafter ▸ (fillSlot_frame hsecond).2.trans hoptions

/-- **What of a history can be noticed.** For a document and a set of requests, every history made of
them leaves every answer as it is in a fresh gate exactly if a request is never answered differently
by what a filler with its key and a compiler can have left in its slot. -/
theorem history_irrelevant_iff (options : Options) (document : Document)
    (traffic : Request → Prop) :
    (∀ history, (∀ a ∈ history, traffic a) → ∀ r, traffic r →
      (((ofDocument options document).after history).validate r).1 =
        ((ofDocument options document).validate r).1) ↔
    ∀ r compiler filler, traffic r → traffic compiler → traffic filler → filler.key = r.key →
      MayPrecede compiler filler → ∀ slot, MayFill (ofDocument options document) compiler filler slot →
      answer options slot r = ((ofDocument options document).validate r).1 := by
  constructor
  · intro h r compiler filler hr hc hf hkey hprec slot hmay
    -- what the slot may be filled with, it is filled with after two requests at most
    obtain ⟨history, hmem, hget, hoptions⟩ :=
      exists_history_of_mayFill (fun _ => by rfl) (by rfl) hprec hmay
    have htraffic : ∀ a ∈ history, traffic a := by
      intro a ha
      rcases hmem a ha with rfl | rfl
      · exact hc
      · exact hf
    rw [hkey] at hget
    rw [← h history htraffic r hr, validate_of_filled hget, hoptions]
    rfl
  · intro h history hhistory r hr
    exact (traced_after options document hhistory).validate_fst (fun _ => rfl) rfl hr
      fun compiler filler => h r compiler filler hr

/-! ### Letter case is enough

A document may declare `/Pets` and leave `/pets` undeclared. The two routes share a key, so a request
to the second has the first one let through unjudged from then on. -/

/-- A document with one operation and no parameters. -/
def petsRoot : Json :=
  .obj [("openapi", .str "3.0.0"), ("paths", .obj [("/Pets", .obj [("get", .obj [])])])]

/-- A request to that operation with a query parameter that it does not declare. -/
def misspelt : Request :=
  { method := "GET", route := "/Pets", query := some [("limti", .str "1")] }

/-- After a request to `/pets` the misspelt parameter passes, which a fresh gate refuses. -/
theorem history_noticed_of_letter_case :
    Document.ofJson petsRoot = .ok ⟨petsRoot⟩ ∧
      (((ofDocument {} ⟨petsRoot⟩).after [{ method := "GET", route := "/pets" }]).validate
        misspelt).1 = .ok (.ofRequest misspelt) ∧
      ((ofDocument {} ⟨petsRoot⟩).validate misspelt).1 =
        .error (.badRequest (.ofItems "/Pets"
          [.brief ".query.limti" "Unknown query parameter 'limti'"])) := by
  decide

/-! ### Traffic that cannot notice anything

The exact condition speaks of answers. A condition on keys and fingerprints alone is enough: if they
separate what they are to separate, caching is invisible. -/

/-- Keys separate operations with a class of content types: requests with one key have one blueprint.
And fingerprints separate schemas. -/
structure Separates (fresh : Gate) (traffic : Request → Prop) : Prop where
  keys : ∀ a b, traffic a → traffic b → a.key = b.key → fresh.blueprintOf a = fresh.blueprintOf b
  fingerprints : ∀ a b, traffic a → traffic b → ∀ x y, fresh.blueprintOf a = .ok (some x) →
    fresh.blueprintOf b = .ok (some y) → x.fingerprint = y.fingerprint → x.schema = y.schema

/-- **Where keys and fingerprints separate, no history can be noticed.** -/
theorem history_irrelevant_of_separates {options : Options} {document : Document}
    (h : Separates (ofDocument options document) traffic) {history : List Request}
    (hhistory : ∀ a ∈ history, traffic a) (hr : traffic r) :
    (((ofDocument options document).after history).validate r).1 =
      ((ofDocument options document).validate r).1 := by
  refine (traced_after options document hhistory).validate_fst (fun _ => rfl) rfl hr
    fun compiler filler hc hf hkey _ slot hmay => ?_
  have hempty : (ofDocument options document).entryAt r.key.text = none := rfl
  have hblue := h.keys filler r hf hr hkey
  cases hmay with
  | undeclared hb =>
    have hfill := fillSlot_eq_ok_iff.mpr (Or.inl ⟨hblue ▸ hb, rfl, rfl⟩)
    rw [validate_of_fill hempty hfill]
  | @declared b c p hb hbc hprint hcomp =>
    have hschema : c.schema = b.schema := h.fingerprints compiler filler hc hf c b hbc hb hprint
    have hown : (ofDocument options document).compileOwn b = .ok p := by
      rw [compileOwn, ← hschema]
      exact hcomp
    have hfill := fillSlot_eq_ok_iff.mpr
      (Or.inr ⟨b, p, hblue ▸ hb, predicateOf_eq_ok_iff.mpr (Or.inr ⟨rfl, hown⟩), rfl, rfl⟩)
    rw [validate_of_fill hempty hfill]
    -- a validator judges without a look at its key and its content class
    exact Validator.validate_congr rfl rfl rfl rfl options r

end RequestGate.Gate
