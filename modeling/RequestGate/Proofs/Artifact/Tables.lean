import Mathlib.Data.List.Induction
import RequestGate.Artifact.Compile
import RequestGate.Artifact.Load
import RequestGate.Proofs.Draft7.Registered
import RequestGate.Proofs.Success

/-!
# What a compiled artifact holds

Compiling goes through the operations of a document, and for each through the content classes that
can be foreseen. What it comes across on the way is one list
(`RequestGate.Plan.foreseen`, for all operations one after the other), and the tables of a payload are
folds over that list. A look-up in them is then a search through it, in one of two directions:

* under a key, and under a selected media type, the **last** one foreseen is found, because a later
  entry takes the place of an earlier one;
* under a fingerprint the **first** one is found, because a schema that is there already is kept.

Where two foreseen classes share a key or a fingerprint, the two directions disagree, and that is all
there is to what an artifact can get wrong.
-/

namespace RequestGate

/-! ### Tables that are folds -/

namespace Entries

universe u v

variable {α : Type u} {ι : Type v}

/-- Puts a value under a key unless there is one already. -/
def insertNew (entries : Entries α) (key : String) (value : α) : Entries α :=
  if contains entries key then entries else insertSorted entries key value

theorem get?_insertNew (entries : Entries α) (key other : String) (value : α) :
    get? (insertNew entries key value) other =
      (get? entries other).or (if key = other then some value else none) := by
  rw [insertNew, contains]
  cases hget : get? entries key with
  | some v =>
    by_cases hk : key = other
    · simp [← hk, hget]
    · simp [hk]
  | none =>
    simp only [Option.isSome_none, Bool.false_eq_true, if_false, get?_insertSorted]
    by_cases hk : key = other
    · simp [← hk, hget]
    · simp [hk]

theorem mem_insertNew {entries : Entries α} {key : String} {value : α} {e : String × α}
    (h : e ∈ insertNew entries key value) :
    e ∈ entries ∨ e = (key, value) ∧ key ∉ keys entries := by
  rw [insertNew] at h
  split at h
  · exact Or.inl h
  · rename_i hc
    rw [contains_iff] at hc
    exact (mem_insertSorted h).symm.imp_right fun he => ⟨he, hc⟩

/-- **Of several values under one key the first is found** in a table that keeps what it has. -/
theorem get?_foldl_insertNew (key : ι → String) (value : ι → α) (items : List ι) (k : String) :
    get? (items.foldl (fun t i => insertNew t (key i) (value i)) []) k =
      (items.find? fun i => key i == k).map value := by
  induction items using List.reverseRecOn with
  | nil => rfl
  | append_singleton items i ih =>
    rw [List.foldl_concat, get?_insertNew, ih, List.find?_append, List.find?_singleton]
    by_cases hk : key i = k
    · cases items.find? fun i => key i == k <;> simp [hk]
    · cases items.find? fun i => key i == k <;> simp [hk]

theorem mem_foldl_insertSorted {key : ι → String} {value : ι → α} {items : List ι}
    {e : String × α} (h : e ∈ items.foldl (fun t i => insertSorted t (key i) (value i)) []) :
    ∃ i ∈ items, e = (key i, value i) := by
  induction items using List.reverseRecOn with
  | nil => cases h
  | append_singleton items i ih =>
    rw [List.foldl_concat] at h
    rcases mem_insertSorted h with rfl | hold
    · exact ⟨i, by simp, rfl⟩
    · obtain ⟨j, hj, he⟩ := ih hold
      exact ⟨j, List.mem_append_left _ hj, he⟩

end Entries

/-! ### What is foreseen -/

/-- A class of requests that compiling comes across. -/
structure Foreseen where
  key : OperationKey
  /-- The media type that is selected for the body; the empty one if there is no body. -/
  selected : String
  schema : RequestSchema

namespace Plan

/-- What is foreseen of one content class. -/
def foresee (components : Json) (plan : Plan) (keyClass : String) : Foreseen :=
  { key := .ofClass plan.method.name plan.route keyClass
    selected := (plan.schemaFor components (.ofKeyClass keyClass)).2.getD ""
    schema := (plan.schemaFor components (.ofKeyClass keyClass)).1 }

/-- What is foreseen of an operation. -/
def foreseen (components : Json) (plan : Plan) : List Foreseen :=
  plan.contentClasses.map (foresee components plan)

end Plan

/-- The plans of all operations. -/
def Document.plans (options : Options) (document : Document) : Except GateError (List Plan) :=
  document.operations.mapM (Plan.assemble document options.settings.allowUnknownQueryParameters)

namespace Payload

/-- Whether a fingerprint is that of the schema that stands under it. -/
def Knows (payload : Payload) (fingerprint : Fingerprint) : Prop :=
  ∃ schema, Entries.get? payload.schemas fingerprint.hex = some schema ∧
    schema.fingerprint = fingerprint

/-- Whether every fingerprint that the tables lead to is known. -/
structure Closed (payload : Payload) : Prop where
  keys : ∀ e ∈ payload.keys, payload.Knows e.2
  variants : ∀ record ∈ payload.operations, ∀ e ∈ record.variants, payload.Knows e.2

end Payload

namespace Artifact

/-- The fingerprints by key. -/
def keyTable (items : List Foreseen) : Entries Fingerprint :=
  items.foldl (fun t f => Entries.insertSorted t f.key.text f.schema.fingerprint) []

/-- The fingerprints by selected media type. -/
def variantTable (items : List Foreseen) : Entries Fingerprint :=
  items.foldl (fun t f => Entries.insertSorted t f.selected f.schema.fingerprint) []

/-- The schemas by fingerprint. -/
def schemaTable (items : List Foreseen) : Entries RequestSchema :=
  items.foldl (fun t f => Entries.insertNew t f.schema.fingerprint.hex f.schema) []

/-- The record of a plan. -/
def recordOf (components : Json) (plan : Plan) : OperationRecord :=
  { method := plan.method.name, route := plan.route, mediaTypes := plan.mediaTypes,
    parameters := plan.parameters, variants := variantTable (plan.foreseen components) }

/-- The payload of a list of plans. -/
def payloadOf (components : Json) (plans : List Plan) : Payload :=
  let items := plans.flatMap (Plan.foreseen components)
  { components, operations := plans.map (recordOf components), schemas := schemaTable items,
    keys := keyTable items }

/-- Whether the schema of a whole request can be compiled. -/
def Compiles (options : Options) (components : Json) (schema : RequestSchema) : Prop :=
  ∃ p, Engine.compile options (schema.toEngineSchema components) = .ok p

variable {options : Options} {components : Json} {document : Document} {payload : Payload}

/-! ### The table of schemas -/

/-- What stands in the table was foreseen, and stands under its own fingerprint. -/
theorem exists_of_mem_schemaTable {items : List Foreseen} {e : String × RequestSchema}
    (h : e ∈ schemaTable items) : ∃ f ∈ items, e = (f.schema.fingerprint.hex, f.schema) := by
  induction items using List.reverseRecOn with
  | nil => cases h
  | append_singleton items f ih =>
    rw [schemaTable, List.foldl_concat] at h
    rcases Entries.mem_insertNew h with hold | ⟨rfl, -⟩
    · obtain ⟨g, hg, he⟩ := ih hold
      exact ⟨g, List.mem_append_left _ hg, he⟩
    · exact ⟨f, by simp, rfl⟩

theorem fingerprint_of_mem_schemaTable {items : List Foreseen} {e : String × RequestSchema}
    (h : e ∈ schemaTable items) : e.2.fingerprint.hex = e.1 := by
  obtain ⟨f, -, rfl⟩ := exists_of_mem_schemaTable h
  rfl

/-! ### Compiling fills the tables -/

theorem addSchema_eq_ok_iff {route : String} {schemas next : Entries RequestSchema}
    {schema : RequestSchema} :
    addSchema options components route schemas schema = .ok next ↔
      (schema.fingerprint.hex ∈ Entries.keys schemas ∨ Compiles options components schema) ∧
        next = Entries.insertNew schemas schema.fingerprint.hex schema := by
  rw [addSchema, Entries.insertNew, ← Entries.contains_iff]
  cases hc : Entries.contains schemas schema.fingerprint.hex with
  | true => simp [eq_comm]
  | false =>
    cases hp : Engine.compile options (schema.toEngineSchema components) with
    | ok p => simp [Compiles, hp, eq_comm]
    | error fault => simp [Compiles, hp]

/-- Every schema of the table can be compiled. -/
def AllCompile (options : Options) (components : Json) (items : List Foreseen) : Prop :=
  ∀ e ∈ schemaTable items, Compiles options components e.2

/-- A schema that is new to the table has been compiled before it was put there. -/
theorem AllCompile.concat {items : List Foreseen} {f : Foreseen}
    (h : AllCompile options components items)
    (hf : f.schema.fingerprint.hex ∈ Entries.keys (schemaTable items) ∨
      Compiles options components f.schema) :
    AllCompile options components (items ++ [f]) := by
  intro e he
  rw [schemaTable, List.foldl_concat] at he
  rcases Entries.mem_insertNew he with hold | ⟨rfl, hnew⟩
  · exact h e hold
  · exact hf.resolve_left hnew

/-- The progress of a compilation that has come across `items`. -/
def progressOf (operations : List OperationRecord) (items : List Foreseen) : Progress :=
  { operations, schemas := schemaTable items, keys := keyTable items }

/-- Where a compilation is after `items` of earlier operations and `own` of the present one. -/
def seen (operations : List OperationRecord) (items own : List Foreseen) :
    Progress × Entries Fingerprint :=
  (progressOf operations (items ++ own), variantTable own)

/-- **One class more** is put at the end of everything that was seen. -/
theorem addClass_seen {plan : Plan} {operations : List OperationRecord}
    {items own : List Foreseen} {keyClass : String} {next : Progress × Entries Fingerprint}
    (hall : AllCompile options components (items ++ own))
    (h : addClass options components plan (seen operations items own) keyClass = .ok next) :
    AllCompile options components (items ++ (own ++ [plan.foresee components keyClass])) ∧
      next = seen operations items (own ++ [plan.foresee components keyClass]) := by
  obtain ⟨schemas, hadd, hnext⟩ := bind_eq_ok_iff.mp h
  obtain ⟨hcomp, rfl⟩ := addSchema_eq_ok_iff.mp hadd
  obtain rfl := Except.ok.inj hnext
  rw [← List.append_assoc]
  refine ⟨hall.concat hcomp, ?_⟩
  rw [seen, ← List.append_assoc]
  simp only [progressOf, schemaTable, keyTable, variantTable, List.foldl_concat]
  rfl

/-- **The classes of one operation** are put into the tables one after the other. -/
theorem foldlM_addClass {plan : Plan} {operations : List OperationRecord} {items : List Foreseen}
    {next : Progress × Entries Fingerprint} (hitems : AllCompile options components items)
    (h : plan.contentClasses.foldlM (addClass options components plan)
      (progressOf operations items, []) = .ok next) :
    AllCompile options components (items ++ plan.foreseen components) ∧
      next = seen operations items (plan.foreseen components) := by
  refine foldlM_induction
    (P := fun done st => AllCompile options components (items ++ done.map (plan.foresee components)) ∧
      st = seen operations items (done.map (plan.foresee components))) ?_ ⟨?_, ?_⟩ h
  · rintro done keyClass _ next ⟨hall, rfl⟩ hadd
    rw [List.map_append]
    exact addClass_seen hall hadd
  · simpa using hitems
  · simp [seen, variantTable]

/-- The progress of a compilation that is done with the operations of some plans. -/
def progressOfPlans (components : Json) (plans : List Plan) : Progress :=
  progressOf (plans.map (recordOf components)) (plans.flatMap (Plan.foreseen components))

theorem addOperation_eq_ok {plans : List Plan} {operation : Operation} {next : Progress}
    (hall : AllCompile options document.components
      (plans.flatMap (Plan.foreseen document.components)))
    (h : addOperation options document (progressOfPlans document.components plans) operation =
      .ok next) :
    ∃ plan, Plan.assemble document options.settings.allowUnknownQueryParameters operation =
        .ok plan ∧
      AllCompile options document.components
        ((plans ++ [plan]).flatMap (Plan.foreseen document.components)) ∧
      next = progressOfPlans document.components (plans ++ [plan]) := by
  obtain ⟨plan, hplan, h⟩ := bind_eq_ok_iff.mp h
  obtain ⟨⟨progress, variants⟩, hfold, h⟩ := bind_eq_ok_iff.mp h
  obtain ⟨hall', heq⟩ := foldlM_addClass hall hfold
  obtain ⟨rfl, rfl⟩ := Prod.mk.inj heq
  refine ⟨plan, hplan, ?_, ?_⟩
  · simpa using hall'
  · obtain rfl := Except.ok.inj h
    simp [progressOfPlans, progressOf, recordOf]

/-- **What compiling a document comes to**: the payload of its plans, all of whose schemas can be
compiled. -/
theorem payload_of_compilePayload (h : compilePayload options document = .ok payload) :
    ∃ plans, document.plans options = .ok plans ∧
      AllCompile options document.components
        (plans.flatMap (Plan.foreseen document.components)) ∧
      payload = payloadOf document.components plans := by
  obtain ⟨progress, hfold, h⟩ := bind_eq_ok_iff.mp h
  obtain rfl := Except.ok.inj h
  -- the progress is at all times that of the plans assembled so far
  have hrun := foldlM_induction
    (P := fun done progress => ∃ plans,
      List.Forall₂ (fun operation plan =>
        Plan.assemble document options.settings.allowUnknownQueryParameters operation = .ok plan)
        done plans ∧
      AllCompile options document.components
        (plans.flatMap (Plan.foreseen document.components)) ∧
      progress = progressOfPlans document.components plans)
    (f := addOperation options document) ?_ ⟨[], .nil, ?_, rfl⟩ hfold
  · obtain ⟨plans, hplans, hall, rfl⟩ := hrun
    exact ⟨plans, mapM_eq_ok_iff.mpr hplans, hall, rfl⟩
  · rintro done operation _ next ⟨plans, hplans, hall, rfl⟩ hadd
    obtain ⟨plan, hplan, hall', rfl⟩ := addOperation_eq_ok hall hadd
    exact ⟨plans ++ [plan], List.rel_append hplans (.cons hplan .nil), hall', rfl⟩
  · intro e he
    simp [schemaTable] at he

theorem addClass_isOk {plan : Plan} {keyClass : String}
    (h : Compiles options components (plan.foresee components keyClass).schema)
    (state : Progress × Entries Fingerprint) :
    ∃ next, addClass options components plan state keyClass = .ok next :=
  ⟨_, bind_eq_ok_iff.mpr ⟨_, addSchema_eq_ok_iff.mpr ⟨Or.inr h, rfl⟩, rfl⟩⟩

/-- A document compiles if its operations have plans and everything that is foreseen compiles. -/
theorem exists_compilePayload {plans : List Plan} (hplans : document.plans options = .ok plans)
    (hcomp : ∀ plan ∈ plans, ∀ f ∈ plan.foreseen document.components,
      Compiles options document.components f.schema) :
    ∃ payload, compilePayload options document = .ok payload := by
  have hoperation : ∀ operation ∈ document.operations, ∀ progress,
      ∃ next, addOperation options document progress operation = .ok next := by
    intro operation hop progress
    obtain ⟨plan, hplan, hassemble⟩ := exists_of_mapM_eq_ok hplans hop
    obtain ⟨state, hstate⟩ := foldlM_isOk
      (f := addClass options document.components plan) (l := plan.contentClasses)
      (fun keyClass hclass =>
        addClass_isOk (hcomp plan hplan _ (List.mem_map_of_mem hclass)))
      (progress, [])
    exact ⟨_, bind_eq_ok_iff.mpr ⟨plan, hassemble, bind_eq_ok_iff.mpr ⟨state, hstate, rfl⟩⟩⟩
  obtain ⟨progress, hprogress⟩ := foldlM_isOk hoperation {}
  exact ⟨_, bind_eq_ok_iff.mpr ⟨progress, hprogress, rfl⟩⟩

/-- Where nothing keeps the foreseen schemas from being compiled, there is an artifact. -/
theorem exists_compile {plans : List Plan} (now : Timestamp)
    (hplans : document.plans options = .ok plans)
    (hfault : ∀ plan ∈ plans, ∀ f ∈ plan.foreseen document.components,
      Draft7.compileFault? (Engine.formats options)
        (f.schema.toEngineSchema document.components) = none) :
    ∃ a, compile options now document = .ok a := by
  have hcomp : ∀ plan ∈ plans, ∀ f ∈ plan.foreseen document.components,
      Compiles options document.components f.schema := by
    intro plan hplan f hf
    rw [Compiles, Engine.compile, hfault plan hplan f hf]
    exact ⟨_, rfl⟩
  obtain ⟨payload, hpayload⟩ := exists_compilePayload hplans hcomp
  exact ⟨_, bind_eq_ok_iff.mpr ⟨payload, hpayload, rfl⟩⟩

/-! ### Fingerprints that are known -/

/-- The schema under a fingerprint is the first foreseen one. -/
theorem get?_schemas_payloadOf (components : Json) (plans : List Plan) (hex : String) :
    Entries.get? (payloadOf components plans).schemas hex =
      ((plans.flatMap (Plan.foreseen components)).find? fun g =>
        g.schema.fingerprint.hex == hex).map Foreseen.schema := by
  rw [payloadOf, schemaTable, Entries.get?_foldl_insertNew]

/-- The schema of everything foreseen is known, if not itself then another of its fingerprint. -/
theorem knows_payloadOf {plans : List Plan} {f : Foreseen}
    (h : f ∈ plans.flatMap (Plan.foreseen components)) :
    (payloadOf components plans).Knows f.schema.fingerprint := by
  have hget := get?_schemas_payloadOf components plans f.schema.fingerprint.hex
  cases hfind : (plans.flatMap (Plan.foreseen components)).find? fun g =>
      g.schema.fingerprint.hex == f.schema.fingerprint.hex with
  | none => simpa using List.find?_eq_none.mp hfind f h
  | some g =>
    rw [hfind] at hget
    refine ⟨g.schema, hget, ?_⟩
    have hhex : g.schema.fingerprint.hex = f.schema.fingerprint.hex := by
      simpa using List.find?_some hfind
    exact congrArg Fingerprint.mk hhex

/-- **No table leads nowhere.** -/
theorem closed_payloadOf (components : Json) (plans : List Plan) :
    (payloadOf components plans).Closed where
  keys e he := by
    obtain ⟨f, hf, rfl⟩ := Entries.mem_foldl_insertSorted he
    exact knows_payloadOf hf
  variants record hrecord e he := by
    obtain ⟨plan, hplan, rfl⟩ := List.mem_map.mp hrecord
    obtain ⟨f, hf, rfl⟩ := Entries.mem_foldl_insertSorted he
    exact knows_payloadOf (List.mem_flatMap.mpr ⟨plan, hplan, hf⟩)

/-- What a compiled document holds. -/
theorem payload_of_compile {now : Timestamp} {a : Artifact}
    (h : compile options now document = .ok a) :
    ∃ plans, document.plans options = .ok plans ∧
      AllCompile options document.components
        (plans.flatMap (Plan.foreseen document.components)) ∧
      a = sealed options now (payloadOf document.components plans) := by
  obtain ⟨payload, hpayload, hsealed⟩ := bind_eq_ok_iff.mp h
  obtain ⟨plans, hplans, hall, rfl⟩ := payload_of_compilePayload hpayload
  exact ⟨plans, hplans, hall, (Except.ok.inj hsealed).symm⟩

/-! ### Loading compiles the table of schemas -/

theorem Compiles.eq {schema : RequestSchema} (h : Compiles options components schema) :
    Engine.compile options (schema.toEngineSchema components) =
      .ok ⟨schema.toEngineSchema components, Engine.formats options⟩ := by
  obtain ⟨p, hp⟩ := h
  obtain rfl := Engine.eq_of_compile_eq_ok hp
  exact hp

/-- Options agree with a stamp if they have its policy, and all formats that it names. -/
theorem verifyOptions_eq_ok_iff {stamped current : Stamp} :
    verifyOptions stamped current = .ok () ↔
      stamped.settings.allowUnknownQueryParameters = current.settings.allowUnknownQueryParameters ∧
        stamped.formats ⊆ current.formats := by
  have hformats : (stamped.formats.filter fun name => !current.formats.contains name) = [] ↔
      stamped.formats ⊆ current.formats := by
    rw [List.filter_eq_nil_iff]
    simp only [Bool.not_eq_true', Bool.not_eq_false, List.contains_iff_mem]
    rfl
  rw [verifyOptions, ← hformats]
  split
  · rename_i hpolicy
    simp [bne_iff_ne.mp hpolicy]
  · rename_i hpolicy
    simp only [bne_iff_ne, ne_eq, not_not] at hpolicy
    cases stamped.formats.filter fun name => !current.formats.contains name <;> simp [hpolicy]

theorem verifyOptions_self (stamp : Stamp) : verifyOptions stamp stamp = .ok () :=
  verifyOptions_eq_ok_iff.mpr ⟨rfl, List.Subset.refl _⟩

/-- **No artifact is loaded without its formats**: the engine has one of its own for each that the stamp
names. -/
theorem mem_keys_formatTable_of_load {a : Artifact} {path : String} {gate : Gate} {format : String}
    (h : load options path a = .ok gate) (hformat : format ∈ a.options.formats) :
    format ∈ Entries.keys (Engine.formatTable options) := by
  obtain ⟨_, hverified, -⟩ := bind_eq_ok_iff.mp h
  exact Engine.mem_keys_formatTable_iff.mpr ((verifyOptions_eq_ok_iff.mp hverified).2 hformat)

/-- The gate that a payload is loaded to. -/
def loadedGate (options : Options) (path : String) (payload : Payload) : Gate :=
  { source := .artifact path payload, options
    predicates := Entries.mapValues
      (fun schema => ⟨schema.toEngineSchema payload.components, Engine.formats options⟩)
      payload.schemas }

/-- A gate that has been loaded serves the operations of the artifact, and has served none yet. -/
theorem load_eq_ok {a : Artifact} {path : String} {gate : Gate}
    (h : load options path a = .ok gate) :
    gate.source = .artifact path a.payload ∧ gate.slots = [] := by
  rw [load] at h
  obtain ⟨_, -, hcompiled⟩ := bind_eq_ok_iff.mp h
  obtain ⟨predicates, -, hgate⟩ := bind_eq_ok_iff.mp hcompiled
  rw [← Except.ok.inj hgate]
  exact ⟨rfl, rfl⟩

/-- **An artifact of schemas that compile can be loaded** with the options it was compiled with. -/
theorem load_sealed (now : Timestamp) (path : String)
    (h : ∀ e ∈ payload.schemas, Compiles options payload.components e.2) :
    load options path (sealed options now payload) = .ok (loadedGate options path payload) := by
  have hpredicates : payload.schemas.mapM (compileEntry options payload.components) =
      .ok (loadedGate options path payload).predicates := by
    refine mapM_eq_ok_iff.mpr (List.forall₂_map_right_iff.mpr (List.forall₂_same.mpr ?_))
    intro e he
    rw [compileEntry, (h e he).eq]
  exact bind_eq_ok_iff.mpr ⟨(), verifyOptions_self options.stamp,
    bind_eq_ok_iff.mpr ⟨_, hpredicates, rfl⟩⟩

/-- **A compiled document can be loaded** with the options it was compiled with. -/
theorem exists_load_of_compile {now : Timestamp} {a : Artifact} (path : String)
    (h : compile options now document = .ok a) : ∃ gate, load options path a = .ok gate := by
  obtain ⟨plans, -, hall, rfl⟩ := payload_of_compile h
  exact ⟨_, load_sealed now path hall⟩

end Artifact

end RequestGate
