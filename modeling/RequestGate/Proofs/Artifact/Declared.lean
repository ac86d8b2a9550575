import RequestGate.Proofs.Artifact.Agreement

/-!
# What is declared, live and loaded

A request whose operation is not declared passes unjudged, so a gate had better know which operations
there are. A live gate asks the document: it looks the route up among the paths, and then the method,
in any case, among the members of the path item. A loaded gate searches the list of records that
compiling made from all operations, in which nothing is left of path items that are no objects or of
members that are no operations.

The two find the same (`RequestGate.Artifact.declares_alike`). A record is there exactly if the
operation is, whatever method and route are asked for, and it has the method, route, media types and
parameters of the plan that a live gate assembles. So a gate that has a decision to make, because
the slot of a request is empty, lets the request through in the one way of using the document exactly
if it does in the other.
-/

namespace RequestGate

/-- A record says of an operation what its plan says. -/
def OperationRecord.Records (options : Options) (document : Document) (operation : Operation)
    (record : OperationRecord) : Prop :=
  ∃ plan, Plan.assemble document options.settings.allowUnknownQueryParameters operation = .ok plan ∧
    record.method = plan.method.name ∧ record.route = plan.route ∧
    record.mediaTypes = plan.mediaTypes ∧ record.parameters = plan.parameters

namespace Gate

/-- A gate has nothing to judge a request by, and answers with the request itself. -/
def LetsThrough (gate : Gate) (r : Request) : Prop :=
  ∃ next, gate.validatorFor r.method r.route r.contentType = .ok (none, next)

variable {gate : Gate} {r : Request}

/-- What is let through is answered as it was normalized. -/
theorem LetsThrough.validate_fst (h : gate.LetsThrough r) :
    (gate.validate r).1 = .ok (.ofRequest r) := by
  obtain ⟨next, hnext⟩ := h
  rw [validate_of_validatorUnder (validatorFor_eq_ok_iff.mp hnext)]
  rfl

/-- **With an empty slot it is the source that decides**, whatever else has been compiled. -/
theorem letsThrough_iff_of_empty (h : gate.entryAt r.key.text = none) :
    gate.LetsThrough r ↔ gate.blueprintOf r = .ok none := by
  simp only [LetsThrough, validatorFor_eq_ok_iff, validatorUnder_of_empty h]
  constructor
  · rintro ⟨next, hfill⟩
    rcases fillSlot_eq_ok_iff.mp hfill with ⟨hb, -, -⟩ | ⟨_, _, -, -, hslot, -⟩
    · exact hb
    · cases hslot
  · exact fun hb => ⟨_, fillSlot_eq_ok_iff.mpr (Or.inl ⟨hb, rfl, rfl⟩)⟩

/-- A live gate has a blueprint, or a fault, for what is declared. -/
theorem blueprintOf_eq_none_iff_of_document {document : Document}
    (h : gate.source = .document document) :
    gate.blueprintOf r = .ok none ↔ document.operation? r.method r.route = none := by
  cases hop : document.operation? r.method r.route with
  | none => simp only [blueprintOf, blueprint, h, hop]
  | some operation => simp [blueprintOf, blueprint, h, hop, map_eq_ok_iff]

/-- And so has a loaded one for what is recorded. -/
theorem blueprintOf_eq_none_iff_of_artifact {path : String} {payload : Payload}
    (h : gate.source = .artifact path payload) :
    gate.blueprintOf r = .ok none ↔ payload.operation? r.method r.route = none := by
  cases hop : payload.operation? r.method r.route with
  | none => simp only [blueprintOf, blueprint, h, hop]
  | some record => simp [blueprintOf, blueprint, h, hop, map_eq_ok_iff]

end Gate

namespace Artifact

variable {options : Options} {document : Document} {now : Timestamp} {a : Artifact}

/-- **What is declared is what is recorded**, for every method and every route. -/
theorem operation?_rel (hd : document.DistinctPaths) (ha : compile options now document = .ok a)
    (method route : String) :
    Option.Rel (OperationRecord.Records options document) (document.operation? method route)
      (a.payload.operation? method route) := by
  obtain ⟨plans, hplans, -, rfl⟩ := payload_of_compile ha
  let r : Request := { method, route }
  have hrecord : (payloadOf document.components plans).operation? method route =
      (planFor? plans r).map (recordOf document.components) :=
    operation?_payloadOf document.components plans method route
  change Option.Rel _ _ ((payloadOf document.components plans).operation? method route)
  rw [hrecord]
  rcases planFor?_cases hd hplans r with ⟨hop, hplan⟩ | ⟨operation, plan, hop, hplan, hassemble⟩
  · rw [show document.operation? method route = none from hop, hplan]
    exact .none
  · rw [show document.operation? method route = some operation from hop, hplan]
    exact .some ⟨plan, hassemble, rfl, rfl, rfl, rfl⟩

/-- **Both ways of using a document know the same operations.** If a document can be compiled, then
for every method and route the artifact has a record exactly if the document has the operation, and
the record has the method, route, media types and parameters of the operation's plan. Therefore a
gate that is loaded from the artifact lets the same requests through as a live one: those to an
operation that is not declared. This holds of fresh gates, and of any two gates with these sources
that have not filled the slot of the request. -/
theorem declares_alike {root : Json} (hroot : root.WellFormed)
    (hdocument : Document.ofJson root = .ok document) (ha : compile options now document = .ok a) :
    (∀ method route, Option.Rel (OperationRecord.Records options document)
      (document.operation? method route) (a.payload.operation? method route)) ∧
    (∀ current path loaded, load current path a = .ok loaded → ∀ r,
      loaded.LetsThrough r ↔ (Gate.ofDocument options document).LetsThrough r) ∧
    ∀ path (live loaded : Gate), live.source = .document document →
      loaded.source = .artifact path a.payload → ∀ r,
      live.entryAt r.key.text = none → loaded.entryAt r.key.text = none →
      (live.LetsThrough r ↔ document.operation? r.method r.route = none) ∧
        (loaded.LetsThrough r ↔ live.LetsThrough r) := by
  have hrel := operation?_rel (Document.distinctPaths_of_ofJson hroot hdocument) ha
  have hnone : ∀ method route, a.payload.operation? method route = none ↔
      document.operation? method route = none := by
    intro method route
    have h := hrel method route
    generalize document.operation? method route = declared at h ⊢
    generalize a.payload.operation? method route = recorded at h ⊢
    cases h <;> simp
  have hgates : ∀ path (live loaded : Gate), live.source = .document document →
      loaded.source = .artifact path a.payload → ∀ r,
      live.entryAt r.key.text = none → loaded.entryAt r.key.text = none →
      (live.LetsThrough r ↔ document.operation? r.method r.route = none) ∧
        (loaded.LetsThrough r ↔ live.LetsThrough r) := by
    intro path live loaded hlive hloaded r hliveSlot hloadedSlot
    rw [Gate.letsThrough_iff_of_empty hliveSlot, Gate.letsThrough_iff_of_empty hloadedSlot,
      Gate.blueprintOf_eq_none_iff_of_document hlive,
      Gate.blueprintOf_eq_none_iff_of_artifact hloaded, hnone]
    exact ⟨Iff.rfl, Iff.rfl⟩
  refine ⟨hrel, fun current path loaded hload r => ?_, hgates⟩
  obtain ⟨hsource, hslots⟩ := load_eq_ok hload
  exact (hgates path (Gate.ofDocument options document) loaded rfl hsource r rfl
    (by rw [Gate.entryAt, Gate.slotAt, hslots]; rfl)).2

/-! A path item has members that are no operations: texts, methods in capital letters and operations
that are crossed out. -/

/-- The one operation of a path item. -/
def shelfOperation : Operation :=
  let declaration : Json := .obj [("parameters", .arr [.obj [("name", .str "X-Page"),
    ("in", .str "header"), ("schema", .obj [("type", .str "integer")])]])]
  { method := .get, route := "/books", declaration
    pathItem := .obj [("summary", .str "All books"), ("GET", .obj []), ("get", declaration),
      ("post", .null)] }

/-- A document with the path item, and a path without one. -/
def shelfRoot : Json :=
  .obj [("openapi", .str "3.0.0"),
    ("paths", .obj [("/books", shelfOperation.pathItem), ("/none", .null)])]

/-- The plan of the operation. -/
def shelfPlan : Plan :=
  let page : Parameter :=
    { name := "x-page", location := .header, required := false, style := "simple",
      explode := false, allowEmptyValue := false, schema := .obj [("type", .str "integer")],
      contentMediaType := none }
  { method := .get, route := "/books", parameters := [page]
    schemas :=
      { headers := { LocationSchema.empty .header with properties := [("x-page", page.schema)] } }
    requestBody := none }

/-- The one operation is recorded with its parameter, and nothing else is. -/
theorem declares_alike_shelf :
    ∃ a loaded record, compile {} ⟨0, 0⟩ ⟨shelfRoot⟩ = .ok a ∧
      load {} "api.oav.json" a = .ok loaded ∧
      a.payload.operation? "Get" "/books" = some record ∧ record.parameters = shelfPlan.parameters ∧
      a.payload.operation? "post" "/books" = none ∧
      loaded.LetsThrough { method := "POST", route := "/books" } := by
  have hroot : shelfRoot.WellFormed := by
    simp [shelfRoot, shelfOperation, Json.WellFormed, Json.WellFormedMembers, Json.WellFormedList,
      Entries.Distinct]
  have hdocument : Document.ofJson shelfRoot = .ok ⟨shelfRoot⟩ := by decide
  -- one plan, although four more members stand in the paths and the path item
  have hplans : Document.plans {} ⟨shelfRoot⟩ = .ok [shelfPlan] := by decide
  have hfault : ∀ plan ∈ [shelfPlan], ∀ f ∈ plan.foreseen (Document.components ⟨shelfRoot⟩),
      Draft7.compileFault? (Engine.formats {})
        (f.schema.toEngineSchema (Document.components ⟨shelfRoot⟩)) = none := by
    decide
  obtain ⟨a, ha⟩ := exists_compile ⟨0, 0⟩ hplans hfault
  obtain ⟨loaded, hloaded⟩ := exists_load_of_compile "api.oav.json" ha
  obtain ⟨hrel, hthrough, -⟩ := declares_alike hroot hdocument ha
  have hget := hrel "Get" "/books"
  have hpost := hrel "post" "/books"
  rw [show Document.operation? ⟨shelfRoot⟩ "Get" "/books" = some shelfOperation by
    decide] at hget
  rw [show Document.operation? ⟨shelfRoot⟩ "post" "/books" = none by decide] at hpost
  generalize hrecord : a.payload.operation? "Get" "/books" = recorded at hget
  generalize hnone : a.payload.operation? "post" "/books" = missing at hpost
  cases hpost
  cases hget with
  | @some _ record hrecords =>
    obtain ⟨plan, hplan, -, -, -, hparameters⟩ := hrecords
    have hshelf : Plan.assemble ⟨shelfRoot⟩ false shelfOperation = .ok shelfPlan := by
      decide
    obtain rfl : shelfPlan = plan := Except.ok.inj (hshelf.symm.trans hplan)
    have hlive : (Gate.ofDocument {} ⟨shelfRoot⟩).LetsThrough
        { method := "POST", route := "/books" } :=
      ⟨_, rfl⟩
    exact ⟨a, loaded, record, ha, hloaded, hrecord, hparameters, hnone,
      (hthrough {} "api.oav.json" loaded hloaded _).mpr hlive⟩

end Artifact

end RequestGate
