import RequestGate.Proofs.Success
import RequestGate.Validator

/-!
# What the stages leave alone

Coercing, filling in defaults and deserializing all work in the same way: they go through the
parameters and rewrite, for each, the table of its place
(`RequestGate.NormalizedRequest.mapTables`). Method and route are out of their reach, and a property
of the query table survives if every query parameter by itself keeps it.
-/

namespace RequestGate

namespace NormalizedRequest

variable {r : NormalizedRequest} {f : Parameter → Entries Json → Entries Json}
  {parameters : List Parameter}

@[simp] theorem method_withTable (r : NormalizedRequest) (location : Location)
    (table : Entries Json) : (r.withTable location table).method = r.method := by
  cases location <;> rfl

@[simp] theorem route_withTable (r : NormalizedRequest) (location : Location)
    (table : Entries Json) : (r.withTable location table).route = r.route := by
  cases location <;> rfl

@[simp] theorem body_withTable (r : NormalizedRequest) (location : Location)
    (table : Entries Json) : (r.withTable location table).body = r.body := by
  cases location <;> rfl

@[simp] theorem withTable_table (r : NormalizedRequest) (location : Location) :
    r.withTable location (r.table location) = r := by
  cases location <;> rfl

theorem table_withTable_of_ne (r : NormalizedRequest) {location other : Location}
    (table : Entries Json) (h : location ≠ other) :
    (r.withTable location table).table other = r.table other := by
  cases location <;> cases other <;> first | rfl | exact absurd rfl h

theorem query_withTable_of_ne (r : NormalizedRequest) {location : Location} (table : Entries Json)
    (h : location ≠ .query) : (r.withTable location table).query = r.query :=
  table_withTable_of_ne r table h

@[simp] theorem table_mapBody (r : NormalizedRequest) (f : Json → Json) (location : Location) :
    (r.mapBody f).table location = r.table location := by
  cases location <;> rfl

/-- The request with the table of every parameter's place rewritten, one parameter after the
other. -/
def mapTables (f : Parameter → Entries Json → Entries Json) (parameters : List Parameter)
    (r : NormalizedRequest) : NormalizedRequest :=
  parameters.foldl (fun r p => r.withTable p.location (f p (r.table p.location))) r

theorem mapTables_cons (f : Parameter → Entries Json → Entries Json) (p : Parameter)
    (parameters : List Parameter) (r : NormalizedRequest) :
    mapTables f (p :: parameters) r =
      mapTables f parameters (r.withTable p.location (f p (r.table p.location))) := rfl

theorem coerceParameters_eq (root : Json) (parameters : List Parameter) (r : NormalizedRequest) :
    r.coerceParameters root parameters =
      mapTables (fun p table => Entries.modify table p.name (Schema.coerce root p.schema))
        parameters r := rfl

theorem applyDefaults_eq (root : Json) (parameters : List Parameter) (body : Json)
    (r : NormalizedRequest) :
    r.applyDefaults root parameters body =
      (mapTables (fun p table =>
        Schema.fillProperty root (Schema.fillDefaults root) table (p.name, p.schema))
        parameters r).mapBody (Schema.fillDefaults root body) := rfl

theorem applyDeserializers_eq (options : Options) (root : Json) (parameters : List Parameter)
    (body : Json) (r : NormalizedRequest) :
    r.applyDeserializers options root parameters body =
      (mapTables (fun p table =>
        Entries.modify table p.name (Schema.deserialize options root p.schema))
        parameters r).mapBody (Schema.deserialize options root body) := rfl

@[simp] theorem method_mapTables (f : Parameter → Entries Json → Entries Json)
    (parameters : List Parameter) (r : NormalizedRequest) :
    (mapTables f parameters r).method = r.method := by
  induction parameters generalizing r with
  | nil => rfl
  | cons p parameters ih => rw [mapTables_cons, ih, method_withTable]

@[simp] theorem route_mapTables (f : Parameter → Entries Json → Entries Json)
    (parameters : List Parameter) (r : NormalizedRequest) :
    (mapTables f parameters r).route = r.route := by
  induction parameters generalizing r with
  | nil => rfl
  | cons p parameters ih => rw [mapTables_cons, ih, route_withTable]

@[simp] theorem body_mapTables (f : Parameter → Entries Json → Entries Json)
    (parameters : List Parameter) (r : NormalizedRequest) :
    (mapTables f parameters r).body = r.body := by
  induction parameters generalizing r with
  | nil => rfl
  | cons p parameters ih => rw [mapTables_cons, ih, body_withTable]

/-- What is filled into a body is what its schema declares. -/
theorem body_applyDefaults (root : Json) (parameters : List Parameter) (schema : Json)
    (r : NormalizedRequest) :
    (r.applyDefaults root parameters schema).body =
      r.body.map (Schema.fillDefaults root schema) := by
  rw [applyDefaults_eq, mapBody, body_mapTables]

/-- Rewriting every table to itself changes nothing. -/
theorem mapTables_of_id (h : ∀ p ∈ parameters, ∀ table, f p table = table) (r : NormalizedRequest) :
    mapTables f parameters r = r := by
  induction parameters generalizing r with
  | nil => rfl
  | cons p parameters ih =>
    rw [mapTables_cons, h p (by simp), withTable_table]
    exact ih (fun p hp => h p (List.mem_cons_of_mem _ hp)) r

/-- Tables are rewritten alike if every parameter's is. -/
theorem mapTables_congr {g : Parameter → Entries Json → Entries Json}
    (h : ∀ p ∈ parameters, ∀ table, f p table = g p table) (r : NormalizedRequest) :
    mapTables f parameters r = mapTables g parameters r := by
  induction parameters generalizing r with
  | nil => rw [mapTables, mapTables, List.foldl_nil, List.foldl_nil]
  | cons p parameters ih =>
    rw [mapTables_cons, mapTables_cons, h p (by simp)]
    exact ih (fun q hq => h q (List.mem_cons_of_mem p hq)) _

theorem mapBody_congr {g h : Json → Json} (hgh : ∀ b ∈ r.body, g b = h b) : r.mapBody g = r.mapBody h := by
  rw [mapBody, mapBody]
  cases hbody : r.body with
  | none => rfl
  | some b => rw [Option.map_some, Option.map_some, hgh b hbody]

/-- **An invariant of the query table** is kept if every query parameter keeps it. -/
theorem mapTables_query {P : Entries Json → Prop}
    (hstep : ∀ p ∈ parameters, p.location = .query → ∀ table, P table → P (f p table)) :
    ∀ {r : NormalizedRequest}, P r.query → P (mapTables f parameters r).query := by
  induction parameters with
  | nil => exact fun h => h
  | cons p parameters ih =>
    intro r hr
    rw [mapTables_cons]
    refine ih (fun p hp => hstep p (List.mem_cons_of_mem _ hp)) ?_
    by_cases hl : p.location = .query
    · rw [hl]
      exact hstep p (by simp) hl r.query hr
    · rw [query_withTable_of_ne _ _ hl]
      exact hr

end NormalizedRequest

namespace Style

variable {root : Json} {route : String} {p : Parameter} {parameters : List Parameter}
  {r next decoded : NormalizedRequest} {request : Request}

/-- Decoding a parameter replaces the table of its place. -/
theorem decodeParameter_eq_ok_iff :
    decodeParameter root route p r = .ok next ↔
      ∃ table, decodeEntry root p (r.table p.location) = .ok table ∧
        next = r.withTable p.location table := by
  rw [decodeParameter]
  cases decodeEntry root p (r.table p.location) with
  | ok table => simp [eq_comm]
  | error fault => simp

theorem method_decode (h : decode root route parameters request = .ok decoded) :
    decoded.method = request.method := by
  refine foldlM_induction (P := fun _ r => NormalizedRequest.method r = request.method)
    (fun done p r next hr hstep => ?_) rfl h
  obtain ⟨table, -, rfl⟩ := decodeParameter_eq_ok_iff.mp hstep
  rwa [NormalizedRequest.method_withTable]

theorem route_decode (h : decode root route parameters request = .ok decoded) :
    decoded.route = request.route := by
  refine foldlM_induction (P := fun _ r => NormalizedRequest.route r = request.route)
    (fun done p r next hr hstep => ?_) rfl h
  obtain ⟨table, -, rfl⟩ := decodeParameter_eq_ok_iff.mp hstep
  rwa [NormalizedRequest.route_withTable]

/-- Decoding leaves the body alone. -/
theorem body_decode (h : decode root route parameters request = .ok decoded) :
    decoded.body = request.body := by
  refine foldlM_induction (P := fun _ r => NormalizedRequest.body r = request.body)
    (fun done p r next hr hstep => ?_) rfl h
  obtain ⟨table, -, rfl⟩ := decodeParameter_eq_ok_iff.mp hstep
  rwa [NormalizedRequest.body_withTable]

end Style

/-- **Preparing a request keeps its method.** -/
theorem Validator.method_prepare {validator : Validator} {request : Request}
    {prepared : NormalizedRequest} (h : validator.prepare request = .ok prepared) :
    prepared.method = request.method := by
  obtain ⟨decoded, hdecoded, h⟩ := bind_eq_ok_iff.mp h
  obtain rfl := Except.ok.inj h
  rw [NormalizedRequest.applyDefaults_eq, NormalizedRequest.coerceParameters_eq]
  change (NormalizedRequest.mapTables _ _ _).method = _
  rw [NormalizedRequest.method_mapTables, NormalizedRequest.method_mapTables,
    Style.method_decode hdecoded]

end RequestGate
