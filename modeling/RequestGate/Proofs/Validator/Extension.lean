import RequestGate.Proofs.Parameter.Places
import RequestGate.Proofs.Schema.Extension

/-!
# Defaults only add

A table of parameters is an object whose properties are declared by the parameters of its place. So what
filling does to a value it does to a request as a whole: each table and the body are extended, by the
defaults of the parameters and of the properties below them
(`RequestGate.NormalizedRequest.extends_applyDefaults`). Nothing that a client has sent is changed.
-/

namespace RequestGate

open Entries

namespace Parameter

variable {parameters : List Parameter} {location : Location}

/-- What the parameters of a place declare, as the properties of an object. -/
def declaredAt (location : Location) (parameters : List Parameter) : Entries Json :=
  (Style.atPlace location parameters).map fun p => (p.name, p.schema)

/-- The default that parameters declare for a path into the table of a place. -/
def defaultAt? (root : Json) (parameters : List Parameter) (location : Location) :
    List Json.Step → Option Json
  | .member name :: path =>
    (get? (declaredAt location parameters) name).bind fun schema => Schema.defaultAt? root schema path
  | _ => none

/-- A place declares no name twice if no two parameters share it. -/
theorem distinct_declaredAt
    (honce : parameters.Pairwise fun p q => p.location = q.location → p.name ≠ q.name)
    (location : Location) : Distinct (declaredAt location parameters) := by
  rw [Distinct, keys, declaredAt, List.map_map, List.nodup_iff_pairwise_ne, List.pairwise_map]
  refine (honce.filter _).imp_of_mem fun hp hq hname => ?_
  exact hname ((Style.mem_atPlace.mp hp).2.trans (Style.mem_atPlace.mp hq).2.symm)

theorem mem_declaredAt {e : String × Json} :
    e ∈ declaredAt location parameters ↔
      ∃ p ∈ parameters, p.location = location ∧ (p.name, p.schema) = e := by
  simp [declaredAt, Style.atPlace, and_assoc]

/-- What is asked of the declarations in all places is asked of all parameters. -/
theorem forall_declaredAt {Q : Location → String × Json → Prop} :
    (∀ location, ∀ e ∈ declaredAt location parameters, Q location e) ↔
      ∀ p ∈ parameters, Q p.location (p.name, p.schema) := by
  constructor
  · exact fun h p hp => h p.location _ (mem_declaredAt.mpr ⟨p, hp, rfl, rfl⟩)
  · rintro h location e he
    obtain ⟨p, hp, rfl, rfl⟩ := mem_declaredAt.mp he
    exact h p hp

end Parameter

namespace NormalizedRequest

variable {root body : Json} {parameters : List Parameter} {r : NormalizedRequest}

/-- What defaults make of a table is what filling makes of an object. -/
theorem table_applyDefaults (root : Json) (parameters : List Parameter) (body : Json)
    (r : NormalizedRequest) (location : Location) :
    (r.applyDefaults root parameters body).table location =
      (Parameter.declaredAt location parameters).foldl
        (Schema.fillProperty root (Schema.fillDefaults root)) (r.table location) := by
  rw [applyDefaults_eq, table_mapBody, table_mapTables, Parameter.declaredAt, List.foldl_map]

/-- Whether a request has all that another one has, in the same places, and beyond that only defaults
that its parameters and the schema of its body declare. -/
structure Extends (root : Json) (parameters : List Parameter) (body : Json)
    (before after : NormalizedRequest) : Prop where
  method : after.method = before.method
  route : after.route = before.route
  tables : ∀ location, (Json.obj (before.table location)).Extends
    (Parameter.defaultAt? root parameters location) (.obj (after.table location))
  body : Option.Rel (Json.Extends (Schema.defaultAt? root body)) before.body after.body

/-- **Defaults only add** to a request. -/
theorem extends_applyDefaults (root body : Json) (r : NormalizedRequest)
    (honce : parameters.Pairwise fun p q => p.location = q.location → p.name ≠ q.name) :
    Extends root parameters body r (r.applyDefaults root parameters body) where
  method := by rw [applyDefaults_eq, mapBody, method_mapTables]
  route := by rw [applyDefaults_eq, mapBody, route_mapTables]
  tables location := by
    rw [table_applyDefaults]
    exact Schema.extends_fillProperties (Parameter.distinct_declaredAt honce location)
      (fun _ _ => rfl) (Schema.extends_fillWithin root Schema.levels) (r.table location)
  body := by
    rw [body_applyDefaults]
    cases r.body with
    | none => exact .none
    | some b => exact .some (Schema.extends_fillWithin root Schema.levels body b)

/-- A parameter that is twenty if nothing else is said. -/
def pageSize : Parameter where
  name := "size"
  location := .query
  required := false
  style := "form"
  explode := true
  allowEmptyValue := false
  schema := .obj [("type", .str "integer"), ("default", .num (.int 20))]
  contentMediaType := none

/-- A list of orders, each of which has an amount that is one if nothing else is said. -/
def ordersSchema : Json :=
  .obj [("type", .str "array"), ("items", .obj [("type", .str "object"),
    ("properties", .obj [("amount", .obj [("type", .str "integer"), ("default", .num (.int 1))])])])]

/-- A page has its size, in either place where it may be given, and an order has its amount. -/
theorem extends_applyDefaults_orders :
    let sizes := [pageSize, { pageSize with location := .header }]
    let r : NormalizedRequest :=
      { method := "POST", route := "/orders",
        query := [("page", .str "2")], body := some (.arr [.obj [("item", .str "tea")]]) }
    let after : NormalizedRequest :=
      { r with
        query := [("page", .str "2"), ("size", .num (.int 20))],
        headers := [("size", .num (.int 20))],
        body := some (.arr [.obj [("item", .str "tea"), ("amount", .num (.int 1))]]) }
    r.applyDefaults (.obj []) sizes ordersSchema = after ∧
      Extends (.obj []) sizes ordersSchema r after := by
  intro sizes r after
  have h : r.applyDefaults (.obj []) sizes ordersSchema = after := by decide
  exact ⟨h, h ▸ extends_applyDefaults (.obj []) ordersSchema r (by decide)⟩

end NormalizedRequest

end RequestGate
