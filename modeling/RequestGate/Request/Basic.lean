import RequestGate.Json.Record
import RequestGate.Request.Location
import RequestGate.Text.Basic

/-!
# Requests, as received and as normalized

A `RequestGate.Request` is what a router hands over once it has matched a route: method, route
template and the raw values. A `RequestGate.NormalizedRequest` has a table for every place of
parameters, with header names in lower case. It is what decoding works on, what the schema sees in
the form of its *instance*, and what an accepted request is answered with.
-/

namespace RequestGate

/-- A request that has been matched to a route. -/
structure Request where
  method : String
  route : String
  query : Option (Entries Json) := none
  headers : Option (Entries Json) := none
  cookies : Option (Entries Json) := none
  path : Option (Entries Json) := none
  body : Option Json := none
deriving DecidableEq

/-- A request whose parameters stand in one table for each place. -/
structure NormalizedRequest where
  method : String := ""
  route : String := ""
  query : Entries Json := []
  headers : Entries Json := []
  path : Entries Json := []
  cookies : Entries Json := []
  body : Option Json := none
deriving DecidableEq

/-- A member of a record that is left out when there is no value. -/
def optionalMember (name : String) (value : Option Json) : Entries Json :=
  match value with
  | some v => [(name, v)]
  | none => []

namespace Request

/-- The request with the values of a place; a value that is no object leaves none. -/
def withTable (r : Request) (location : Location) (value : Json) : Request :=
  match location with
  | .query => { r with query := value.obj? }
  | .header => { r with headers := value.obj? }
  | .path => { r with path := value.obj? }
  | .cookie => { r with cookies := value.obj? }

/-- The request as a record; what is absent is left out. -/
def toJson (r : Request) : Json :=
  .obj <|
    [("method", .str r.method), ("route", .str r.route)] ++
      optionalMember "query" (r.query.map .obj) ++ optionalMember "headers" (r.headers.map .obj) ++
      optionalMember "cookies" (r.cookies.map .obj) ++ optionalMember "path" (r.path.map .obj) ++
      optionalMember "body" r.body

/-- The fields of a request; some answer to the names that gateways use. -/
def fields : List Json.Field :=
  [⟨"method", ["httpMethod"]⟩, .named "route", ⟨"query", ["queryStringParameters"]⟩,
   .named "headers", .named "cookies", ⟨"path", ["pathParameters"]⟩, .named "body"]

/-- Reads a table of values. -/
def readTable? : Json → Option (Entries Json) := fun value => value.collapse.obj?

/-- Reads a request from a raw value. -/
def ofJson? (value : Json) : Option Request := do
  match ← Json.readFields? fields value with
  | [some method, some route, query, headers, cookies, path, body] =>
    some
      { method := ← Json.readStr? method
        route := ← Json.readStr? route
        query := ← Json.optional? readTable? query
        headers := ← Json.optional? readTable? headers
        cookies := ← Json.optional? readTable? cookies
        path := ← Json.optional? readTable? path
        body := ← Json.optional? (fun v => some v.collapse) body }
  | _ => none

end Request

namespace NormalizedRequest

/-- The request with a table for every place. Header names are lower-cased; of several that become
equal the last value counts, at the place of the first. -/
def ofRequest (r : Request) : NormalizedRequest :=
  { method := r.method
    route := r.route
    query := r.query.getD []
    headers := Entries.ofList ((r.headers.getD []).map fun h => (Text.asciiLower h.1, h.2))
    path := r.path.getD []
    cookies := r.cookies.getD []
    body := r.body }

/-- The table of a place. -/
def table (r : NormalizedRequest) : Location → Entries Json
  | .query => r.query
  | .header => r.headers
  | .path => r.path
  | .cookie => r.cookies

/-- The request with another table at a place. -/
def withTable (r : NormalizedRequest) (location : Location) (table : Entries Json) :
    NormalizedRequest :=
  match location with
  | .query => { r with query := table }
  | .header => { r with headers := table }
  | .path => { r with path := table }
  | .cookie => { r with cookies := table }

/-- The value that the request schema is checked on. -/
def toInstance (r : NormalizedRequest) : Json :=
  .obj <|
    [("query", .obj r.query), ("headers", .obj r.headers), ("path", .obj r.path),
     ("cookies", .obj r.cookies)] ++ optionalMember "body" r.body

/-- The request with the tables and the body of an instance; a table that is no object becomes
empty. A value that is no object changes nothing. -/
def replaceFromInstance (r : NormalizedRequest) : Json → NormalizedRequest
  | .obj members =>
    let tableOf (name : String) : Entries Json :=
      ((Entries.get? members name).bind Json.obj?).getD []
    { r with
      query := tableOf "query"
      headers := tableOf "headers"
      path := tableOf "path"
      cookies := tableOf "cookies"
      body := Entries.get? members "body" }
  | _ => r

/-- The request as a record. -/
def toJson (r : NormalizedRequest) : Json :=
  .obj <|
    [("method", .str r.method), ("route", .str r.route), ("query", .obj r.query),
     ("headers", .obj r.headers), ("path", .obj r.path), ("cookies", .obj r.cookies)] ++
      optionalMember "body" r.body

@[simp] theorem table_withTable (r : NormalizedRequest) (location : Location)
    (table : Entries Json) : (r.withTable location table).table location = table := by
  cases location <;> rfl

/-- An instance gives back the tables and the body it was made from. -/
@[simp] theorem replaceFromInstance_toInstance (r s : NormalizedRequest) :
    r.replaceFromInstance s.toInstance =
      { s with method := r.method, route := r.route } := by
  cases h : s.body <;>
    simp [replaceFromInstance, toInstance, optionalMember, h, Entries.get?, Json.obj?]

end NormalizedRequest

end RequestGate
