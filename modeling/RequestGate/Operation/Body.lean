import RequestGate.Media.Negotiation
import RequestGate.Operation.RequestSchema
import RequestGate.Schema.Normalize
import RequestGate.Schema.Shape

/-!
# The schema of an operation's body

A `requestBody` declares a schema for each of several media types. The content type of a request
selects one of them; a binary body is not looked into, and a body whose schema requires members is
required itself.
-/

namespace RequestGate.BodySchema

/-- The media types that a body is declared for, in order. -/
def declaredMediaTypes (requestBody : Option Json) : List String :=
  match requestBody.bind fun b => b.getObj? "content" with
  | some content => Entries.keys content
  | none => []

/-- The schema declared for a media type, in its Draft 7 form. -/
def declaredSchema (requestBody : Option Json) (mediaType : String) : Json :=
  let schema := do
    let content ← (← requestBody).get? "content"
    (← content.get? mediaType).get? "schema"
  match schema with
  | some schema => Schema.normalize schema
  | none => .obj []

/-- The body of a schema: binary bodies are unconstrained. -/
def place (root schema : Json) (bodyRequired : Bool) : BodySchema :=
  let target := (Schema.resolve root schema).getD schema
  if target.getStr? "format" = some "binary" then .unconstrained
  else ⟨schema, bodyRequired || (target.getArr? "required").isSome⟩

/-- The schema of a body of this content type, and the media type that it was selected under. -/
def select (root : Json) (requestBody : Option Json) (contentType : ContentType) :
    BodySchema × Option String :=
  match negotiate (declaredMediaTypes requestBody) contentType with
  | none => (.unconstrained, none)
  | some mediaType =>
    let bodyRequired := ((requestBody.bind fun b => b.getBool? "required")).getD false
    (place root (declaredSchema requestBody mediaType) bodyRequired, some mediaType)

end RequestGate.BodySchema
