import RequestGate.Document.Basic
import RequestGate.Operation.Body
import RequestGate.Parameter.Assembly

/-!
# The plan of an operation

What an operation demands depends on the content type of a request in its body alone. A
`RequestGate.Plan` is the part that does not: the parameters with their schemas, and the declared
body. `RequestGate.Plan.schemaFor` completes it for a content type. Both ways of using a document,
at once or by way of an artifact, go through plans, so they cannot differ.
-/

namespace RequestGate

/-- An operation up to the content type. -/
structure Plan where
  method : Method
  route : String
  parameters : List Parameter
  schemas : ParameterSchemas
  /-- The declared body, its references followed. -/
  requestBody : Option Json
deriving DecidableEq

namespace Plan

/-- The plan of an operation. -/
def assemble (document : Document) (allowUnknownQuery : Bool) (operation : Operation) :
    Except GateError Plan := do
  let declarations ← document.parameters operation
  let parameters ← declarations.mapM (Parameter.ofDeclaration operation.route)
  let root := Document.schemaRoot document.components
  let schemas ← Parameter.assemble root allowUnknownQuery operation.route parameters
  let requestBody ← document.requestBody operation
  return { method := operation.method, route := operation.route, parameters, schemas, requestBody }

/-- The media types that the body is declared for. -/
def mediaTypes (plan : Plan) : List String :=
  BodySchema.declaredMediaTypes plan.requestBody

/-- The schema of requests of a content type, and the media type that is selected for their body. -/
def schemaFor (plan : Plan) (components : Json) (contentType : ContentType) :
    RequestSchema × Option String :=
  let (body, selected) :=
    BodySchema.select (Document.schemaRoot components) plan.requestBody contentType
  (⟨plan.schemas, body⟩, selected)

/-- The content classes that can be foreseen: those of the declared media types, and that of a
request without the header. -/
def contentClasses (plan : Plan) : List String :=
  (plan.mediaTypes.map (fun m => (ContentType.parse (some m)).keyClass) ++
    [ContentType.notProvidedClass]).eraseDups

end Plan

end RequestGate
