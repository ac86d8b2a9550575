import RequestGate.Media.ContentType
import RequestGate.Text.Lowercase

/-!
# Operation keys

What is built for an operation is kept under a key: method, route and content class in one text,
all of it in lower case. Requests that agree up to the case of letters share a key.
-/

namespace RequestGate

/-- The key of an operation and a content class. -/
structure OperationKey where
  text : String
deriving DecidableEq, Inhabited

namespace OperationKey

/-- The key of a content class that is already known. -/
def ofClass (method route keyClass : String) : OperationKey :=
  ⟨Text.lowercase (method ++ "-" ++ route ++ "-" ++ keyClass)⟩

/-- The key of a request. -/
def of (method route : String) (contentType : ContentType) : OperationKey :=
  ofClass method route contentType.keyClass

end OperationKey

end RequestGate
