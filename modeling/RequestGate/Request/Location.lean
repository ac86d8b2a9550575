/-!
# Where a parameter stands

A parameter is read from one of four places of a request. Each place has a name in declarations, a
field of the request, and a default style.
-/

namespace RequestGate

/-- The place of a parameter. -/
inductive Location where
  | query
  | header
  | path
  | cookie
deriving DecidableEq, Inhabited

namespace Location

/-- The name of the place in a declaration. -/
def name : Location → String
  | .query => "query"
  | .header => "header"
  | .path => "path"
  | .cookie => "cookie"

/-- The place of a name. -/
def ofName? : String → Option Location
  | "query" => some .query
  | "header" => some .header
  | "path" => some .path
  | "cookie" => some .cookie
  | _ => none

/-- The field of a request that holds the place's values. -/
def field : Location → String
  | .query => "query"
  | .header => "headers"
  | .path => "path"
  | .cookie => "cookies"

/-- The style of a parameter that declares none. -/
def defaultStyle : Location → String
  | .query | .cookie => "form"
  | .header | .path => "simple"

@[simp] theorem ofName?_name (location : Location) : ofName? location.name = some location := by
  cases location <;> rfl

end Location

end RequestGate
