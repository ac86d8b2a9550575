import RequestGate.Draft7.Compile
import RequestGate.Error

/-!
# The wording of violations

A caller of the gate sees schema errors as rejection items: a dotted path such as
`.query.tags[0]`, a sentence that is fixed for every keyword, and a code. The sentence is made from
the keyword and its value alone. Only keywords without a sentence of their own fall back on the
words of the engine.
-/

namespace RequestGate

/-- A pointer as a dotted path; indices stand in brackets. -/
def dottedPath (pointer : String) : String :=
  String.join <| (Pointer.segments pointer).map fun segment =>
    if !segment.isEmpty && Text.allDigits segment.toList then "[" ++ segment ++ "]"
    else "." ++ segment

namespace SchemaError

/-- A value within a sentence: strings stand there without quotes. -/
def inSentence : Json → String
  | .str s => s
  | value => value.compact

/-- The types that `type` asks for; `null` is only mentioned if there is nothing else. -/
def typeList (value : Option Json) : String :=
  let types := match value with
    | some v => Draft7.typeNames v
    | none => []
  let others := types.filter (· != "null")
  -- `null` is mentioned only if there is no other type
  String.intercalate "," (if others.isEmpty then types else others)

/-- What a keyword demands, in words. -/
def sentence (e : SchemaError) : String :=
  let n := (e.keywordValue.map inSentence).getD ""
  match e.keyword with
  | "type" => "must be " ++ typeList e.keywordValue
  | "enum" =>
    "must be equal to one of the allowed values: " ++
      String.intercalate ", " (((e.keywordValue.bind Json.arr?).getD []).map inSentence)
  | "minLength" => "must NOT have fewer than " ++ n ++ " characters"
  | "maxLength" => "must NOT have more than " ++ n ++ " characters"
  | "pattern" => "must match pattern \"" ++ n ++ "\""
  | "format" => "must match format \"" ++ n ++ "\""
  | "minimum" => "must be >= " ++ n
  | "maximum" => "must be <= " ++ n
  | "exclusiveMinimum" => "must be > " ++ n
  | "exclusiveMaximum" => "must be < " ++ n
  | "minItems" => "must NOT have fewer than " ++ n ++ " items"
  | "maxItems" => "must NOT have more than " ++ n ++ " items"
  | "uniqueItems" => "must NOT have duplicate items"
  | "minProperties" => "must NOT have fewer than " ++ n ++ " properties"
  | "maxProperties" => "must NOT have more than " ++ n ++ " properties"
  | "multipleOf" => "must be multiple of " ++ n
  | "oneOf" => "must match exactly one schema in oneOf"
  | "anyOf" => "must match a schema in anyOf"
  | "not" => "must NOT be valid"
  | "const" => "must be equal to constant"
  | "additionalProperties" => "must NOT have additional properties"
  | "required" => "must have required property"
  | _ => e.message

/-- The code of an error. -/
def code (e : SchemaError) : String := e.keyword ++ ".openapi.validation"

/-- A line of the summary with the item it belongs to. -/
def line (e : SchemaError) (itemPath message full : String) : String × RejectionItem :=
  ("request" ++ dottedPath e.instancePath ++ " " ++ message,
    ⟨itemPath, message, some full, some e.code⟩)

/-- The lines of an error that is worded by its keyword. -/
def plainLine (e : SchemaError) : String × RejectionItem :=
  let path := dottedPath e.instancePath
  e.line path e.sentence ("request" ++ path ++ " " ++ e.sentence)

/-- The lines of an error: one for each undeclared member, and otherwise one. -/
def lines (e : SchemaError) : List (String × RejectionItem) :=
  let path := dottedPath e.instancePath
  match e.keyword, e.missingProperty, e.unexpectedProperties with
  | "required", some name, _ =>
    let place := path ++ "." ++ name
    [e.line place ("must have required property '" ++ name ++ "'")
      ("missing required property request" ++ place)]
  | "additionalProperties", _, name :: names =>
    (name :: names).map fun name =>
      e.line (path ++ "." ++ name) "must NOT have additional properties"
        ("request" ++ path ++ " must NOT have additional property: '" ++ name ++ "'")
  | _, _, _ => [e.plainLine]

end SchemaError

/-- The rejection of a request with these errors. -/
def Rejection.ofErrors (route : String) (errors : List SchemaError) : Rejection :=
  let lines := errors.flatMap SchemaError.lines
  Rejection.ofParts route (lines.map Prod.fst) (lines.map Prod.snd)

end RequestGate
