import RequestGate.Draft7.Content
import RequestGate.Draft7.Equality
import RequestGate.Draft7.Multiple
import RequestGate.Draft7.Reference
import RequestGate.Draft7.Violation
import RequestGate.Format.Basic
import RequestGate.Schema.Coerce

/-!
# Checking an instance against a schema

`RequestGate.Draft7.violations` lists everything in an instance that violates a schema, in a fixed
order: keyword by keyword as the schema has them, and within a keyword in the order of the schema or
of the instance. The list decides how a refusal is worded, item by item.

What one keyword demands is `RequestGate.Draft7.keywordViolations`, which is handed the function
that checks further schemas. The recursion ties the two together. It is bounded by a number of
steps, and `RequestGate.Draft7.stepsFor` is as many as there can be unless references run in a
circle without ever descending into the instance; such references demand nothing.
-/

namespace RequestGate.Draft7

/-- What the engine knows besides the schema: the predicates of formats, and whether it asks
them. -/
structure Formats where
  custom : String → Option (String → Bool)
  asserted : Bool

namespace Formats

/-- The built-in formats alone. -/
def builtin : Formats := ⟨fun _ => none, true⟩

/-- The predicate of a format; one of the program's own hides the built-in one. -/
def predicate? (formats : Formats) (name : String) : Option (String → Bool) :=
  if formats.asserted then (formats.custom name).or (Format.builtin? name) else none

end Formats

/-- Where a check stands: the paths so far, in reverse. -/
structure Place where
  instanceSegments : List String
  schemaSegments : List String

namespace Place

/-- The outermost schema and the whole instance. -/
def root : Place := ⟨[], []⟩

/-- One segment further into the schema. -/
def under (place : Place) (segment : String) : Place :=
  { place with schemaSegments := segment :: place.schemaSegments }

/-- One segment further into the instance. -/
def into (place : Place) (segment : String) : Place :=
  { place with instanceSegments := segment :: place.instanceSegments }

/-- A violation at this place. -/
def violation (place : Place) (detail : Detail) : Violation :=
  ⟨place.instanceSegments.reverse, place.schemaSegments.reverse, detail⟩

/-- One violation at this place, unless the condition holds. -/
def demand (place : Place) (condition : Bool) (detail : Detail := .plain) : List Violation :=
  if condition then [] else [place.violation detail]

end Place

/-- A check of an instance against a schema at a place. -/
abbrev Check := (schema : Json) → Place → (value : Json) → List Violation

/-! ### Keywords of one kind -/

/-- The types that `type` names. -/
def typeNames : Json → List String
  | .str t => [t]
  | .arr types => types.filterMap Json.str?
  | _ => []

/-- A bound on a number. -/
def boundHolds (holds : Ordering → Bool) (bound value : Json) : Bool :=
  match bound, value with
  | .num b, .num n => holds (n.compareValue b)
  | _, _ => true

/-- A bound on a count. -/
def countHolds (holds : Ordering → Bool) (bound : Json) (count : Option Nat) : Bool :=
  match count with
  | some n => boundHolds holds bound (Json.ofInt n)
  | none => true

/-- The number of characters of a string. -/
def textLength? : Json → Option Nat
  | .str s => some s.length
  | _ => none

/-- The number of items of an array. -/
def itemCount? : Json → Option Nat
  | .arr items => some items.length
  | _ => none

/-- The number of members of an object. -/
def memberCount? : Json → Option Nat
  | .obj members => some members.length
  | _ => none

/-- Not below. -/
def notLess : Ordering → Bool
  | .lt => false
  | _ => true

/-- Not above. -/
def notGreater : Ordering → Bool
  | .gt => false
  | _ => true

/-- Whether a string satisfies a format. -/
def formatHolds (formats : Formats) (format value : Json) : Bool :=
  match format, value with
  | .str name, .str s =>
    match formats.predicate? name with
    | some accepts => accepts s
    | none => true
  | _, _ => true

/-- Whether a string matches a pattern. -/
def patternHolds (pattern value : Json) : Bool :=
  match pattern, value with
  | .str p, .str s =>
    match Pattern.parse? p with
    | some p => p.matchesIn s
    | none => true
  | _, _ => true

/-! ### Objects -/

/-- Whether `additionalProperties` takes over the checking of all members. -/
def additionalTakesOver (siblings : Entries Json) : Bool :=
  match Entries.get? siblings "additionalProperties" with
  | some (.bool false) => true
  | some (.obj _) => true
  | _ => false

/-- The patterns of `patternProperties` with their schemas. -/
def patternsOf (siblings : Entries Json) : List (String × Pattern × Json) :=
  match Entries.get? siblings "patternProperties" with
  | some (.obj table) =>
    table.filterMap fun (text, schema) =>
      (Pattern.parse? text).map fun pattern => (text, pattern, schema)
  | _ => []

/-- The missing ones among required names. -/
def requiredViolations (place : Place) (names : Json) (members : Entries Json) : List Violation :=
  match names with
  | .arr names =>
    (names.filterMap Json.str?).flatMap fun name =>
      place.demand (Entries.contains members name) (.missing name)
  | _ => []

/-- The members that have a schema under `properties`, each checked. -/
def propertyViolations (check : Check) (place : Place) (table members : Entries Json) :
    List Violation :=
  table.flatMap fun (name, schema) =>
    match Entries.get? members name with
    | some value => check schema ((place.under name).into name) value
    | none => []

/-- The members that match a pattern, each checked, pattern by pattern. -/
def patternViolations (check : Check) (place : Place) (siblings members : Entries Json) :
    List Violation :=
  (patternsOf siblings).flatMap fun (text, pattern, schema) =>
    members.flatMap fun (name, value) =>
      if pattern.matchesIn name then check schema ((place.under text).into name) value else []

/-- All members one by one: by the schema of the property, by those of the matching patterns, and
where there is neither by the schema of additional ones. -/
def additionalViolations (check : Check) (outer : Place) (siblings : Entries Json)
    (additional : Json) (members : Entries Json) : List Violation :=
  let own := outer.under "additionalProperties"
  let declared := (Entries.get? siblings "properties").bind Json.obj?
  let patterns := patternsOf siblings
  let hasNeither := declared.isNone && !Entries.contains siblings "patternProperties"
  if additional = .bool true then []
  else if additional = .bool false && hasNeither then
    match members with
    | [] => []
    -- one violation, for the first member, stands for all
    | (_, value) :: _ => [own.violation (.falseSchema value)]
  else
    let matching (name : String) := patterns.filter fun p => p.2.1.matchesIn name
    let isKnown (name : String) : Bool :=
      (declared.any fun table => Entries.contains table name) || !(matching name).isEmpty
    let ofMembers := members.flatMap fun (name, value) =>
      let byProperty := match declared.bind fun table => Entries.get? table name with
        | some schema => check schema (((outer.under "properties").under name).into name) value
        | none => []
      let byPatterns := (matching name).flatMap fun (text, _, schema) =>
        check schema (((outer.under "patternProperties").under text).into name) value
      let byAdditional :=
        if isKnown name || additional = .bool false then []
        else check additional (own.into name) value
      byProperty ++ byPatterns ++ byAdditional
    -- undeclared members are reported together
    let unexpected := if additional = .bool false then
        (Entries.keys members).filter fun name => !isKnown name
      else []
    ofMembers ++ own.demand unexpected.isEmpty (.unexpected unexpected)

/-- What the presence of a member demands of the whole object. -/
def dependencyViolations (check : Check) (place : Place) (table : Entries Json)
    (members : Entries Json) : List Violation :=
  table.flatMap fun (name, dependency) =>
    if Entries.contains members name then
      match dependency with
      | .arr _ => requiredViolations place dependency members
      | schema => check schema (place.under name) (.obj members)
    else []

/-- The names of members, each checked as a string. -/
def nameViolations (check : Check) (place : Place) (schema : Json) (members : Entries Json) :
    List Violation :=
  match schema with
  | .bool true => []
  | .bool false => place.demand members.isEmpty (.falseSchema (.obj members))
  | schema => members.flatMap fun (name, _) => check schema place (.str name)

/-! ### Arrays -/

/-- The items from an index on, each checked. -/
def itemViolations (check : Check) (place : Place) (schema : Json) (start : Nat)
    (items : List Json) : List Violation :=
  (items.zipIdx start).flatMap fun (item, i) => check schema (place.into (toString i)) item

/-- The items of an array by `items`, which is one schema for all or a list of one for each. -/
def itemsViolations (check : Check) (place : Place) (schema : Json) (items : List Json) :
    List Violation :=
  match schema with
  | .arr schemas =>
    -- items beyond the list are left to `additionalItems`
    ((items.zip schemas).zipIdx).flatMap fun ((item, schema), i) =>
      check schema ((place.under (toString i)).into (toString i)) item
  | .bool true => []
  | schema => itemViolations check place schema 0 items

/-- The items beyond a list of schemas. -/
def extraItemViolations (check : Check) (place : Place) (siblings : Entries Json) (schema : Json)
    (items : List Json) : List Violation :=
  match Entries.get? siblings "items" with
  | some (.arr schemas) =>
    let extra := items.drop schemas.length
    match schema with
    | .bool false => place.demand extra.isEmpty (.extraItems extra)
    | .obj _ => itemViolations check place schema schemas.length extra
    | _ => []
  | _ => []

/-! ### Compositions -/

/-- Whether an instance violates nothing. -/
def accepts (check : Check) (schema value : Json) : Bool :=
  (check schema Place.root value).isEmpty

/-- The violations of the branch that a condition selects. -/
def conditionalViolations (check : Check) (outer : Place) (siblings : Entries Json)
    (condition value : Json) : List Violation :=
  let branch (keyword : String) : List Violation :=
    match Entries.get? siblings keyword with
    | some schema => check schema (outer.under keyword) value
    | none => []
  if accepts check condition value then branch "then" else branch "else"

/-- Whether exactly one member of a list satisfies a condition. -/
def exactlyOne {α : Type} (p : α → Bool) (items : List α) : Bool :=
  (items.filter p).length == 1

/-- What a string demands by its encoding and its media type. -/
def contentViolations (outer : Place) (siblings : Entries Json) (keyword : String) (text : String) :
    List Violation :=
  let encoding := (Entries.get? siblings "contentEncoding").bind Json.str?
  let mediaType := (Entries.get? siblings "contentMediaType").bind Json.str?
  let encodingFault (name : String) :=
    [(outer.under "contentEncoding").violation (.encoding (.str text) name)]
  match keyword, encoding, mediaType with
  | "contentEncoding", some encoding, none =>
    match decoder? encoding with
    | some decode => if (decode text).isSome then [] else encodingFault encoding
    | none => []
  | "contentMediaType", none, some mediaType =>
    match mediaTypeTest? mediaType with
    | some test =>
      (outer.under "contentMediaType").demand (test text) (.mediaType (.str text) mediaType)
    | none => []
  | "contentMediaType", some encoding, some mediaType =>
    -- where both keywords stand, this one checks the encoding too
    match mediaTypeTest? mediaType, decoder? encoding with
    | some test, some decode =>
      match decode text with
      | none => encodingFault encoding
      | some bytes =>
        let holds := match String.fromUTF8? ⟨bytes.toArray⟩ with
          | some content => test content
          | none => false
        (outer.under "contentMediaType").demand holds (.mediaType (.str text) mediaType)
    | _, _ => []
  | _, _, _ => []

/-! ### All keywords -/

/-- What a keyword demands of an instance, where `check` checks further schemas. -/
def keywordViolations (formats : Formats) (check : Check) (siblings : Entries Json)
    (outer : Place) (instance_ : Json) (keyword : String) (value : Json) : List Violation :=
  let place := outer.under keyword
  match keyword, instance_ with
  | "type", _ => place.demand ((typeNames value).any (Schema.hasType instance_))
  | "enum", _ => place.demand (((value.arr?).getD []).any (equal instance_))
  | "const", _ => place.demand (equal instance_ value)
  | "minimum", _ => place.demand (boundHolds notLess value instance_)
  | "maximum", _ => place.demand (boundHolds notGreater value instance_)
  | "exclusiveMinimum", _ => place.demand (boundHolds (· == .gt) value instance_)
  | "exclusiveMaximum", _ => place.demand (boundHolds (· == .lt) value instance_)
  | "multipleOf", .num n =>
    match value with
    | .num divisor => place.demand (isMultipleOf n divisor)
    | _ => []
  | "minLength", _ => place.demand (countHolds notLess value (textLength? instance_))
  | "maxLength", _ => place.demand (countHolds notGreater value (textLength? instance_))
  | "minItems", _ => place.demand (countHolds notLess value (itemCount? instance_))
  | "maxItems", _ => place.demand (countHolds notGreater value (itemCount? instance_))
  | "minProperties", _ => place.demand (countHolds notLess value (memberCount? instance_))
  | "maxProperties", _ => place.demand (countHolds notGreater value (memberCount? instance_))
  | "pattern", _ => place.demand (patternHolds value instance_)
  | "format", _ => place.demand (formatHolds formats value instance_)
  | "contentEncoding", .str text => contentViolations outer siblings keyword text
  | "contentMediaType", .str text => contentViolations outer siblings keyword text
  | "uniqueItems", .arr items => place.demand (value != .bool true || allDifferent items)
  | "items", .arr items => itemsViolations check place value items
  | "additionalItems", .arr items => extraItemViolations check place siblings value items
  | "contains", .arr items =>
    place.demand (items.any (accepts check value)) (.noneContained instance_)
  | "required", .obj members => requiredViolations place value members
  | "properties", .obj members =>
    -- then `additionalProperties` checks these members as well
    if additionalTakesOver siblings then []
    else propertyViolations check place ((value.obj?).getD []) members
  | "patternProperties", .obj members =>
    if additionalTakesOver siblings then []
    else patternViolations check place siblings members
  | "additionalProperties", .obj members =>
    additionalViolations check outer siblings value members
  | "dependencies", .obj members =>
    dependencyViolations check place ((value.obj?).getD []) members
  | "propertyNames", .obj members => nameViolations check place value members
  | "allOf", _ =>
    (((value.arr?).getD []).zipIdx).flatMap fun (schema, i) =>
      check schema (place.under (toString i)) instance_
  | "anyOf", _ => place.demand (((value.arr?).getD []).any fun s => accepts check s instance_)
  | "oneOf", _ =>
    place.demand (exactlyOne (fun s => accepts check s instance_) ((value.arr?).getD []))
  | "not", _ => place.demand (!accepts check value instance_)
  | "if", _ => conditionalViolations check outer siblings value instance_
  | _, _ => []

/-- Everything in an instance that violates a schema of `root`, within a number of steps. A
reference hides the keywords beside it. -/
def violations (formats : Formats) (root : Json) : (steps : Nat) → Check
  | 0, _, _, _ => []
  | steps + 1, schema, place, value =>
    match schema with
    | .bool true => []
    | .bool false => [place.violation (.falseSchema value)]
    | .obj members =>
      match Entries.get? members "$ref" with
      | some (.str reference) =>
        match resolve? root reference with
        | some target => violations formats root steps target (place.under "$ref") value
        | none => []
      | _ =>
        members.flatMap fun (keyword, v) =>
          keywordViolations formats (violations formats root steps) members place value keyword v
    | _ => []

/-- As many steps as a check can take: at every level of the instance each schema at most once. -/
def stepsFor (root value : Json) : Nat :=
  (value.depth + 2) * (root.size + 1)

/-- Everything in an instance that violates a schema. -/
def allViolations (formats : Formats) (schema value : Json) : List Violation :=
  violations formats schema (stepsFor schema value) schema Place.root value

end RequestGate.Draft7
