import RequestGate.Json.Basic
import RequestGate.Text.Basic

/-!
# The content type of a request

A `Content-Type` header is reduced to what selects a body schema: the media type and the parameter
after it, in lower case and without any `boundary`. So a multipart boundary or the case of a letter
cannot select a different schema.

The key of a request goes by less, by `RequestGate.ContentType.keyClass`, in which the parameter is left
out. Two headers with one key class can still be told apart, since the schema is selected by the whole
content type: one may name the charset of a declaration and the other may not.
-/

namespace RequestGate

/-- A header that was sent, taken apart. -/
structure MediaHeader where
  /-- The header as it was sent, without blanks around it. -/
  raw : String
  /-- The header in lower case, cut before the parameter `boundary`. -/
  withoutBoundary : String
  /-- What stands before the first semicolon. -/
  mediaType : String
  /-- The parameter after the first semicolon, unless it is blank. -/
  charset : Option String
deriving DecidableEq

/-- The content type of a request; a blank header counts as none. -/
inductive ContentType where
  | notProvided
  | provided (header : MediaHeader)
deriving DecidableEq

namespace ContentType

/-- The key class of requests without the header. -/
def notProvidedClass : String := "not_provided"

/-- Cuts a lower-cased header before the first semicolon that a parameter `boundary` follows. -/
def stripBoundary : List Char → List Char
  | [] => []
  | c :: cs =>
    if c = ';' ∧ Text.startsWith "boundary".toList (Text.trimStart cs) then []
    else c :: stripBoundary cs

/-- Takes a header apart whose blanks have been trimmed. -/
def ofTrimmed (raw : List Char) : MediaHeader :=
  let withoutBoundary := Text.trimEnd (stripBoundary (raw.map Char.toLower))
  let segments := Text.splitOn ';' withoutBoundary
  { raw := String.ofList raw
    withoutBoundary := String.ofList withoutBoundary
    mediaType := String.ofList (Text.trim (segments.headD []))
    -- whatever the name of the first parameter is
    charset :=
      match segments with
      | _ :: parameter :: _ =>
        let parameter := Text.trim parameter
        if parameter.isEmpty then none else some (String.ofList parameter)
      | _ => none }

/-- The content type of an optional header. -/
def parse (header : Option String) : ContentType :=
  match header with
  | none => .notProvided
  | some text =>
    let raw := Text.trim text.toList
    if raw.isEmpty then .notProvided else .provided (ofTrimmed raw)

/-- The content type that a key class stands for. -/
def ofKeyClass (keyClass : String) : ContentType :=
  if keyClass = notProvidedClass then .notProvided else parse (some keyClass)

/-- The content type among headers: that of the first header with the name, in any ASCII case, if
its value is a string. -/
def ofHeaders (headers : Entries Json) : ContentType :=
  parse <| (headers.find? fun h => Text.eqIgnoreAsciiCase h.1 "content-type").bind fun h => h.2.str?

/-- The header that was sent, taken apart. -/
def header? : ContentType → Option MediaHeader
  | .notProvided => none
  | .provided header => some header

/-- Whether a header was sent. -/
def isProvided (contentType : ContentType) : Bool :=
  contentType.header?.isSome

/-- The names under which a body schema is looked for, in order. A parameter stands back behind the
bare media type; without one, UTF-8 is assumed last. -/
def equivalents : ContentType → List String
  | .notProvided => []
  | .provided header =>
    match header.charset with
    | some charset => [header.mediaType, header.mediaType ++ "; " ++ charset]
    | none => [header.withoutBoundary, header.mediaType ++ "; charset=utf-8"]

/-- What the key of a request keeps of its content type: the first equivalent name. -/
def keyClass (contentType : ContentType) : String :=
  contentType.equivalents.headD notProvidedClass

/-- The kind of a wildcard `kind/*`, a word of the letters `a` to `z`. -/
def wildcardKind? (mediaType : String) : Option String :=
  match Text.splitFirst? '/' mediaType.toList with
  | some (kind, ['*']) =>
    if !kind.isEmpty && kind.all Char.isLower then some (String.ofList kind) else none
  | _ => none

/-- Whether a text is a wildcard `kind/*`. -/
def isWildcardText (text : String) : Bool :=
  (wildcardKind? text).isSome

/-- Whether the header, as it was sent, is a wildcard. -/
def isWildcard (contentType : ContentType) : Bool :=
  contentType.header?.any fun header => isWildcardText header.raw

end ContentType

end RequestGate
