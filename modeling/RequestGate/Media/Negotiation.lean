import RequestGate.Media.ContentType

/-!
# Which declared media type a request is held to

An operation declares bodies under media types. `RequestGate.negotiate` picks one of them for a
content type, in four attempts: an equivalent name, the wildcard of everything, a wildcard of the
type, and last the first that is declared. It only ever fails when nothing is declared.
-/

namespace RequestGate

/-- The first declared media type that is one of the names, up to ASCII case; the names are tried
in order. -/
def matchEquivalent? (declared names : List String) : Option String :=
  names.findSome? fun name => declared.find? fun d => Text.eqIgnoreAsciiCase d name

/-- Whether a declared media type is a wildcard `kind/*` and `mediaType` is `kind/` with something
after it. -/
def coversByKind (declared mediaType : String) : Bool :=
  match ContentType.wildcardKind? (Text.asciiLower declared) with
  | none => false
  | some kind =>
    match Text.dropStart? kind.toList mediaType.toList with
    | some ('/' :: _ :: _) => true
    | _ => false

/-- The declared media type that a body of this content type is held to. -/
def negotiate (declared : List String) (contentType : ContentType) : Option String :=
  (matchEquivalent? declared contentType.equivalents)
    |>.or (declared.find? (· == "*/*"))
    |>.or (contentType.header?.bind fun header =>
      declared.find? fun d => coversByKind d header.mediaType)
    |>.or declared.head?

end RequestGate
