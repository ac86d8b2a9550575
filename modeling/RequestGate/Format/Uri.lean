import RequestGate.Format.Host

/-!
# Resource identifiers

The formats `uri`, `uri-reference`, `iri`, `iri-reference` and `uri-template`. An identifier is cut
into scheme, authority, path, query and fragment, and each part may hold certain characters and
percent escapes. Internationalised identifiers allow most characters beyond ASCII besides.
-/

namespace RequestGate.Format

/-- Whether a character may stand unescaped anywhere. -/
def isUnreserved (c : Char) : Bool :=
  c.isAlphanum || c == '-' || c == '.' || c == '_' || c == '~'

/-- Whether a character is one of the lesser delimiters. -/
def isSubDelimiter (c : Char) : Bool :=
  "!$&'()*+,;=".toList.contains c

/-- The characters beyond ASCII that internationalised identifiers allow. -/
def isUcsChar (c : Char) : Bool :=
  let n := c.toNat
  (0xA0 ≤ n && n ≤ 0xD7FF) || (0xF900 ≤ n && n ≤ 0xFDCF) || (0xFDF0 ≤ n && n ≤ 0xFFEF) ||
    (0x10000 ≤ n && n < 0xF0000 && n % 0x10000 < 0xFFFE && !(0xE0000 ≤ n && n < 0xE1000))

/-- The characters for private use, which a query of an internationalised identifier allows. -/
def isPrivateChar (c : Char) : Bool :=
  let n := c.toNat
  (0xE000 ≤ n && n ≤ 0xF8FF) || (0xF0000 ≤ n && n % 0x10000 < 0xFFFE)

/-- Whether every character is allowed or part of a percent escape. -/
def allEscaped (isAllowed : Char → Bool) : List Char → Bool
  | [] => true
  | '%' :: a :: b :: rest => isHexDigit a && isHexDigit b && allEscaped isAllowed rest
  | '%' :: _ => false
  | c :: rest => isAllowed c && allEscaped isAllowed rest

/-- Which characters beyond ASCII an identifier allows. -/
structure UriCharset where
  /-- In every part but the scheme. -/
  everywhere : Char → Bool
  /-- In the query besides. -/
  inQuery : Char → Bool

/-- No characters beyond ASCII. -/
def asciiUri : UriCharset := ⟨fun _ => false, fun _ => false⟩

/-- The characters of internationalised identifiers. -/
def internationalUri : UriCharset := ⟨isUcsChar, isPrivateChar⟩

/-- The part before the first of some characters, and the rest with it. -/
def cutBefore (isStop : Char → Bool) (cs : List Char) : List Char × List Char :=
  (cs.takeWhile fun c => !isStop c, cs.dropWhile fun c => !isStop c)

/-- Whether a text is what may stand in brackets as a host. -/
def isIpLiteral (cs : List Char) : Bool :=
  match cs with
  | 'v' :: rest | 'V' :: rest =>
    let version := rest.takeWhile isHexDigit
    match rest.dropWhile isHexDigit with
    | '.' :: address =>
      !version.isEmpty && !address.isEmpty &&
        address.all fun c => isUnreserved c || isSubDelimiter c || c == ':'
    | _ => false
  | cs => isIpv6 cs

/-- Whether a text is a host, perhaps with a colon and a number after it. -/
def isHostPart (charset : UriCharset) (cs : List Char) : Bool :=
  match cs with
  | '[' :: rest =>
    let (literal, after) := cutBefore (· == ']') rest
    isIpLiteral literal &&
      match after with
      | [']'] => true
      | ']' :: ':' :: number => Text.allDigits number
      | _ => false
  | cs =>
    let (host, after) := cutBefore (· == ':') cs
    allEscaped (fun c => isUnreserved c || isSubDelimiter c || charset.everywhere c) host &&
      match after with
      | [] => true
      | _ :: number => Text.allDigits number

/-- Whether a text is an authority. -/
def isAuthority (charset : UriCharset) (cs : List Char) : Bool :=
  match splitAtSign? cs with
  | some (user, host) =>
    allEscaped
        (fun c => isUnreserved c || isSubDelimiter c || c == ':' || charset.everywhere c) user &&
      isHostPart charset host
  | none => isHostPart charset cs

/-- Whether a character may stand in a segment of a path. -/
def isPathChar (charset : UriCharset) (c : Char) : Bool :=
  isUnreserved c || isSubDelimiter c || c == ':' || c == '@' || charset.everywhere c

/-- Whether a text is a path after an authority, or without one. -/
def isPath (charset : UriCharset) (cs : List Char) : Bool :=
  allEscaped (fun c => isPathChar charset c || c == '/') cs

/-- Whether a text is the part after the scheme and before the query. -/
def isHierarchy (charset : UriCharset) (cs : List Char) : Bool :=
  match cs with
  | '/' :: '/' :: rest =>
    let (authority, path) := cutBefore (· == '/') rest
    isAuthority charset authority && isPath charset path
  | cs => isPath charset cs

/-- Whether a text is the name of a scheme. -/
def isScheme : List Char → Bool
  | c :: rest =>
    c.isAlpha && rest.all fun c => c.isAlphanum || c == '+' || c == '-' || c == '.'
  | [] => false

/-- Whether a text is an identifier, with a scheme, or if `relative` perhaps without. -/
def isIdentifier (charset : UriCharset) (relative : Bool) (cs : List Char) : Bool :=
  let (beforeFragment, fragment) := cutBefore (· == '#') cs
  let (beforeQuery, query) := cutBefore (· == '?') beforeFragment
  let tail (c : Char) : Bool := isPathChar charset c || c == '/' || c == '?'
  let fragmentOk := allEscaped tail (fragment.drop 1)
  let queryOk := allEscaped (fun c => tail c || charset.inQuery c) (query.drop 1)
  let (first, rest) := cutBefore (fun c => c == ':' || c == '/') beforeQuery
  let main :=
    match rest with
    | ':' :: hierarchy => isScheme first && isHierarchy charset hierarchy
    | _ => relative && isHierarchy charset beforeQuery
  main && queryOk && fragmentOk

/-- Whether a text is a URI. -/
def isUri (cs : List Char) : Bool := isIdentifier asciiUri false cs

/-- Whether a text is a URI or a relative reference. -/
def isUriReference (cs : List Char) : Bool := isIdentifier asciiUri true cs

/-- Whether a text is an internationalised URI. -/
def isIri (cs : List Char) : Bool := isIdentifier internationalUri false cs

/-- Whether a text is an internationalised URI or a relative reference. -/
def isIriReference (cs : List Char) : Bool := isIdentifier internationalUri true cs

/-! ### Templates -/

/-- Whether a character may stand literally in a template. -/
def isTemplateLiteral (c : Char) : Bool :=
  0x20 < c.toNat && !"\x22'<>%\\^\x60\x7b|\x7d".toList.contains c

/-- Whether a text is the name of a template variable. -/
def isVariableName (cs : List Char) : Bool :=
  !cs.isEmpty && allEscaped (fun c => c.isAlphanum || c == '_') cs

/-- Whether a text is a variable with its modifier. -/
def isVariable (cs : List Char) : Bool :=
  match cs.reverse with
  | '*' :: name => isVariableName name.reverse
  | _ =>
    match Text.splitFirst? ':' cs with
    | some (name, length) =>
      isVariableName name && !length.isEmpty && length.length ≤ 4 && Text.allDigits length &&
        length.head? != some '0'
    | none => isVariableName cs

/-- Whether a text is what stands between the braces of an expression. -/
def isExpression (cs : List Char) : Bool :=
  let listed := match cs with
    | c :: rest => if "+#./;?&=,!@|".toList.contains c then rest else cs
    | [] => []
  (Text.splitOn ',' listed).all isVariable

/-- Reads a template; `expression` holds the characters of the expression that is open, in
reverse. -/
def isTemplateAfter : (expression : Option (List Char)) → List Char → Bool
  | none, [] => true
  | some _, [] => false
  | none, '\x7b' :: rest => isTemplateAfter (some []) rest
  | none, '%' :: a :: b :: rest => isHexDigit a && isHexDigit b && isTemplateAfter none rest
  | none, c :: rest => isTemplateLiteral c && isTemplateAfter none rest
  | some done, '\x7d' :: rest => isExpression done.reverse && isTemplateAfter none rest
  | some done, c :: rest => isTemplateAfter (some (c :: done)) rest

/-- Whether a text is a URI template. -/
def isUriTemplate (cs : List Char) : Bool := isTemplateAfter none cs

end RequestGate.Format
