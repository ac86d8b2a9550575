import RequestGate.Format.Time
import RequestGate.Format.Uri
import RequestGate.Pattern.Parser

/-!
# The built-in formats

`RequestGate.Format.builtin?` finds the predicate of a format name. Names that it does not know, such
as `uuid` or `int32`, are notes to the reader and demand nothing.
-/

namespace RequestGate.Format

/-- Whether a text consists of segments, each after a slash and with its tildes escaped. -/
def isJsonPointer : List Char → Bool
  | [] => true
  | '/' :: rest => (Text.splitOn '~' rest).tail.all fun piece =>
      piece.head? == some '0' || piece.head? == some '1'
  | _ => false

/-- Whether a text is a number of levels to go up, followed by a hash sign or a pointer. -/
def isRelativeJsonPointer (cs : List Char) : Bool :=
  let digits := cs.takeWhile Char.isDigit
  let rest := cs.dropWhile Char.isDigit
  !digits.isEmpty && (digits.length == 1 || digits.head? != some '0') &&
    (rest == ['#'] || isJsonPointer rest)

/-- Whether a text is a pattern. -/
def isRegex (text : String) : Bool := (Pattern.parse? text).isSome

/-- The predicate of a built-in format. -/
def builtin? (name : String) : Option (String → Bool) :=
  let onChars (p : List Char → Bool) : Option (String → Bool) := some fun s => p s.toList
  match name with
  | "date" => onChars isDate
  | "time" => onChars isTime
  | "date-time" => onChars isDateTime
  | "email" => onChars isEmail
  | "idn-email" => onChars isIdnEmail
  | "hostname" => onChars isHostname
  | "idn-hostname" => onChars isIdnHostname
  | "ipv4" => onChars isIpv4
  | "ipv6" => onChars isIpv6
  | "uri" => onChars isUri
  | "uri-reference" => onChars isUriReference
  | "uri-template" => onChars isUriTemplate
  | "iri" => onChars isIri
  | "iri-reference" => onChars isIriReference
  | "json-pointer" => onChars isJsonPointer
  | "relative-json-pointer" => onChars isRelativeJsonPointer
  | "regex" => some isRegex
  | _ => none

end RequestGate.Format
