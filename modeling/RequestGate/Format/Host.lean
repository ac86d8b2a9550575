import RequestGate.Text.Alphanumeric
import RequestGate.Text.Basic

/-!
# Hosts, addresses and mailboxes

The formats `ipv4`, `ipv6`, `hostname`, `idn-hostname`, `email` and `idn-email`.
-/

namespace RequestGate.Format

/-! ### Addresses -/

/-- Whether a text is a number from 0 to 255 without a superfluous zero. -/
def isOctet (cs : List Char) : Bool :=
  !cs.isEmpty && cs.length ≤ 3 && Text.allDigits cs && (cs.length == 1 || cs.head? != some '0') &&
    Text.digitsValue cs ≤ 255

/-- Whether a text is an IPv4 address. -/
def isIpv4 (cs : List Char) : Bool :=
  let parts := Text.splitOn '.' cs
  parts.length == 4 && parts.all isOctet

/-- Whether a character is a hexadecimal digit. -/
def isHexDigit (c : Char) : Bool :=
  c.isDigit || ('a' ≤ c && c ≤ 'f') || ('A' ≤ c && c ≤ 'F')

/-- Whether a text is a group of an IPv6 address. -/
def isHexGroup (cs : List Char) : Bool :=
  !cs.isEmpty && cs.length ≤ 4 && cs.all isHexDigit

/-- The number of groups in a list of groups, of which the last may be an IPv4 address and then
counts two; `none` if one is malformed. -/
def countGroups? (ipv4Allowed : Bool) : List (List Char) → Option Nat
  | [] => some 0
  | [last] =>
    if isHexGroup last then some 1 else if ipv4Allowed && isIpv4 last then some 2 else none
  | group :: rest =>
    if isHexGroup group then (countGroups? ipv4Allowed rest).map (· + 1) else none

/-- Cuts at the first `::`, if there is one. -/
def splitDoubleColon? : List Char → Option (List Char × List Char)
  | ':' :: ':' :: rest => some ([], rest)
  | c :: rest => (splitDoubleColon? rest).map fun (before, after) => (c :: before, after)
  | [] => none

/-- The groups of a part of an IPv6 address, none if the part is empty. -/
def hexGroups (cs : List Char) : List (List Char) :=
  if cs.isEmpty then [] else Text.splitOn ':' cs

/-- Whether a text is an IPv6 address. -/
def isIpv6 (cs : List Char) : Bool :=
  match splitDoubleColon? cs with
  | none => countGroups? true (hexGroups cs) == some 8
  | some (before, after) =>
    match countGroups? false (hexGroups before), countGroups? true (hexGroups after) with
    | some a, some b => a + b ≤ 7
    | _, _ => false

/-! ### Hosts -/

/-- Whether a text is the name of a host: letters, digits, dashes and dots, no dash at either end,
and no part that is too long. -/
def isHostname (cs : List Char) : Bool :=
  !cs.isEmpty && cs.head? != some '-' && cs.getLast? != some '-' && cs.length ≤ 255 &&
    cs.all (fun c => Text.isAlphanumeric c || c == '-' || c == '.') &&
    (Text.splitOn '.' cs).all fun label => label.length ≤ 63

/-- Whether a text is a label of an internationalised name. -/
def isIdnLabel (cs : List Char) : Bool :=
  !cs.isEmpty && cs.length ≤ 63 && cs.head? != some '-' && cs.getLast? != some '-' &&
    cs.all (fun c => Text.isAlphanumeric c || c == '-' || 0x300 ≤ c.toNat) &&
    match cs with
    | [_, _] => true
    | _ :: _ :: '-' :: '-' :: _ => (cs.take 2).map Char.toLower == ['x', 'n']
    | _ => true

/-- Whether a text is an internationalised name of a host; a dot may end it. -/
def isIdnHostname (cs : List Char) : Bool :=
  let cs := if cs.getLast? == some '.' then cs.dropLast else cs
  !cs.isEmpty && cs.length ≤ 253 && (Text.splitOn '.' cs).all isIdnLabel

/-! ### Mailboxes -/

/-- Whether a character may stand in an atom of a mail address. -/
def isAtomChar (c : Char) : Bool :=
  Text.isAlphanumeric c || "!#$%&'*+-/=?^_\x60\x7b|\x7d~".toList.contains c || 0x80 ≤ c.toNat

/-- Whether a text is made of atoms with dots between them. -/
def isDotAtom (cs : List Char) : Bool :=
  (Text.splitOn '.' cs).all fun atom => !atom.isEmpty && atom.all isAtomChar

/-- Whether a text may stand between the quotes of a local part. -/
def isQuotedContent : List Char → Bool
  | [] => true
  | ['\\'] => false
  | '\\' :: c :: rest => (c == ' ' || c == '\t' || ('!' ≤ c && c ≤ '~')) && isQuotedContent rest
  | c :: rest =>
    (c == ' ' || c == '\t' || 0x80 ≤ c.toNat || ('!' ≤ c && c ≤ '~' && c != '\x22')) &&
      isQuotedContent rest

/-- The length of a text in UTF-8. -/
def utf8Length (cs : List Char) : Nat := (String.ofList cs).utf8ByteSize

/-- Whether a text is the part of a mail address before the sign. -/
def isLocalPart (cs : List Char) : Bool :=
  !cs.isEmpty && utf8Length cs ≤ 64 &&
    match cs with
    | '\x22' :: rest =>
      match rest.reverse with
      | '\x22' :: content => !content.isEmpty && isQuotedContent content.reverse
      | _ => false
    | _ => isDotAtom cs

/-- Cuts at the last at-sign, if there is one. -/
def splitAtSign? (cs : List Char) : Option (List Char × List Char) :=
  (Text.splitFirst? '@' cs.reverse).map fun (after, before) => (before.reverse, after.reverse)

/-- What stands in angle brackets after a name, or the whole text if there is no name. -/
def withoutDisplayName? (cs : List Char) : Option (List Char) :=
  let rec lastBracket : List Char → Option (List Char)
    | [] => none
    | c :: rest =>
      match lastBracket rest with
      | some found => some found
      | none =>
        match c, rest with
        | ' ', '<' :: inner => some inner
        | _, _ => none
  match lastBracket cs with
  | none => some cs
  | some inner =>
    match (Text.trim inner).reverse with
    | '>' :: address => some address.reverse
    | _ => none

/-- Whether a text is a mail address whose domain passes `isHost` or is an address in brackets. -/
def isMailbox (isHost : List Char → Bool) (cs : List Char) : Bool :=
  match (withoutDisplayName? cs).bind splitAtSign? with
  | none => false
  | some (localPart, domain) =>
    isLocalPart localPart && utf8Length domain ≤ 254 &&
      match domain with
      | '[' :: rest =>
        match rest.reverse with
        | ']' :: address =>
          let address := address.reverse
          match Text.dropStart? "IPv6:".toList address with
          | some address => isIpv6 address
          | none => isIpv4 address
        | _ => false
      | _ => isDotAtom domain && isHost domain

/-- Whether a text is a mail address. -/
def isEmail (cs : List Char) : Bool := isMailbox isHostname cs

/-- Whether a text is a mail address with an internationalised host. -/
def isIdnEmail (cs : List Char) : Bool := isMailbox isIdnHostname cs

end RequestGate.Format
