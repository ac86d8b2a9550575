import RequestGate.Json.Parser

/-!
# Contents of strings

The keywords `contentEncoding` and `contentMediaType` look into strings. One encoding is known,
base 64 with padding, and one media type, JSON.
-/

namespace RequestGate.Draft7

/-- The value of a digit of base 64. -/
def base64Value? (c : Char) : Option Nat :=
  if 'A' ≤ c ∧ c ≤ 'Z' then some (c.toNat - 'A'.toNat)
  else if 'a' ≤ c ∧ c ≤ 'z' then some (c.toNat - 'a'.toNat + 26)
  else if '0' ≤ c ∧ c ≤ '9' then some (c.toNat - '0'.toNat + 52)
  else if c = '+' then some 62
  else if c = '/' then some 63
  else none

/-- The bytes that a text in base 64 denotes; unused bits must be zero. -/
def base64Decode? : List Char → Option (List UInt8)
  | [] => some []
  | [a, b, '=', '='] => do
    let a ← base64Value? a
    let b ← base64Value? b
    if b % 16 = 0 then some [UInt8.ofNat (a * 4 + b / 16)] else none
  | [a, b, c, '='] => do
    let a ← base64Value? a
    let b ← base64Value? b
    let c ← base64Value? c
    if c % 4 = 0 then
      some [UInt8.ofNat (a * 4 + b / 16), UInt8.ofNat (b % 16 * 16 + c / 4)]
    else none
  | a :: b :: c :: d :: rest => do
    let a ← base64Value? a
    let b ← base64Value? b
    let c ← base64Value? c
    let d ← base64Value? d
    let more ← base64Decode? rest
    some (UInt8.ofNat (a * 4 + b / 16) :: UInt8.ofNat (b % 16 * 16 + c / 4) ::
      UInt8.ofNat (c % 4 * 64 + d) :: more)
  | _ => none

/-- The decoder of an encoding, if it is known. -/
def decoder? (encoding : String) : Option (String → Option (List UInt8)) :=
  if encoding = "base64" then some fun s => base64Decode? s.toList else none

/-- The test of a media type, if it is known. -/
def mediaTypeTest? (mediaType : String) : Option (String → Bool) :=
  if mediaType = "application/json" then some fun s => (Json.parse? s).isSome else none

end RequestGate.Draft7
