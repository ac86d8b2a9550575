import RequestGate.Digest.Sha256
import RequestGate.Json.Printer

/-!
# Canonical text and fingerprints

Two values that differ only in the order of members, or in how a double is written, have the same
*canonical text*: no blanks, members in ascending order of their quoted and escaped keys, whole
numbers digit by digit, doubles in the shortest form. A `RequestGate.Fingerprint` is the SHA-256 of
that text, which is how equal schemas are recognised and how an artifact's payload is sealed.

The order of keys is that of the bytes of the key *as it is written*, quotes included. So `"a b"`
comes before `"a"`, because a blank comes before the closing quote.
-/

namespace RequestGate

namespace Json

/-- Puts a member before the first whose key, given as text, is not below its own. -/
def insertByKey (member : String × String) : List (String × String) → List (String × String)
  | [] => [member]
  | next :: rest =>
    if member.1 ≤ next.1 then member :: next :: rest else next :: insertByKey member rest

/-- Members in ascending order of their keys, given as text. -/
def sortByKey (members : List (String × String)) : List (String × String) :=
  members.foldr insertByKey []

mutual

/-- The canonical text of a value. -/
def canonical : Json → String
  | .null => "null"
  | .bool true => "true"
  | .bool false => "false"
  | .num n => n.canonicalText
  | .str s => quote s
  | .arr items => "[" ++ String.intercalate "," (canonicalList items) ++ "]"
  | .obj members =>
    "\x7b" ++ String.intercalate "," ((sortByKey (canonicalMembers members)).map fun member =>
      member.1 ++ ":" ++ member.2) ++ "\x7d"

/-- The canonical texts of items. -/
def canonicalList : List Json → List String
  | [] => []
  | a :: as => canonical a :: canonicalList as

/-- Quoted keys with the canonical texts of their values. -/
def canonicalMembers : List (String × Json) → List (String × String)
  | [] => []
  | (k, a) :: as => (quote k, canonical a) :: canonicalMembers as

end

end Json

/-- The name of a value up to canonical text: 64 hexadecimal digits. -/
structure Fingerprint where
  hex : String
deriving DecidableEq, Inhabited

namespace Fingerprint

/-- The fingerprint of a value. -/
def of (value : Json) : Fingerprint :=
  ⟨Sha256.hexDigest value.canonical.toUTF8.toList⟩

/-- Values with the same canonical text have the same fingerprint. -/
theorem of_congr {a b : Json} (h : a.canonical = b.canonical) : of a = of b := by
  simp [of, h]

end Fingerprint

end RequestGate
