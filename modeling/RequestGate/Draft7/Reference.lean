import RequestGate.Json.Pointer

/-!
# References as the schema engine follows them

The engine reads the fragment of a reference as a pointer whose percent escapes have been decoded,
and takes any decimal number as an index. Only references into the schema itself can be followed, and
only by their pointers: the keyword `$id` is not read, so neither does a schema have a base of its own
nor is a place found by the name that it has been given.
-/

namespace RequestGate.Draft7

/-- The value of a hexadecimal digit. -/
def hexDigitValue? (c : Char) : Option Nat :=
  if '0' ≤ c ∧ c ≤ '9' then some (c.toNat - '0'.toNat)
  else if 'a' ≤ c ∧ c ≤ 'f' then some (c.toNat - 'a'.toNat + 10)
  else if 'A' ≤ c ∧ c ≤ 'F' then some (c.toNat - 'A'.toNat + 10)
  else none

/-- The bytes of a text after its percent escapes have been decoded; what is no escape stays. -/
def percentDecodeBytes : List Char → List UInt8
  | [] => []
  | '%' :: a :: b :: rest =>
    match hexDigitValue? a, hexDigitValue? b with
    | some x, some y => UInt8.ofNat (x * 16 + y) :: percentDecodeBytes rest
    | _, _ => '%'.toNat.toUInt8 :: percentDecodeBytes (a :: b :: rest)
  | c :: rest => (String.singleton c).toUTF8.toList ++ percentDecodeBytes rest

/-- A text with its percent escapes decoded, unless the result is no text. -/
def percentDecode? (cs : List Char) : Option String :=
  if cs.contains '%' then String.fromUTF8? ⟨(percentDecodeBytes cs).toArray⟩
  else some (String.ofList cs)

/-- One step into a value. -/
def step? (value : Json) (segment : String) : Option Json :=
  match value with
  | .arr items => (Text.readNatBelow? Text.wordCount segment.toList).bind fun i => items[i]?
  | .obj members => Entries.get? members segment
  | _ => none

/-- The value that a reference points to within `root`. A reference to a name, as in `#name`, leads
nowhere, whether or not some `$id` has the name. -/
def resolve? (root : Json) (reference : String) : Option Json :=
  match reference.toList with
  | [] | ['#'] => some root
  | '#' :: '/' :: pointer => do
    let pointer ← percentDecode? pointer
    ((Text.splitOn '/' pointer.toList).map fun s =>
      String.ofList (Pointer.unescape s)).foldlM step? root
  | _ => none

end RequestGate.Draft7
