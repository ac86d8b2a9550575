import RequestGate.Json.Basic
import RequestGate.Text.Basic

/-!
# JSON pointers

A pointer is a list of segments, each written after a slash with `~` as `~0` and `/` as `~1`.
`RequestGate.Pointer.escape` writes a segment, `RequestGate.Pointer.unescape` reads one, and reading
undoes writing (`RequestGate.Pointer.unescape_escape`).

Into an array a pointer leads by a plain decimal index, without a sign and without a superfluous
zero.
-/

namespace RequestGate

namespace Pointer

/-- A segment as it is written. -/
def escape : List Char → List Char
  | [] => []
  | c :: cs =>
    if c = '~' then '~' :: '0' :: escape cs
    else if c = '/' then '~' :: '1' :: escape cs
    else c :: escape cs

/-- A segment as it is read: first every `~1`, then every `~0` is replaced. -/
def unescape (cs : List Char) : List Char :=
  Text.replacePair '~' '0' '~' (Text.replacePair '~' '1' '/' cs)

/-- A written segment, as a string. -/
def escapeText (segment : String) : String := String.ofList (escape segment.toList)

/-- A read segment, as a string. -/
def unescapeText (segment : String) : String := String.ofList (unescape segment.toList)

/-- The pointer of a list of segments. -/
def render (segments : List String) : String :=
  String.join (segments.map fun segment => "/" ++ escapeText segment)

/-- The segments of a pointer: what stands before the first slash is ignored. -/
def segments (pointer : String) : List String :=
  ((Text.splitOn '/' pointer.toList).drop 1).map fun s => String.ofList (unescape s)

/-- The index that a segment denotes in an array. -/
def index? (segment : String) : Option Nat :=
  match segment.toList with
  | '+' :: _ => none
  | '0' :: _ :: _ => none
  | cs => Text.readNatBelow? Text.wordCount cs

/-- One step into a value. -/
def step? (value : Json) (segment : String) : Option Json :=
  match value with
  | .obj members => Entries.get? members segment
  | .arr items => (index? segment).bind fun i => items[i]?
  | _ => none

/-- The value that a pointer leads to: the empty pointer to the value itself, any other must start
with a slash. -/
def lookup? (root : Json) (pointer : String) : Option Json :=
  match pointer.toList with
  | [] => some root
  | '/' :: _ => (segments pointer).foldlM step? root
  | _ => none

/-! ### Reading undoes writing -/

/-- After the slashes have been read back, the tildes are still written. -/
def escapeTilde : List Char → List Char
  | [] => []
  | c :: cs => if c = '~' then '~' :: '0' :: escapeTilde cs else c :: escapeTilde cs

private theorem replacePair_cons_of_ne {a b c x : Char} (h : x ≠ a) (cs : List Char) :
    Text.replacePair a b c (x :: cs) = x :: Text.replacePair a b c cs := by
  cases cs with
  | nil => rfl
  | cons y rest => simp [Text.replacePair, h]

private theorem replacePair_slash_escape (cs : List Char) :
    Text.replacePair '~' '1' '/' (escape cs) = escapeTilde cs := by
  induction cs with
  | nil => rfl
  | cons c cs ih =>
    by_cases hc : c = '~'
    · subst hc
      have h0 : Text.replacePair '~' '1' '/' ('~' :: '0' :: escape cs)
          = '~' :: Text.replacePair '~' '1' '/' ('0' :: escape cs) := by
        simp [Text.replacePair]
      rw [show escape ('~' :: cs) = '~' :: '0' :: escape cs by simp [escape], h0,
        replacePair_cons_of_ne (by decide), ih]
      simp [escapeTilde]
    · by_cases hs : c = '/'
      · subst hs
        rw [show escape ('/' :: cs) = '~' :: '1' :: escape cs by simp [escape]]
        simp [Text.replacePair, ih, escapeTilde]
      · rw [show escape (c :: cs) = c :: escape cs by simp [escape, hc, hs],
          replacePair_cons_of_ne hc, ih]
        simp [escapeTilde, hc]

private theorem replacePair_tilde_escapeTilde (cs : List Char) :
    Text.replacePair '~' '0' '~' (escapeTilde cs) = cs := by
  induction cs with
  | nil => rfl
  | cons c cs ih =>
    by_cases hc : c = '~'
    · subst hc
      simp [escapeTilde, Text.replacePair, ih]
    · rw [show escapeTilde (c :: cs) = c :: escapeTilde cs by simp [escapeTilde, hc],
        replacePair_cons_of_ne hc, ih]

/-- Reading a written segment gives the segment back. -/
theorem unescape_escape (cs : List Char) : unescape (escape cs) = cs := by
  rw [unescape, replacePair_slash_escape, replacePair_tilde_escapeTilde]

end Pointer

end RequestGate
