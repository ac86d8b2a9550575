import RequestGate.Parameter.Style
import RequestGate.Proofs.Entries

/-!
# What decoding a parameter does

Which moves decoding makes on the table of a parameter's place depends on the parameter alone, and
there are nine ways. A parameter with a media type is text, which may be JSON. An object in the query
is collected from the keys of its properties, or from keys in brackets, or it is read as it stands. An
array is put around one value, or is cut out of one string. What else is exploded collects the keys of
its properties, and all other values are left alone.

`RequestGate.Style.Decoding` has a constructor for each of them, with what is known of the parameter
there, and `RequestGate.Style.decoding_of_decodeEntry` says that there is no other. What decoding does
to a table is told by going through these cases.
-/

namespace RequestGate

open Entries

namespace Style

variable {root : Json} {p : Parameter} {table next : Entries Json}

/-! ### Moves that rewrite one value -/

/-- A value read as JSON text, if it is text that is. -/
def readText : Json → Json
  | .str text => (Json.parse? text).getD (.str text)
  | value => value

/-- The items of a text, unless it is empty. -/
def splitText (delimiter : Char) : Json → Json
  | .str text => if text.isEmpty then .str text else .arr ((Text.split delimiter text).map .str)
  | value => value

theorem readJson_eq_modify (table : Entries Json) (name : String) :
    readJson table name = modify table name readText := by
  rw [readJson]
  split
  · rename_i text hget
    split
    · rename_i value hparse
      rw [modify_of_get? hget, readText, hparse, Option.getD_some]
    · rename_i hparse
      refine (modify_eq_self fun v hv => ?_).symm
      obtain rfl := Option.some.inj (hget.symm.trans hv)
      rw [readText, hparse, Option.getD_none]
  · rename_i hget
    refine (modify_eq_self fun v hv => ?_).symm
    cases v with
    | str text => exact absurd hv (hget text)
    | _ => rfl

theorem splitDelimited_eq_modify (delimiter : Char) (name : String) (table : Entries Json) :
    splitDelimited delimiter name table = modify table name (splitText delimiter) := by
  rw [splitDelimited]
  split
  · rename_i text hget
    rw [modify_of_get? hget, splitText]
    split
    · rw [← modify_of_get? hget fun v => v, modify_eq_self fun _ _ => rfl]
    · rfl
  · rename_i hget
    refine (modify_eq_self fun v hv => ?_).symm
    cases v with
    | str text => exact absurd hv (hget text)
    | _ => rfl

/-- The table with a default under a name, unless a value is given there. -/
def supplied (default : Option Json) (name : String) (table : Entries Json) : Entries Json :=
  if (get? table name).any isGiven then table
  else
    match default with
    | some value => insert table name value
    | none => table

/-! ### The kinds -/

theorem isQueryObject_iff :
    isQueryObject root p = true ↔
      p.location = .query ∧ p.contentMediaType = none ∧ Schema.isObjectLike root p.schema = true := by
  simp [isQueryObject, and_comm, and_assoc]

/-- Whether a parameter has no media type, and is no object in the query. -/
structure NoObject (root : Json) (p : Parameter) : Prop where
  content : p.contentMediaType = none
  object : isQueryObject root p = false

/-- The schema of such a query parameter describes no object. -/
theorem NoObject.isObjectLike_eq (h : NoObject root p) (hp : p.location = .query) :
    Schema.isObjectLike root p.schema = false := by
  have hnot := h.object
  rw [Bool.eq_false_iff, Ne, isQueryObject_iff] at hnot
  exact Bool.eq_false_iff.mpr fun hlike => hnot ⟨hp, h.content, hlike⟩

/-- Decoding one parameter, from the table of its place to what becomes of it. -/
inductive Decoding (root : Json) (p : Parameter) (table : Entries Json) : Entries Json → Prop
  /-- JSON in a text is read. -/
  | json {mediaType : String} (hcontent : p.contentMediaType = some mediaType)
      (hjson : isJsonMediaType mediaType = true) : Decoding root p table (readJson table p.name)
  /-- Text of another media type is left alone. -/
  | text {mediaType : String} (hcontent : p.contentMediaType = some mediaType)
      (hjson : isJsonMediaType mediaType = false) : Decoding root p table table
  /-- An exploded object collects the keys of its properties. -/
  | exploded (hobject : isQueryObject root p = true)
      (hform : p.style = "form" ∧ p.explode = true) :
      Decoding root p table (collapseExploded root p.schema p.name (readJson table p.name))
  /-- An object in brackets collects these, and falls back on its default. -/
  | bracketed (hobject : isQueryObject root p = true) (hdeep : p.style = "deepObject") :
      Decoding root p table
        (readJson (supplied (Schema.defaultValue root p.schema) p.name
          (collapseDeepObject p.name table)) p.name)
  /-- Any other object is read from one text. -/
  | whole (hobject : isQueryObject root p = true)
      (hform : ¬(p.style = "form" ∧ p.explode = true)) (hdeep : p.style ≠ "deepObject") :
      Decoding root p table (readJson table p.name)
  /-- An exploded array is put around a value. -/
  | wrapped (hother : NoObject root p) (harray : Schema.effectiveType root p.schema = some "array")
      (hexplode : p.explode = true) :
      Decoding root p table
        (modify table p.name fun value => if isGiven value then wrap value else value)
  /-- An array in one text is cut at its delimiter. -/
  | cut (hother : NoObject root p) (harray : Schema.effectiveType root p.schema = some "array")
      (hexplode : p.explode = false) {delimiter : Char} (hdelimiter : delimiter? p.style = some delimiter) :
      Decoding root p table (splitDelimited delimiter p.name table)
  /-- What else is exploded collects the keys of the properties that its schema has. -/
  | scattered (hother : NoObject root p) (harray : Schema.effectiveType root p.schema ≠ some "array")
      (hform : p.style = "form" ∧ p.explode = true) :
      Decoding root p table (collapseExploded root p.schema p.name table)
  /-- All other values are left alone. -/
  | unchanged (hother : NoObject root p) (harray : Schema.effectiveType root p.schema ≠ some "array")
      (hform : ¬(p.style = "form" ∧ p.explode = true)) : Decoding root p table table

theorem decoding_decodeObject (hobject : isQueryObject root p = true) (table : Entries Json) :
    Decoding root p table (decodeObject root p table) := by
  rw [decodeObject]
  by_cases hform : p.style = "form" ∧ p.explode = true
  · rw [if_pos (by simpa using hform)]
    exact .exploded hobject hform
  · rw [if_neg (by simpa using hform)]
    by_cases hdeep : p.style = "deepObject"
    · rw [if_pos (by simpa using hdeep)]
      exact .bracketed hobject hdeep
    · rw [if_neg (by simpa using hdeep)]
      exact .whole hobject hform hdeep

/-- **All that decoding a parameter can do.** -/
theorem decoding_of_decodeEntry (h : decodeEntry root p table = .ok next) :
    Decoding root p table next := by
  rw [decodeEntry] at h
  split at h
  · rename_i mediaType hcontent
    obtain rfl := Except.ok.inj h
    cases hjson : isJsonMediaType mediaType with
    | true => exact .json hcontent hjson
    | false => exact .text hcontent hjson
  · rename_i hcontent
    by_cases hobject : isQueryObject root p = true
    · rw [if_pos hobject] at h
      obtain rfl := Except.ok.inj h
      exact decoding_decodeObject hobject table
    · rw [if_neg hobject] at h
      have hother : NoObject root p := ⟨hcontent, Bool.eq_false_iff.mpr hobject⟩
      by_cases harray : Schema.effectiveType root p.schema = some "array"
      · rw [if_pos harray] at h
        cases hexplode : p.explode with
        | true =>
          rw [hexplode] at h
          obtain rfl := Except.ok.inj h
          exact .wrapped hother harray hexplode
        | false =>
          rw [hexplode] at h
          cases hdelimiter : delimiter? p.style with
          | some delimiter =>
            rw [hdelimiter] at h
            obtain rfl := Except.ok.inj h
            exact .cut hother harray hexplode hdelimiter
          | none =>
            rw [hdelimiter] at h
            cases h
      · rw [if_neg harray] at h
        by_cases hform : p.style = "form" ∧ p.explode = true
        · rw [if_pos (by simpa using hform)] at h
          obtain rfl := Except.ok.inj h
          exact .scattered hother harray hform
        · rw [if_neg (by simpa using hform)] at h
          obtain rfl := Except.ok.inj h
          exact .unchanged hother harray hform

end Style

end RequestGate
