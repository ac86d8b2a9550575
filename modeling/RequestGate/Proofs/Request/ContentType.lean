import RequestGate.Proofs.Gate.Serving
import RequestGate.Proofs.Json.WellFormed
import RequestGate.Proofs.Text.Blank

/-!
# Which of several content types is kept

A request can carry a header under more than one spelling of its name. Its content type is read in two
places. A gate that looks for a schema takes the first header with the name, in any case; who reads the
normalized request finds the header by its name in lower case, and under that the last one has
overwritten the others. `RequestGate.Request.keeps_contentType_iff` says when the two readings agree: the
first and the last of these headers must have the same text, apart from the blanks around it.
-/

namespace RequestGate

open Text

variable {r : Request}

namespace ContentType

/-- Headers are read alike exactly if they have the same text between blanks, no header being like a
blank one. -/
theorem parse_eq_parse_iff {header other : Option String} :
    parse header = parse other ↔
      trim (header.getD "").toList = trim (other.getD "").toList := by
  have hparse : ∀ h : Option String, parse h =
      if (trim (h.getD "").toList).isEmpty then .notProvided
      else .provided (ofTrimmed (trim (h.getD "").toList)) := by
    rintro (- | text)
    · rfl
    · rfl
  refine ⟨fun h => ?_, fun h => by rw [hparse, hparse, h]⟩
  rw [hparse, hparse] at h
  split at h <;> rename_i hheader <;> split at h <;> rename_i hother
  · rw [List.isEmpty_iff.mp hheader, List.isEmpty_iff.mp hother]
  · cases h
  · cases h
  · exact String.ofList_inj.mp (congrArg MediaHeader.raw (provided.inj h))

/-- Where all names are in lower case, the content type is looked up by its name. -/
theorem ofHeaders_of_lower {headers : Entries Json} (h : ∀ e ∈ headers, asciiLower e.1 = e.1) :
    ofHeaders headers = parse ((Entries.get? headers "content-type").bind Json.str?) := by
  have hname : asciiLower "content-type" = "content-type" := by decide
  have hfind : (headers.find? fun e => eqIgnoreAsciiCase e.1 "content-type") =
      headers.find? fun e => e.1 == "content-type" := by
    rw [← List.head?_filter, ← List.head?_filter]
    exact congrArg List.head? (List.filter_congr fun e he => by rw [eqIgnoreAsciiCase, h e he, hname])
  rw [ofHeaders, hfind, Entries.get?_eq_map_find?, Option.bind_map]
  rfl

end ContentType

namespace Request

/-- The values of the headers that give a content type, in order. -/
def contentTypeValues (r : Request) : List Json :=
  ((r.headers.getD []).filter fun h => eqIgnoreAsciiCase h.1 "content-type").map Prod.snd

/-- A gate reads the first. -/
theorem contentType_eq_first (r : Request) :
    r.contentType = .parse (r.contentTypeValues.head?.bind Json.str?) := by
  rw [contentType, ContentType.ofHeaders, contentTypeValues, List.head?_map, List.head?_filter,
    Option.bind_map]
  rfl

/-- The names of the headers of a normalized request are in lower case. -/
theorem asciiLower_of_mem_ofRequest {e : String × Json}
    (h : e ∈ (NormalizedRequest.ofRequest r).headers) : asciiLower e.1 = e.1 := by
  obtain ⟨given, -, rfl⟩ := List.mem_map.mp (Entries.mem_of_mem_ofList h)
  exact asciiLower_asciiLower given.1

/-- What is left after normalization is the last. -/
theorem ofHeaders_ofRequest (r : Request) :
    ContentType.ofHeaders (NormalizedRequest.ofRequest r).headers =
      .parse (r.contentTypeValues.getLast?.bind Json.str?) := by
  have hname : asciiLower "content-type" = "content-type" := by decide
  have hvalue : Entries.get? (NormalizedRequest.ofRequest r).headers "content-type" =
      r.contentTypeValues.getLast? := by
    rw [NormalizedRequest.ofRequest, Entries.get?_ofList_map, contentTypeValues, List.getLast?_map,
      List.getLast?_filter]
    simp only [eqIgnoreAsciiCase, hname]
  rw [ContentType.ofHeaders_of_lower fun e => asciiLower_of_mem_ofRequest, hvalue]

/-- The texts of the headers that give a content type, between their blanks. A value that is no text is
like a blank one. -/
def contentTypeTexts (r : Request) : List (List Char) :=
  r.contentTypeValues.map fun value => trim (value.str?.getD "").toList

/-- **When the content type that a request is judged by is the one that it keeps**: the first and the
last that it gives are the same text. -/
theorem keeps_contentType_iff (r : Request) :
    r.contentType = .ofHeaders (NormalizedRequest.ofRequest r).headers ↔
      r.contentTypeTexts.head? = r.contentTypeTexts.getLast? := by
  have htext : ∀ value : Option Json, trim ((value.bind Json.str?).getD "").toList =
      (value.map fun value => trim (value.str?.getD "").toList).getD [] := by
    rintro (- | value) <;> rfl
  rw [contentType_eq_first, ofHeaders_ofRequest, ContentType.parse_eq_parse_iff, htext, htext,
    ← List.head?_map, ← List.getLast?_map, ← contentTypeTexts]
  -- no text counts as a blank one, but there is a first exactly if there is a last
  cases r.contentTypeTexts with
  | nil => exact iff_of_true rfl rfl
  | cons first rest =>
    rw [List.head?_cons, List.getLast?_cons, Option.getD_some, Option.getD_some, Option.some_inj]

/-- A request with one header under two spellings of its name. -/
def twoContentTypes : Request :=
  { method := "POST"
    route := "/t"
    headers := some [("Content-Type", .str "application/json"), ("content-type", .str "text/plain")]
    body := some (.obj [("a", .str "x")]) }

/-- It is judged as JSON, and kept as plain text. -/
theorem twoContentTypes_kept_otherwise :
    twoContentTypes.contentType ≠
        .ofHeaders (NormalizedRequest.ofRequest twoContentTypes).headers ∧
      twoContentTypes.contentType.keyClass = "application/json" ∧
        (ContentType.ofHeaders (NormalizedRequest.ofRequest twoContentTypes).headers).keyClass =
          "text/plain" := by
  decide

end Request

end RequestGate
