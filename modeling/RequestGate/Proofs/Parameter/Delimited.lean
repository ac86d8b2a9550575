import RequestGate.Proofs.Parameter.Decoded

/-!
# Arrays in one string

An array can be sent as one string, its items joined by the delimiter of the style. Decoding cuts
the string again, and both ways round nothing is lost: items without the delimiter come back as they
are, be they empty or not, and whatever string is sent, joining what it is decoded to gives the
string back (`RequestGate.Style.delimited_roundTrip`). So the style is a matter of writing. The one
exception is the empty string, which stays a string; it is what the empty array and the array of one
empty item come to.

The place of the parameter makes no difference, and nor does the case in which a header is spelled,
as long as the other parameters leave the name alone (`RequestGate.Style.Owns`). What is sent under
a name is said by `RequestGate.Request.value?`.
-/

namespace RequestGate

open Entries

namespace Request

/-- The values of a place, as they are sent. -/
def sent (r : Request) : Location → Entries Json
  | .query => r.query.getD []
  | .header => r.headers.getD []
  | .path => r.path.getD []
  | .cookie => r.cookies.getD []

/-- The value that is sent under a name. Of the spellings of a header's name the last one counts. -/
def value? (r : Request) (location : Location) (name : String) : Option Json :=
  let found := (r.sent location).filter fun e => Parameter.storedName location e.1 == name
  found.getLast?.map Prod.snd

/-- A table is made from what is sent. -/
theorem table_ofRequest (r : Request) {location : Location} (hd : Distinct (r.sent location)) :
    (NormalizedRequest.ofRequest r).table location =
      ofList ((r.sent location).map fun e => (Parameter.storedName location e.1, e.2)) := by
  cases location with
  | header => rfl
  | _ => exact (Distinct.ofList_eq hd).symm.trans (congrArg ofList (List.map_id' _).symm)

theorem distinct_table_ofRequest (r : Request) {location : Location}
    (hd : Distinct (r.sent location)) :
    Distinct ((NormalizedRequest.ofRequest r).table location) := by
  rw [table_ofRequest r hd]
  exact distinct_ofList _

/-- What is sent under a name is found in the table. -/
theorem get?_table_ofRequest (r : Request) {location : Location} (hd : Distinct (r.sent location))
    (name : String) :
    get? ((NormalizedRequest.ofRequest r).table location) name = r.value? location name := by
  rw [table_ofRequest r hd, get?_ofList_map, value?, List.getLast?_filter]

end Request

namespace Style

variable {root : Json} {route : String} {p q : Parameter} {d : Char} {parameters : List Parameter}
  {request : Request} {items : List String} {s : String}

/-! ### Who decodes a name -/

/-- A parameter is the only one to decode its name: the others can be decoded, and those of the same
place have other names and do not take this one for a member of an object. -/
def Owns (root : Json) (p : Parameter) (parameters : List Parameter) : Prop :=
  ∃ before after, parameters = before ++ p :: after ∧ ∀ q ∈ before ++ after,
    Decodes root q ∧ (q.location = p.location → p.name ≠ q.name ∧ denoted? root q p.name = none)

/-- Whether a parameter is decoded to a value. -/
def Yields (root : Json) (route : String) (parameters : List Parameter) (request : Request)
    (p : Parameter) (value : Json) : Prop :=
  ∃ decoded, decode root route parameters request = .ok decoded ∧
    get? (decoded.table p.location) p.name = some value

theorem atPlace_append (location : Location) (before after : List Parameter) :
    atPlace location (before ++ after) = atPlace location before ++ atPlace location after :=
  List.filter_append ..

/-- **The owner of a name decodes what is sent under it.** -/
theorem Owns.yields (howns : Owns root p parameters) (hp : Decodes root p)
    (hd : Distinct (request.sent p.location))
    (hcollects : ∀ table, collected root p table = []) {value : Json}
    (hvalue : ownValue root p (request.value? p.location p.name) [] = some value) :
    Yields root route parameters request p value := by
  obtain ⟨before, after, rfl, hothers⟩ := howns
  obtain ⟨decoded, hdecoded⟩ : ∃ decoded,
      decode root route (before ++ p :: after) request = .ok decoded := by
    refine decode_isOk_iff.mpr fun q hq => ?_
    rcases List.mem_append.mp hq with hq | hq
    · exact (hothers q (List.mem_append_left _ hq)).1
    · rcases List.mem_cons.mp hq with rfl | hq
      · exact hp
      · exact (hothers q (List.mem_append_right _ hq)).1
  refine ⟨decoded, hdecoded, ?_⟩
  -- nothing else at the place writes to the name
  have hclear : ∀ q ∈ atPlace p.location before ++ atPlace p.location after,
      p.name ≠ q.name ∧ denoted? root q p.name = none := by
    rw [← atPlace_append]
    exact fun q hq => (hothers q (mem_atPlace.mp hq).1).2 (mem_atPlace.mp hq).2
  have hdone := decode_table hdecoded p.location
  have hself : atPlace p.location (p :: after) = p :: atPlace p.location after := by simp [atPlace]
  rw [atPlace_append, hself] at hdone
  obtain ⟨current, -, hget⟩ :=
    get?_decodeTable_name (request.distinct_table_ofRequest hd) hclear hdone
  rw [hget, hcollects, request.get?_table_ofRequest hd, hvalue]

/-! ### Arrays in one string -/

/-- A parameter that is an array in one string, with a delimiter between the items. -/
structure IsDelimited (root : Json) (p : Parameter) (d : Char) : Prop where
  content : p.contentMediaType = none
  notObject : isQueryObject root p = false
  array : Schema.effectiveType root p.schema = some "array"
  together : p.explode = false
  style : (p.style = "form" ∨ p.style = "simple") ∧ d = ',' ∨
    p.style = "spaceDelimited" ∧ d = ' ' ∨ p.style = "pipeDelimited" ∧ d = '|'

namespace IsDelimited

theorem delimiter?_eq (h : IsDelimited root p d) : delimiter? p.style = some d := by
  rcases h.style with ⟨hstyle | hstyle, rfl⟩ | ⟨hstyle, rfl⟩ | ⟨hstyle, rfl⟩ <;> rw [hstyle] <;> rfl

theorem decodes (h : IsDelimited root p d) : Decodes root p := fun _ _ _ _ => by
  rw [h.delimiter?_eq]
  rfl

/-- It takes no members of an object. -/
theorem collected_eq (h : IsDelimited root p d) (table : Entries Json) :
    collected root p table = [] := by
  refine collected_of_not (fun hexploded => ?_) (fun hbracketed => ?_) table
  · exact absurd hexploded.2.1.2 (by rw [h.together]; decide)
  · exact absurd hbracketed.1 (by rw [h.notObject]; decide)

/-- What it makes of a string: the array of the pieces. -/
theorem ownValue_str (h : IsDelimited root p d) (hs : s ≠ "") :
    ownValue root p (some (.str s)) [] = some (.arr ((Text.split d s).map .str)) := by
  have hsplit : splitText d (.str s) = .arr ((Text.split d s).map .str) := by
    rw [splitText, if_neg (by simpa using hs)]
  simp [ownValue, h.content, h.notObject, h.array, h.together, h.delimiter?_eq, hsplit]

/-- **A string that is not empty** is decoded to its pieces. -/
theorem yields_split (h : IsDelimited root p d) (howns : Owns root p parameters)
    (hd : Distinct (request.sent p.location)) (hs : s ≠ "")
    (hsent : request.value? p.location p.name = some (.str s)) :
    Yields root route parameters request p (.arr ((Text.split d s).map .str)) :=
  howns.yields h.decodes hd h.collected_eq (hsent ▸ h.ownValue_str hs)

/-- **Items that are joined** are decoded to the items. -/
theorem yields_items (h : IsDelimited root p d) (howns : Owns root p parameters)
    (hd : Distinct (request.sent p.location)) (hitems : ∀ item ∈ items, d ∉ item.toList)
    (hne : Text.join d items ≠ "")
    (hsent : request.value? p.location p.name = some (.str (Text.join d items))) :
    Yields root route parameters request p (.arr (items.map .str)) := by
  have hitems' : items ≠ [] := fun hnil => hne (Text.join_eq_empty_iff.mpr (Or.inl hnil))
  rw [← congrArg (List.map Json.str) (Text.split_join hitems' hitems)]
  exact h.yields_split howns hd hne hsent

end IsDelimited

/-- **Delimited arrays are decoded to what was encoded.** Items without the delimiter come back if
their join is sent; whatever is sent, the items that it is decoded to hold no delimiter and their
join is what was sent; and the same items, sent with two styles, are decoded to the same array. -/
theorem delimited_roundTrip (hp : IsDelimited root p d) (howns : Owns root p parameters)
    (hd : Distinct (request.sent p.location)) :
    (∀ items : List String, (∀ item ∈ items, d ∉ item.toList) → Text.join d items ≠ "" →
      request.value? p.location p.name = some (.str (Text.join d items)) →
        Yields root route parameters request p (.arr (items.map .str))) ∧
    (∀ s : String, s ≠ "" → request.value? p.location p.name = some (.str s) →
      ∃ items : List String, (∀ item ∈ items, d ∉ item.toList) ∧ Text.join d items = s ∧
        Yields root route parameters request p (.arr (items.map .str))) ∧
    ∀ (root' : Json) (route' : String) (q : Parameter) (e : Char) (parameters' : List Parameter)
      (request' : Request), IsDelimited root' q e → Owns root' q parameters' →
      Distinct (request'.sent q.location) →
        ∀ items : List String, (∀ item ∈ items, d ∉ item.toList ∧ e ∉ item.toList) →
          Text.join d items ≠ "" →
          request.value? p.location p.name = some (.str (Text.join d items)) →
          request'.value? q.location q.name = some (.str (Text.join e items)) →
            ∃ value, Yields root route parameters request p value ∧
              Yields root' route' parameters' request' q value := by
  refine ⟨fun items hitems hne hsent => hp.yields_items howns hd hitems hne hsent,
    fun s hs hsent => ?_, ?_⟩
  · exact ⟨Text.split d s, fun item hitem => Text.not_mem_of_mem_split hitem, Text.join_split d s,
      hp.yields_split howns hd hs hsent⟩
  · intro root' route' q e parameters' request' hq howns' hd' items hitems hne hsent hsent'
    -- whether a join is empty does not depend on the delimiter
    have hne' : Text.join e items ≠ "" := fun hempty =>
      hne (Text.join_eq_empty_iff.mpr (Text.join_eq_empty_iff.mp hempty))
    exact ⟨_, hp.yields_items howns hd (fun item hitem => (hitems item hitem).1) hne hsent,
      hq.yields_items howns' hd' (fun item hitem => (hitems item hitem).2) hne' hsent'⟩

/-- Labels in a header, with commas, and the same labels in the query, with bars. -/
def labelsHeader : Parameter :=
  { name := "x-labels", location := .header, required := false, style := "simple", explode := false,
    allowEmptyValue := false, contentMediaType := none,
    schema := .obj [("allOf", .arr [.obj [("type", .str "array")]])] }

def labelsQuery : Parameter :=
  { labelsHeader with name := "labels", location := .query, style := "pipeDelimited" }

def labelsRequest : Request :=
  { method := "GET", route := "/t", headers := some [("X-Labels", .str "new,,10 %")],
    query := some [("page", .str "2"), ("labels", .str "new||10 %")] }

theorem delimited_labels :
    Yields .null "/t" [labelsQuery, labelsHeader] labelsRequest labelsHeader
        (.arr [.str "new", .str "", .str "10 %"]) ∧
      ∃ value, Yields .null "/t" [labelsQuery, labelsHeader] labelsRequest labelsHeader value ∧
        Yields .null "/t" [labelsHeader, labelsQuery] labelsRequest labelsQuery value := by
  have hheader : IsDelimited .null labelsHeader ',' :=
    ⟨rfl, rfl, by decide, rfl, Or.inl ⟨Or.inr rfl, rfl⟩⟩
  have hquery : IsDelimited .null labelsQuery '|' :=
    ⟨rfl, by decide, by decide, rfl, Or.inr (Or.inr ⟨rfl, rfl⟩)⟩
  have hownsHeader : Owns .null labelsHeader [labelsQuery, labelsHeader] := by
    refine ⟨[labelsQuery], [], rfl, fun q hq => ?_⟩
    obtain rfl := List.mem_singleton.mp hq
    exact ⟨hquery.decodes, fun h => by cases h⟩
  have hownsQuery : Owns .null labelsQuery [labelsHeader, labelsQuery] := by
    refine ⟨[labelsHeader], [], rfl, fun q hq => ?_⟩
    obtain rfl := List.mem_singleton.mp hq
    exact ⟨hheader.decodes, fun h => by cases h⟩
  have hdHeader : Distinct (labelsRequest.sent .header) := List.nodup_singleton _
  have hdQuery : Distinct (labelsRequest.sent .query) :=
    show (["page", "labels"] : List String).Nodup by decide
  obtain ⟨hitems, -, hstyles⟩ := delimited_roundTrip hheader hownsHeader hdHeader
  refine ⟨hitems ["new", "", "10 %"] (by decide) (by decide) (by decide), ?_⟩
  exact hstyles .null "/t" labelsQuery '|' _ labelsRequest hquery hownsQuery hdQuery
    ["new", "", "10 %"] (by decide) (by decide) (by decide) (by decide)

end Style

end RequestGate
