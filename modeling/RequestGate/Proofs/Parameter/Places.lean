import RequestGate.Proofs.Parameter.Delimited

/-!
# Every place is decoded on its own

Whether a parameter can be decoded is a matter of its declaration, and what it is decoded from is the
table of its place. For a whole list of parameters this comes to two things. What is sent has no say in
whether decoding fails: it fails at the first parameter that is an array in one string, of a style that
has no delimiter (`RequestGate.Style.LacksDelimiter`), with a fault that names this parameter
(`RequestGate.Style.decode_eq_error_iff`). And where it does not fail, the places have nothing to do
with each other: the table of a place is made from what was sent there, by the parameters that are
declared there, and it makes no difference how these are mixed with the parameters of other places
(`RequestGate.Style.decode_local`).
-/

namespace RequestGate

open Entries

namespace NormalizedRequest

/-- A request is made of its tables, and of what decoding leaves alone. -/
theorem eq_of_tables {r s : NormalizedRequest} (hmethod : r.method = s.method)
    (hroute : r.route = s.route) (hbody : r.body = s.body)
    (htables : ∀ location, r.table location = s.table location) : r = s := by
  obtain ⟨method, route, query, headers, path, cookies, body⟩ := r
  obtain rfl := hmethod
  obtain rfl := hroute
  obtain rfl := hbody
  obtain rfl : query = s.query := htables .query
  obtain rfl : headers = s.headers := htables .header
  obtain rfl : path = s.path := htables .path
  obtain rfl : cookies = s.cookies := htables .cookie
  rfl

/-- The table of a place is made from what is sent there. -/
theorem table_ofRequest_congr {request other : Request} {location : Location}
    (h : request.sent location = other.sent location) :
    (ofRequest request).table location = (ofRequest other).table location := by
  cases location with
  | header => exact congrArg (fun t => ofList (t.map fun e => (Text.asciiLower e.1, e.2))) h
  | _ => exact h

/-- **Every place is rewritten on its own**, by the parameters that are declared there. -/
theorem table_mapTables (f : Parameter → Entries Json → Entries Json) (parameters : List Parameter)
    (r : NormalizedRequest) (location : Location) :
    (mapTables f parameters r).table location =
      (Style.atPlace location parameters).foldl (fun table p => f p table) (r.table location) := by
  induction parameters generalizing r with
  | nil => rfl
  | cons p parameters ih =>
    rw [mapTables_cons, ih, Style.atPlace, Style.atPlace, List.filter_cons]
    by_cases hp : p.location = location
    · rw [if_pos (by simpa using hp), List.foldl_cons, hp, table_withTable]
    · rw [if_neg (by simpa using hp), table_withTable_of_ne _ _ hp]

end NormalizedRequest

namespace Style

variable {root : Json} {route route' : String} {p : Parameter} {table : Entries Json}
  {parameters parameters' : List Parameter} {request request' : Request}
  {decoded decoded' : NormalizedRequest}

/-! ### What cannot be decoded -/

/-- Whether a parameter is an array in one string, of a style that has no delimiter. -/
structure LacksDelimiter (root : Json) (p : Parameter) : Prop where
  content : p.contentMediaType = none
  notObject : ¬(p.location = .query ∧ Schema.isObjectLike root p.schema = true)
  array : Schema.effectiveType root p.schema = some "array"
  together : p.explode = false
  style : p.style ∉ ["simple", "form", "spaceDelimited", "pipeDelimited"]

theorem delimiter?_eq_none_iff {style : String} :
    delimiter? style = none ↔ style ∉ ["simple", "form", "spaceDelimited", "pipeDelimited"] := by
  rw [delimiter?.eq_def]
  split <;> simp_all

theorem LacksDelimiter.isQueryObject_eq (h : LacksDelimiter root p) :
    isQueryObject root p = false := by
  rw [Bool.eq_false_iff, Ne, isQueryObject_iff]
  exact fun ⟨hlocation, _, hlike⟩ => h.notObject ⟨hlocation, hlike⟩

/-- A parameter can be decoded, unless it lacks a delimiter. -/
theorem lacksDelimiter_iff : LacksDelimiter root p ↔ ¬Decodes root p := by
  constructor
  · intro h hdecodes
    have hsome := hdecodes h.content h.isQueryObject_eq h.array h.together
    rw [delimiter?_eq_none_iff.mpr h.style] at hsome
    cases hsome
  · intro h
    simp only [Decodes, Classical.not_imp] at h
    obtain ⟨hcontent, hobject, harray, htogether, hstyle⟩ := h
    refine ⟨hcontent, ?_, harray, htogether, ?_⟩
    · rintro ⟨hlocation, hlike⟩
      rw [isQueryObject_iff.mpr ⟨hlocation, hcontent, hlike⟩] at hobject
      cases hobject
    · exact delimiter?_eq_none_iff.mp (by simpa using hstyle)

instance (root : Json) : DecidablePred (LacksDelimiter root) := fun _ =>
  decidable_of_iff (_ ∧ _ ∧ _ ∧ _ ∧ _)
    ⟨fun ⟨content, notObject, array, together, style⟩ =>
      ⟨content, notObject, array, together, style⟩,
    fun h => ⟨h.content, h.notObject, h.array, h.together, h.style⟩⟩

/-- The fault names the parameter and its style. -/
theorem LacksDelimiter.decodeEntry_eq (h : LacksDelimiter root p) (table : Entries Json) :
    decodeEntry root p table = .error (.unknownStyle p.style p.name) := by
  rw [decodeEntry]
  simp [h.content, h.isQueryObject_eq, h.array, h.together, delimiter?_eq_none_iff.mpr h.style]

theorem decodeEntry_eq_error_iff {fault : StructuralFault} :
    decodeEntry root p table = .error fault ↔
      LacksDelimiter root p ∧ fault = .unknownStyle p.style p.name := by
  constructor
  · intro h
    have hlacks : LacksDelimiter root p := lacksDelimiter_iff.mpr fun hdecodes => by
      obtain ⟨next, hnext⟩ := (decodeEntry_isOk_iff table).mpr hdecodes
      cases hnext.symm.trans h
    exact ⟨hlacks, Except.error.inj (h.symm.trans (hlacks.decodeEntry_eq table))⟩
  · rintro ⟨hlacks, rfl⟩
    exact hlacks.decodeEntry_eq table

theorem decodeParameter_eq_error_iff (p : Parameter) (r : NormalizedRequest) (e : GateError) :
    decodeParameter root route p r = .error e ↔
      LacksDelimiter root p ∧ e = .structural route (.unknownStyle p.style p.name) := by
  rw [decodeParameter]
  cases hentry : decodeEntry root p (r.table p.location) with
  | ok next =>
    have hnot : ¬LacksDelimiter root p := fun h => by
      cases hentry.symm.trans (h.decodeEntry_eq _)
    simp [hnot]
  | error fault =>
    obtain ⟨hlacks, rfl⟩ := decodeEntry_eq_error_iff.mp hentry
    simp [hlacks, eq_comm]

/-- **Decoding fails at the first parameter that lacks a delimiter**, whatever is sent. -/
theorem decode_eq_error_iff {e : GateError} :
    decode root route parameters request = .error e ↔
      ∃ p, parameters.find? (fun p => LacksDelimiter root p) = some p ∧
        e = .structural route (.unknownStyle p.style p.name) :=
  foldlM_eq_error_iff fun p r e => decodeParameter_eq_error_iff p r e

/-! ### One place and the others -/

/-- **The table of a place** depends on what is sent there and declared there, and on nothing else. -/
theorem table_eq_of_decode {location : Location}
    (h : decode root route parameters request = .ok decoded)
    (h' : decode root route' parameters' request' = .ok decoded')
    (hparameters : atPlace location parameters' = atPlace location parameters)
    (hsent : request'.sent location = request.sent location) :
    decoded'.table location = decoded.table location := by
  have htable := decode_table h location
  have htable' := decode_table h' location
  rw [hparameters, NormalizedRequest.table_ofRequest_congr hsent, htable] at htable'
  exact (Except.ok.inj htable').symm

/-- Parameters that are the same at every place are the same parameters, in some order. -/
theorem mem_iff_of_atPlace
    (h : ∀ location, atPlace location parameters' = atPlace location parameters) :
    p ∈ parameters' ↔ p ∈ parameters := by
  have hplace := congrArg (p ∈ ·) (h p.location)
  simpa only [mem_atPlace, and_true, eq_iff_iff] using hplace

/-- **Parameters of different places may be mixed in any way.** -/
theorem decode_eq_of_atPlace (h : decode root route parameters request = .ok decoded)
    (hplaces : ∀ location, atPlace location parameters' = atPlace location parameters) :
    decode root route parameters' request = .ok decoded := by
  obtain ⟨decoded', h'⟩ : ∃ decoded', decode root route parameters' request = .ok decoded' :=
    decode_isOk_iff.mpr fun p hp =>
      decode_isOk_iff.mp ⟨decoded, h⟩ p ((mem_iff_of_atPlace hplaces).mp hp)
  have hsame : decoded' = decoded :=
    NormalizedRequest.eq_of_tables ((method_decode h').trans (method_decode h).symm)
      ((route_decode h').trans (route_decode h).symm) ((body_decode h').trans (body_decode h).symm)
      fun location => table_eq_of_decode h h' (hplaces location) rfl
  rw [h', hsame]

/-- Whether a request cannot be decoded, because of a fault in the document. -/
def Fails (root : Json) (route : String) (parameters : List Parameter) (request : Request) : Prop :=
  ∃ fault, decode root route parameters request = .error (.structural route fault)

theorem fails_iff :
    Fails root route parameters request ↔ ∃ p ∈ parameters, LacksDelimiter root p := by
  simp only [Fails, decode_eq_error_iff]
  constructor
  · rintro ⟨fault, p, hp, -⟩
    exact ⟨p, List.mem_of_find?_eq_some hp, by simpa using List.find?_some hp⟩
  · rintro ⟨p, hp, hlacks⟩
    have hfound : (parameters.find? fun p => LacksDelimiter root p).isSome = true :=
      List.find?_isSome.mpr ⟨p, hp, decide_eq_true hlacks⟩
    obtain ⟨first, hfirst⟩ := Option.isSome_iff_exists.mp hfound
    exact ⟨_, first, hfirst, rfl⟩

theorem exists_decode_of_not_fails (h : ¬Fails root route parameters request) :
    ∃ decoded, decode root route parameters request = .ok decoded :=
  decode_isOk_iff.mpr fun p hp => Classical.byContradiction fun hnot =>
    h (fails_iff.mpr ⟨p, hp, lacksDelimiter_iff.mpr hnot⟩)

/-- **Decoding is local to the places, and fails for every request or for none.** It fails if some
parameter lacks a delimiter, and else it succeeds. Where it succeeds it leaves method, route and body
alone; the table of a place is the same whatever is sent and declared at other places; and so is the
whole result however the parameters of different places are mixed. -/
theorem decode_local (root : Json) (route : String) (parameters : List Parameter) :
    ((∃ request, Fails root route parameters request) ↔
      ∀ request, Fails root route parameters request) ∧
    ((∃ request, Fails root route parameters request) ↔
      ∃ p ∈ parameters, LacksDelimiter root p) ∧
    (∀ request, ¬Fails root route parameters request →
      ∃ decoded, decode root route parameters request = .ok decoded) ∧
    ∀ request decoded, decode root route parameters request = .ok decoded →
      (decoded.method = request.method ∧ decoded.route = request.route ∧
        decoded.body = request.body) ∧
      (∀ location route' parameters' request' decoded',
        decode root route' parameters' request' = .ok decoded' →
        atPlace location parameters' = atPlace location parameters →
        request'.sent location = request.sent location →
          decoded'.table location = decoded.table location) ∧
      ∀ parameters', (∀ location, atPlace location parameters' = atPlace location parameters) →
        decode root route parameters' request = .ok decoded := by
  obtain ⟨any⟩ : Nonempty Request := ⟨{ method := "", route := "" }⟩
  have hsome : (∃ request, Fails root route parameters request) ↔
      ∃ p ∈ parameters, LacksDelimiter root p :=
    ⟨fun ⟨_, h⟩ => fails_iff.mp h, fun h => ⟨any, fails_iff.mpr h⟩⟩
  refine ⟨⟨fun h request => ?_, fun h => ⟨any, h any⟩⟩, hsome,
    fun request => exists_decode_of_not_fails, fun request decoded h => ⟨?_, ?_, ?_⟩⟩
  · exact fails_iff.mpr (hsome.mp h)
  · exact ⟨method_decode h, route_decode h, body_decode h⟩
  · exact fun location route' parameters' request' decoded' h' => table_eq_of_decode h h'
  · exact fun parameters' => decode_eq_of_atPlace h

/-- Numbers in the query, of a style that is known for paths only. -/
def matrixNumbers : Parameter :=
  { name := "numbers", location := .query, required := false, style := "matrix", explode := false,
    allowEmptyValue := false, contentMediaType := none,
    schema := .obj [("type", .str "array")] }

theorem decode_local_labels :
    (∃ decoded, decode .null "/t" [labelsQuery, labelsHeader] labelsRequest = .ok decoded ∧
      decode .null "/t" [labelsHeader, labelsQuery] labelsRequest = .ok decoded ∧
      decoded.body = none ∧ ∀ decoded',
        decode .null "/u" [labelsHeader] { labelsRequest with query := none } = .ok decoded' →
          decoded'.headers = decoded.headers) ∧
    ∀ request, Fails .null "/t" [labelsHeader, matrixNumbers] request := by
  obtain ⟨-, hfails, hok, hlocal⟩ := decode_local .null "/t" [labelsQuery, labelsHeader]
  obtain ⟨decoded, hdecoded⟩ := hok labelsRequest fun h =>
    absurd (hfails.mp ⟨_, h⟩) (by decide)
  obtain ⟨⟨-, -, hbody⟩, htables, hmixed⟩ := hlocal labelsRequest decoded hdecoded
  refine ⟨⟨decoded, hdecoded, hmixed _ fun location => ?_, hbody, fun decoded' h' => ?_⟩, ?_⟩
  · cases location <;> rfl
  · exact htables .header "/u" _ _ decoded' h' rfl rfl
  · obtain ⟨hevery, hlacks, -⟩ := decode_local .null "/t" [labelsHeader, matrixNumbers]
    exact hevery.mp (hlacks.mpr (by decide))

end Style

end RequestGate
