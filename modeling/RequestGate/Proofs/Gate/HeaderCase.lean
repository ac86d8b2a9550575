import RequestGate.Proofs.Gate.Serving
import RequestGate.Proofs.Validator.Assembled

/-!
# Header names in any case

Clients and the servers between them spell header names as they like. A gate reads them in two
places: the content type is that of the first header with the name, whatever its case, and everything
else works on the normalized request, in whose table the names are in lower case. So two requests that
differ at most in the case of their header names (`RequestGate.Request.SameUpToHeaderCase`) are the
same request to a gate, in whatever state its caches are
(`RequestGate.Gate.validate_of_sameUpToHeaderCase`), and nor can they be told apart by what they leave
in the caches (`RequestGate.Gate.after_of_sameUpToHeaderCase`).

The names of several headers may become one. That is no exception, since they become one for both
requests, and of their values the last one counts for both.
-/

namespace RequestGate

/-- Two requests with the same headers in the same order, but for the case of their names, and the
same in everything else. -/
structure Request.SameUpToHeaderCase (r s : Request) : Prop where
  method : r.method = s.method
  route : r.route = s.route
  query : r.query = s.query
  headers : Option.Rel
    (List.Forall₂ fun h k => Text.eqIgnoreAsciiCase h.1 k.1 = true ∧ h.2 = k.2) r.headers s.headers
  cookies : r.cookies = s.cookies
  path : r.path = s.path
  body : r.body = s.body

namespace Request.SameUpToHeaderCase

variable {r s : Request}

/-- The headers of the two requests side by side, where a request without headers has an empty
table. -/
theorem forall₂_headers (h : r.SameUpToHeaderCase s) :
    List.Forall₂ (fun h k => Text.eqIgnoreAsciiCase h.1 k.1 = true ∧ h.2 = k.2)
      (r.headers.getD []) (s.headers.getD []) := by
  have hheaders := h.headers
  generalize r.headers = hs at hheaders ⊢
  generalize s.headers = ks at hheaders ⊢
  cases hheaders with
  | some hpairs => exact hpairs
  | none => exact .nil

/-- **The content type is the same**: the first header with its name stands in the same place. -/
theorem contentType_eq (h : r.SameUpToHeaderCase s) : r.contentType = s.contentType := by
  have hnamed : ∀ a b : String × Json, Text.eqIgnoreAsciiCase a.1 b.1 = true ∧ a.2 = b.2 →
      Text.eqIgnoreAsciiCase a.1 "content-type" = Text.eqIgnoreAsciiCase b.1 "content-type" := by
    rintro a b ⟨hname, -⟩
    rw [Text.eqIgnoreAsciiCase, Text.eqIgnoreAsciiCase, beq_iff_eq.mp hname]
  rw [Request.contentType, Request.contentType, ContentType.ofHeaders, ContentType.ofHeaders]
  rcases find?_rel h.forall₂_headers hnamed with ⟨hr, hs⟩ | ⟨a, b, hr, hs, -, hvalue⟩
  · rw [hr, hs]
  · rw [hr, hs, Option.bind_some, Option.bind_some, hvalue]

theorem key_eq (h : r.SameUpToHeaderCase s) : r.key = s.key := by
  rw [Request.key, Request.key, h.method, h.route, h.contentType_eq]

/-- **The normalized requests are the same**, since header names are brought to lower case before
those that have become equal are merged. -/
theorem ofRequest_eq (h : r.SameUpToHeaderCase s) :
    NormalizedRequest.ofRequest r = NormalizedRequest.ofRequest s := by
  have hlower : (r.headers.getD []).map (fun h => (Text.asciiLower h.1, h.2)) =
      (s.headers.getD []).map fun h => (Text.asciiLower h.1, h.2) := by
    have hpairs := h.forall₂_headers
    generalize r.headers.getD [] = hs at hpairs ⊢
    generalize s.headers.getD [] = ks at hpairs ⊢
    induction hpairs with
    | nil => rfl
    | cons hpair _ ih =>
      obtain ⟨hname, hvalue⟩ := hpair
      rw [List.map_cons, List.map_cons, ih, beq_iff_eq.mp hname, hvalue]
  simp only [NormalizedRequest.ofRequest, h.method, h.route, h.query, hlower, h.path, h.cookies,
    h.body]

end Request.SameUpToHeaderCase

/-- **A validator sees of a request what is normalized**: the query that is searched for empty
values is the one that decoding starts from. -/
theorem Validator.validate_of_ofRequest_eq {r s : Request} (validator : Validator)
    (options : Options)
    (h : NormalizedRequest.ofRequest r = NormalizedRequest.ofRequest s) :
    validator.validate options r = validator.validate options s := by
  have hquery : r.query.getD [] = s.query.getD [] := congrArg NormalizedRequest.query h
  have hempty : emptyQueryItems validator.schema.parameters.query r =
      emptyQueryItems validator.schema.parameters.query s := by
    rw [emptyQueryItems, emptyQueryItems, hquery]
  have hprepare : validator.prepare r = validator.prepare s := by
    rw [prepare, prepare, Style.decode, Style.decode, h]
  simp only [validate, hprepare, hempty]

namespace Gate

variable {r s : Request}

/-- What is in a slot answers both requests alike. -/
theorem answer_of_sameUpToHeaderCase (h : r.SameUpToHeaderCase s) (options : Options)
    (slot : Option Validator) : answer options slot r = answer options slot s := by
  cases slot with
  | none => exact congrArg Except.ok h.ofRequest_eq
  | some validator => exact validator.validate_of_ofRequest_eq options h.ofRequest_eq

/-- Both requests are served from the same slot, and leave the same gate behind. -/
theorem serve_of_sameUpToHeaderCase (gate : Gate) (h : r.SameUpToHeaderCase s) :
    gate.validate r = gate.validate s := by
  have hfor : gate.validatorUnder r.key r.method r.route r.contentType =
      gate.validatorUnder s.key s.method s.route s.contentType := by
    rw [h.key_eq, h.method, h.route, h.contentType_eq]
  cases hs : gate.validatorUnder s.key s.method s.route s.contentType with
  | mk result next =>
    rw [validate_of_validatorUnder (hfor.trans hs), validate_of_validatorUnder hs]
    cases result with
    | error e => rfl
    | ok slot => exact congrArg (·, next) (answer_of_sameUpToHeaderCase h next.options slot)

/-- **The case of header names never matters.** In every state of its caches, a gate takes two
requests that differ at most in it to the same key, answers them alike, with the same normalized
request or the same error, and is in the same state afterwards. -/
theorem validate_of_sameUpToHeaderCase (gate : Gate) (h : r.SameUpToHeaderCase s) :
    r.key = s.key ∧ gate.validate r = gate.validate s :=
  ⟨h.key_eq, gate.serve_of_sameUpToHeaderCase h⟩

/-- Two headers become one, and the content type is found under either spelling. -/
theorem validate_of_sameUpToHeaderCase_merged :
    let r := { limitRequest with headers := some [("X-Trace", .str "1"), ("x-trace", .str "2"),
      ("CONTENT-TYPE", .str "text/plain")] }
    let s := { limitRequest with headers := some [("x-trace", .str "1"), ("X-TRACE", .str "2"),
      ("Content-Type", .str "text/plain")] }
    let gate := { ofDocument {} limitDocument with
      slots := [(s.key.text, { entry := some (some limitValidator) })] }
    r.key = s.key ∧ gate.validate r = gate.validate s ∧ (gate.validate s).1 =
      .ok { method := "GET", route := "/pets", query := [("limit", .num (.int 5))],
            headers := [("x-trace", .str "2"), ("content-type", .str "text/plain")] } := by
  intro r s gate
  have hsame : r.SameUpToHeaderCase s :=
    ⟨rfl, rfl, rfl, .some (.cons (by decide) (.cons (by decide) (.cons (by decide) .nil))), rfl,
      rfl, rfl⟩
  obtain ⟨hkey, hvalidate⟩ := validate_of_sameUpToHeaderCase gate hsame
  have hslot : gate.entryAt s.key.text = some (some limitValidator) :=
    (ofDocument {} limitDocument).entryAt_withSlot s.key (some limitValidator)
  have haccepted : limitValidator.validate {} s =
      .ok { method := "GET", route := "/pets", query := [("limit", .num (.int 5))],
            headers := [("x-trace", .str "2"), ("content-type", .str "text/plain")] } := by
    decide
  refine ⟨hkey, hvalidate, ?_⟩
  rw [validate_of_filled hslot]
  exact haccepted

/-- **Nor does it matter in the long run**: after histories that differ at most in the case of header
names, two gates that were the same are the same. -/
theorem after_of_sameUpToHeaderCase (gate : Gate) {history other : List Request}
    (h : List.Forall₂ Request.SameUpToHeaderCase history other) :
    gate.after history = gate.after other := by
  induction h generalizing gate with
  | nil => rfl
  | @cons r s history other hrs _ ih =>
    rw [after_cons, after_cons, gate.serve_of_sameUpToHeaderCase hrs, ih]

end Gate

end RequestGate
