import RequestGate.Proofs.Validator.Run
import RequestGate.Proofs.Wording

/-!
# Rejections, item by item

A request is rejected with a list of items and a summary of them in one line. Nothing that is found is left
out of either: every error of the schema has its items, those of several errors follow each other in the
order of the errors, and the summary joins one part for each item
(`RequestGate.Rejection.items_and_summary`). Members that are not declared have an item each, under their
own paths.

A validator rejects requests in three of its stages. Whichever it is, the rejection is a 400, it names the
route of the validator, and it has an item, since no stage refuses a request that it has nothing against.
-/

namespace RequestGate

/-! ### What a summary shows -/

/-- Whether a part of a summary shows an item: its message, alone or behind a place in the request. -/
def RejectionItem.ShownBy (item : RejectionItem) (part : String) : Prop :=
  part = item.message ∨ ∃ path, part = "request" ++ path ++ " " ++ item.message

namespace Rejection

variable {rejection : Rejection} {route : String} {items : List RejectionItem}
  {errors : List SchemaError}

/-- Whether a rejection has an item, and a summary that shows all items in order and nothing else. -/
structure Itemized (rejection : Rejection) : Prop where
  items : rejection.items ≠ []
  summary : ∃ parts, List.Forall₂ RejectionItem.ShownBy rejection.items parts ∧
    rejection.summary = String.intercalate ", " parts

theorem itemized_ofItems (h : items ≠ []) : (ofItems route items).Itemized where
  items := h
  summary := ⟨items.map RejectionItem.message,
    List.forall₂_map_right_iff.mpr (List.forall₂_same.mpr fun _ _ => Or.inl rfl), rfl⟩

theorem shownBy_part (e : SchemaError) :
    List.Forall₂ RejectionItem.ShownBy e.items (e.items.map e.part) :=
  List.forall₂_map_right_iff.mpr (List.forall₂_same.mpr fun _ _ => Or.inr ⟨_, rfl⟩)

theorem itemized_ofErrors (h : errors ≠ []) : (ofErrors route errors).Itemized where
  items := by
    obtain ⟨e, rest, rfl⟩ := List.exists_cons_of_ne_nil h
    rw [items_ofErrors, List.flatMap_cons]
    exact List.append_ne_nil_of_left_ne_nil e.items_ne_nil _
  summary := by
    refine ⟨errors.flatMap fun e => e.items.map e.part, ?_, summary_ofErrors route errors⟩
    rw [items_ofErrors]
    exact List.rel_flatMap (List.forall₂_same.mpr fun e _ => rfl) fun e e' he => he ▸ shownBy_part e

end Rejection

namespace Validator

variable {validator : Validator} {options : Options} {request : Request} {rejection : Rejection}

/-- **Every rejection of a validator** names its route, and has an item. -/
theorem itemized_of_validate (h : validator.validate options request = .error (.badRequest rejection)) :
    rejection.route = validator.route ∧ rejection.Itemized := by
  obtain ⟨fault, hfault⟩ | ⟨prepared, -, hstage⟩ := validate_error_stages h
  · cases hfault
  · obtain ⟨hne, heq⟩ | ⟨hne, heq⟩ | ⟨hne, heq⟩ := hstage <;> obtain rfl := GateError.badRequest.inj heq
    · exact ⟨rfl, Rejection.itemized_ofItems hne⟩
    · exact ⟨rfl, Rejection.itemized_ofItems hne⟩
    · exact ⟨rfl, Rejection.itemized_ofErrors hne⟩

end Validator

/-- **Rejections leave nothing out and keep the order.** The items for two lists of errors are those for the
first and then those for the second; every error has an item, and one for each undeclared member that it
names, with the path of this member; and the summary joins one part for each item, in the order of the
items. A rejection of a validator has the status 400, the route of the validator, an item, and such a
summary. -/
theorem Rejection.items_and_summary (route : String) (es₁ es₂ : List SchemaError) :
    (ofErrors route (es₁ ++ es₂)).items =
        (ofErrors route es₁).items ++ (ofErrors route es₂).items ∧
    (∀ e : SchemaError, (ofErrors route [e]).items = e.items ∧ e.items ≠ [] ∧
      (e.keyword = "additionalProperties" → e.items.map RejectionItem.path =
        if e.unexpectedProperties = [] then [dottedPath e.instancePath]
        else e.unexpectedProperties.map fun name => dottedPath e.instancePath ++ "." ++ name)) ∧
    (∀ errors : List SchemaError,
      (ofErrors route errors).items = errors.flatMap SchemaError.items ∧
      (ofErrors route errors).summary =
        String.intercalate ", " (errors.flatMap fun e => e.items.map e.part)) ∧
    ∀ (validator : Validator) (options : Options) (request : Request) (rejection : Rejection),
      validator.validate options request = .error (.badRequest rejection) →
        (GateError.badRequest rejection).status = 400 ∧
        rejection.toJson.get? "statusCode" = some (Json.ofInt 400) ∧
        rejection.route = validator.route ∧ rejection.Itemized := by
  refine ⟨?_, fun e => ⟨?_, e.items_ne_nil, SchemaError.map_path_items_of_additional⟩,
    fun errors => ⟨items_ofErrors route errors, summary_ofErrors route errors⟩,
    fun validator options request rejection h => ?_⟩
  · rw [items_ofErrors, items_ofErrors, items_ofErrors, List.flatMap_append]
  · rw [items_ofErrors, List.flatMap_singleton]
  · obtain ⟨hroute, hitemized⟩ := validator.itemized_of_validate h
    exact ⟨rfl, rfl, hroute, hitemized⟩

/-- The error of two members of a body that are not declared. -/
def undeclaredPair : SchemaError where
  keyword := "additionalProperties"
  instancePath := "/body"
  schemaPath := "/properties/body/additionalProperties"
  keywordValue := some (.bool false)
  missingProperty := none
  unexpectedProperties := ["a", "b"]
  message := "unexpected members"

/-- Any body that is an object without members. -/
def closedSchema : RequestSchema :=
  -- without `properties` the engine would refuse the body as a whole, and name no member
  ⟨{}, .obj [("properties", .obj []), ("additionalProperties", .bool false)], true⟩

def closedValidator : Validator where
  key := .ofClass "POST" "/notes" "application/json"
  method := "POST"
  route := "/notes"
  contentClass := "application/json"
  mediaType := some "application/json"
  origin := .live
  parameters := []
  schema := closedSchema
  fingerprint := closedSchema.fingerprint
  predicate := ⟨closedSchema.toEngineSchema (.obj []), Engine.formats {}⟩

/-- A request with the members of `RequestGate.undeclaredPair` in its body. -/
def pairRequest : Request where
  method := "POST"
  route := "/notes"
  body := some (.obj [("a", .null), ("b", .null)])

/-- Two members that are refused are two items of the rejection. -/
theorem Rejection.items_and_summary_pairRequest :
    undeclaredPair.items.map RejectionItem.path = [".body.a", ".body.b"] ∧
    ∃ rejection, closedValidator.validate {} pairRequest = .error (.badRequest rejection) ∧
      rejection.items.map RejectionItem.path = [".body.a", ".body.b"] ∧
      rejection.route = "/notes" ∧ rejection.Itemized := by
  have hvalidate : closedValidator.validate {} pairRequest =
      .error (.badRequest (.ofErrors "/notes" [undeclaredPair])) := by
    decide
  obtain ⟨-, herror, -, hrejection⟩ := Rejection.items_and_summary "/notes" [undeclaredPair] []
  obtain ⟨hitems, -, hpaths⟩ := herror undeclaredPair
  have hpair : undeclaredPair.items.map RejectionItem.path = [".body.a", ".body.b"] :=
    hpaths rfl
  obtain ⟨-, -, hroute, hitemized⟩ := hrejection closedValidator {} _ _ hvalidate
  exact ⟨hpair, _, hvalidate, by rw [hitems, hpair], hroute, hitemized⟩

end RequestGate
