import RequestGate.Proofs.Operation.Alike
import RequestGate.Proofs.Parameter.Absent
import RequestGate.Proofs.Schema.Filling
import RequestGate.Proofs.Validator.Assembled
import RequestGate.Proofs.Validator.Blame
import RequestGate.Proofs.Validator.Run
import RequestGate.Proofs.Validator.UnknownQuery

/-!
# Optional parameters that are not sent

Nothing should be said about a parameter that may be missing and is. It stays absent through all stages
of preparation if its schema declares no default (`RequestGate.Validator.staysAbsent_prepare`), and then
every item of a rejection is about something else (`RequestGate.Validator.validate_absent`). Two
conditions are needed. An object of style `deepObject` does not stay absent, but is supplied as the
empty one, and the engine has to accept that (`RequestGate.Validator.PassesEmpty`). And no other
parameter may have a name that this one takes for its own. Without them, optional parameters cause
rejections (`RequestGate.Validator.absent_blamed`).
-/

namespace RequestGate

open Entries

/-- A query parameter that a request supplies in no form. -/
structure Parameter.NotSent (root : Json) (p : Parameter) (sent : Entries Json) : Prop where
  name : p.name ∉ keys sent
  covers : ∀ key ∈ keys sent, ¬p.Covers root key

/-- A stage that leaves the place of the missing parameter as it is, and adds no other name than that of
a parameter, keeps it absent. -/
theorem Style.StaysAbsent.rewrite {root : Json} {p q : Parameter} {parameters : List Parameter}
    {sent table next : Entries Json} (h : StaysAbsent root p parameters sent table)
    (hq : q ∈ parameters) (hlocation : q.location = .query)
    (hkeys : keys next = keys table ∨ ∃ value, next = insert table q.name value)
    (hvalue : get? next p.name = get? table p.name) : StaysAbsent root p parameters sent next := by
  refine ⟨?_, fun key hkey => ?_, fun v hv => h.value v (hvalue ▸ hv)⟩
  · rcases hkeys with hkeys | ⟨value, rfl⟩
    · rw [Distinct, hkeys]
      exact h.distinct
    · exact h.distinct.insert q.name value
  · rcases hkeys with hkeys | ⟨value, rfl⟩
    · exact h.known key (hkeys ▸ hkey)
    · rcases mem_keys_insert.mp hkey with rfl | hkey
      · exact Or.inr ⟨q, hq, hlocation, rfl⟩
      · exact h.known key hkey

namespace Validator

variable {document : Document} {validator : Validator} {plan : Plan} {contentType : ContentType}
  {first : RequestSchema} {options : Options} {request : Request} {prepared : NormalizedRequest}
  {p : Parameter} {rejection : Rejection}

/-- A validator for a plan. Of the schemas no more is known than their canonical text: the predicate, and
the schema too if it comes from an artifact, may have been made for another operation. -/
structure Fits (document : Document) (plan : Plan) (contentType : ContentType) (first : RequestSchema)
    (validator : Validator) : Prop where
  parameters : validator.parameters = plan.parameters
  own : Json.Alike (plan.schemaFor document.components contentType).1.toJson validator.schema.toJson
  root : validator.predicate.schema = first.toEngineSchema document.components
  first : Json.Alike first.toJson validator.schema.toJson

/-- A validator that has been assembled fits, if no other schema has its fingerprint by accident. -/
theorem Assembled.fits {built : Options} (h : validator.Assembled built document)
    (hfingerprint : ∀ schema : RequestSchema,
      schema.fingerprint = validator.schema.fingerprint →
        Json.Alike schema.toJson validator.schema.toJson) :
    ∃ operation plan contentType first,
      Plan.assemble document built.settings.allowUnknownQueryParameters operation = .ok plan ∧
        validator.Fits document plan contentType first := by
  obtain ⟨operation, plan, contentType, hplan, -, hparameters, hschema⟩ := h.plan
  obtain ⟨first, hfirst, hcompile⟩ := h.predicate
  exact ⟨operation, plan, contentType, first, hplan, hparameters, hschema ▸ .refl _,
    by rw [Engine.eq_of_compile_eq_ok hcompile], hfingerprint first hfirst⟩

/-! ### Preparing -/

/-- **A parameter that is not sent stays absent** while a request is prepared. -/
theorem staysAbsent_prepare (hp : p.location = .query)
    (hnone : Schema.NoDefault validator.predicate.schema p.schema)
    (hd : Distinct (request.query.getD []))
    (hsent : p.NotSent validator.predicate.schema (request.query.getD []))
    (hclear : p.KeepsClear validator.predicate.schema validator.parameters)
    (h : validator.prepare request = .ok prepared) :
    Style.StaysAbsent validator.predicate.schema p validator.parameters (request.query.getD [])
      prepared.query := by
  obtain ⟨decoded, hdecoded, rfl⟩ := prepare_eq_ok_iff.mp h
  have hdecode := Style.staysAbsent_decode hp hnone hd hsent.name hsent.covers hclear hdecoded
  rw [NormalizedRequest.applyDefaults_eq, NormalizedRequest.coerceParameters_eq]
  -- the outer round over the parameters supplies defaults, the inner one coerces
  refine NormalizedRequest.mapTables_query (fun q hq hlocation table htable => ?_)
    (NormalizedRequest.mapTables_query (fun q hq hlocation table htable => ?_) hdecode)
  · refine htable.rewrite hq hlocation (Schema.keys_fillProperty_or _ _ _ _) ?_
    by_cases hname : q.name = p.name
    · obtain rfl := hclear.names q hq hlocation hname
      rw [Schema.get?_fillProperty_self (p := (q.name, q.schema)), hnone.declaredDefault?]
      cases hget : get? table q.name with
      | none => rfl
      | some v =>
        -- what decoding has put there is an empty object
        obtain ⟨-, -, rfl⟩ := htable.value v hget
        exact congrArg some hnone.fillDefaults_empty
    · exact Schema.get?_fillProperty_of_ne (p := (q.name, q.schema)) hname
  · refine htable.rewrite hq hlocation (Or.inl (keys_modify _ _ _)) ?_
    by_cases hname : q.name = p.name
    · obtain rfl := hclear.names q hq hlocation hname
      rw [get?_modify_self]
      cases hget : get? table q.name with
      | none => rfl
      | some v =>
        obtain ⟨-, -, rfl⟩ := htable.value v hget
        exact congrArg some (Schema.coerceWithin_empty _ _)
    · exact get?_modify_of_ne _ _ hname

/-! ### Refusing -/

/-- Whether a name has been sent in the query, or is that of a query parameter. -/
def Knows (validator : Validator) (sent : Entries Json) (name : String) : Prop :=
  name ∈ keys sent ∨ ∃ q ∈ validator.parameters, q.location = .query ∧ q.name = name

/-- What is reported as unknown is there, and not declared. -/
theorem exists_of_mem_unknownQueryItems {schema : LocationSchema} {item : RejectionItem}
    (h : item ∈ unknownQueryItems schema prepared) :
    ∃ name, name ∈ keys prepared.query ∧ schema.declares name = false ∧
      AtQuery name item.path := by
  rw [unknownQueryItems] at h
  split at h
  · cases h
  · obtain ⟨name, hname, rfl⟩ := List.mem_map.mp h
    obtain ⟨hkey, hundeclared⟩ := List.mem_filter.mp hname
    exact ⟨name, hkey, by simpa using hundeclared, atQuery_self name⟩

/-- What is reported as empty has been sent. -/
theorem exists_of_mem_emptyQueryItems {schema : LocationSchema} {item : RejectionItem}
    (h : item ∈ emptyQueryItems schema request) :
    ∃ name, name ∈ keys (request.query.getD []) ∧ AtQuery name item.path := by
  obtain ⟨e, he, rfl⟩ := List.mem_map.mp h
  exact ⟨e.1, List.mem_map_of_mem (List.mem_filter.mp he).1, atQuery_self e.1⟩

/-- The names that matter are those of the parameters. -/
theorem Fits.matches {allow : Bool} {operation : Operation}
    (hplan : Plan.assemble document allow operation = .ok plan)
    (h : validator.Fits document plan contentType first) :
    validator.schema.parameters.Matches validator.parameters ∧
      first.parameters.Matches validator.parameters := by
  have hown : validator.schema.parameters.Matches validator.parameters :=
    (h.parameters ▸ Plan.matches_of_assemble hplan).of_alike
      (RequestSchema.alike_of_toJson h.own).branch
  exact ⟨hown, hown.of_alike (RequestSchema.alike_of_toJson h.first.symm).branch⟩

/-- A parameter of a plan is not disturbed by others that have none of its names. -/
theorem Fits.keepsClear {allow : Bool} {operation : Operation}
    (hplan : Plan.assemble document allow operation = .ok plan)
    (h : validator.Fits document plan contentType first) (hp : p ∈ validator.parameters)
    (hquery : p.location = .query)
    (hothers : ∀ q ∈ validator.parameters, q.location = .query →
      ¬p.Covers validator.predicate.schema q.name) :
    p.KeepsClear validator.predicate.schema validator.parameters := by
  have honce := h.parameters ▸ Plan.once_of_assemble hplan
  refine ⟨honce, fun q hq hlocation hname => ?_, hothers⟩
  have hsymm : Std.Symm fun q q' : Parameter => q.location = q'.location → q.name ≠ q'.name :=
    ⟨fun _ _ hpair hl hn => hpair hl.symm hn.symm⟩
  by_contra hne
  exact honce.forall hq hp hne (hlocation.trans hquery.symm) hname

/-- Whether the empty object passes by the schema that a parameter is checked against, when a request has
been prepared in which it has been put in. The engine comes there in two steps, by way of the schemas of
the request and of the query, and has all others left. -/
def PassesEmpty (validator : Validator) (first : RequestSchema) (options : Options)
    (request : Request) (p : Parameter) : Prop :=
  ∀ prepared sub, validator.prepare request = .ok prepared →
    (p.name, sub) ∈ first.parameters.query.properties →
      Draft7.Accepts validator.predicate.formats validator.predicate.schema
        (Draft7.stepsFor validator.predicate.schema (validator.checked options prepared) - 2) sub
        (.obj [])

/-- **It passes exactly if it conforms**, where references and compositions do not lead back to
themselves: then the number of steps does not matter. -/
theorem passesEmpty_iff_conforms (hfits : validator.Fits document plan contentType first)
    (hroot : validator.predicate.schema.WellFormed)
    (hreadable : ∀ sub, (p.name, sub) ∈ first.parameters.query.properties →
      Draft7.Throughout validator.predicate.schema (Draft7.Readable validator.predicate.schema) sub)
    (hprepared : validator.prepare request = .ok prepared) :
    validator.PassesEmpty first options request p ↔
      ∀ sub, (p.name, sub) ∈ first.parameters.query.properties →
        Draft7.Conforms validator.predicate.formats validator.predicate.schema sub (.obj []) := by
  -- the empty object is one level deep, and so is the request that it stands in, at least
  have hsteps : ((Json.obj []).depth + 1) * (validator.predicate.schema.size + 1) ≤
      Draft7.stepsFor validator.predicate.schema (validator.checked options prepared) - 2 := by
    obtain ⟨r, hr⟩ := Schema.exists_prune_toInstance options.settings.removeAdditional first
      document.components prepared
    have hpos := validator.predicate.schema.size_pos
    have hdepth : 1 ≤ (validator.checked options prepared).depth := by
      rw [checked, hfits.root, hr, NormalizedRequest.toInstance, Json.depth]
      exact Nat.succ_le_succ (Nat.zero_le _)
    have hle : (1 + 1) * (validator.predicate.schema.size + 1) ≤
        ((validator.checked options prepared).depth + 1) * (validator.predicate.schema.size + 1) :=
      Nat.mul_le_mul_right _ (Nat.succ_le_succ hdepth)
    rw [show (Json.obj []).depth = 1 from rfl, Draft7.stepsFor_eq]
    omega
  have hiff : ∀ sub, (p.name, sub) ∈ first.parameters.query.properties →
      (Draft7.Conforms validator.predicate.formats validator.predicate.schema sub (.obj []) ↔
        Draft7.Accepts validator.predicate.formats validator.predicate.schema
          (Draft7.stepsFor validator.predicate.schema (validator.checked options prepared) - 2) sub
          (.obj [])) := by
    intro sub hsub
    have hbranch : (p.name, sub) ∈ (first.parameters.branch .query).properties := hsub
    have hmem : sub ∈ validator.predicate.schema.subvalues := by
      rw [hfits.root]
      exact RequestSchema.mem_subvalues_toEngineSchema hbranch
    exact Draft7.conforms_iff_accepts hroot hmem (hreadable sub hsub) (by decide) hsteps
  constructor
  · exact fun h sub hsub => (hiff sub hsub).mpr (h prepared sub hprepared hsub)
  · intro h other sub hother hsub
    obtain rfl := Except.ok.inj (hprepared.symm.trans hother)
    exact (hiff sub hsub).mp (h sub hsub)

/-- **An optional parameter that is absent is not at fault**, whatever is pruned from the query. If the
empty object is put in for it, the engine has to accept that, in the steps that it has left. -/
theorem ne_of_faulty {mode : RemoveAdditional} {formats : Draft7.Formats} {root : Json} {n steps : Nat}
    {schemas : ParameterSchemas} {parameters : List Parameter} {sent table own : Entries Json}
    {name : String} (hmatches : schemas.Matches parameters) (hp : p ∈ parameters)
    (hquery : p.location = .query) (hoptional : p.required = false)
    (hclear : p.KeepsClear root parameters)
    (hempty : Style.Supplies root p → ∀ sub, (p.name, sub) ∈ schemas.query.properties →
      Draft7.Accepts formats root steps sub (.obj []))
    (habsent : Style.StaysAbsent root p parameters sent table)
    (hpruned : Schema.pruneWithin root mode n schemas.query.toEngineSchema (.obj table) = .obj own)
    (hfaulty : schemas.query.Faulty formats root steps own name) :
    name ≠ p.name ∧
      (name ∈ keys sent ∨ ∃ q ∈ parameters, q.location = .query ∧ q.name = name) := by
  have hknown : name ∈ keys own →
      name ∈ keys sent ∨ ∃ q ∈ parameters, q.location = .query ∧ q.name = name := by
    intro hkey
    obtain ⟨e, he, rfl⟩ := List.mem_map.mp hkey
    obtain ⟨v, hv, -⟩ := Schema.exists_of_mem_pruneWithin hpruned he
    exact habsent.known e.1 (List.mem_map.mpr ⟨(e.1, v), hv, rfl⟩)
  rcases hfaulty with ⟨hrequired, -⟩ | ⟨hkey, hundeclared⟩ | ⟨sub, value, hsub, hvalue, hrejected⟩
  · rw [show schemas.query.required = _ from hmatches.requires .query] at hrequired
    obtain ⟨q, hq, rfl⟩ := List.mem_map.mp hrequired
    obtain ⟨hq, hcondition⟩ := List.mem_filter.mp hq
    rw [Bool.and_eq_true, beq_iff_eq] at hcondition
    refine ⟨fun hname => ?_, Or.inr ⟨q, hq, hcondition.1, rfl⟩⟩
    obtain rfl := hclear.names q hq hcondition.1 hname
    rw [hoptional] at hcondition
    cases hcondition.2
  · refine ⟨?_, hknown hkey⟩
    rintro rfl
    have hdeclared : schemas.query.declares p.name = true :=
      (hmatches.declares .query p.name).mpr ⟨p, hp, hquery, rfl⟩
    rw [hdeclared] at hundeclared
    cases hundeclared
  · refine ⟨?_, hknown (List.mem_map.mpr ⟨(name, value), hvalue, rfl⟩)⟩
    rintro rfl
    -- what is there has been supplied, and pruning has left it as it was
    obtain ⟨v, hv, hkept⟩ := Schema.exists_of_mem_pruneWithin hpruned hvalue
    obtain ⟨-, hsupplies, rfl⟩ := habsent.value v (get?_of_mem habsent.distinct hv)
    obtain rfl : value = .obj [] := hkept rfl
    exact hrejected (hempty hsupplies sub hsub)

/-- **Nothing is said about an optional parameter that is not sent.** Its schema declares no default, the
request supplies it in no form, and if the empty object is put in for it then that passes. Then every item
whose path is that of the parameter or below it is about another name with such a path, one that has been
sent or belongs to another parameter; names may have dots and brackets in them. -/
theorem validate_absent {allow : Bool} {operation : Operation}
    (hplan : Plan.assemble document allow operation = .ok plan)
    (hfits : validator.Fits document plan contentType first) (hp : p ∈ validator.parameters)
    (hquery : p.location = .query) (hoptional : p.required = false)
    (hnone : Schema.NoDefault validator.predicate.schema p.schema)
    (hd : Distinct (request.query.getD []))
    (hsent : p.NotSent validator.predicate.schema (request.query.getD []))
    (hothers : ∀ q ∈ validator.parameters, q.location = .query →
      ¬p.Covers validator.predicate.schema q.name)
    (hempty : Style.Supplies validator.predicate.schema p →
      validator.PassesEmpty first options request p)
    (h : validator.validate options request = .error (.badRequest rejection)) :
    ∀ item ∈ rejection.items, AtQuery p.name item.path →
      ∃ other, other ≠ p.name ∧ validator.Knows (request.query.getD []) other ∧
        AtQuery other item.path := by
  obtain ⟨hown, hmatches⟩ := hfits.matches hplan
  have hclear := hfits.keepsClear hplan hp hquery hothers
  intro item hitem hat
  obtain ⟨fault, hstructural⟩ | ⟨prepared, hprepared, hcases⟩ := validate_error_cases h
  · cases hstructural
  have habsent := staysAbsent_prepare hquery hnone hd hsent hclear hprepared
  rcases hcases with heq | heq | heq
  · obtain rfl := GateError.badRequest.inj heq
    obtain ⟨other, hkey, hundeclared, hother⟩ := exists_of_mem_unknownQueryItems hitem
    refine ⟨other, ?_, habsent.known other hkey, hother⟩
    rintro rfl
    have hdeclared : validator.schema.parameters.query.declares p.name = true :=
      (hown.declares .query p.name).mpr ⟨p, hp, hquery, rfl⟩
    rw [hdeclared] at hundeclared
    cases hundeclared
  · obtain rfl := GateError.badRequest.inj heq
    obtain ⟨other, hkey, hother⟩ := exists_of_mem_emptyQueryItems hitem
    exact ⟨other, fun hname => hsent.name (hname ▸ hkey), Or.inl hkey, hother⟩
  · obtain rfl := GateError.badRequest.inj heq
    obtain ⟨r, hr, n, hpruned⟩ := Schema.exists_prune_toInstance_query
      options.settings.removeAdditional first document.components prepared
    have hchecked : validator.checked options prepared = r.toInstance := by
      rw [checked, hfits.root, hr]
    rw [hchecked] at hitem
    rcases RequestSchema.blames_of_mem_items hfits.root hitem with hnot | ⟨other, hfaulty, hother⟩
    · exact absurd hat (hnot p.name)
    · -- the empty object has passed in as many steps as the engine had for it here
      have hpasses : Style.Supplies validator.predicate.schema p →
          ∀ sub, (p.name, sub) ∈ first.parameters.query.properties →
            Draft7.Accepts validator.predicate.formats validator.predicate.schema
              (Draft7.stepsFor validator.predicate.schema r.toInstance - 2) sub (.obj []) :=
        fun hsupplies sub hsub => hchecked ▸ hempty hsupplies prepared sub hprepared hsub
      obtain ⟨hne, hknown⟩ := ne_of_faulty hmatches hp hquery hoptional hclear hpasses habsent
        (hfits.root ▸ hpruned) hfaulty
      exact ⟨other, hne, hknown, hother⟩

end Validator

/-! ### Four objects

Three of them are supplied as empty objects if they are not sent. One of these is not accepted, another
one is taken by the fourth for a property of its own, and the last passes. -/

/-- An object parameter of the query, with one property. -/
def objectParameter (name style property : String) (sub : Json) (required : Entries Json) :
    Parameter :=
  { name, location := .query, required := false, style, explode := style == "form"
    allowEmptyValue := false
    schema := .obj ([("type", .str "object"), ("properties", .obj [(property, sub)])] ++ required)
    contentMediaType := none }

/-- It need not have its property. -/
def filterParameter : Parameter := objectParameter "filter" "deepObject" "a" (.obj []) []

/-- It must have its property. -/
def scopeParameter : Parameter :=
  objectParameter "scope" "deepObject" "a" (.obj []) [("required", .arr [.str "a"])]

/-- Its property is called like the first parameter. -/
def sortParameter : Parameter :=
  objectParameter "sort" "form" "filter" (.obj [("type", .str "string")]) []

/-- It need not have its property, and must not have another one. -/
def pageParameter : Parameter :=
  objectParameter "page" "deepObject" "size" (.obj []) [("not", .obj [("required", .arr [.str "all"])])]

/-- The operation. -/
def searchOperation : Operation :=
  let declarationOf (p : Parameter) : Json := .obj [("name", .str p.name), ("in", .str "query"),
    ("style", .str p.style), ("schema", p.schema)]
  let declaration : Json := .obj [("parameters", .arr
    ([filterParameter, scopeParameter, sortParameter, pageParameter].map declarationOf))]
  { method := .get, route := "/t", pathItem := .obj [("get", declaration)], declaration }

/-- The document that declares it. -/
def searchDocument : Document :=
  ⟨.obj [("openapi", .str "3.0.0"), ("paths", .obj [("/t", searchOperation.pathItem)])]⟩

/-- Its plan. -/
def searchPlan : Plan :=
  let parameters := [filterParameter, scopeParameter, sortParameter, pageParameter]
  { method := .get, route := "/t", parameters
    schemas :=
      { query := { LocationSchema.empty .query with
          properties := parameters.map fun p => (p.name, p.schema) } }
    requestBody := none }

/-- The schema of its requests. -/
def searchSchema : RequestSchema := ⟨searchPlan.schemas, .unconstrained⟩

/-- A request to it. -/
def searchRequest (query : Entries Json) : Request :=
  { method := "GET", route := "/t", query := some query }

/-- The validator. -/
def searchValidator : Validator :=
  searchPlan.validator searchSchema
    ⟨searchSchema.toEngineSchema searchDocument.components, Engine.formats {}⟩ (searchRequest [])

/-- What becomes of the request when it is prepared. -/
def searchPrepared (query : Entries Json) : NormalizedRequest :=
  { method := "GET", route := "/t"
    query := query ++ [("scope", .obj []), ("sort", .obj [("filter", .obj [])]), ("page", .obj [])] }

theorem searchPlan_assembled :
    Plan.assemble searchDocument false searchOperation = .ok searchPlan := by
  decide

theorem searchValidator_assembled : searchValidator.Assembled {} searchDocument := by
  refine ⟨⟨searchOperation, searchPlan, .notProvided, searchPlan_assembled, rfl, rfl,
    by decide⟩, searchSchema, rfl, ?_⟩
  have hfault : Draft7.compileFault? (Engine.formats {})
      (searchSchema.toEngineSchema searchDocument.components) = none := by
    decide
  rw [Engine.compile, hfault]
  rfl

theorem searchValidator_fits :
    searchValidator.Fits searchDocument searchPlan .notProvided searchSchema where
  parameters := rfl
  own := by
    have hschema : (searchPlan.schemaFor searchDocument.components .notProvided).1 = searchSchema := by
      decide
    rw [hschema]
    exact .refl _
  root := rfl
  first := .refl _

theorem searchValidator_prepare :
    ∀ query ∈ [[], [("page.x", .str "1")]],
      searchValidator.prepare (searchRequest query) = .ok (searchPrepared query) := by
  decide

/-- What the request is refused with that sends nothing. -/
def searchRejection : Rejection :=
  ⟨"/t", "request.query.scope must have required property 'a', request.query.sort.filter must be string",
    [⟨".query.scope.a", "must have required property 'a'",
        some "missing required property request.query.scope.a", some "required.openapi.validation"⟩,
      ⟨".query.sort.filter", "must be string", some "request.query.sort.filter must be string",
        some "type.openapi.validation"⟩]⟩

/-- No schema of the parameters declares a default. -/
theorem searchValidator_noDefault {p : Parameter} (hp : p ∈ searchValidator.parameters) :
    Schema.NoDefault searchValidator.predicate.schema p.schema := by
  let schemas : List Json := [filterParameter.schema, scopeParameter.schema, sortParameter.schema,
    pageParameter.schema, .obj [], .obj [("type", .str "string")]]
  have hleads : ∀ s ∈ schemas, Schema.reference? s = none ∧ (Schema.shape s).members = [] ∧
      (∀ e ∈ (s.getObj? "properties").getD [], e.2 ∈ schemas) ∧ s.get? "default" = none := by
    decide
  have hstart : ∀ p ∈ searchValidator.parameters, p.schema ∈ schemas := by decide
  refine Schema.noDefault_of_closed (P := (· ∈ schemas)) (hstart p hp) (fun s reference t hs href _ => ?_)
    (fun s t hs ht => ?_) (fun s table hs hshape e he => ?_) fun s hs => (hleads s hs).2.2.2
  · rw [(hleads s hs).1] at href
    cases href
  · rw [(hleads s hs).2.1] at ht
    cases ht
  · refine (hleads s hs).2.2.1 e ?_
    rw [Schema.getObj?_of_shape hshape]
    exact he

/-- A parameter of style `deepObject` takes no name for its own that is not in brackets. -/
theorem not_covers_search {p : Parameter}
    (hp : p ∈ [filterParameter, scopeParameter, pageParameter]) {key : String}
    (hkey : key ∈ ["filter", "scope", "sort", "page", "scope.y", "page.x"]) (root : Json) :
    ¬p.Covers root key := by
  have hbracket : ∀ p ∈ [filterParameter, scopeParameter, pageParameter],
      ∀ key ∈ ["filter", "scope", "sort", "page", "scope.y", "page.x"],
        (Style.bracketed? p.name key).isSome = false ∧ p.style = "deepObject" := by
    decide
  obtain ⟨hnone, hstyle⟩ := hbracket p hp key hkey
  rintro ⟨-, -, -, ⟨hform, -⟩ | ⟨-, hinner⟩⟩
  · rw [hstyle] at hform
    exact absurd hform (by decide)
  · rw [Style.bracketed?_isSome_iff.mpr hinner] at hnone
    cases hnone

/-- A key with a dot in it is not a form of any of the parameters. -/
theorem notSent_search {p : Parameter} (hp : p ∈ searchValidator.parameters) :
    p.NotSent searchValidator.predicate.schema [] ∧
      p.NotSent searchValidator.predicate.schema [("scope.y", .str "1")] := by
  have hname : ∀ p ∈ searchValidator.parameters, p.name ≠ "scope.y" := by decide
  have hcovers : ∀ p ∈ searchValidator.parameters,
      ¬p.Covers searchValidator.predicate.schema "scope.y" := by
    intro p hp
    by_cases hsort : p = sortParameter
    · subst hsort
      rintro ⟨-, -, -, ⟨-, -, -, hkey⟩ | ⟨hdeep, -⟩⟩
      · revert hkey
        decide
      · exact absurd hdeep (by decide)
    · have hdeep : p ∈ [filterParameter, scopeParameter, pageParameter] := by
        have hall : ∀ p ∈ searchValidator.parameters, p ≠ sortParameter →
            p ∈ [filterParameter, scopeParameter, pageParameter] := by
          decide
        exact hall p hp hsort
      exact not_covers_search hdeep (by simp) _
  refine ⟨⟨List.not_mem_nil, fun _ hkey => absurd hkey List.not_mem_nil⟩, ?_, fun key hkey => ?_⟩
  · simpa using hname p hp
  · obtain rfl : key = "scope.y" := by simpa using hkey
    exact hcovers p hp

/-- A name that only looks like a part of the page does not supply it. -/
theorem notSent_page {query : Entries Json} (hquery : query ∈ [[], [("page.x", .str "1")]]) :
    Distinct query ∧ pageParameter.NotSent searchValidator.predicate.schema query := by
  have hkeys : ∀ query ∈ ([[], [("page.x", .str "1")]] : List (Entries Json)),
      (keys query).Nodup ∧ ∀ key ∈ keys query, key = "page.x" := by
    decide
  obtain ⟨hd, hall⟩ := hkeys query hquery
  refine ⟨hd, fun hkey => absurd (hall _ hkey) (by decide), fun key hkey => ?_⟩
  rw [hall key hkey]
  exact not_covers_search (by simp) (by simp) _

/-- The engine accepts the empty page, because it has no `all`. -/
theorem passesEmpty_page {query : Entries Json} (hquery : query ∈ [[], [("page.x", .str "1")]]) :
    searchValidator.PassesEmpty searchSchema {} (searchRequest query) pageParameter := by
  intro prepared sub hprepared hsub
  have hschema : ∀ e ∈ searchSchema.parameters.query.properties, e.1 = "page" →
      e.2 = pageParameter.schema := by
    decide
  obtain rfl : sub = pageParameter.schema := hschema _ hsub rfl
  obtain rfl := Except.ok.inj (hprepared.symm.trans (searchValidator_prepare query hquery))
  revert query
  decide

namespace Validator

/-- The empty page is put in, and the engine accepts it. If a name is sent that looks like a part of it,
then something is said at the path of the page, and it is about this name. -/
theorem validate_absent_search :
    (∃ rejection, searchValidator.validate {} (searchRequest []) = .error (.badRequest rejection) ∧
      ∀ item ∈ rejection.items, AtQuery "page" item.path →
        ∃ other, other ≠ "page" ∧ searchValidator.Knows [] other ∧ AtQuery other item.path) ∧
    ∃ rejection, searchValidator.validate {} (searchRequest [("page.x", .str "1")]) =
        .error (.badRequest rejection) ∧
      (∃ item ∈ rejection.items, AtQuery "page" item.path) ∧
      ∀ item ∈ rejection.items, AtQuery "page" item.path →
        ∃ other, other ≠ "page" ∧ searchValidator.Knows [("page.x", .str "1")] other ∧
          AtQuery other item.path := by
  have hp : pageParameter ∈ searchValidator.parameters := by decide
  have hothers : ∀ q ∈ searchValidator.parameters, q.location = .query →
      ¬pageParameter.Covers searchValidator.predicate.schema q.name := by
    intro q hq _
    have hname : ∀ q ∈ searchValidator.parameters,
        q.name ∈ ["filter", "scope", "sort", "page", "scope.y", "page.x"] := by
      decide
    exact not_covers_search (by simp) (hname q hq) _
  have hblame : ∀ query ∈ [[], [("page.x", .str "1")]], ∀ rejection,
      searchValidator.validate {} (searchRequest query) = .error (.badRequest rejection) →
        ∀ item ∈ rejection.items, AtQuery "page" item.path →
          ∃ other, other ≠ "page" ∧ searchValidator.Knows query other ∧
            AtQuery other item.path := by
    intro query hquery rejection h
    have hd : Distinct ((searchRequest query).query.getD []) := (notSent_page hquery).1
    exact validate_absent searchPlan_assembled searchValidator_fits hp rfl rfl
      (searchValidator_noDefault hp) hd (notSent_page hquery).2 hothers
      (fun _ => passesEmpty_page hquery) h
  have hnothing : searchValidator.validate {} (searchRequest []) =
      .error (.badRequest searchRejection) := by
    decide
  have hunknown : searchValidator.validate {} (searchRequest [("page.x", .str "1")]) =
      .error (.badRequest (.ofItems "/t"
        [.brief ".query.page.x" "Unknown query parameter 'page.x'"])) := by
    decide
  exact ⟨⟨_, hnothing, hblame _ (by simp) _ hnothing⟩, _, hunknown,
    ⟨_, List.mem_singleton_self _, ".x", by simp, Or.inl (by decide)⟩,
    hblame _ (by simp) _ hunknown⟩

/-- **Optional parameters that are not sent cause rejections**: one is supplied as the empty object and
not accepted, and one takes this object for its property. And an undeclared key may look like a part of a
parameter. -/
theorem absent_blamed :
    searchValidator.Assembled {} searchDocument ∧
      (∀ p ∈ searchValidator.parameters, p.location = .query ∧ p.required = false ∧
        Schema.NoDefault searchValidator.predicate.schema p.schema ∧
        p.NotSent searchValidator.predicate.schema [] ∧
        p.NotSent searchValidator.predicate.schema [("scope.y", .str "1")]) ∧
      (∃ r, searchValidator.validate {} (searchRequest []) = .error (.badRequest r) ∧
        ∀ name ∈ ["scope", "sort"], ∃ item ∈ r.items, AtQuery name item.path) ∧
      ∃ r, searchValidator.validate {} (searchRequest [("scope.y", .str "1")]) =
          .error (.badRequest r) ∧
        ∃ item ∈ r.items, AtQuery "scope" item.path := by
  have hquery : ∀ p ∈ searchValidator.parameters, p.location = .query ∧ p.required = false := by
    decide
  refine ⟨searchValidator_assembled, fun p hp => ⟨(hquery p hp).1, (hquery p hp).2,
    searchValidator_noDefault hp, notSent_search hp⟩, ⟨searchRejection, by decide, ?_⟩,
    ⟨.ofItems "/t" [.brief ".query.scope.y" "Unknown query parameter 'scope.y'"], by decide,
      _, List.mem_singleton_self _, ".y", by simp, Or.inl (by decide)⟩⟩
  intro name hname
  simp only [List.mem_cons, List.not_mem_nil, or_false] at hname
  rcases hname with rfl | rfl
  · exact ⟨_, List.mem_cons_self, ".a", by simp, Or.inl (by decide)⟩
  · exact ⟨_, List.mem_cons_of_mem _ List.mem_cons_self, ".filter", by simp,
      Or.inl (by decide)⟩

end Validator

end RequestGate
