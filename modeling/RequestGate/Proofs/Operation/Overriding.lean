import RequestGate.Proofs.Json.WellFormed
import RequestGate.Proofs.Parameter.Assembly
import RequestGate.Proofs.Schema.Chain

/-!
# Parameters of an operation in place of those of its path

An operation has the parameters of its path, but for those that it declares anew. Whether two
declarations are for the same parameter is asked twice: when the two lists are put together, and again
when no name may be used twice. The first time the declarations are compared as they are written, the
second time by the place and the name under which they are kept (`RequestGate.Parameter.key?`), and
names of headers are kept in small letters.

So a parameter that is declared by path and operation in one spelling is the operation's; one that is
written in two ways is not overridden, and refused as a repetition
(`RequestGate.Plan.overrides_iff`).
-/

namespace RequestGate

theorem filter_eq_singleton {α β : Type*} [DecidableEq β] {f : α → β} {l : List α} {a : α}
    (hd : (l.map f).Nodup) (ha : a ∈ l) : l.filter (fun b => f b = f a) = [a] := by
  induction l with
  | nil => cases ha
  | cons b l ih =>
    obtain ⟨hb, hl⟩ := List.nodup_cons.mp hd
    rw [List.filter_cons]
    rcases List.mem_cons.mp ha with rfl | ha
    · have hnone : l.filter (fun b => f b = f a) = [] := by
        refine List.filter_eq_nil_iff.mpr fun c hc hsame => hb ?_
        exact of_decide_eq_true hsame ▸ List.mem_map_of_mem hc
      simp [hnone]
    · have hne : f b ≠ f a := fun hsame => hb (hsame ▸ List.mem_map_of_mem ha)
      simp [hne, ih hl ha]

theorem eq_of_nodup_filterMap {α β : Type*} {f : α → Option β} {l : List α} {a b : α}
    (hd : (l.filterMap f).Nodup) (ha : a ∈ l) (hb : b ∈ l) (hab : f a = f b) (hsome : f b ≠ none) :
    a = b := by
  induction l with
  | nil => cases ha
  | cons c l ih =>
    obtain ⟨k, hk⟩ := Option.ne_none_iff_exists'.mp hsome
    rw [List.filterMap_cons] at hd
    have hmem : ∀ d ∈ l, f d = some k → k ∈ l.filterMap f :=
      fun d hd' hdk => List.mem_filterMap.mpr ⟨d, hd', hdk⟩
    rcases List.mem_cons.mp ha with rfl | ha'
    · rcases List.mem_cons.mp hb with rfl | hb'
      · rfl
      · rw [hab, hk] at hd
        exact absurd (hmem b hb' hk) (List.nodup_cons.mp hd).1
    · rcases List.mem_cons.mp hb with rfl | hb'
      · rw [hk] at hd
        exact absurd (hmem a ha' (hab.trans hk)) (List.nodup_cons.mp hd).1
      · refine ih ?_ ha' hb'
        split at hd
        · exact hd
        · exact (List.nodup_cons.mp hd).2

namespace Parameter

variable {route name : String} {declaration a b : Json} {p q : Parameter} {location : Location}

/-- The place and the name under which a parameter is kept. -/
def key (p : Parameter) : Location × String := (p.location, p.name)

/-- The place and the name under which a declared parameter is kept, if it has a place. -/
def key? (declaration : Json) : Option (Location × String) :=
  (Location.ofName? ((declaration.getStr? "in").getD "")).map fun location =>
    (location, storedName location ((declaration.getStr? "name").getD ""))

theorem key?_of_ofDeclaration (h : ofDeclaration route declaration = .ok p) :
    key? declaration = some p.key := by
  rw [ofDeclaration] at h
  dsimp only at h
  split at h
  · rename_i location hlocation
    split at h
    · obtain rfl := Except.ok.inj h
      rw [key?, hlocation]
      rfl
    · cases h
  · cases h

/-- A declaration without a parameter lacks a place or a schema. -/
theorem fault_of_ofDeclaration {e : GateError} (h : ofDeclaration route declaration = .error e) :
    ∃ name, (∃ place, e = .structural route (.unknownLocation place name)) ∨
      e = .structural route (.noSchema name) := by
  rw [ofDeclaration] at h
  dsimp only at h
  split at h
  · split at h
    · cases h
    · exact ⟨_, Or.inr (Except.error.inj h).symm⟩
  · exact ⟨_, Or.inl ⟨_, (Except.error.inj h).symm⟩⟩

theorem ofName?_eq_some_iff {text : String} :
    Location.ofName? text = some location ↔ text = location.name := by
  constructor
  · intro h
    unfold Location.ofName? at h
    split at h <;> cases h <;> rfl
  · rintro rfl
    exact Location.ofName?_name location

theorem key?_eq_some_iff : key? declaration = some (location, name) ↔
    declaration.getStr? "in" = some location.name ∧
      storedName location ((declaration.getStr? "name").getD "") = name := by
  have hempty : location.name ≠ "" := by cases location <;> decide
  rw [key?, Option.map_eq_some_iff]
  constructor
  · rintro ⟨place, hplace, hpair⟩
    obtain ⟨rfl, rfl⟩ := Prod.mk.inj hpair
    refine ⟨?_, rfl⟩
    have htext := ofName?_eq_some_iff.mp hplace
    cases hin : declaration.getStr? "in" with
    | none => exact absurd (hin ▸ htext).symm hempty
    | some text => rw [← htext, hin, Option.getD_some]
  · rintro ⟨hin, rfl⟩
    exact ⟨location, by rw [hin, Option.getD_some, Location.ofName?_name], rfl⟩

/-- Two parameters in one list are the same if they have one key. -/
theorem nodup_keys_iff {parameters : List Parameter} :
    (parameters.map key).Nodup ↔
      parameters.Pairwise fun p q => p.location = q.location → p.name ≠ q.name := by
  rw [List.Nodup, List.pairwise_map]
  simp only [key, ne_eq, Prod.mk.injEq, not_and]

end Parameter

namespace Document

open Parameter

variable {document : Document} {operation : Operation} {route : String} {a b p o : Json}
  {ofPath own : List Json}

/-- What is the same is the same text, or no text. -/
theorem getStr?_of_sameMember {key : String} (h : sameMember a b key = true) :
    a.getStr? key = b.getStr? key := by
  rw [sameMember] at h
  rw [Json.getStr?, Json.getStr?]
  split at h
  · rename_i x y hx hy
    rw [hx, hy, Option.bind_some, Option.bind_some]
    cases x <;> cases y <;> simp_all [Json.same, Json.str?]
  · rename_i hx hy
    rw [hx, hy]
  · cases h

/-- Declarations that are the same as they are written have the same key. -/
theorem key?_of_sameParameter (h : sameParameter a b = true) : key? a = key? b := by
  obtain ⟨hname, hplace⟩ := (Bool.and_eq_true _ _).mp h
  rw [key?, key?, getStr?_of_sameMember hname, getStr?_of_sameMember hplace]

/-! ### Faults that are no repetition -/

/-- Whether an error says that a name is used twice. -/
def IsRepetition (e : GateError) : Prop :=
  ∃ route name location, e = .structural route (.duplicateParameter name location)

theorem fault_of_dereferenceWithin {n : Nat} {value : Json} {fault : StructuralFault}
    (h : dereferenceWithin document n value = .error fault) :
    (∃ reference, fault = .danglingReference reference) ∨
      fault = .referenceChainTooLong Schema.maxHops := by
  induction n generalizing value with
  | zero => exact Or.inr (Except.error.inj h).symm
  | succ n ih =>
    rw [dereferenceWithin] at h
    split at h
    · cases h
    · split at h
      · exact ih h
      · exact Or.inl ⟨_, (Except.error.inj h).symm⟩

theorem not_isRepetition_of_dereference {value : Json} {e : GateError}
    (h : document.dereference route value = .error e) : ¬ IsRepetition e := by
  obtain ⟨fault, hfault, rfl⟩ := mapError_eq_error_iff.mp h
  rintro ⟨_, _, _, he⟩
  obtain ⟨-, rfl⟩ := GateError.structural.inj he
  rcases fault_of_dereferenceWithin hfault with ⟨_, hf⟩ | hf <;> cases hf

theorem not_isRepetition_of_ownParameters {holder : Json} {e : GateError}
    (h : document.ownParameters route holder = .error e) : ¬ IsRepetition e := by
  rw [ownParameters] at h
  split at h
  · cases h
  · obtain ⟨value, -, hvalue⟩ := exists_of_mapM_eq_error h
    exact not_isRepetition_of_dereference hvalue
  · rintro ⟨_, _, _, he⟩
    rw [← Except.error.inj h] at he
    cases he

theorem parameters_eq_ok_iff {declarations : List Json} :
    document.parameters operation = .ok declarations ↔
      ∃ ofPath own, document.ownParameters operation.route operation.pathItem = .ok ofPath ∧
        document.ownParameters operation.route operation.declaration = .ok own ∧
        (ofPath.filter fun p => !own.any (sameParameter p)) ++ own = declarations := by
  constructor
  · intro h
    obtain ⟨ofPath, hpath, h⟩ := bind_eq_ok_iff.mp h
    obtain ⟨own, hown, h⟩ := bind_eq_ok_iff.mp h
    exact ⟨ofPath, own, hpath, hown, Except.ok.inj h⟩
  · rintro ⟨ofPath, own, hpath, hown, rfl⟩
    exact bind_eq_ok_iff.mpr ⟨ofPath, hpath, bind_eq_ok_iff.mpr ⟨own, hown, rfl⟩⟩

theorem not_isRepetition_of_parameters {e : GateError}
    (h : document.parameters operation = .error e) : ¬ IsRepetition e := by
  rcases bind_eq_error_iff.mp h with hpath | ⟨ofPath, -, h⟩
  · exact not_isRepetition_of_ownParameters hpath
  · rcases bind_eq_error_iff.mp h with hown | ⟨own, -, h⟩
    · exact not_isRepetition_of_ownParameters hown
    · cases h

theorem not_isRepetition_of_requestBody {e : GateError}
    (h : document.requestBody operation = .error e) : ¬ IsRepetition e := by
  rw [requestBody] at h
  split at h
  · cases h
  · rename_i body hbody
    cases hderef : document.dereference operation.route body with
    | ok value =>
      rw [hderef] at h
      cases h
    | error e' =>
      rw [hderef] at h
      exact Except.error.inj h ▸ not_isRepetition_of_dereference hderef

/-! ### What is declared, and how it is spelled -/

/-- Whether no two declarations of a path item or an operation, references followed, are for one
parameter. -/
def DeclaresOnce (document : Document) (route : String) (holder : Json) : Prop :=
  ∀ declarations, document.ownParameters route holder = .ok declarations →
    (declarations.filterMap key?).Nodup

/-- Whether every declaration that an operation is left with describes a parameter. -/
def Describes (document : Document) (operation : Operation) : Prop :=
  ∃ declarations parameters, document.parameters operation = .ok declarations ∧
    declarations.mapM (ofDeclaration operation.route) = .ok parameters

/-- Whether parameters that path and operation both declare are written in the same way in both. -/
def SpelledAlike (document : Document) (operation : Operation) : Prop :=
  ∀ ofPath own, document.ownParameters operation.route operation.pathItem = .ok ofPath →
    document.ownParameters operation.route operation.declaration = .ok own →
      ∀ p ∈ ofPath, ∀ o ∈ own, ∀ k, key? p = some k → key? o = some k → sameParameter p o = true

/-- **What can be written in two ways**: the name of a header, in letters of either case, and a name
that is none. -/
theorem spelledApart_cases {location : Location} {name : String} (hp : key? p = some (location, name))
    (ho : key? o = some (location, name)) (h : sameParameter p o = false) :
    (location = .header ∧ ∃ s t, p.getStr? "name" = some s ∧ o.getStr? "name" = some t ∧ s ≠ t ∧
        Text.asciiLower s = Text.asciiLower t) ∨
      p.getStr? "name" = none ∨ o.getStr? "name" = none := by
  obtain ⟨hpPlace, hpName⟩ := key?_eq_some_iff.mp hp
  obtain ⟨hoPlace, hoName⟩ := key?_eq_some_iff.mp ho
  have hplace : sameMember p o "in" = true := by
    rw [sameMember, Json.get?_of_getStr? hpPlace, Json.get?_of_getStr? hoPlace]
    simp [Json.same]
  have hname : sameMember p o "name" = false := by
    rwa [sameParameter, hplace, Bool.and_true] at h
  cases hs : p.getStr? "name" with
  | none => exact Or.inr (Or.inl rfl)
  | some s =>
    cases ht : o.getStr? "name" with
    | none => exact Or.inr (Or.inr rfl)
    | some t =>
      have hne : s ≠ t := by
        rintro rfl
        rw [sameMember, Json.get?_of_getStr? hs, Json.get?_of_getStr? ht] at hname
        simp [Json.same] at hname
      rw [hs, Option.getD_some] at hpName
      rw [ht, Option.getD_some] at hoName
      have hstored := hpName.trans hoName.symm
      -- names are stored as they are written, except for those of headers
      by_cases hheader : location = .header
      · subst hheader
        exact Or.inl ⟨rfl, s, t, rfl, rfl, hne, hstored⟩
      · rw [storedName, storedName, if_neg hheader, if_neg hheader] at hstored
        exact absurd hstored hne

end Document

namespace Plan

open Document Parameter

variable {document : Document} {operation : Operation} {declarations : List Json}
  {parameters : List Parameter} {route : String}

/-- The keys of parameters are those of their declarations. -/
theorem filterMap_key?_of_mapM (h : declarations.mapM (ofDeclaration route) = .ok parameters) :
    declarations.filterMap key? = parameters.map key := by
  induction mapM_eq_ok_iff.mp h with
  | nil => rfl
  | @cons d p declarations parameters hd hrest ih =>
    rw [List.filterMap_cons, key?_of_ofDeclaration hd, List.map_cons,
      ih (mapM_eq_ok_iff.mpr hrest)]

/-- **When a repetition is reported**: all is found and describes parameters, of which two have one
key. -/
theorem exists_isRepetition_iff (allow : Bool) :
    (∃ e, assemble document allow operation = .error e ∧ IsRepetition e) ↔
      ∃ declarations parameters, document.parameters operation = .ok declarations ∧
        declarations.mapM (ofDeclaration operation.route) = .ok parameters ∧
        ¬ (parameters.map key).Nodup := by
  constructor
  · rintro ⟨e, h, he⟩
    -- the first two stages and the body fail for other reasons, so it was the assembly
    rcases bind_eq_error_iff.mp h with hfault | ⟨declarations, hdeclarations, h⟩
    · exact absurd he (not_isRepetition_of_parameters hfault)
    rcases bind_eq_error_iff.mp h with hfault | ⟨parameters, hparameters, h⟩
    · obtain ⟨d, -, hd⟩ := exists_of_mapM_eq_error hfault
      obtain ⟨_, _, _, rfl⟩ := he
      obtain ⟨_, ⟨_, hne⟩ | hne⟩ := fault_of_ofDeclaration hd <;> cases hne
    refine ⟨declarations, parameters, hdeclarations, hparameters, ?_⟩
    rw [nodup_keys_iff]
    rcases assemble_cases (Document.schemaRoot document.components) allow operation.route parameters
      with ⟨schemas, hschemas, -⟩ | ⟨p, -, -, hrepeats⟩
    · dsimp only at h
      rw [hschemas] at h
      rcases bind_eq_error_iff.mp h with hfault | ⟨body, -, h⟩
      · cases hfault
      · rcases bind_eq_error_iff.mp h with hfault | ⟨body, -, h⟩
        · exact absurd he (not_isRepetition_of_requestBody hfault)
        · cases h
    · exact hrepeats
  · rintro ⟨declarations, parameters, hdeclarations, hparameters, hrepeats⟩
    rw [nodup_keys_iff] at hrepeats
    rcases assemble_cases (Document.schemaRoot document.components) allow operation.route parameters
      with ⟨schemas, -, honce⟩ | ⟨p, -, hfault, -⟩
    · exact absurd honce hrepeats
    · refine ⟨.structural operation.route (.duplicateParameter p.name p.location), ?_, _, _, _, rfl⟩
      refine bind_eq_error_iff.mpr (Or.inr ⟨declarations, hdeclarations, ?_⟩)
      refine bind_eq_error_iff.mpr (Or.inr ⟨parameters, hparameters, ?_⟩)
      exact bind_eq_error_iff.mpr (Or.inl hfault)

/-- **Lists that declare everything once have no key in common** after they have been put together,
exactly if what both declare is spelled alike. -/
theorem nodup_keys_of_parameters_iff (hpath : document.DeclaresOnce operation.route operation.pathItem)
    (hown : document.DeclaresOnce operation.route operation.declaration)
    (hdeclarations : document.parameters operation = .ok declarations)
    (hparameters : declarations.mapM (ofDeclaration operation.route) = .ok parameters) :
    (parameters.map key).Nodup ↔ document.SpelledAlike operation := by
  obtain ⟨ofPath, own, hofPath, hofOwn, rfl⟩ := parameters_eq_ok_iff.mp hdeclarations
  rw [← filterMap_key?_of_mapM hparameters, List.filterMap_append, List.nodup_append]
  constructor
  · rintro ⟨-, honce, hapart⟩ ofPath' own' hofPath' hofOwn' p hp o ho k hkp hko
    obtain rfl := Except.ok.inj (hofPath.symm.trans hofPath')
    obtain rfl := Except.ok.inj (hofOwn.symm.trans hofOwn')
    by_cases hany : own.any (sameParameter p) = true
    · -- the operation's declaration of the same spelling is this one, since it has the same key
      obtain ⟨o', ho', hsame⟩ := List.any_eq_true.mp hany
      have hko' : key? o' = key? o := by rw [← key?_of_sameParameter hsame, hkp, hko]
      rwa [← eq_of_nodup_filterMap honce ho' ho hko' (by simp [hko])]
    · have hkept : p ∈ ofPath.filter fun p => !own.any (sameParameter p) :=
        List.mem_filter.mpr ⟨hp, by simpa using hany⟩
      exact absurd rfl (hapart k (List.mem_filterMap.mpr ⟨p, hkept, hkp⟩) k
        (List.mem_filterMap.mpr ⟨o, ho, hko⟩))
  · intro halike
    refine ⟨?_, hown own hofOwn, ?_⟩
    · exact ((List.filter_sublist).filterMap key?).nodup (hpath ofPath hofPath)
    · rintro k hk _ hk' rfl
      obtain ⟨p, hp, hkp⟩ := List.mem_filterMap.mp hk
      obtain ⟨o, ho, hko⟩ := List.mem_filterMap.mp hk'
      obtain ⟨hmem, hkept⟩ := List.mem_filter.mp hp
      have hsame := halike ofPath own hofPath hofOwn p hmem o ho k hkp hko
      have hany : own.any (sameParameter p) = true := List.any_eq_true.mpr ⟨o, ho, hsame⟩
      simp [hany] at hkept

/-- **Parameters of an operation take the place of those of its path** if they are spelled alike. For
lists that declare everything once, a repetition is reported exactly if all declarations describe
parameters and one of them is spelled in two ways; it is then a header, or it has no name. In every plan
there is just one parameter for what the operation declares, and it is the operation's own. -/
theorem overrides_iff (hpath : document.DeclaresOnce operation.route operation.pathItem)
    (hown : document.DeclaresOnce operation.route operation.declaration) :
    (∀ allow, (∃ e, assemble document allow operation = .error e ∧ IsRepetition e) ↔
      document.Describes operation ∧ ¬ document.SpelledAlike operation) ∧
    (∀ p o : Json, ∀ location name, key? p = some (location, name) →
      key? o = some (location, name) → sameParameter p o = false →
        (location = .header ∧ ∃ s t, p.getStr? "name" = some s ∧ o.getStr? "name" = some t ∧
          s ≠ t ∧ Text.asciiLower s = Text.asciiLower t) ∨
        p.getStr? "name" = none ∨ o.getStr? "name" = none) ∧
    (∀ allow plan own, assemble document allow operation = .ok plan →
      document.ownParameters operation.route operation.declaration = .ok own →
        ∀ o ∈ own, ∃ p, ofDeclaration operation.route o = .ok p ∧
          plan.parameters.filter (fun q => q.key = p.key) = [p]) := by
  refine ⟨fun allow => ?_, fun p o location name => spelledApart_cases,
    fun allow plan own hplan hofOwn o ho => ?_⟩
  · rw [exists_isRepetition_iff]
    constructor
    · rintro ⟨declarations, parameters, hdeclarations, hparameters, hrepeats⟩
      rw [nodup_keys_of_parameters_iff hpath hown hdeclarations hparameters] at hrepeats
      exact ⟨⟨declarations, parameters, hdeclarations, hparameters⟩, hrepeats⟩
    · rintro ⟨⟨declarations, parameters, hdeclarations, hparameters⟩, hapart⟩
      rw [← nodup_keys_of_parameters_iff hpath hown hdeclarations hparameters] at hapart
      exact ⟨declarations, parameters, hdeclarations, hparameters, hapart⟩
  · have honce := nodup_keys_iff.mpr (once_of_assemble hplan)
    obtain ⟨declarations, hdeclarations, h⟩ := bind_eq_ok_iff.mp hplan
    obtain ⟨parameters, hparameters, h⟩ := bind_eq_ok_iff.mp h
    obtain ⟨schemas, -, h⟩ := bind_eq_ok_iff.mp h
    obtain ⟨body, -, h⟩ := bind_eq_ok_iff.mp h
    obtain rfl := Except.ok.inj h
    -- what the operation declares comes last and is never left out
    obtain ⟨ofPath, own', -, hofOwn', rfl⟩ := parameters_eq_ok_iff.mp hdeclarations
    obtain rfl := Except.ok.inj (hofOwn.symm.trans hofOwn')
    obtain ⟨p, hp, hofDeclaration⟩ := exists_of_mapM_eq_ok hparameters (List.mem_append_right _ ho)
    exact ⟨p, hofDeclaration, filter_eq_singleton honce hp⟩

/-! ### A header that is declared twice -/

/-- A header with values of a type. -/
def headerNamed (name type : String) : Json :=
  .obj [("name", .str name), ("in", .str "header"), ("schema", .obj [("type", .str type)])]

/-- An operation with a header of its own, and a path that declares it in some spelling. -/
def traced (spelling : String) : Operation :=
  let declaration : Json := .obj [("parameters", .arr [headerNamed "x-trace" "string"])]
  { method := .get, route := "/t", declaration
    pathItem := .obj
      [("parameters", .arr [headerNamed spelling "integer"]), ("get", declaration)] }

/-- The document that declares it. -/
def tracedDocument (spelling : String) : Document :=
  ⟨.obj [("openapi", .str "3.0.0"), ("paths", .obj [("/t", (traced spelling).pathItem)])]⟩

theorem declaresOnce_traced : ∀ spelling ∈ ["x-trace", "X-Trace"],
    (tracedDocument spelling).DeclaresOnce "/t" (traced spelling).pathItem ∧
      (tracedDocument spelling).DeclaresOnce "/t" (traced spelling).declaration := by
  have hpath : ∀ spelling ∈ ["x-trace", "X-Trace"],
      (tracedDocument spelling).ownParameters "/t" (traced spelling).pathItem =
        .ok [headerNamed spelling "integer"] := by decide
  have hown : ∀ spelling ∈ ["x-trace", "X-Trace"],
      (tracedDocument spelling).ownParameters "/t" (traced spelling).declaration =
        .ok [headerNamed "x-trace" "string"] := by decide
  have honce : ∀ spelling ∈ ["x-trace", "X-Trace"], ∀ type ∈ ["integer", "string"],
      ([headerNamed spelling type].filterMap key?).Nodup := by decide
  intro spelling hspelling
  constructor
  · rintro declarations h
    obtain rfl := Except.ok.inj ((hpath spelling hspelling).symm.trans h)
    exact honce spelling hspelling "integer" (by simp)
  · rintro declarations h
    obtain rfl := Except.ok.inj ((hown spelling hspelling).symm.trans h)
    exact honce "x-trace" (by simp) "string" (by simp)

/-- In one spelling the header is the operation's. -/
theorem overrides_iff_traced :
    (tracedDocument "x-trace").DeclaresOnce "/t" (traced "x-trace").pathItem ∧
      (tracedDocument "x-trace").DeclaresOnce "/t" (traced "x-trace").declaration ∧
      ∃ plan p, assemble (tracedDocument "x-trace") false (traced "x-trace") = .ok plan ∧
        p.schema = .obj [("type", .str "string")] ∧
        plan.parameters.filter (fun q => q.key = p.key) = [p] := by
  obtain ⟨hpath, hown⟩ := declaresOnce_traced "x-trace" (by simp)
  obtain ⟨plan, hplan⟩ :=
    exists_eq_ok_of_isSome (x := assemble (tracedDocument "x-trace") false (traced "x-trace"))
      (by decide)
  obtain ⟨p, hp, honly⟩ := (overrides_iff hpath hown).2.2 false plan
    [headerNamed "x-trace" "string"] hplan (by decide) (headerNamed "x-trace" "string")
    (by simp)
  have hschema : (ofDeclaration "/t" (headerNamed "x-trace" "string")).map Parameter.schema =
      .ok (.obj [("type", .str "string")]) := by decide
  refine ⟨hpath, hown, plan, p, hplan, ?_, honly⟩
  rw [show ofDeclaration "/t" (headerNamed "x-trace" "string") = .ok p from hp] at hschema
  exact Except.ok.inj hschema

/-- **In two spellings the header is refused**, although neither list declares it twice. -/
theorem refused_in_two_spellings :
    ¬ ∀ document operation, document.DeclaresOnce operation.route operation.pathItem →
      document.DeclaresOnce operation.route operation.declaration →
        ∀ allow e, assemble document allow operation = .error e → ¬ IsRepetition e := by
  intro h
  obtain ⟨hpath, hown⟩ := declaresOnce_traced "X-Trace" (by simp)
  refine h (tracedDocument "X-Trace") (traced "X-Trace") hpath hown false
    (.structural "/t" (.duplicateParameter "x-trace" .header)) ?_ ⟨_, _, _, rfl⟩
  decide

end Plan

end RequestGate
