import RequestGate.Operation.Plan
import RequestGate.Proofs.Document
import RequestGate.Proofs.Parameter.Assembly
import RequestGate.Proofs.Schema.Normalize

/-!
# Plans of well-formed documents

Where the objects of a document repeat no key, those of a plan repeat none either
(`RequestGate.Plan.wellFormed_of_assemble`). What a plan is made of was found in the document, by the
names of members or by a reference, and was brought to Draft 7; neither makes a value that is not well
formed. The schemas of a place are tables on their own, and are filled by insertion.

It is the same for the schema of a whole request, which a plan is completed to
(`RequestGate.Plan.WellFormed.schemaFor`).
-/

namespace RequestGate

open Json

/-! ### Values that are found -/

namespace Pointer

variable {value found : Json}

theorem wellFormed_step? {segment : String} (h : value.WellFormed)
    (hstep : step? value segment = some found) : found.WellFormed := by
  cases value with
  | obj members => exact h.2.of_mem (Entries.mem_of_get? hstep)
  | arr items =>
    obtain ⟨i, -, hi⟩ := Option.bind_eq_some_iff.mp hstep
    exact wellFormedList_iff.mp h _ (List.mem_of_getElem? hi)
  | _ => cases hstep

/-- What a pointer leads to is part of the value. -/
theorem wellFormed_lookup? {pointer : String} (h : value.WellFormed)
    (hfound : lookup? value pointer = some found) : found.WellFormed := by
  have hsteps : ∀ (segments : List String) (value : Json), value.WellFormed →
      segments.foldlM step? value = some found → found.WellFormed := by
    intro segments
    induction segments with
    | nil =>
      intro value h hfound
      exact Option.some.inj hfound ▸ h
    | cons segment segments ih =>
      intro value h hfound
      rw [List.foldlM_cons] at hfound
      obtain ⟨next, hnext, hrest⟩ := Option.bind_eq_some_iff.mp hfound
      exact ih next (wellFormed_step? h hnext) hrest
  rw [lookup?] at hfound
  split at hfound
  · exact Option.some.inj hfound ▸ h
  · exact hsteps _ value h hfound
  · cases hfound

end Pointer

namespace Document

variable {root : Json} {document : Document} {operation : Operation}

theorem wellFormed_normalizeComponents (h : root.WellFormed) :
    (normalizeComponents root).WellFormed := by
  cases root with
  | obj members =>
    refine wellFormed_modify h fun components hcomponents => ?_
    split
    · refine wellFormed_modify hcomponents fun schemas hschemas => ?_
      split
      · exact wellFormed_mapValues hschemas Schema.wellFormed_normalize
      · exact hschemas
    · exact hcomponents
  | _ => exact h

/-- A document that was read from a well-formed value is one. -/
theorem wellFormed_of_ofJson (hroot : root.WellFormed) (h : ofJson root = .ok document) :
    document.root.WellFormed := by
  obtain ⟨_, -, h⟩ := bind_eq_ok_iff.mp h
  split at h
  · cases h
  · obtain rfl := Except.ok.inj h
    exact wellFormed_normalizeComponents hroot

theorem wellFormed_components (h : document.root.WellFormed) : document.components.WellFormed := by
  rw [components]
  cases hget : document.root.get? "components" with
  | none => exact ⟨List.nodup_nil, trivial⟩
  | some value => exact h.get? hget

/-- An operation is part of its document. -/
theorem wellFormed_of_mem_operations (h : document.root.WellFormed)
    (hop : operation ∈ document.operations) :
    operation.pathItem.WellFormed ∧ operation.declaration.WellFormed := by
  obtain ⟨hpath, hdeclaration, -⟩ := mem_operations_iff.mp hop
  have hpaths : WellFormedMembers document.paths := by
    rw [paths, getObj?]
    cases hget : document.root.get? "paths" with
    | none => trivial
    | some value =>
      have hvalue := h.get? hget
      cases value with
      | obj members => exact hvalue.2
      | _ => trivial
  have hitem := hpaths.of_mem hpath
  exact ⟨hitem, hitem.of_mem hdeclaration⟩

theorem wellFormed_dereferenceWithin (h : document.root.WellFormed) :
    ∀ (hops : Nat) {value found : Json}, value.WellFormed →
      document.dereferenceWithin hops value = .ok found → found.WellFormed
  | 0, _, _, _, hfound => by cases hfound
  | hops + 1, value, found, hvalue, hfound => by
    rw [dereferenceWithin] at hfound
    split at hfound
    · exact Except.ok.inj hfound ▸ hvalue
    · split at hfound
      · rename_i target htarget
        refine wellFormed_dereferenceWithin h hops ?_ hfound
        rw [Schema.target?] at htarget
        split at htarget
        · exact Pointer.wellFormed_lookup? h htarget
        · cases htarget
      · cases hfound

/-- What a reference stands for is part of the document. -/
theorem wellFormed_dereference {route : String} {value found : Json} (h : document.root.WellFormed)
    (hvalue : value.WellFormed) (hfound : document.dereference route value = .ok found) :
    found.WellFormed :=
  wellFormed_dereferenceWithin h _ hvalue (mapError_eq_ok_iff.mp hfound)

theorem wellFormed_ownParameters {route : String} {holder : Json} {declarations : List Json}
    (h : document.root.WellFormed) (hholder : holder.WellFormed)
    (hdeclarations : document.ownParameters route holder = .ok declarations) :
    ∀ d ∈ declarations, d.WellFormed := by
  rw [ownParameters] at hdeclarations
  split at hdeclarations
  · obtain rfl := Except.ok.inj hdeclarations
    simp
  · rename_i items hitems
    intro d hd
    obtain ⟨item, hitem, hderef⟩ := exists_of_mem_mapM hdeclarations hd
    exact wellFormed_dereference h (wellFormedList_iff.mp (hholder.get? hitems) item hitem) hderef
  · cases hdeclarations

theorem wellFormed_parameters {declarations : List Json} (h : document.root.WellFormed)
    (hop : operation ∈ document.operations)
    (hdeclarations : document.parameters operation = .ok declarations) :
    ∀ d ∈ declarations, d.WellFormed := by
  obtain ⟨hitem, hdeclaration⟩ := wellFormed_of_mem_operations h hop
  obtain ⟨ofPath, hpath, hrest⟩ := bind_eq_ok_iff.mp hdeclarations
  obtain ⟨own, hown, hall⟩ := bind_eq_ok_iff.mp hrest
  obtain rfl := Except.ok.inj hall
  intro d hd
  rcases List.mem_append.mp hd with hd | hd
  · exact wellFormed_ownParameters h hitem hpath d (List.mem_of_mem_filter hd)
  · exact wellFormed_ownParameters h hdeclaration hown d hd

theorem wellFormed_requestBody {body : Option Json} (h : document.root.WellFormed)
    (hop : operation ∈ document.operations) (hbody : document.requestBody operation = .ok body) :
    ∀ b ∈ body, b.WellFormed := by
  obtain ⟨-, hdeclaration⟩ := wellFormed_of_mem_operations h hop
  rw [requestBody] at hbody
  split at hbody
  · obtain rfl := Except.ok.inj hbody
    simp
  · rename_i value hvalue
    obtain ⟨found, hfound, rfl⟩ := map_eq_ok_iff.mp hbody
    intro b hb
    obtain rfl : found = b := by simpa using hb
    exact wellFormed_dereference h (hdeclaration.get? hvalue) hfound

end Document

/-! ### Parameters and their places -/

/-- Whether the schema of a parameter is well formed. -/
def Parameter.WellFormed (p : Parameter) : Prop := p.schema.WellFormed

/-- Whether a place repeats no property, and has its lists in order. -/
structure LocationSchema.WellFormed (schema : LocationSchema) : Prop where
  properties : (obj schema.properties).WellFormed
  allowEmptyValue : schema.allowEmptyValue.Pairwise (· < ·)

/-- Whether every place is well formed. -/
def ParameterSchemas.WellFormed (schemas : ParameterSchemas) : Prop :=
  ∀ location, (schemas.branch location).WellFormed

/-- Whether the schema of a body is well formed. -/
def BodySchema.WellFormed (body : BodySchema) : Prop := body.schema.WellFormed

/-- Whether the schema of a request is well formed. -/
structure RequestSchema.WellFormed (schema : RequestSchema) : Prop where
  parameters : schema.parameters.WellFormed
  body : schema.body.WellFormed

/-- Whether all that a plan is made of is well formed. -/
structure Plan.WellFormed (plan : Plan) : Prop where
  parameters : ∀ p ∈ plan.parameters, p.WellFormed
  schemas : plan.schemas.WellFormed
  requestBody : ∀ b ∈ plan.requestBody, b.WellFormed

namespace Parameter

variable {declaration : Json} {route : String} {p : Parameter}

theorem wellFormed_selectSchema? {schema : Json} {mediaType : Option String}
    (h : declaration.WellFormed) (hselect : selectSchema? declaration = some (schema, mediaType)) :
    schema.WellFormed := by
  rw [selectSchema?] at hselect
  split at hselect
  · rename_i found hfound _
    obtain ⟨rfl, -⟩ := Prod.mk.inj (Option.some.inj hselect)
    exact h.get? hfound
  · rename_i name entry _ hcontent
    obtain ⟨found, hfound, heq⟩ := Option.map_eq_some_iff.mp hselect
    obtain ⟨rfl, -⟩ := Prod.mk.inj heq
    obtain ⟨content, hget, hobj⟩ := Option.bind_eq_some_iff.mp hcontent
    have hentry : (name, entry) ∈ content.obj?.getD [] := by simp [hobj]
    exact ((h.get? hget).of_mem hentry).get? hfound
  · cases hselect

/-- Where the schema of a parameter comes from. -/
theorem schema_of_ofDeclaration (hp : ofDeclaration route declaration = .ok p) :
    ∃ schema, selectSchema? declaration = some (schema, p.contentMediaType) ∧
      p.schema = Schema.normalize schema := by
  rw [ofDeclaration] at hp
  dsimp only at hp
  split at hp
  · split at hp
    · rename_i found hfound
      obtain rfl := Except.ok.inj hp
      exact ⟨found.1, hfound, rfl⟩
    · cases hp
  · cases hp

theorem wellFormed_ofDeclaration (h : declaration.WellFormed)
    (hp : ofDeclaration route declaration = .ok p) : p.WellFormed := by
  obtain ⟨schema, hselect, hschema⟩ := schema_of_ofDeclaration hp
  rw [WellFormed, hschema]
  exact Schema.wellFormed_normalize schema (wellFormed_selectSchema? h hselect)

theorem wellFormed_addTo {schema : LocationSchema} (hp : p.WellFormed) (h : schema.WellFormed) :
    (p.addTo schema).WellFormed where
  properties := wellFormed_insert h.properties hp
  allowEmptyValue := by
    rw [addTo]
    dsimp only
    split
    · exact pairwise_sortedDistinct _
    · exact h.allowEmptyValue

theorem wellFormed_place {schemas next : ParameterSchemas} (hp : p.WellFormed)
    (h : schemas.WellFormed) (hplace : place route schemas p = .ok next) : next.WellFormed := by
  intro location
  rcases branch_of_place hplace location with ⟨-, hbranch⟩ | ⟨-, hbranch⟩
  · rw [hbranch]
    exact wellFormed_addTo hp (h location)
  · rw [hbranch]
    exact h location

theorem wellFormed_empty : ParameterSchemas.WellFormed {} := by
  intro location
  cases location <;> exact ⟨⟨List.nodup_nil, trivial⟩, List.Pairwise.nil⟩

/-- The schemas of well-formed parameters are well formed. -/
theorem wellFormed_assemble {root : Json} {allow : Bool} {parameters : List Parameter}
    {schemas : ParameterSchemas} (hparameters : ∀ p ∈ parameters, p.WellFormed)
    (h : assemble root allow route parameters = .ok schemas) : schemas.WellFormed := by
  obtain ⟨placed, hplaced, h⟩ := bind_eq_ok_iff.mp h
  have hwell : placed.WellFormed :=
    foldlM_mem_induction (P := ParameterSchemas.WellFormed)
      (fun p hp s s' hs hstep => wellFormed_place (hparameters p hp) hs hstep) wellFormed_empty
      hplaced
  obtain rfl := Except.ok.inj h
  intro location
  have hlocation := hwell location
  cases location with
  | query => exact ⟨hlocation.properties, hlocation.allowEmptyValue⟩
  | _ => exact hlocation

end Parameter

/-! ### Bodies -/

namespace BodySchema

variable {requestBody : Option Json}

theorem wellFormed_unconstrained : unconstrained.WellFormed := ⟨List.nodup_nil, trivial⟩

theorem wellFormed_declaredSchema (h : ∀ b ∈ requestBody, b.WellFormed) (mediaType : String) :
    (declaredSchema requestBody mediaType).WellFormed := by
  rw [declaredSchema]
  split
  · rename_i schema hschema
    obtain ⟨body, hbody, hschema⟩ := Option.bind_eq_some_iff.mp hschema
    obtain ⟨content, hcontent, hschema⟩ := Option.bind_eq_some_iff.mp hschema
    obtain ⟨entry, hentry, hschema⟩ := Option.bind_eq_some_iff.mp hschema
    have hcontent' := (h body hbody).get? hcontent
    exact Schema.wellFormed_normalize schema ((hcontent'.get? hentry).get? hschema)
  · exact ⟨List.nodup_nil, trivial⟩

theorem wellFormed_place {root schema : Json} {required : Bool} (h : schema.WellFormed) :
    (place root schema required).WellFormed := by
  rw [place]
  split
  · exact wellFormed_unconstrained
  · exact h

theorem wellFormed_select {root : Json} (h : ∀ b ∈ requestBody, b.WellFormed)
    (contentType : ContentType) : (select root requestBody contentType).1.WellFormed := by
  rw [select]
  split
  · exact wellFormed_unconstrained
  · exact wellFormed_place (wellFormed_declaredSchema h _)

end BodySchema

namespace Plan

variable {document : Document} {operation : Operation} {plan : Plan} {allow : Bool}

/-- **The plans of a well-formed document are well formed.** -/
theorem wellFormed_of_assemble (hdocument : document.root.WellFormed)
    (hop : operation ∈ document.operations) (h : assemble document allow operation = .ok plan) :
    plan.WellFormed := by
  obtain ⟨declarations, hdeclarations, h⟩ := bind_eq_ok_iff.mp h
  obtain ⟨parameters, hparameters, h⟩ := bind_eq_ok_iff.mp h
  obtain ⟨schemas, hschemas, h⟩ := bind_eq_ok_iff.mp h
  obtain ⟨requestBody, hbody, h⟩ := bind_eq_ok_iff.mp h
  obtain rfl := Except.ok.inj h
  have hwell : ∀ p ∈ parameters, p.WellFormed := by
    intro p hp
    obtain ⟨d, hd, hofDeclaration⟩ := exists_of_mem_mapM hparameters hp
    exact Parameter.wellFormed_ofDeclaration
      (Document.wellFormed_parameters hdocument hop hdeclarations d hd) hofDeclaration
  exact ⟨hwell, Parameter.wellFormed_assemble hwell hschemas,
    Document.wellFormed_requestBody hdocument hop hbody⟩

/-- **Completing a plan keeps it well formed.** -/
theorem WellFormed.schemaFor (h : plan.WellFormed) (components : Json) (contentType : ContentType) :
    (plan.schemaFor components contentType).1.WellFormed :=
  ⟨h.schemas, BodySchema.wellFormed_select h.requestBody contentType⟩

end Plan

end RequestGate
