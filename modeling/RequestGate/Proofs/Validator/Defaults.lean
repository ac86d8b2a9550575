import RequestGate.Proofs.Schema.Defaults
import RequestGate.Proofs.Validator.Stages

/-!
# Bodies that defaults leave valid

The defaults of a body are filled in before it is judged. If every default conforms to the schema that
carries it, one would expect a body that conforms to conform afterwards too. That is so if filling is
safe (`RequestGate.NormalizedRequest.conforms_applyDefaults`): above all for a schema whose members hold
every name to one and the same schema, and for one that combines no others, as long as references are
followed alike by filling and by the engine.

There are two ways in which a composition may fail to be safe, and one for an enumeration
(`RequestGate.NormalizedRequest.defaults_break_bodies`). A default that one member of a composition
declares is put into an object that another member closes. An object that one alternative has ruled out
for want of a member is given that member, and taken by two alternatives then. And an object that is
compared as a whole is not the one that it was.
-/

namespace RequestGate.NormalizedRequest

open Draft7 Schema

variable {formats : Formats} {root schema body : Json}

/-- **A body that conforms still does when its defaults have been filled in**, each in the place of a
declared property that is missing, if all of them conform themselves and filling is safe.

It is safe if along filling all schemas that judge an object hold a name to the one schema that filling
takes for it, and so if there are no compositions, be the objects closed or not. Either goes for schemas
whose references lead the engine to where they lead filling. -/
theorem conforms_applyDefaults (r : NormalizedRequest) (parameters : List Parameter)
    (hroot : root.WellFormed) (hschema : schema ∈ root.subvalues)
    (hreadable : Throughout root (Readable root) schema)
    (hdefaults : Throughout root (DefaultConforms formats root) schema)
    (hbody : r.body = some body) (hwf : body.WellFormed)
    (hconforms : Conforms formats root schema body) :
    ∃ filled, (r.applyDefaults root parameters schema).body = some filled ∧
      (∀ s members name sub, resolve root schema = some s → body = .obj members →
        Entries.get? (properties root s) name = some sub → Entries.get? members name = none →
          filled.get? name = declaredDefault? root sub) ∧
      (FillsSafely formats root levels schema schema → Conforms formats root schema filled) ∧
      (Along root (Agreed formats root) levels schema → Conforms formats root schema filled) ∧
      (Along root (fun s => ∀ members, s = .obj members → Simple members) levels schema →
        Conforms formats root schema filled) := by
  have hsafely : FillsSafely formats root levels schema schema →
      Conforms formats root schema (fillDefaults root schema body) := fun hsafe =>
    conforms_fillWithin hroot (hroot.of_mem_subvalues hschema) hschema hreadable hdefaults hsafe hwf
      hconforms
  have hagreed : Along root (Agreed formats root) levels schema →
      Conforms formats root schema (fillDefaults root schema body) := fun h =>
    hsafely (fillsSafely_of_agreed hschema hreadable h)
  refine ⟨fillDefaults root schema body, ?_, ?_, hsafely, hagreed, fun h =>
    hagreed (along_agreed_of_simple hroot hschema h)⟩
  · rw [body_applyDefaults, hbody, Option.map_some]
  · rintro s members name sub hs rfl hsub hmissing
    exact get?_fillWithin_of_missing hs hsub hmissing

/-! ### Two open members -/

/-- A pet has a name, and a tag that it is given if need be. -/
def petSchema : Json :=
  .obj [("allOf", .arr
    [.obj [("type", .str "object"), ("properties", .obj [("name", .obj [("type", .str "string")])]),
      ("required", .arr [.str "name"])],
     .obj [("type", .str "object"), ("properties",
      .obj [("tag", .obj [("type", .str "string"), ("default", .str "none")])])]])]

theorem along_agreed_petSchema :
    Along petSchema (Agreed formats petSchema) levels petSchema := by
  intro s hs
  obtain rfl := Option.some.inj ((resolve_of_none rfl).symm.trans hs)
  have hproperties : properties petSchema petSchema =
      [("name", .obj [("type", .str "string")]),
        ("tag", .obj [("type", .str "string"), ("default", .str "none")])] := by
    decide
  have hagreed : Agreed formats petSchema petSchema :=
    agreed_of_open (mem_usedWithin_self petSchema 1 petSchema) (by decide)
      (by decide)
  refine ⟨.refl, hagreed, fun name sub hsub => ?_, fun sub hsub => ?_⟩
  · rw [hproperties] at hsub
    have hmem := Entries.mem_of_get? hsub
    simp only [List.mem_cons, Prod.mk.injEq, List.not_mem_nil, or_false] at hmem
    rcases hmem with ⟨-, rfl⟩ | ⟨-, rfl⟩
    all_goals
      exact along_of_no_parts rfl (by decide) rfl rfl
        (agreed_of_open (List.mem_singleton_self _) (by decide) (by decide)) _
  · cases hsub

/-- A pet without a tag is given one. -/
theorem conforms_applyDefaults_pet :
    ∃ r : NormalizedRequest,
      r.body = some (.obj [("name", .str "Rex")]) ∧
      (r.applyDefaults petSchema [] petSchema).body =
        some (.obj [("name", .str "Rex"), ("tag", .str "none")]) ∧
      Conforms (Engine.formats {}) petSchema petSchema
        (.obj [("name", .str "Rex"), ("tag", .str "none")]) := by
  let r : NormalizedRequest :=
    { method := "POST", route := "/pets", body := some (.obj [("name", .str "Rex")]) }
  have hreadable : Throughout petSchema (Readable petSchema) petSchema :=
    throughout_readable_of_usedWithin (n := 2) (by decide) (by decide)
      (by decide)
  have hdefaults : Throughout petSchema (DefaultConforms (Engine.formats {}) petSchema) petSchema :=
    throughout_of_usedWithin (n := 2) (by decide) (by decide)
  obtain ⟨filled, hfilled, -, -, hagreed, -⟩ :=
    conforms_applyDefaults r [] (by decide) (Json.mem_subvalues_self _) hreadable hdefaults
      rfl (by decide) (by decide)
  have hpet : (r.applyDefaults petSchema [] petSchema).body =
      some (.obj [("name", .str "Rex"), ("tag", .str "none")]) := by
    decide
  obtain rfl := Option.some.inj (hfilled.symm.trans hpet)
  exact ⟨r, rfl, hpet, hagreed along_agreed_petSchema⟩

/-! ### Bodies that no longer conform -/

/-- Whether a body conforms to a schema, whose defaults all conform, and does not any more when they have
been filled in. -/
structure BrokenByDefaults (schema body : Json) : Prop where
  schema_wellFormed : schema.WellFormed
  readable : Throughout schema (Readable schema) schema
  defaults : Throughout schema (DefaultConforms (Engine.formats {}) schema) schema
  body_wellFormed : body.WellFormed
  conforms : Conforms (Engine.formats {}) schema schema body
  breaks : ∀ r : NormalizedRequest, r.body = some body → ∃ filled,
    (r.applyDefaults schema [] schema).body = some filled ∧
      ¬ Conforms (Engine.formats {}) schema schema filled

/-- An object schema with one property. -/
def objectWith (name : String) (property : Json) (rest : Entries Json) : Json :=
  .obj (("type", .str "object") :: ("properties", .obj [(name, property)]) :: rest)

/-- A property that is one if nothing else is said. -/
def oneByDefault : Json :=
  .obj [("default", .num (.int 1))]

/-- Two members, of which one is closed and the other has a default. -/
def closedMember : Json :=
  .obj [("allOf", .arr
    [objectWith "a" (.obj []) [("additionalProperties", .bool false)],
     objectWith "b" oneByDefault []])]

/-- Two alternatives, each with a demand of its own, that one of them can meet by its default. -/
def demandingAlternatives : Json :=
  .obj [("oneOf", .arr
    [objectWith "a" (.obj []) [("required", .arr [.str "a"])],
     objectWith "b" oneByDefault [("required", .arr [.str "b"])]])]

/-- The empty object, by a list of values. -/
def listedObject : Json :=
  objectWith "a" oneByDefault [("enum", .arr [.obj []])]

/-- A body is broken if that can be seen from the schemas within reach. -/
theorem BrokenByDefaults.of_usedWithin (n : Nat) (hschema : schema.WellFormed)
    (hclosed : ∀ t ∈ usedWithin schema n schema, ∀ u ∈ usedBy schema t,
      u ∈ usedWithin schema n schema)
    (hkeywords : ∀ t ∈ usedWithin schema n schema,
      ∀ keyword ∈ Entries.keys ((t.obj?).getD []), keyword ∈ vocabulary)
    (hrounds : ∀ t ∈ usedWithin schema n schema, Rounds (groundRule schema) (n + 1) t)
    (hdefaults : ∀ t ∈ usedWithin schema n schema,
      DefaultConforms (Engine.formats {}) schema t)
    (hbody : body.WellFormed) (hconforms : Conforms (Engine.formats {}) schema schema body)
    (hbreaks : ¬ Conforms (Engine.formats {}) schema schema (fillDefaults schema schema body)) :
    BrokenByDefaults schema body where
  schema_wellFormed := hschema
  readable := throughout_readable_of_usedWithin hclosed hkeywords hrounds
  defaults := throughout_of_usedWithin hclosed hdefaults
  body_wellFormed := hbody
  conforms := hconforms
  breaks := by
    intro r hr
    refine ⟨fillDefaults schema schema body, ?_, hbreaks⟩
    rw [body_applyDefaults, hr, Option.map_some]

/-- **Defaults break bodies**: an object that another member closes, one that another alternative has
ruled out, and one that is compared. -/
theorem defaults_break_bodies :
    BrokenByDefaults closedMember (.obj [("a", .num (.int 1))]) ∧
      BrokenByDefaults demandingAlternatives (.obj [("a", .num (.int 1))]) ∧
      BrokenByDefaults listedObject (.obj []) := by
  refine ⟨.of_usedWithin 2 ?_ ?_ ?_ ?_ ?_ ?_ ?_ ?_, .of_usedWithin 2 ?_ ?_ ?_ ?_ ?_ ?_ ?_ ?_,
    .of_usedWithin 2 ?_ ?_ ?_ ?_ ?_ ?_ ?_ ?_⟩
  all_goals decide

end RequestGate.NormalizedRequest
