import RequestGate.Proofs.Ascending
import RequestGate.Proofs.Parameter.Assembly
import RequestGate.Proofs.Schema.Chain

/-!
# Parameters sorted by their places

The schemas of an operation's parameters are a partition of the list of these. There are none if and only
if two parameters share a place and a name; and otherwise every place has the parameters of its own, all of
them, in order, and no others (`RequestGate.Parameter.assemble_partition`).

A place has a policy too, on names that it does not declare. Headers are open, path and cookies are closed,
and the query is what the options say, unless one of its parameters is an object that allows undeclared
members: as such an object comes in pieces, nobody can tell whose they are. What is asked of the object is
asked of everything that it consists of, of what a reference stands for and of the members of compositions,
as far as there are hops and levels (`RequestGate.Schema.Consists`).
-/

namespace RequestGate

/-- A list fails a relation at two of its positions. -/
theorem not_pairwise_iff {α : Type*} {R : α → α → Prop} {l : List α} :
    ¬ l.Pairwise R ↔ ∃ (i j : Nat) (a b : α), i < j ∧ l[i]? = some a ∧ l[j]? = some b ∧ ¬ R a b := by
  rw [List.pairwise_iff_getElem]
  constructor
  · intro h
    push Not at h
    obtain ⟨i, j, hi, hj, hij, hnot⟩ := h
    exact ⟨i, j, l[i], l[j], hij, List.getElem?_eq_getElem hi, List.getElem?_eq_getElem hj, hnot⟩
  · rintro ⟨i, j, a, b, hij, hi, hj, hnot⟩ hall
    obtain ⟨hi', rfl⟩ := List.getElem?_eq_some_iff.mp hi
    obtain ⟨hj', rfl⟩ := List.getElem?_eq_some_iff.mp hj
    exact hnot (hall i j hi' hj' hij)

/-! ### What a schema consists of -/

namespace Schema

variable {root schema s t : Json} {n : Nat}

/-- Whether a schema stands for another one: for itself, or for what a chain of references leads to in
fewer hops than `maxHops`. -/
def StandsFor (root schema s : Json) : Prop :=
  ∃ k < maxHops, Hops root k schema s ∧ reference? s = none

/-- Whether a schema consists of another one, so many compositions down: of what it stands for, and of
what the members of any composition that is written there consist of. -/
inductive Consists (root : Json) : (depth : Nat) → (schema t : Json) → Prop where
  | itself {schema s : Json} (hs : StandsFor root schema s) : Consists root 0 schema s
  | member {depth : Nat} {schema s m t : Json} {keyword : String} {members : List Json}
      (hs : StandsFor root schema s) (hkeyword : keyword ∈ ["allOf", "oneOf", "anyOf"])
      (hmembers : s.getArr? keyword = some members) (hm : m ∈ members)
      (h : Consists root depth m t) : Consists root (depth + 1) schema t

/-- Whether a schema says itself what becomes of undeclared members, and does not refuse them all. -/
def AdmitsUndeclared (t : Json) : Prop :=
  ∃ value, t.get? "additionalProperties" = some value ∧ value ≠ .bool false

theorem resolve_iff_standsFor : resolve root schema = some s ↔ StandsFor root schema s :=
  follow_eq_some_iff

end Schema

namespace Parameter

open Schema

variable {root schema : Json} {n : Nat}

/-- What the search for an open object does with a schema, where it may look at one. -/
theorem isOpenWithin_succ : isOpenWithin root (n + 1) schema = true ↔
    ∃ s, StandsFor root schema s ∧ (AdmitsUndeclared s ∨
      ∃ keyword ∈ ["allOf", "oneOf", "anyOf"], ∃ members, s.getArr? keyword = some members ∧
        ∃ m ∈ members, isOpenWithin root n m = true) := by
  rw [isOpenWithin]
  simp only [← resolve_iff_standsFor]
  cases resolve root schema with
  | none => simp
  | some s =>
    simp only [Option.some.injEq, exists_eq_left']
    rw [Bool.or_eq_true, List.any_eq_true]
    refine or_congr ?_ (exists_congr fun keyword => and_congr_right fun _ => ?_)
    · rw [AdmitsUndeclared]
      cases s.get? "additionalProperties" <;> simp
    · cases s.getArr? keyword <;> simp

/-- **The search for an open object** finds one if there is any as far down as it goes. -/
theorem isOpenWithin_iff : isOpenWithin root n schema = true ↔
    ∃ depth < n, ∃ t, Consists root depth schema t ∧ AdmitsUndeclared t := by
  induction n generalizing schema with
  | zero => exact ⟨fun h => (by cases h), fun ⟨_, hdepth, _⟩ => absurd hdepth (Nat.not_lt_zero _)⟩
  | succ n ih =>
    rw [isOpenWithin_succ]
    constructor
    · rintro ⟨s, hs, hopen | ⟨keyword, hkeyword, members, hmembers, m, hm, hsearch⟩⟩
      · exact ⟨0, Nat.succ_pos n, s, .itself hs, hopen⟩
      · obtain ⟨depth, hdepth, t, ht, hopen⟩ := ih.mp hsearch
        exact ⟨depth + 1, by omega, t, .member hs hkeyword hmembers hm ht, hopen⟩
    · rintro ⟨depth, hdepth, t, hconsists, hopen⟩
      cases hconsists with
      | itself hs => exact ⟨t, hs, Or.inl hopen⟩
      | @member depth _ s m _ keyword members hs hkeyword hmembers hm ht =>
        have hsearch := ih.mpr ⟨depth, by omega, t, ht, hopen⟩
        exact ⟨s, hs, Or.inr ⟨keyword, hkeyword, members, hmembers, m, hm, hsearch⟩⟩

theorem isOpenObject_iff : isOpenObject root schema = true ↔
    ∃ depth ≤ maxHops, ∃ t, Consists root depth schema t ∧ AdmitsUndeclared t := by
  rw [isOpenObject, isOpenWithin_iff, levels]
  simp only [Nat.lt_succ_iff]

end Parameter

/-! ### The parameters of one place -/

namespace LocationSchema

/-- Whether the schema of a place has the parameters of that place, and nothing else: their schemas by
their names, the names of the required ones, both in order, and if it is the query the names of those that
may be sent empty. -/
structure Gathers (schema : LocationSchema) (location : Location) (parameters : List Parameter) :
    Prop where
  title : schema.title = titleOf location
  properties : schema.properties =
    (parameters.filter fun p => p.location == location).map fun p => (p.name, p.schema)
  required : schema.required =
    (parameters.filter fun p => p.location == location && p.required).map Parameter.name
  allowEmptyValue : ∀ name, name ∈ schema.allowEmptyValue ↔ location = .query ∧
    ∃ p ∈ parameters, p.location = .query ∧ p.allowEmptyValue = true ∧ p.name = name
  ascending : schema.allowEmptyValue.Pairwise (· < ·)

variable {schema : LocationSchema} {location : Location} {done : List Parameter} {p : Parameter}

theorem gathers_empty (location : Location) : (empty location).Gathers location [] where
  title := rfl
  properties := rfl
  required := rfl
  allowEmptyValue := by simp [empty]
  ascending := .nil

/-- **A parameter of the place** is put behind the others, if its name is new. -/
theorem Gathers.addTo (h : schema.Gathers location done) (hl : p.location = location)
    (hnew : schema.declares p.name ≠ true) : (p.addTo schema).Gathers location (done ++ [p]) where
  title := h.title
  properties := by
    have hkey : p.name ∉ Entries.keys schema.properties := fun hmem =>
      hnew (Entries.contains_iff.mpr hmem)
    rw [Parameter.addTo, Entries.insert_of_not_mem _ hkey, h.properties]
    simp [hl]
  required := by
    rw [Parameter.addTo, h.required]
    cases hrequired : p.required <;> simp [hl, hrequired]
  -- the names are kept sorted, so this speaks of membership alone
  allowEmptyValue name := by
    have hdone := h.allowEmptyValue name
    dsimp only [Parameter.addTo]
    split
    · rename_i hallowed
      have hquery : location = .query := hl ▸ hallowed.1
      rw [mem_sortedDistinct, List.mem_append, hdone, List.mem_singleton]
      simp only [List.mem_append, List.mem_singleton, or_and_right, exists_or, exists_eq_left,
        hquery, hallowed.1, hallowed.2, true_and, @eq_comm _ name]
    · rename_i hnot
      rw [hdone]
      refine and_congr_right fun hquery => ?_
      have hnone : ¬(p.location = .query ∧ p.allowEmptyValue = true ∧ p.name = name) := fun hp =>
        hnot ⟨hp.1, hp.2.1⟩
      simp only [List.mem_append, List.mem_singleton, or_and_right, exists_or, exists_eq_left, hnone,
        or_false]
  ascending := by
    dsimp only [Parameter.addTo]
    split
    · exact pairwise_sortedDistinct _
    · exact h.ascending

/-- **A parameter of another place** makes no difference. -/
theorem Gathers.skip (h : schema.Gathers location done) (hl : p.location ≠ location) :
    schema.Gathers location (done ++ [p]) where
  title := h.title
  properties := by
    rw [h.properties]
    simp [hl]
  required := by
    rw [h.required]
    simp [hl]
  allowEmptyValue name := by
    rw [h.allowEmptyValue name]
    refine and_congr_right fun hquery => ?_
    have hnone : p.location ≠ .query := hquery ▸ hl
    simp only [List.mem_append, List.mem_singleton, or_and_right, exists_or, exists_eq_left, hnone,
      false_and, or_false]
  ascending := h.ascending

end LocationSchema

/-! ### All places -/

namespace ParameterSchemas

/-- Whether the schema of every place has its parameters, and the policy that it starts with. -/
def Gathered (schemas : ParameterSchemas) (parameters : List Parameter) : Prop :=
  ∀ location, (schemas.branch location).Gathers location parameters ∧
    (schemas.branch location).additionalProperties = (location == .header)

theorem gathered_empty : Gathered {} [] := fun location => by
  cases location <;> exact ⟨LocationSchema.gathers_empty _, rfl⟩

end ParameterSchemas

namespace Parameter

open Schema

variable {root : Json} {allow : Bool} {route : String} {parameters done : List Parameter}
  {p : Parameter} {schemas next : ParameterSchemas}

/-- **One parameter more** goes to its place. -/
theorem gathered_of_place (h : schemas.Gathered done) (hplace : place route schemas p = .ok next) :
    next.Gathered (done ++ [p]) := by
  obtain ⟨hnew, -⟩ := place_eq_ok_iff.mp hplace
  intro location
  obtain ⟨hgathers, hpolicy⟩ := h location
  rcases branch_of_place hplace location with ⟨rfl, hbranch⟩ | ⟨hl, hbranch⟩
  · rw [hbranch]
    exact ⟨hgathers.addTo rfl (Bool.eq_false_iff.mp hnew), hpolicy⟩
  · rw [hbranch]
    exact ⟨hgathers.skip hl, hpolicy⟩

/-- What the schemas of parameters are, if there are any. -/
theorem gathered_of_assemble (h : assemble root allow route parameters = .ok schemas) :
    (∀ location, (schemas.branch location).Gathers location parameters) ∧
      schemas.headers.additionalProperties = true ∧ schemas.path.additionalProperties = false ∧
      schemas.cookies.additionalProperties = false ∧
      schemas.query.additionalProperties =
        (allow || parameters.any fun p => p.location == .query && isOpenObject root p.schema) := by
  obtain ⟨placed, hplaced, h⟩ := bind_eq_ok_iff.mp h
  have hgathered : placed.Gathered parameters :=
    foldlM_induction (P := fun done s => ParameterSchemas.Gathered s done)
      (fun done p s s' hs hstep => gathered_of_place hs hstep) ParameterSchemas.gathered_empty hplaced
  obtain rfl := Except.ok.inj h
  refine ⟨fun location => ?_, (hgathered .header).2, (hgathered .path).2, (hgathered .cookie).2, rfl⟩
  -- the policy on the query is set afterwards, and nothing that is gathered speaks of it
  have hbranch := (hgathered location).1
  cases location with
  | query => exact ⟨hbranch.title, hbranch.properties, hbranch.required, hbranch.allowEmptyValue,
      hbranch.ascending⟩
  | _ => exact hbranch

/-- **The parameters of an operation are sorted by their places.** This fails if and only if two of them
share a place and a name, and says so of one of them. Otherwise every place has its own parameters, and
nothing else, and the query is open exactly if the options open it or one of its parameters consists of an
object that admits undeclared members. -/
theorem assemble_partition (root : Json) (allow : Bool) (route : String) (parameters : List Parameter) :
    ((∃ e, assemble root allow route parameters = .error e) ↔
      ∃ (i j : Nat) (p q : Parameter), i < j ∧ parameters[i]? = some p ∧ parameters[j]? = some q ∧
        p.location = q.location ∧ p.name = q.name) ∧
    (∀ e, assemble root allow route parameters = .error e →
      ∃ p ∈ parameters, e = .structural route (.duplicateParameter p.name p.location)) ∧
    ∀ schemas, assemble root allow route parameters = .ok schemas →
      (∀ location, (schemas.branch location).Gathers location parameters) ∧
        schemas.headers.additionalProperties = true ∧ schemas.path.additionalProperties = false ∧
        schemas.cookies.additionalProperties = false ∧
        (schemas.query.additionalProperties = true ↔ allow = true ∨
          ∃ p ∈ parameters, p.location = .query ∧
            ∃ depth ≤ maxHops, ∃ t, Consists root depth p.schema t ∧ AdmitsUndeclared t) := by
  have hshared : (∃ (i j : Nat) (p q : Parameter), i < j ∧ parameters[i]? = some p ∧ parameters[j]? = some q ∧
      p.location = q.location ∧ p.name = q.name) ↔
      ¬ parameters.Pairwise fun p q => p.location = q.location → p.name ≠ q.name := by
    rw [not_pairwise_iff]
    simp
  refine ⟨?_, fun e he => ?_, fun schemas h => ?_⟩
  · rw [hshared]
    rcases assemble_cases root allow route parameters with ⟨schemas, hok, honce⟩ |
      ⟨p, -, herror, htwice⟩
    · exact ⟨fun ⟨e, he⟩ => (by cases hok.symm.trans he), fun htwice => absurd honce htwice⟩
    · exact ⟨fun _ => htwice, fun _ => ⟨_, herror⟩⟩
  · rcases assemble_cases root allow route parameters with ⟨schemas, hok, -⟩ | ⟨p, hp, herror, -⟩
    · cases hok.symm.trans he
    · exact ⟨p, hp, (Except.error.inj (herror.symm.trans he)).symm⟩
  · obtain ⟨hgathers, hheaders, hpath, hcookies, hquery⟩ := gathered_of_assemble h
    refine ⟨hgathers, hheaders, hpath, hcookies, ?_⟩
    rw [hquery, Bool.or_eq_true, List.any_eq_true]
    simp only [Bool.and_eq_true, beq_iff_eq, isOpenObject_iff]

/-- A root with an object that is open by way of a composition, and a second name for it. -/
def bagRoot : Json :=
  .obj [("components", .obj [("schemas", .obj
    [("Bag", .obj [("anyOf", .arr [.obj [("additionalProperties", .obj [("type", .str "string")])]])]),
     ("Alias", .obj [("$ref", .str "#/components/schemas/Bag")])])])]

/-- A query parameter that may be sent empty and consists of the open object. -/
def bagParameter : Parameter where
  name := "bag"
  location := .query
  required := false
  style := "form"
  explode := true
  allowEmptyValue := true
  schema := .obj [("allOf", .arr [.obj [("$ref", .str "#/components/schemas/Alias")]])]
  contentMediaType := none

/-- A required path parameter, for which it means nothing to be allowed empty. -/
def idParameter : Parameter where
  name := "id"
  location := .path
  required := true
  style := "simple"
  explode := false
  allowEmptyValue := true
  schema := .obj [("type", .str "integer")]
  contentMediaType := none

/-- Two parameters that go to their places, one of which opens the query; and one that is there twice. -/
theorem assemble_partition_bag :
    (∃ schemas, assemble bagRoot false "/t" [bagParameter, idParameter] = .ok schemas ∧
      schemas.query.properties = [("bag", bagParameter.schema)] ∧
      schemas.query.additionalProperties = true ∧ "bag" ∈ schemas.query.allowEmptyValue ∧
      schemas.path.required = ["id"] ∧ "id" ∉ schemas.path.allowEmptyValue) ∧
    ∃ e, assemble bagRoot false "/t" [bagParameter, bagParameter] = .error e ∧
      ∃ p ∈ [bagParameter, bagParameter],
        e = .structural "/t" (.duplicateParameter p.name p.location) := by
  constructor
  · obtain ⟨schemas, hschemas⟩ := exists_eq_ok_of_isSome (by decide :
      (assemble bagRoot false "/t" [bagParameter, idParameter]).toOption.isSome = true)
    obtain ⟨hgathers, -, -, -, hquery⟩ :=
      (assemble_partition bagRoot false "/t" [bagParameter, idParameter]).2.2 schemas hschemas
    refine ⟨schemas, hschemas, (hgathers .query).properties, hquery.mpr (Or.inr ?_),
      ((hgathers .query).allowEmptyValue "bag").mpr ⟨rfl, bagParameter, by simp, rfl, rfl, rfl⟩,
      (hgathers .path).required, fun hmem => ?_⟩
    · exact ⟨bagParameter, by simp, rfl, isOpenObject_iff.mp (by decide)⟩
    · exact absurd (((hgathers .path).allowEmptyValue "id").mp hmem).1 (by decide)
  · obtain ⟨e, he⟩ :=
      (assemble_partition bagRoot false "/t" [bagParameter, bagParameter]).1.mpr
        ⟨0, 1, bagParameter, bagParameter, by decide, rfl, rfl, rfl, rfl⟩
    exact ⟨e, he, (assemble_partition bagRoot false "/t" [bagParameter, bagParameter]).2.1 e he⟩

end Parameter

end RequestGate
