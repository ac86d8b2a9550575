import RequestGate.Proofs.Parameter.Decoded

/-!
# What becomes of a value that is sent

Decoding moves values about, and one parameter after the other does so. A value may be taken into an
object, and the object may be taken into another one; text may be read or cut, and a value may be
put into an array. To say that nothing is lost on the way takes a notion of where a value is: under
a key and, in the value there, at the end of a path of members (`RequestGate.Style.Spot`).

A parameter hands every value on from one spot to another (`RequestGate.Style.Hands`), or the value
gives way to something else. It does so in three cases (`RequestGate.Style.GivesWay`), all of them
under the name of the parameter: a value that does not count as given gives way to the default of an
object in brackets, a member gives way to one of the same name that is sent on its own, and a value
without members is in the way of those that are sent. Through a whole list of parameters, then, a
value is handed on from spot to spot, unless it comes to one where it gives way
(`RequestGate.Style.carried_or_displaced`).

If the parameters have nothing to do with each other (`RequestGate.Style.Apart`), at most one of
them touches a value, so that it arrives under its own key or as one member of one object
(`RequestGate.Style.ArrivesAs`). Only the name of an object is no safe place even then
(`RequestGate.Style.EndsAsObject`), for a default or for members that are sent on their own. Both
readings are put together for the places of a request in `RequestGate.Style.decode_values`.
-/

namespace RequestGate

open Entries

namespace Style

variable {root : Json} {p : Parameter} {key member : String} {path : List String}
  {table next current last members : Entries Json} {value part whole : Json}
  {parameters before after : List Parameter}

/-! ### Where a value is -/

/-- A value is found in another at the end of a path of members. An object on the way may be the one
item of an array. -/
def FoundIn (whole : Json) : List String → Json → Prop
  | [], value => whole = value
  | member :: path, value => ∃ members inner, (whole = .obj members ∨ whole = .arr [.obj members]) ∧
      get? members member = some inner ∧ FoundIn inner path value

@[simp] theorem foundIn_nil : FoundIn whole [] value ↔ whole = value := Iff.rfl

/-- Where a value is in a table: under a key and, in the value there, at the end of a path. -/
structure Spot where
  key : String
  path : List String
  value : Json

/-- The table has the value at the spot. -/
def Spot.StandsIn (s : Spot) (table : Entries Json) : Prop :=
  ∃ whole, get? table s.key = some whole ∧ FoundIn whole s.path s.value

/-- What has members and is put into an array is found there. -/
theorem FoundIn.wrap (h : FoundIn whole (member :: path) value) :
    FoundIn (wrap whole) (member :: path) value := by
  obtain ⟨members, inner, hwhole, hinner⟩ := h
  refine ⟨members, inner, Or.inr ?_, hinner⟩
  rcases hwhole with rfl | rfl <;> rfl

/-- What decoding makes of a value under the name of its parameter: the value itself, what it reads
as JSON text, its items, or the array with nothing else. -/
def Becomes (p : Parameter) (value next : Json) : Prop :=
  next = value ∨ next = readText value ∨ next = wrap value ∨
    ∃ delimiter, delimiter? p.style = some delimiter ∧ next = splitText delimiter value

/-- What has members is left as it is, or put into an array. -/
theorem Becomes.foundIn {next : Json} (h : Becomes p whole next)
    (hin : FoundIn whole (member :: path) value) : FoundIn next (member :: path) value := by
  have htext : readText whole = whole ∧ ∀ delimiter, splitText delimiter whole = whole := by
    obtain ⟨members, inner, rfl | rfl, -⟩ := hin <;> exact ⟨rfl, fun _ => rfl⟩
  rcases h with rfl | rfl | rfl | ⟨delimiter, -, rfl⟩
  · exact hin
  · rwa [htext.1]
  · exact hin.wrap
  · rwa [htext.2]

/-- An object comes of a text only if it reads so. -/
theorem Becomes.readText_eq {text : String} (h : Becomes p (.str text) (.obj members)) :
    readText (.str text) = .obj members := by
  rcases h with h | h | h | ⟨delimiter, -, h⟩
  · cases h
  · exact h.symm
  · cases h
  · rw [splitText] at h
    split at h <;> cases h

/-! ### What stands under the name of a parameter -/

/-- What the members that are sent on their own are added to. An exploded object of the query is
read before. -/
def received (root : Json) (p : Parameter) (own : Option Json) : Option Json :=
  if IsExploded root p ∧ isQueryObject root p = true then own.map readText else own

/-- The members of a value, which are none if it is no object. -/
def membersOf : Option Json → Entries Json
  | some (.obj members) => members
  | _ => []

theorem get?_insertAll_of_distinct (hd : Distinct members) (existing : Entries Json)
    (key : String) :
    get? (insertAll existing members) key = (get? members key).or (get? existing key) := by
  rw [get?_insertAll, ← get?_ofList, hd.ofList_eq]

theorem joined_of_ne_nil (hd : Distinct members) (hne : members ≠ []) (own : Option Json) :
    joined own members = some (.obj (insertAll (membersOf own) members)) := by
  have hempty : ¬members.isEmpty = true := by simpa using hne
  have hall : insertAll [] members = members := hd.ofList_eq
  rw [joined.eq_def, if_neg hempty]
  split
  · rfl
  · rename_i hno
    rw [membersOf.eq_def]
    split
    · rename_i existing
      exact absurd rfl (hno existing)
    · rw [hall]

/-- **Members that are sent on their own** make the value of the parameter an object. -/
theorem ownValue_of_collected (hd : Distinct table) (hne : collected root p table ≠ [])
    (own : Option Json) :
    ownValue root p own (collected root p table) =
      some (.obj (insertAll (membersOf (received root p own)) (collected root p table))) := by
  have hjoined := joined_of_ne_nil (distinct_collected hd root p) hne
  have hsome : IsExploded root p ∨ IsBracketed root p := by
    by_contra hnot
    rw [not_or] at hnot
    exact hne (collected_of_not hnot.1 hnot.2 table)
  rcases hsome with hexploded | hbracketed
  · obtain ⟨hcontent, hform, hshape⟩ := hexploded
    by_cases hobject : isQueryObject root p = true
    · rw [received, if_pos ⟨⟨hcontent, hform, hshape⟩, hobject⟩, ← hjoined]
      simp [ownValue, hcontent, hobject, hform]
    · have harray := hshape.resolve_left hobject
      rw [received, if_neg fun h => hobject h.2, ← hjoined]
      simp [ownValue, hcontent, hobject, harray, hform]
  · have hcontent := (isQueryObject_iff.mp hbracketed.1).2.1
    -- an object is given and is not read again
    have hgiven : ∀ members : Entries Json, isGiven (.obj members) = true := fun _ => rfl
    have hread : ∀ members : Entries Json, readText (.obj members) = .obj members := fun _ => rfl
    rw [received, if_neg fun h => hbracketed.not_isExploded h.1]
    simp [ownValue, hcontent, hbracketed.1, hbracketed.2, hjoined, hgiven, hread]

/-- **Without such members** a value becomes what its parameter makes of it, or a default takes its
place. -/
theorem ownValue_some_nil (root : Json) (p : Parameter) (value : Json) :
    (∃ next, ownValue root p (some value) [] = some next ∧ Becomes p value next) ∨
      (IsBracketed root p ∧ isGiven value = false ∧ ∃ default,
        Schema.defaultValue root p.schema = some default ∧
          ownValue root p (some value) [] = some (readText default)) := by
  have hjoined : ∀ own, joined own [] = own := fun _ => rfl
  have hsame : Becomes p value value := Or.inl rfl
  have hread : Becomes p value (readText value) := Or.inr (Or.inl rfl)
  have hwrap : Becomes p value (wrap value) := Or.inr (Or.inr (Or.inl rfl))
  -- the cases are those of the decoding, and only one of them puts a default in
  cases hcontent : p.contentMediaType with
  | some mediaType =>
    by_cases hjson : isJsonMediaType mediaType = true
    · exact Or.inl ⟨_, by simp [ownValue, hcontent, hjson], hread⟩
    · exact Or.inl ⟨_, by simp [ownValue, hcontent, hjson], hsame⟩
  | none =>
    by_cases hobject : isQueryObject root p = true
    · by_cases hform : p.style = "form" ∧ p.explode = true
      · exact Or.inl ⟨_, by simp [ownValue, hcontent, hobject, hform, hjoined], hread⟩
      · by_cases hdeep : p.style = "deepObject"
        · cases hgiven : isGiven value with
          | true =>
            refine Or.inl ⟨_, ?_, hread⟩
            simp [ownValue, hcontent, hobject, hdeep, hjoined, hgiven]
          | false =>
            cases hdefault : Schema.defaultValue root p.schema with
            | none =>
              refine Or.inl ⟨_, ?_, hread⟩
              simp [ownValue, hcontent, hobject, hdeep, hjoined, hgiven, hdefault]
            | some default =>
              refine Or.inr ⟨⟨hobject, hdeep⟩, rfl, default, rfl, ?_⟩
              simp [ownValue, hcontent, hobject, hdeep, hjoined, hgiven, hdefault]
        · exact Or.inl ⟨_, by simp [ownValue, hcontent, hobject, hform, hdeep], hread⟩
    · by_cases harray : Schema.effectiveType root p.schema = some "array"
      · by_cases hexplode : p.explode = true
        · by_cases hgiven : isGiven value = true
          · exact Or.inl ⟨_, by simp [ownValue, hcontent, hobject, harray, hexplode, hgiven], hwrap⟩
          · exact Or.inl ⟨_, by simp [ownValue, hcontent, hobject, harray, hexplode, hgiven], hsame⟩
        · cases hdelimiter : delimiter? p.style with
          | some delimiter =>
            refine Or.inl ⟨splitText delimiter value, ?_,
              Or.inr (Or.inr (Or.inr ⟨_, hdelimiter, rfl⟩))⟩
            simp [ownValue, hcontent, hobject, harray, hexplode, hdelimiter]
          | none =>
            refine Or.inl ⟨_, ?_, hsame⟩
            simp [ownValue, hcontent, hobject, harray, hexplode, hdelimiter]
      · refine Or.inl ⟨_, ?_, hsame⟩
        by_cases hform : p.style = "form" ∧ p.explode = true <;>
          simp [ownValue, hcontent, hobject, harray, hform, hjoined]

/-! ### One parameter -/

/-- How a parameter hands a value on. It passes on what it has nothing to do with, takes what its
members are sent under, and makes something of the value under its own name: what that becomes, or
the object with the members added. What is inside of the value stays where it is. -/
inductive Hands (root : Json) (p : Parameter) (table : Entries Json) : Spot → Spot → Prop
  | passes {s : Spot} (hkey : s.key ≠ p.name) (hdenoted : denoted? root p s.key = none) :
      Hands root p table s s
  | takes {key member : String} {path : List String} {value next : Json}
      (hdenoted : denoted? root p key = some member)
      (hnext : next = value ∨ path = [] ∧ next = wrap value) :
      Hands root p table ⟨key, path, value⟩ ⟨p.name, member :: path, next⟩
  | becomes {value next : Json} (hnext : Becomes p value next) :
      Hands root p table ⟨p.name, [], value⟩ ⟨p.name, [], next⟩
  | extends {value : Json} {existing : Entries Json}
      (hvalue : received root p (some value) = some (.obj existing)) :
      Hands root p table ⟨p.name, [], value⟩
        ⟨p.name, [], .obj (insertAll existing (collected root p table))⟩
  | keeps {member : String} {path : List String} {value : Json} :
      Hands root p table ⟨p.name, member :: path, value⟩ ⟨p.name, member :: path, value⟩

/-- Where a value gives way: to the default of an object in brackets, if it does not count as given;
to a member of the same name that is sent on its own; and to such members altogether, if they cannot
be added to what stands there. -/
inductive GivesWay (root : Json) (p : Parameter) (table next : Entries Json) : Spot → Prop
  | toDefault {value default : Json} (hbracketed : IsBracketed root p)
      (hgiven : isGiven value = false) (hnone : collected root p table = [])
      (hdefault : Schema.defaultValue root p.schema = some default)
      (hnext : get? next p.name = some (readText default)) :
      GivesWay root p table next ⟨p.name, [], value⟩
  | toMember {member : String} {path : List String} {value part : Json}
      (hpart : get? (collected root p table) member = some part)
      (hnext : Spot.StandsIn ⟨p.name, [member], part⟩ next) :
      GivesWay root p table next ⟨p.name, member :: path, value⟩
  | toMembers {path : List String} {value : Json} (hsome : collected root p table ≠ [])
      (hno : ∀ existing, received root p (get? table p.name) ≠ some (.obj existing)) :
      GivesWay root p table next ⟨p.name, path, value⟩

/-- What is collected is a member of the parameter's object. -/
theorem exists_object_of_collected (hd : Distinct table) (h : decodeEntry root p table = .ok next)
    (hpart : get? (collected root p table) member = some part) :
    ∃ object, get? next p.name = some (.obj object) ∧ get? object member = some part := by
  have hne : collected root p table ≠ [] := fun hnil => by
    rw [hnil] at hpart
    cases hpart
  have hget := get?_decodeEntry hd h p.name
  rw [if_pos rfl, ownValue_of_collected hd hne] at hget
  refine ⟨_, hget, ?_⟩
  rw [get?_insertAll_of_distinct (distinct_collected hd root p), hpart]
  rfl

/-- What a parameter takes is found in its object. -/
theorem hands_of_denoted (hd : Distinct table) (h : decodeEntry root p table = .ok next)
    (hdenoted : denoted? root p key = some member) (hs : Spot.StandsIn ⟨key, path, value⟩ table) :
    ∃ s, Hands root p table ⟨key, path, value⟩ s ∧ s.StandsIn next := by
  obtain ⟨whole, hwhole, hin⟩ := hs
  obtain ⟨part, hpart, hcollected⟩ := get?_collected hd hdenoted hwhole
  obtain ⟨object, hobject, hmember⟩ := exists_object_of_collected hd h hcollected
  cases path with
  | nil =>
    obtain rfl := foundIn_nil.mp hin
    exact ⟨⟨p.name, [member], part⟩, .takes hdenoted (hpart.imp_right fun h => ⟨rfl, h⟩),
      .obj object, hobject, object, part, Or.inl rfl, hmember, rfl⟩
  | cons first path =>
    refine ⟨⟨p.name, member :: first :: path, value⟩, .takes hdenoted (Or.inl rfl),
      .obj object, hobject, object, part, Or.inl rfl, hmember, ?_⟩
    rcases hpart with rfl | rfl
    · exact hin
    · exact hin.wrap

/-- Where no members are collected, the value under the name of the parameter becomes another
one. -/
theorem hands_or_givesWay_of_nil (hnone : collected root p table = [])
    (hget : get? next p.name = ownValue root p (some whole) []) (hin : FoundIn whole path value) :
    (∃ s, Hands root p table ⟨p.name, path, value⟩ s ∧ s.StandsIn next) ∨
      GivesWay root p table next ⟨p.name, path, value⟩ := by
  rcases ownValue_some_nil root p whole with
    ⟨final, hown, hbecomes⟩ | ⟨hbracketed, hgiven, default, hdefault, hown⟩
  · left
    cases path with
    | nil =>
      obtain rfl := foundIn_nil.mp hin
      exact ⟨_, .becomes hbecomes, final, hget.trans hown, rfl⟩
    | cons member path => exact ⟨_, .keeps, final, hget.trans hown, hbecomes.foundIn hin⟩
  · cases path with
    | nil =>
      obtain rfl := foundIn_nil.mp hin
      exact Or.inr (.toDefault hbracketed hgiven hnone hdefault (hget.trans hown))
    | cons member path =>
      -- what has members is given
      obtain ⟨members, inner, rfl | rfl, -⟩ := hin <;> cases hgiven

/-- Where members are collected, the value under the name of the parameter is the object that they
are added to, or it gives way to them. -/
theorem hands_or_givesWay_of_collected (hd : Distinct table)
    (h : decodeEntry root p table = .ok next) (hsome : collected root p table ≠ [])
    (hwhole : get? table p.name = some whole) (hin : FoundIn whole path value) :
    (∃ s, Hands root p table ⟨p.name, path, value⟩ s ∧ s.StandsIn next) ∨
      GivesWay root p table next ⟨p.name, path, value⟩ := by
  -- only an object can be added to
  by_cases hobject : ∃ existing, received root p (some whole) = some (.obj existing)
  · obtain ⟨existing, hexisting⟩ := hobject
    have hget := get?_decodeEntry hd h p.name
    rw [if_pos rfl, hwhole, ownValue_of_collected hd hsome, hexisting] at hget
    cases path with
    | nil =>
      obtain rfl := foundIn_nil.mp hin
      exact Or.inl ⟨_, .extends hexisting, _, hget, rfl⟩
    | cons member path =>
      cases hpart : get? (collected root p table) member with
      | some part =>
        obtain ⟨object, hobject, hmember⟩ := exists_object_of_collected hd h hpart
        exact Or.inr (.toMember hpart
          ⟨.obj object, hobject, object, part, Or.inl rfl, hmember, rfl⟩)
      | none =>
        obtain ⟨members, inner, hmembers, hinner, hfound⟩ := hin
        -- reading leaves an object as it is, and an array is none
        have hsame : members = existing := by
          rw [received] at hexisting
          rcases hmembers with rfl | rfl <;> split at hexisting <;> cases hexisting <;> rfl
        refine Or.inl ⟨_, .keeps, _, hget, _, inner, Or.inl rfl, ?_, hfound⟩
        change get? (insertAll existing _) member = some inner
        rw [get?_insertAll_of_distinct (distinct_collected hd root p), hpart, Option.none_or,
          ← hsame]
        exact hinner
  · refine Or.inr (.toMembers hsome fun existing hexisting => hobject ⟨existing, ?_⟩)
    rwa [hwhole] at hexisting

/-- **A parameter hands a value on, or the value gives way.** -/
theorem hands_or_givesWay {s : Spot} (hd : Distinct table) (h : decodeEntry root p table = .ok next)
    (hs : s.StandsIn table) :
    (∃ s', Hands root p table s s' ∧ s'.StandsIn next) ∨ GivesWay root p table next s := by
  obtain ⟨key, path, value⟩ := s
  by_cases hkey : key = p.name
  · subst hkey
    obtain ⟨whole, hwhole, hin⟩ := hs
    by_cases hnone : collected root p table = []
    · have hget := get?_decodeEntry hd h p.name
      rw [if_pos rfl, hwhole, hnone] at hget
      exact hands_or_givesWay_of_nil hnone hget hin
    · exact hands_or_givesWay_of_collected hd h hnone hwhole hin
  · left
    cases hdenoted : denoted? root p key with
    | some member => exact hands_of_denoted hd h hdenoted hs
    | none =>
      obtain ⟨whole, hwhole, hin⟩ := hs
      refine ⟨_, .passes hkey hdenoted, whole, ?_, hin⟩
      have hget := get?_decodeEntry hd h key
      rw [if_neg hkey, hdenoted] at hget
      exact hget.trans hwhole

/-! ### All parameters -/

/-- A value is handed on by each of the parameters, from the spot where it was sent to the one where
it arrives. -/
inductive Carried (root : Json) (table : Entries Json) (s : Spot) : List Parameter → Spot → Prop
  | start : Carried root table s [] s
  | step {done : List Parameter} {p : Parameter} {current : Entries Json} {s' s'' : Spot}
      (hdone : Carried root table s done s') (hcurrent : decodeTable root done table = .ok current)
      (hands : Hands root p current s' s'') : Carried root table s (done ++ [p]) s''

/-- A value is handed on up to a parameter where it gives way. -/
def Displaced (root : Json) (table : Entries Json) (s : Spot) (parameters : List Parameter) :
    Prop :=
  ∃ done p rest current next s', parameters = done ++ p :: rest ∧
    decodeTable root done table = .ok current ∧ decodeEntry root p current = .ok next ∧
      Carried root table s done s' ∧ s'.StandsIn current ∧ GivesWay root p current next s'

theorem Displaced.append {s : Spot} (h : Displaced root table s parameters)
    (rest : List Parameter) :
    Displaced root table s (parameters ++ rest) := by
  obtain ⟨done, p, rest', current, next, s', rfl, hcurrent, hnext, hdone, hs', hgives⟩ := h
  exact ⟨done, p, rest' ++ rest, current, next, s', by simp, hcurrent, hnext, hdone, hs', hgives⟩

/-- **A value that is sent is handed on through all parameters**, or it comes to one where it gives
way. -/
theorem carried_or_displaced {s : Spot} (hd : Distinct table)
    (h : decodeTable root parameters table = .ok last) (hs : s.StandsIn table) :
    (∃ s', Carried root table s parameters s' ∧ s'.StandsIn last) ∨
      Displaced root table s parameters := by
  -- the induction is on the parameters that have been worked off
  induction parameters using List.reverseRecOn generalizing last with
  | nil =>
    rw [decodeTable_nil] at h
    exact Or.inl ⟨s, .start, Except.ok.inj h ▸ hs⟩
  | append_singleton done p ih =>
    obtain ⟨current, hcurrent, hstep⟩ := decodeTable_concat_eq_ok_iff.mp h
    rcases ih hcurrent with ⟨s', hcarried, hs'⟩ | hdisplaced
    · rcases hands_or_givesWay (distinct_decodeTable hd hcurrent) hstep hs' with
        ⟨s'', hhands, hs''⟩ | hgives
      · exact Or.inl ⟨s'', .step hcarried hcurrent hhands, hs''⟩
      · exact Or.inr ⟨done, p, [], current, last, s', rfl, hcurrent, hstep, hcarried, hs', hgives⟩
    · exact Or.inr (hdisplaced.append [p])

/-! ### Parameters that have nothing to do with each other -/

/-- Parameters of one place that have nothing to do with each other: no two of them have one name,
and none takes the name of another for a member of its object. -/
structure Apart (root : Json) (parameters : List Parameter) : Prop where
  names : parameters.Pairwise fun p q => p.name ≠ q.name
  members : ∀ p ∈ parameters, ∀ q ∈ parameters, denoted? root p q.name = none

theorem Apart.tail (h : Apart root (p :: parameters)) : Apart root parameters where
  names := h.names.of_cons
  members q hq q' hq' := h.members q (List.mem_cons_of_mem _ hq) q' (List.mem_cons_of_mem _ hq')

/-- The name of a parameter means nothing to the others. -/
theorem Apart.others (h : Apart root (before ++ p :: after)) :
    ∀ q ∈ before ++ after, p.name ≠ q.name ∧ denoted? root q p.name = none := by
  intro q hq
  have hnames := List.pairwise_append.mp h.names
  have hmem : q ∈ before ++ p :: after := by
    simp only [List.mem_append, List.mem_cons] at hq ⊢
    tauto
  refine ⟨?_, h.members q hmem p (by simp)⟩
  rcases List.mem_append.mp hq with hq | hq
  · exact (hnames.2.2 q hq p (by simp)).symm
  · exact (List.pairwise_cons.mp hnames.2.1).1 q hq

/-- How a value arrives: under its own key, as what the parameter with this name makes of it, or as
one member of the object of a parameter that the key denotes a member of. -/
def ArrivesAs (root : Json) (parameters : List Parameter) (last : Entries Json) (key : String)
    (value : Json) : Prop :=
  (∃ final, get? last key = some final ∧
    (final = value ∨ ∃ p ∈ parameters, p.name = key ∧ Becomes p value final)) ∨
  ∃ p ∈ parameters, ∃ member object part, denoted? root p key = some member ∧
    get? last p.name = some (.obj object) ∧ get? object member = some part ∧
      (part = value ∨ part = wrap value)

/-- What is sent under a key that is no parameter's name arrives. -/
theorem arrivesAs_of_forall_ne (hapart : Apart root parameters) (hd : Distinct table)
    (h : decodeTable root parameters table = .ok last) (hkey : ∀ p ∈ parameters, p.name ≠ key)
    (hsent : get? table key = some value) : ArrivesAs root parameters last key value := by
  -- the induction is on the parameters still to come: nothing happens to the key before the first of
  -- them that takes it, and nothing to the name of that one afterwards
  induction parameters generalizing table with
  | nil =>
    rw [decodeTable_nil] at h
    exact Or.inl ⟨value, Except.ok.inj h ▸ hsent, Or.inl rfl⟩
  | cons p rest ih =>
    obtain ⟨next, hstep, hrest⟩ := bind_eq_ok_iff.mp h
    have hdnext : Distinct next := (loses_decodeEntry hstep hd).1
    cases hdenoted : denoted? root p key with
    | some member =>
      obtain ⟨part, hpart, hcollected⟩ := get?_collected hd hdenoted hsent
      obtain ⟨object, hobject, hmember⟩ := exists_object_of_collected hd hstep hcollected
      refine Or.inr ⟨p, by simp, member, object, part, hdenoted, ?_, hmember, hpart⟩
      rw [get?_decodeTable_of_forall hdnext (fun q hq => ?_) hrest, hobject]
      exact ⟨(List.pairwise_cons.mp hapart.names).1 q hq,
        hapart.members q (List.mem_cons_of_mem _ hq) p (by simp)⟩
    | none =>
      have hget : get? next key = some value := by
        rw [get?_decodeEntry hd hstep, if_neg (hkey p (by simp)).symm, hdenoted]
        exact hsent
      rcases ih hapart.tail hdnext hrest (fun q hq => hkey q (List.mem_cons_of_mem _ hq)) hget with
        ⟨final, hfinal, hvalue⟩ | ⟨q, hq, harrives⟩
      · refine Or.inl ⟨final, hfinal, hvalue.imp_right ?_⟩
        exact fun ⟨q, hq, hname⟩ => ⟨q, List.mem_cons_of_mem _ hq, hname⟩
      · exact Or.inr ⟨q, List.mem_cons_of_mem _ hq, harrives⟩

/-- What is collected by the time that a parameter is decoded has been sent, if none of the
parameters before has a name that is taken for a member. -/
theorem exists_sent_of_collected (hd : Distinct table)
    (hnames : ∀ q ∈ parameters, denoted? root p q.name = none)
    (h : decodeTable root parameters table = .ok current)
    (hmem : member ∈ keys (collected root p current)) :
    ∃ sent ∈ keys table, denoted? root p sent = some member := by
  obtain ⟨sent, hkey, hdenoted⟩ := exists_of_mem_collected hmem
  obtain ⟨found, hfound, rfl⟩ := List.mem_map.mp hkey
  refine ⟨found.1, ?_, hdenoted⟩
  have hbefore : get? table found.1 = some found.2 := by
    refine get?_of_get?_decodeTable hd (fun q hq hname => ?_) h
      (get?_of_mem (distinct_decodeTable hd h) hfound)
    rw [hname, hnames q hq] at hdenoted
    cases hdenoted
  exact List.mem_map.mpr ⟨found, mem_of_get? hbefore, rfl⟩

/-- What becomes of a value under the name of an object, if it does not arrive as it is. Where it
does not count as given, the default of an object in brackets stands there. Where it has members, it
keeps them, apart from those that are sent on their own. The third case is that of a value that has
none, while members are sent on their own. -/
def EndsAsObject (root : Json) (p : Parameter) (table last : Entries Json) (value : Json) : Prop :=
  (IsBracketed root p ∧ isGiven value = false ∧ ∃ default,
    Schema.defaultValue root p.schema = some default ∧ get? last p.name = some (readText default)) ∨
  (∃ existing object, received root p (some value) = some (.obj existing) ∧
    get? last p.name = some (.obj object) ∧ ∀ member part, get? existing member = some part →
      get? object member = some part ∨ ∃ sent ∈ keys table, denoted? root p sent = some member) ∨
  ((∃ sent ∈ keys table, (denoted? root p sent).isSome = true) ∧
    ∀ existing, received root p (some value) ≠ some (.obj existing))

/-- What is sent under the name of a parameter arrives, or ends as an object. -/
theorem arrivesAs_or_endsAsObject_self (hapart : Apart root parameters) (hp : p ∈ parameters)
    (hd : Distinct table) (h : decodeTable root parameters table = .ok last)
    (hsent : get? table p.name = some value) :
    ArrivesAs root parameters last p.name value ∨ EndsAsObject root p table last value := by
  obtain ⟨before, after, rfl⟩ := List.append_of_mem hp
  obtain ⟨current, hcurrent, hget⟩ := get?_decodeTable_name hd hapart.others h
  rw [hsent] at hget
  have hcollects : ∀ member, member ∈ keys (collected root p current) →
      ∃ sent ∈ keys table, denoted? root p sent = some member := fun _ hmem =>
    exists_sent_of_collected hd
      (fun q hq => hapart.members p hp q (List.mem_append_left _ hq)) hcurrent hmem
  have hdcurrent := distinct_decodeTable hd hcurrent
  by_cases hne : collected root p current = []
  · rw [hne] at hget
    rcases ownValue_some_nil root p value with
      ⟨final, hown, hbecomes⟩ | ⟨hbracketed, hgiven, default, hdefault, hown⟩
    · exact Or.inl (Or.inl ⟨final, hget.trans hown, Or.inr ⟨p, hp, rfl, hbecomes⟩⟩)
    · exact Or.inr (Or.inl ⟨hbracketed, hgiven, default, hdefault, hget.trans hown⟩)
  · right
    right
    by_cases hobject : ∃ existing, received root p (some value) = some (.obj existing)
    · obtain ⟨existing, hexisting⟩ := hobject
      rw [ownValue_of_collected hdcurrent hne, hexisting] at hget
      refine Or.inl ⟨existing, _, hexisting, hget, fun member part hpart => ?_⟩
      change get? (insertAll existing _) member = some part ∨ _
      rw [get?_insertAll_of_distinct (distinct_collected hdcurrent root p)]
      -- what is collected wins, and whatever is collected has been sent
      cases hcollected : get? (collected root p current) member with
      | none => exact Or.inl hpart
      | some other =>
        exact Or.inr (hcollects member (List.mem_map.mpr ⟨_, mem_of_get? hcollected, rfl⟩))
    · obtain ⟨e, rest, hcollected⟩ := List.exists_cons_of_ne_nil hne
      obtain ⟨sent, hkey, hdenoted⟩ := hcollects e.1 (by simp [hcollected, keys])
      exact Or.inr ⟨⟨sent, hkey, by rw [hdenoted]; rfl⟩, fun existing h => hobject ⟨existing, h⟩⟩

/-- **What is sent arrives**, or it is under the name of an object and ends as one. -/
theorem arrivesAs_or_endsAsObject (hapart : Apart root parameters) (hd : Distinct table)
    (h : decodeTable root parameters table = .ok last) (hsent : get? table key = some value) :
    ArrivesAs root parameters last key value ∨
      ∃ p ∈ parameters, p.name = key ∧ EndsAsObject root p table last value := by
  by_cases hname : ∃ p ∈ parameters, p.name = key
  · obtain ⟨p, hp, rfl⟩ := hname
    exact (arrivesAs_or_endsAsObject_self hapart hp hd h hsent).imp_right
      fun hends => ⟨p, hp, rfl, hends⟩
  · exact Or.inl (arrivesAs_of_forall_ne hapart hd h (fun p hp hkey => hname ⟨p, hp, hkey⟩) hsent)

/-! ### Requests -/

variable {route : String} {request : Request} {decoded : NormalizedRequest}

/-- **No value is lost in decoding**, save where it gives way. Whatever is sent at a place is handed
on by the parameters of the place, one after the other, to where it is found in the end, or it is
handed on to where it gives way. If the parameters have nothing to do with each other, what is sent
under a key arrives under this key or as one member of one object, unless it is under the name of an
object and ends as one. -/
theorem decode_values (h : decode root route parameters request = .ok decoded) (location : Location)
    (hd : Distinct ((NormalizedRequest.ofRequest request).table location))
    (hsent : get? ((NormalizedRequest.ofRequest request).table location) key = some value) :
    ((∃ s, Carried root ((NormalizedRequest.ofRequest request).table location) ⟨key, [], value⟩
          (atPlace location parameters) s ∧ s.StandsIn (decoded.table location)) ∨
      Displaced root ((NormalizedRequest.ofRequest request).table location) ⟨key, [], value⟩
        (atPlace location parameters)) ∧
    (Apart root (atPlace location parameters) →
      ArrivesAs root (atPlace location parameters) (decoded.table location) key value ∨
      ∃ p ∈ atPlace location parameters, p.name = key ∧
        EndsAsObject root p ((NormalizedRequest.ofRequest request).table location)
          (decoded.table location) value) :=
  ⟨carried_or_displaced hd (decode_table h location) ⟨value, hsent, rfl⟩,
    fun hapart => arrivesAs_or_endsAsObject hapart hd (decode_table h location) hsent⟩

/-- A filter in brackets, an object whose properties are sent on their own, and one with a property
that has the name of another parameter. -/
def filterObject : Parameter :=
  { name := "filter", location := .query, required := false, style := "deepObject", explode := true,
    allowEmptyValue := false, contentMediaType := none,
    schema := .obj [("type", .str "object"), ("properties", .obj [("a", .obj [])])] }

def coordsObject : Parameter :=
  { filterObject with
    name := "coords", style := "form",
    schema := .obj [("type", .str "object"), ("properties", .obj [("lat", .obj [])])] }

def outerObject : Parameter :=
  { coordsObject with
    name := "outer",
    schema := .obj [("type", .str "object"), ("properties", .obj [("coords", .obj [])])] }

def queryRequest (query : Entries Json) : Request :=
  { method := "GET", route := "/t", query := some query }

theorem decode_values_filter :
    ArrivesAs .null [filterObject, coordsObject]
      [("page", .str "2"), ("filter", .obj [("x y", .str "1")])] "filter[x y]" (.str "1") := by
  have hdecode : decode .null "/t" [filterObject, coordsObject]
      (queryRequest [("filter[x y]", .str "1"), ("page", .str "2")]) =
        .ok { method := "GET", route := "/t",
              query := [("page", .str "2"), ("filter", .obj [("x y", .str "1")])] } := by
    decide +kernel
  have hapart : Apart .null [filterObject, coordsObject] :=
    ⟨by decide, by decide +kernel⟩
  have hvalues := (decode_values hdecode .query
    (show (["filter[x y]", "page"] : List String).Nodup by decide)
    (show get? [("filter[x y]", Json.str "1"), ("page", .str "2")] "filter[x y]" =
      some (.str "1") by decide)).2 hapart
  have hnames : ∀ p ∈ [filterObject, coordsObject], p.name ≠ "filter[x y]" := by decide
  exact hvalues.resolve_right fun ⟨p, hp, hname, _⟩ => hnames p hp hname

/-- Objects are where values do not arrive as they are: an empty one gives way to the default, a
member to the one that is sent on its own, and an object is read before it is taken into another. -/
theorem not_arrivesAs_of_objects :
    (decode .null "/t" [filterObject] (queryRequest [("filter", .str "")]) =
        .ok { method := "GET", route := "/t", query := [("filter", .obj [])] } ∧
      ¬ArrivesAs .null [filterObject] [("filter", .obj [])] "filter" (.str "")) ∧
    (decode .null "/t" [coordsObject]
          (queryRequest [("coords", .str "\x7b\"lat\":\"1\"\x7d"), ("lat", .str "2")]) =
        .ok { method := "GET", route := "/t", query := [("coords", .obj [("lat", .str "2")])] } ∧
      ¬ArrivesAs .null [coordsObject] [("coords", .obj [("lat", .str "2")])] "coords"
        (.str "\x7b\"lat\":\"1\"\x7d")) ∧
    (decode .null "/t" [coordsObject, outerObject]
          (queryRequest [("coords", .str "\x7b\"lat\":\"1\"\x7d")]) =
        .ok { method := "GET", route := "/t",
              query := [("outer", .obj [("coords", .obj [("lat", .str "1")])])] } ∧
      ¬ArrivesAs .null [coordsObject, outerObject]
        [("outer", .obj [("coords", .obj [("lat", .str "1")])])] "coords"
        (.str "\x7b\"lat\":\"1\"\x7d")) := by
  refine ⟨⟨by decide +kernel, ?_⟩, ⟨by decide +kernel, ?_⟩, ⟨by decide +kernel, ?_⟩⟩
  · rintro (⟨final, hfinal, hvalue⟩ | ⟨p, hp, member, object, part, hdenoted, -⟩)
    · obtain rfl : .obj [] = final := Option.some.inj hfinal
      rcases hvalue with hsame | ⟨p, -, -, hbecomes⟩
      · cases hsame
      · exact absurd hbecomes.readText_eq (by decide +kernel)
    · obtain rfl := List.mem_singleton.mp hp
      rw [show denoted? .null filterObject "filter" = none from denoted?_self _ _] at hdenoted
      cases hdenoted
  · rintro (⟨final, hfinal, hvalue⟩ | ⟨p, hp, member, object, part, hdenoted, -⟩)
    · obtain rfl : .obj [("lat", .str "2")] = final := Option.some.inj hfinal
      rcases hvalue with hsame | ⟨p, -, -, hbecomes⟩
      · cases hsame
      · exact absurd hbecomes.readText_eq (by decide +kernel)
    · obtain rfl := List.mem_singleton.mp hp
      rw [show denoted? .null coordsObject "coords" = none from denoted?_self _ _] at hdenoted
      cases hdenoted
  · -- nothing is left under the name, and in the other object there is the object that was read
    rintro (⟨final, hfinal, -⟩ | ⟨p, hp, member, object, part, hdenoted, hobject, hpart, hvalue⟩)
    · cases hfinal
    · rcases List.mem_cons.mp hp with rfl | hp
      · rw [show denoted? .null coordsObject "coords" = none from denoted?_self _ _] at hdenoted
        cases hdenoted
      · obtain rfl := List.mem_singleton.mp hp
        have hmember : denoted? .null outerObject "coords" = some "coords" := by decide +kernel
        obtain rfl := Option.some.inj (hmember.symm.trans hdenoted)
        obtain rfl : [("coords", .obj [("lat", .str "1")])] = object :=
          Json.obj.inj (Option.some.inj hobject)
        obtain rfl : .obj [("lat", .str "1")] = part := Option.some.inj hpart
        rcases hvalue with hvalue | hvalue <;> cases hvalue

end Style

end RequestGate
