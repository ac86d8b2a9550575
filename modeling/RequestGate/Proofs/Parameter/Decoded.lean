import RequestGate.Proofs.Parameter.Moves

/-!
# What is found in a decoded table

Decoding a parameter is a move on the table of its place, and what the move makes of the table is
read off by looking a key up afterwards (`RequestGate.Style.get?_decodeEntry`). Three things can be
found. Under the name of the parameter stands what it makes of the value there and of the members
that it has collected (`RequestGate.Style.ownValue`). A key that denotes a member of its object
(`RequestGate.Style.denoted?`) is gone, and the member is among those collected
(`RequestGate.Style.get?_collected`). Every other key has the value that it had.

Whether a parameter can be decoded at all is decided before a value is looked at
(`RequestGate.Style.decodeEntry_isOk_iff`), and the parameters of one place only ever see the table
of this place (`RequestGate.Style.decode_table`). So what is proved of one table and a list of
parameters carries over to the requests.
-/

namespace RequestGate

open Entries

namespace Style

variable {root value : Json} {p : Parameter} {key member : String} {table next : Entries Json}

/-! ### One parameter -/

/-- Whether a parameter is an object whose properties are sent under keys of their own. -/
def IsExploded (root : Json) (p : Parameter) : Prop :=
  p.contentMediaType = none ∧ (p.style = "form" ∧ p.explode = true) ∧
    (isQueryObject root p = true ∨ Schema.effectiveType root p.schema ≠ some "array")

/-- Whether a parameter is an object whose members are sent under keys in brackets. -/
def IsBracketed (root : Json) (p : Parameter) : Prop :=
  isQueryObject root p = true ∧ p.style = "deepObject"

instance (root : Json) (p : Parameter) : Decidable (IsExploded root p) :=
  inferInstanceAs (Decidable (_ ∧ _))

instance (root : Json) (p : Parameter) : Decidable (IsBracketed root p) :=
  inferInstanceAs (Decidable (_ ∧ _))

theorem IsBracketed.not_isExploded (h : IsBracketed root p) : ¬IsExploded root p := by
  intro hexploded
  have hstyle := hexploded.2.1.1
  rw [h.2] at hstyle
  exact absurd hstyle (by decide)

/-- The member of its object that a parameter takes a key for. -/
def denoted? (root : Json) (p : Parameter) (key : String) : Option String :=
  if IsExploded root p then
    if key ≠ p.name ∧ key ∈ keys (Schema.properties root p.schema) then some key else none
  else if IsBracketed root p then bracketed? p.name key
  else none

/-- The members of a parameter's object that are sent on their own. -/
def collected (root : Json) (p : Parameter) (table : Entries Json) : Entries Json :=
  if IsExploded root p then siblings root p.schema p.name table
  else if IsBracketed root p then bracketMembers p.name table
  else []

theorem denoted?_isSome_iff_of_isExploded (h : IsExploded root p) :
    (denoted? root p key).isSome = true ↔
      key ≠ p.name ∧ key ∈ keys (Schema.properties root p.schema) := by
  rw [denoted?, if_pos h]
  split <;> simp_all

theorem collected_of_isExploded (h : IsExploded root p) (table : Entries Json) :
    collected root p table = siblings root p.schema p.name table :=
  if_pos h

theorem denoted?_of_isBracketed (h : IsBracketed root p) :
    denoted? root p key = bracketed? p.name key := by
  rw [denoted?, if_neg h.not_isExploded, if_pos h]

theorem collected_of_isBracketed (h : IsBracketed root p) (table : Entries Json) :
    collected root p table = bracketMembers p.name table := by
  rw [collected, if_neg h.not_isExploded, if_pos h]

theorem denoted?_of_not (hexploded : ¬IsExploded root p) (hbracketed : ¬IsBracketed root p) :
    denoted? root p key = none := by
  rw [denoted?, if_neg hexploded, if_neg hbracketed]

theorem collected_of_not (hexploded : ¬IsExploded root p) (hbracketed : ¬IsBracketed root p)
    (table : Entries Json) : collected root p table = [] := by
  rw [collected, if_neg hexploded, if_neg hbracketed]

/-- What a parameter makes of the value under its own name, and of the members that are sent on
their own. -/
def ownValue (root : Json) (p : Parameter) (own : Option Json) (members : Entries Json) :
    Option Json :=
  match p.contentMediaType with
  | some mediaType => if isJsonMediaType mediaType then own.map readText else own
  | none =>
    if isQueryObject root p then
      if p.style == "form" && p.explode then joined (own.map readText) members
      else if p.style == "deepObject" then
        let object := joined own members
        (if object.any isGiven then object
          else (Schema.defaultValue root p.schema).or object).map readText
      else own.map readText
    else if Schema.effectiveType root p.schema = some "array" then
      if p.explode then own.map fun value => if isGiven value then wrap value else value
      else
        match delimiter? p.style with
        | some delimiter => own.map (splitText delimiter)
        | none => own
    else if p.style == "form" && p.explode then joined own members
    else own

/-- A parameter that takes no keys, and rewrites its own value by `f`. -/
theorem get?_of_eq_modify {f : Json → Json} (hexploded : ¬IsExploded root p)
    (hbracketed : ¬IsBracketed root p) (hnext : next = modify table p.name f)
    (hown : ∀ own, ownValue root p own [] = own.map f) (key : String) :
    get? next key =
      if key = p.name then ownValue root p (get? table p.name) (collected root p table)
      else if (denoted? root p key).isSome then none else get? table key := by
  rw [collected_of_not hexploded hbracketed, hown, denoted?_of_not hexploded hbracketed, hnext,
    get?_modify]
  rfl

theorem NoObject.not_isBracketed (h : NoObject root p) : ¬IsBracketed root p := fun hbracketed => by
  cases h.object.symm.trans hbracketed.1

theorem NoObject.isExploded_iff (h : NoObject root p) :
    IsExploded root p ↔ (p.style = "form" ∧ p.explode = true) ∧
      Schema.effectiveType root p.schema ≠ some "array" := by
  simp [IsExploded, h.content, h.object]

theorem not_isExploded_of_content {mediaType : String} (h : p.contentMediaType = some mediaType) :
    ¬IsExploded root p := fun hexploded => by
  cases h.symm.trans hexploded.1

theorem not_isBracketed_of_content {mediaType : String} (h : p.contentMediaType = some mediaType) :
    ¬IsBracketed root p := fun hbracketed => by
  cases h.symm.trans (isQueryObject_iff.mp hbracketed.1).2.1

theorem siblings_readJson (root schema : Json) (name : String) (table : Entries Json) :
    siblings root schema name (readJson table name) = siblings root schema name table :=
  siblings_congr fun key hkey => by rw [readJson_eq_modify, get?_modify, if_neg hkey]

/-- **What is found in a decoded table**: under the name of the parameter what it makes of the value
there and of the members that it has collected, under the keys that denote these nothing, and under
every other key what has been there before. -/
theorem get?_decodeEntry (hd : Distinct table) (h : decodeEntry root p table = .ok next)
    (key : String) :
    get? next key =
      if key = p.name then ownValue root p (get? table p.name) (collected root p table)
      else if (denoted? root p key).isSome then none else get? table key := by
  cases decoding_of_decodeEntry h with
  | json hcontent hjson =>
    refine get?_of_eq_modify (not_isExploded_of_content hcontent)
      (not_isBracketed_of_content hcontent) (readJson_eq_modify _ _) (fun own => ?_) key
    simp [ownValue, hcontent, hjson]
  | text hcontent hjson =>
    refine get?_of_eq_modify (not_isExploded_of_content hcontent)
      (not_isBracketed_of_content hcontent) (modify_eq_self fun _ _ => rfl).symm (fun own => ?_) key
    simp [ownValue, hcontent, hjson]
  | exploded hobject hform =>
    have hcontent : p.contentMediaType = none := (isQueryObject_iff.mp hobject).2.1
    have hexploded : IsExploded root p := ⟨hcontent, hform, Or.inl hobject⟩
    have hread : Distinct (readJson table p.name) := (loses_readJson table p.name hd).1
    -- reading JSON changes the own value alone, so the siblings are those of the table
    rw [get?_collapseExploded hread, siblings_readJson, collected_of_isExploded hexploded,
      readJson_eq_modify, get?_modify, get?_modify, if_pos rfl]
    by_cases hkey : key = p.name
    · simp [hkey, ownValue, hcontent, hobject, hform]
    · simp [hkey, denoted?_isSome_iff_of_isExploded hexploded]
  | bracketed hobject hdeep =>
    have hcontent : p.contentMediaType = none := (isQueryObject_iff.mp hobject).2.1
    have hbracketed : IsBracketed root p := ⟨hobject, hdeep⟩
    rw [readJson_eq_modify, get?_modify, get?_supplied, get?_supplied, if_pos rfl,
      get?_collapseDeepObject hd, get?_collapseDeepObject hd, if_pos rfl,
      collected_of_isBracketed hbracketed, denoted?_of_isBracketed hbracketed]
    by_cases hkey : key = p.name
    · simp [hkey, ownValue, hcontent, hobject, hdeep]
    · simp [hkey]
  | whole hobject hform hdeep =>
    -- neither layout is in use, so no key denotes a member
    have hcontent : p.contentMediaType = none := (isQueryObject_iff.mp hobject).2.1
    refine get?_of_eq_modify (fun hexploded => hform hexploded.2.1)
      (fun hbracketed => hdeep hbracketed.2) (readJson_eq_modify _ _) (fun own => ?_) key
    simp [ownValue, hcontent, hobject, hform, hdeep]
  | wrapped hother harray hexplode =>
    refine get?_of_eq_modify (fun hexploded => (hother.isExploded_iff.mp hexploded).2 harray)
      hother.not_isBracketed rfl (fun own => ?_) key
    simp [ownValue, hother.content, hother.object, harray, hexplode]
  | cut hother harray hexplode hdelimiter =>
    refine get?_of_eq_modify (fun hexploded => (hother.isExploded_iff.mp hexploded).2 harray)
      hother.not_isBracketed (splitDelimited_eq_modify _ _ _) (fun own => ?_) key
    simp [ownValue, hother.content, hother.object, harray, hexplode, hdelimiter]
  | scattered hother harray hform =>
    -- not read as an object, and yet what goes by the names of properties is taken from the table
    have hexploded : IsExploded root p := hother.isExploded_iff.mpr ⟨hform, harray⟩
    rw [get?_collapseExploded hd, collected_of_isExploded hexploded]
    by_cases hkey : key = p.name
    · simp [hkey, ownValue, hother.content, hother.object, harray, hform]
    · simp [hkey, denoted?_isSome_iff_of_isExploded hexploded]
  | unchanged hother harray hform =>
    refine get?_of_eq_modify (fun hexploded => hform (hother.isExploded_iff.mp hexploded).1)
      hother.not_isBracketed (modify_eq_self fun _ _ => rfl).symm (fun own => ?_) key
    simp [ownValue, hother.content, hother.object, harray, hform]

/-! ### What is collected -/

theorem distinct_collected (hd : Distinct table) (root : Json) (p : Parameter) :
    Distinct (collected root p table) := by
  rw [collected]
  split
  · refine (keys_filterMap_sublist fun q new hnew => ?_).nodup
      ((List.filter_sublist.map Prod.fst).nodup (Schema.distinct_properties root p.schema))
    obtain ⟨value, -, rfl⟩ := Option.map_eq_some_iff.mp hnew
    rfl
  · split
    · have hkeys : keys (bracketMembers p.name table) =
          (bracketKeys p.name table).map Prod.snd := by
        rw [keys, bracketMembers, bracketKeys, List.map_filterMap, List.map_filterMap]
        refine List.filterMap_congr fun e _ => ?_
        rw [Option.map_map, Option.map_map]
        rfl
      rw [Distinct, hkeys]
      exact (nodup_bracketKeys hd p.name).2
    · exact List.nodup_nil

theorem asMember_eq_or (root sub value : Json) :
    asMember root sub value = value ∨ asMember root sub value = wrap value := by
  rw [asMember]
  split
  · exact Or.inr rfl
  · exact Or.inl rfl

/-- **What a key denotes is collected**, where it is sent: the value or, for an array, the value in
one. -/
theorem get?_collected (hd : Distinct table) (hdenoted : denoted? root p key = some member)
    (hget : get? table key = some value) :
    ∃ part, (part = value ∨ part = wrap value) ∧
      get? (collected root p table) member = some part := by
  have hdistinct := distinct_collected hd root p
  rw [denoted?] at hdenoted
  rw [collected] at hdistinct ⊢
  split at hdenoted
  · rename_i hexploded
    rw [if_pos hexploded] at hdistinct ⊢
    obtain ⟨⟨hne, hkey⟩, hmember⟩ := Option.ite_none_right_eq_some.mp hdenoted
    obtain rfl := Option.some.inj hmember
    obtain ⟨q, hq, rfl⟩ := List.mem_map.mp hkey
    refine ⟨asMember root q.2 value, asMember_eq_or root q.2 value, get?_of_mem hdistinct ?_⟩
    exact List.mem_filterMap.mpr
      ⟨q, List.mem_filter.mpr ⟨hq, by simpa using hne⟩, by rw [hget]; rfl⟩
  · rename_i hexploded
    rw [if_neg hexploded] at hdistinct ⊢
    obtain ⟨hbracketed, hmember⟩ := Option.ite_none_right_eq_some.mp hdenoted
    rw [if_pos hbracketed] at hdistinct ⊢
    refine ⟨value, Or.inl rfl, get?_of_mem hdistinct ?_⟩
    exact List.mem_filterMap.mpr ⟨(key, value), mem_of_get? hget, by rw [hmember]; rfl⟩

/-- What is collected has been sent under a key that denotes it. -/
theorem exists_of_mem_collected (hmem : member ∈ keys (collected root p table)) :
    ∃ key ∈ keys table, denoted? root p key = some member := by
  obtain ⟨e, he, rfl⟩ := List.mem_map.mp hmem
  rw [collected] at he
  simp only [denoted?]
  split at he
  · rename_i hexploded
    obtain ⟨q, hq, hvalue⟩ := List.mem_filterMap.mp he
    obtain ⟨hq, hne⟩ := List.mem_filter.mp hq
    obtain ⟨value, hget, rfl⟩ := Option.map_eq_some_iff.mp hvalue
    refine ⟨q.1, List.mem_map.mpr ⟨(q.1, value), mem_of_get? hget, rfl⟩, ?_⟩
    rw [if_pos hexploded, if_pos ⟨by simpa using hne, List.mem_map_of_mem hq⟩]
  · rename_i hexploded
    split at he
    · rename_i hbracketed
      obtain ⟨sent, hsent, hvalue⟩ := List.mem_filterMap.mp he
      obtain ⟨member, hmember, rfl⟩ := Option.map_eq_some_iff.mp hvalue
      refine ⟨sent.1, List.mem_map_of_mem hsent, ?_⟩
      rw [if_neg hexploded, if_pos hbracketed, hmember]
    · cases he

theorem denoted?_self (root : Json) (p : Parameter) : denoted? root p p.name = none := by
  rw [denoted?]
  split
  · exact if_neg fun h => h.1 rfl
  · split
    · exact bracketed?_self p.name
    · rfl

/-! ### The parameters of a place -/

/-- Whether a parameter can be decoded, whatever is sent: an array in one string needs a
delimiter. -/
def Decodes (root : Json) (p : Parameter) : Prop :=
  p.contentMediaType = none → isQueryObject root p = false →
    Schema.effectiveType root p.schema = some "array" → p.explode = false →
      (delimiter? p.style).isSome = true

/-- **Decoding fails before a value is looked at**, or not at all. -/
theorem decodeEntry_isOk_iff (table : Entries Json) :
    (∃ next, decodeEntry root p table = .ok next) ↔ Decodes root p := by
  rw [decodeEntry, Decodes]
  cases hcontent : p.contentMediaType with
  | some mediaType => simp
  | none =>
    by_cases hobject : isQueryObject root p = true
    · simp [hobject]
    · by_cases harray : Schema.effectiveType root p.schema = some "array"
      · by_cases hexplode : p.explode = true
        · simp [hobject, harray, hexplode]
        · cases hdelimiter : delimiter? p.style <;> simp [hobject, harray, hexplode]
      · by_cases hform : p.style = "form" ∧ p.explode = true <;> simp [hobject, harray, hform]

/-- One table, decoded by one parameter after the other. -/
def decodeTable (root : Json) (parameters : List Parameter) (table : Entries Json) :
    Except StructuralFault (Entries Json) :=
  parameters.foldlM (fun table p => decodeEntry root p table) table

theorem decodeTable_nil (root : Json) (table : Entries Json) :
    decodeTable root [] table = .ok table :=
  rfl

theorem decodeTable_append (root : Json) (before after : List Parameter) (table : Entries Json) :
    decodeTable root (before ++ after) table =
      decodeTable root before table >>= decodeTable root after :=
  List.foldlM_append

theorem decodeTable_singleton (root : Json) (p : Parameter) (table : Entries Json) :
    decodeTable root [p] table = decodeEntry root p table := by
  rw [decodeTable, List.foldlM_cons]
  cases decodeEntry root p table <;> rfl

theorem decodeTable_concat_eq_ok_iff {done : List Parameter} {last : Entries Json} :
    decodeTable root (done ++ [p]) table = .ok last ↔
      ∃ next, decodeTable root done table = .ok next ∧ decodeEntry root p next = .ok last := by
  rw [decodeTable_append, bind_eq_ok_iff]
  simp only [decodeTable_singleton]

theorem distinct_decodeTable {parameters : List Parameter} (hd : Distinct table)
    (h : decodeTable root parameters table = .ok next) : Distinct next :=
  foldlM_mem_induction (P := Distinct)
    (fun _ _ _ _ hcurrent hstep => (loses_decodeEntry hstep hcurrent).1) hd h

/-- A key keeps its value if no parameter has it for its name or takes it. -/
theorem get?_decodeTable_of_forall {parameters : List Parameter} (hd : Distinct table)
    (hkey : ∀ q ∈ parameters, key ≠ q.name ∧ denoted? root q key = none)
    (h : decodeTable root parameters table = .ok next) : get? next key = get? table key := by
  refine (foldlM_mem_induction
    (P := fun current => Distinct current ∧ get? current key = get? table key)
    (fun q hq current last hcurrent hstep => ?_) ⟨hd, rfl⟩ h).2
  obtain ⟨hne, hdenoted⟩ := hkey q hq
  refine ⟨(loses_decodeEntry hstep hcurrent.1).1, ?_⟩
  rw [get?_decodeEntry hcurrent.1 hstep, if_neg hne, hdenoted, ← hcurrent.2]
  rfl

/-- What is found under a key that is no parameter's name has been there before. -/
theorem get?_of_get?_decodeTable {parameters : List Parameter} (hd : Distinct table)
    (hkey : ∀ q ∈ parameters, key ≠ q.name) (h : decodeTable root parameters table = .ok next)
    (hget : get? next key = some value) : get? table key = some value := by
  have hkept : Distinct next ∧
      ∀ value, get? next key = some value → get? table key = some value := by
    refine foldlM_mem_induction
      (P := fun current => Distinct current ∧
        ∀ value, get? current key = some value → get? table key = some value)
      (fun q hq current last hcurrent hstep => ?_) ⟨hd, fun _ hvalue => hvalue⟩ h
    obtain ⟨hlast, hvalues⟩ := loses_decodeEntry hstep hcurrent.1
    exact ⟨hlast, fun v hv => hcurrent.2 v (hvalues key v (hkey q hq) hv)⟩
  exact hkept.2 value hget

/-- **What is found under the name of a parameter** is what it makes of the value that was sent
there, if the name means nothing to the others. -/
theorem get?_decodeTable_name {before after : List Parameter} (hd : Distinct table)
    (hothers : ∀ q ∈ before ++ after, p.name ≠ q.name ∧ denoted? root q p.name = none)
    (h : decodeTable root (before ++ p :: after) table = .ok next) :
    ∃ current, decodeTable root before table = .ok current ∧
      get? next p.name = ownValue root p (get? table p.name) (collected root p current) := by
  rw [List.append_cons, decodeTable_append, bind_eq_ok_iff] at h
  obtain ⟨middle, hmiddle, hafter⟩ := h
  obtain ⟨current, hcurrent, hstep⟩ := decodeTable_concat_eq_ok_iff.mp hmiddle
  refine ⟨current, hcurrent, ?_⟩
  rw [get?_decodeTable_of_forall (distinct_decodeTable hd hmiddle)
      (fun q hq => hothers q (List.mem_append_right _ hq)) hafter,
    get?_decodeEntry (distinct_decodeTable hd hcurrent) hstep, if_pos rfl,
    get?_decodeTable_of_forall hd (fun q hq => hothers q (List.mem_append_left _ hq)) hcurrent]

variable {route : String} {parameters : List Parameter} {request : Request}
  {decoded : NormalizedRequest}

/-- The parameters of a place. -/
def atPlace (location : Location) (parameters : List Parameter) : List Parameter :=
  parameters.filter fun p => p.location = location

theorem mem_atPlace {location : Location} :
    p ∈ atPlace location parameters ↔ p ∈ parameters ∧ p.location = location := by
  simp [atPlace]

/-- **The table of a place is decoded by the parameters of this place**, in their order. -/
theorem decode_table (h : decode root route parameters request = .ok decoded)
    (location : Location) :
    decodeTable root (atPlace location parameters)
      ((NormalizedRequest.ofRequest request).table location) = .ok (decoded.table location) := by
  refine foldlM_induction
    (P := fun done r => decodeTable root (atPlace location done)
      ((NormalizedRequest.ofRequest request).table location) =
        .ok (NormalizedRequest.table r location))
    ?_ rfl h
  intro done p r last hr hstep
  obtain ⟨next, hnext, rfl⟩ := decodeParameter_eq_ok_iff.mp hstep
  rw [atPlace, List.filter_append]
  by_cases hp : p.location = location
  · subst hp
    rw [List.filter_cons_of_pos (by simp), List.filter_nil, NormalizedRequest.table_withTable]
    exact decodeTable_concat_eq_ok_iff.mpr ⟨_, hr, hnext⟩
  · rw [List.filter_cons_of_neg (by simpa using hp), List.filter_nil, List.append_nil,
      NormalizedRequest.table_withTable_of_ne _ _ hp]
    exact hr

/-- A request can be decoded exactly if each of the parameters can. -/
theorem decode_isOk_iff :
    (∃ decoded, decode root route parameters request = .ok decoded) ↔
      ∀ p ∈ parameters, Decodes root p := by
  constructor
  · rintro ⟨decoded, h⟩ p hp
    refine foldlM_induction (P := fun done _ => ∀ p ∈ done, Decodes root p) ?_ (by simp) h p hp
    intro done p r last hdone hstep q hq
    obtain ⟨next, hnext, -⟩ := decodeParameter_eq_ok_iff.mp hstep
    rcases List.mem_append.mp hq with hq | hq
    · exact hdone q hq
    · rw [List.mem_singleton.mp hq]
      exact (decodeEntry_isOk_iff _).mp ⟨next, hnext⟩
  · intro hall
    refine foldlM_isOk (fun p hp r => ?_) _
    obtain ⟨next, hnext⟩ := (decodeEntry_isOk_iff (r.table p.location)).mpr (hall p hp)
    exact ⟨_, decodeParameter_eq_ok_iff.mpr ⟨next, hnext, rfl⟩⟩

end Style

end RequestGate
