import Mathlib.Data.String.Basic
import RequestGate.Proofs.Parameter.Decoded

/-!
# Objects in the query

An object is sent in the query member by member, and there are two ways to write a member `m` of an
object `n`: as an entry `m` of its own, beside everything else (style `form`, exploded), or as an
entry `n[m]` (style `deepObject`). Either way decoding gathers what a client has encoded, whatever
else the query holds (`RequestGate.Style.object_roundTrip`).

The two ways differ in what can be told apart afterwards. An entry `m` is a member only if the
schema declares the property, so the members come in the order of declaration, and a property that
is an array gets an array. An entry `n[m]` is a member of its own accord, whatever text `m` is:
empty, with brackets or outside of ASCII. Taking `m` out of the key is a matter of bytes, and these
always lie in order and on the boundaries of characters (`RequestGate.Style.bracketed?_slice`).
-/

namespace RequestGate

open Entries

namespace Style

variable {root schema : Json} {route : String} {p : Parameter} {name key : String}
  {table members others object : Entries Json} {request : Request}

/-! ### The text between the brackets -/

/-- A key that starts like a key in brackets and ends like one is one. -/
theorem exists_of_starts_of_ends {rest front : String} (hstart : key = name ++ "[" ++ rest)
    (hend : key = front ++ "]") : ∃ member, key = name ++ "[" ++ member ++ "]" := by
  have hlists : (name ++ "[").toList ++ rest.toList = front.toList ++ [']'] := by
    rw [← String.toList_append, ← hstart, hend, String.toList_append]
    rfl
  rcases List.eq_nil_or_concat rest.toList with hnil | ⟨member, last, hrest⟩
  · -- the opening bracket is not the closing one
    rw [hnil, List.append_nil, String.toList_append] at hlists
    have hlast := (List.append_inj' hlists rfl).2
    exact absurd hlast (by decide)
  · rw [hrest, List.concat_eq_append, ← List.append_assoc] at hlists
    obtain ⟨-, hlast⟩ := List.append_inj' hlists rfl
    refine ⟨String.ofList member, ?_⟩
    have hmember : rest = String.ofList member ++ "]" := by
      rw [← String.toList_inj, hrest, List.concat_eq_append, hlast, String.toList_append,
        String.toList_ofList]
      rfl
    rw [hstart, hmember, ← String.append_assoc]

/-- **The bytes between the brackets** start and end at characters, in this order, and they are the
member that the key denotes. -/
theorem bracketed?_slice {rest front : String} (hstart : key = name ++ "[" ++ rest)
    (hend : key = front ++ "]") :
    (name ++ "[").utf8ByteSize ≤ key.utf8ByteSize - 1 ∧
      String.Pos.Raw.IsValid key ⟨(name ++ "[").utf8ByteSize⟩ ∧
      String.Pos.Raw.IsValid key ⟨key.utf8ByteSize - 1⟩ ∧
      bracketed? name key = some (String.Pos.Raw.extract key ⟨(name ++ "[").utf8ByteSize⟩
        ⟨key.utf8ByteSize - 1⟩) := by
  obtain ⟨member, rfl⟩ := exists_of_starts_of_ends hstart hend
  have hsize : (name ++ "[" ++ member ++ "]").utf8ByteSize - 1 =
      (name ++ "[").utf8ByteSize + member.utf8ByteSize := by
    rw [String.utf8ByteSize_append, String.utf8ByteSize_append (s := name ++ "[")]
    exact Nat.add_sub_cancel _ 1
  rw [hsize]
  refine ⟨Nat.le_add_right _ _, ?_, ?_, ?_⟩
  · exact String.Pos.Raw.isValid_iff_exists_append.mpr
      ⟨name ++ "[", member ++ "]", by rw [String.append_assoc], rfl⟩
  · refine String.Pos.Raw.isValid_iff_exists_append.mpr ⟨name ++ "[" ++ member, "]", rfl, ?_⟩
    rw [← String.utf8ByteSize_append]
    rfl
  · -- the library slices lists of characters
    have hbytes := String.extract_of_valid (name ++ "[").toList member.toList [']']
    rw [← String.utf8ByteSize_ofList, ← String.utf8ByteSize_ofList, String.ofList_toList,
      String.ofList_toList] at hbytes
    have hkey : String.ofList ((name ++ "[").toList ++ member.toList ++ [']']) =
        name ++ "[" ++ member ++ "]" := by
      rw [← String.toList_inj]
      simp
    rw [hkey] at hbytes
    rw [hbytes]
    exact bracketed?_eq_some_iff.mpr rfl

/-! ### What a query is decoded to -/

/-- A table that holds just the entries of two others. -/
theorem mem_keys_of_perm_append {left right : Entries Json} (h : table.Perm (left ++ right)) :
    key ∈ keys table ↔ key ∈ keys left ∨ key ∈ keys right := by
  rw [keys, (h.map Prod.fst).mem_iff, List.map_append, List.mem_append]
  rfl

/-- The query is decoded, with the object under the name of the parameter. The entries that the
members have been sent under are gone, and the others have their values. -/
def Gathers (root : Json) (route : String) (p : Parameter) (request : Request) (sent : List String)
    (object others : Entries Json) : Prop :=
  ∃ decoded, decode root route [p] request = .ok decoded ∧
    get? decoded.query p.name = some (.obj object) ∧ (∀ key ∈ sent, key ∉ keys decoded.query) ∧
    ∀ key, key ≠ p.name → get? decoded.query key = get? others key

/-- An object is always decoded. -/
theorem decodes_of_isQueryObject (hp : isQueryObject root p = true) : Decodes root p :=
  fun _ hnot => by rw [hp] at hnot; cases hnot

/-- **Decoding the query for one object** is decoding the entry of the parameter. -/
theorem exists_decode_singleton (hp : isQueryObject root p = true) (route : String)
    (request : Request) :
    ∃ decoded, decode root route [p] request = .ok decoded ∧
      decodeEntry root p (request.query.getD []) = .ok decoded.query := by
  obtain ⟨decoded, hdecoded⟩ : ∃ decoded, decode root route [p] request = .ok decoded :=
    decode_isOk_iff.mpr fun q hq => List.mem_singleton.mp hq ▸ decodes_of_isQueryObject hp
  refine ⟨decoded, hdecoded, ?_⟩
  have htable := decode_table hdecoded .query
  have hself : atPlace .query [p] = [p] := by simp [atPlace, (isQueryObject_iff.mp hp).1]
  rwa [hself, decodeTable_singleton] at htable

/-- An object of which only members are sent. -/
theorem ownValue_none (hp : isQueryObject root p = true)
    (hstyle : p.style = "form" ∧ p.explode = true ∨ p.style = "deepObject") (hne : members ≠ []) :
    ownValue root p none members = some (.obj members) := by
  have hcontent := (isQueryObject_iff.mp hp).2.1
  have hjoined : joined none members = some (.obj members) := by
    rw [joined.eq_def, if_neg (by simpa using hne)]
  rcases hstyle with ⟨hform, hexplode⟩ | hdeep
  · simp [ownValue, hcontent, hp, hform, hexplode, hjoined]
  · -- what has been gathered is given, so that no default is put there
    have hgiven : isGiven (.obj members) = true := rfl
    have hread : readText (.obj members) = .obj members := rfl
    simp [ownValue, hcontent, hp, hdeep, hjoined, hgiven, hread]

/-- **Members are gathered** from a query without a value of the object's own. -/
theorem gathers (hp : isQueryObject root p = true)
    (hstyle : p.style = "form" ∧ p.explode = true ∨ p.style = "deepObject")
    (hd : Distinct (request.query.getD [])) (hname : p.name ∉ keys (request.query.getD []))
    (hne : collected root p (request.query.getD []) ≠ []) {sent : List String}
    (hsent : ∀ key ∈ sent, key ≠ p.name ∧ (denoted? root p key).isSome = true)
    (hothers : ∀ key, key ≠ p.name → get? others key =
      if (denoted? root p key).isSome then none else get? (request.query.getD []) key) :
    Gathers root route p request sent (collected root p (request.query.getD [])) others := by
  obtain ⟨decoded, hdecoded, hentry⟩ := exists_decode_singleton hp route request
  refine ⟨decoded, hdecoded, ?_, fun key hkey => ?_, fun key hkey => ?_⟩
  · rw [get?_decodeEntry hd hentry, if_pos rfl, get?_eq_none_iff.mpr hname,
      ownValue_none hp hstyle hne]
  · obtain ⟨hne, hdenoted⟩ := hsent key hkey
    rw [← get?_eq_none_iff, get?_decodeEntry hd hentry, if_neg hne, if_pos hdenoted]
  · rw [get?_decodeEntry hd hentry, if_neg hkey, hothers key hkey]

/-! ### Members as entries of their own -/

/-- What is gathered from entries of their own are the declared properties that are sent, in the
order of declaration. -/
theorem keys_siblings (root schema : Json) (name : String) (table : Entries Json) :
    keys (siblings root schema name table) =
      (keys (Schema.properties root schema)).filter fun key => key ≠ name ∧ key ∈ keys table := by
  rw [siblings]
  induction Schema.properties root schema with
  | nil => rfl
  | cons q properties ih =>
    obtain ⟨property, sub⟩ := q
    rw [keys_cons, List.filter_cons, List.filter_cons]
    by_cases hname : property = name
    · rw [if_neg (by simpa using hname), if_neg (by simp [hname]), ih]
    · rw [if_pos (by simpa using hname), List.filterMap_cons]
      cases hget : get? table property with
      | none =>
        rw [if_neg (by simp [get?_eq_none_iff.mp hget]), ← ih]
        rfl
      | some value =>
        have hmem : property ∈ keys table :=
          List.mem_map.mpr ⟨(property, value), mem_of_get? hget, rfl⟩
        rw [if_pos (by simp [hname, hmem]), ← ih]
        rfl

/-- **An exploded object is gathered** from the entries of its properties. -/
theorem gathers_exploded (hp : isQueryObject root p = true) (hform : p.style = "form")
    (hexplode : p.explode = true) (hd : Distinct (request.query.getD [])) (hne : members ≠ [])
    (hname : p.name ∉ keys others) (hsent : (request.query.getD []).Perm (members ++ others))
    (hmembers : ∀ key ∈ keys members, key ≠ p.name ∧ key ∈ keys (Schema.properties root p.schema))
    (hothers : ∀ key ∈ keys others, key ∉ keys (Schema.properties root p.schema)) :
    ∃ object,
      keys object =
        (keys (Schema.properties root p.schema)).filter (fun key => key ∈ keys members) ∧
      (∀ key value sub, (key, value) ∈ members → (key, sub) ∈ Schema.properties root p.schema →
        get? object key = some (asMember root sub value)) ∧
      Gathers root route p request (keys members) object others := by
  have hexploded : IsExploded root p :=
    ⟨(isQueryObject_iff.mp hp).2.1, ⟨hform, hexplode⟩, Or.inl hp⟩
  have hcollected := collected_of_isExploded hexploded (request.query.getD [])
  -- in the order of the schema, not in that of the query
  have hobject : keys (collected root p (request.query.getD [])) =
      (keys (Schema.properties root p.schema)).filter (fun key => key ∈ keys members) := by
    rw [hcollected, keys_siblings]
    refine List.filter_congr fun key hkey => decide_eq_decide.mpr ?_
    rw [mem_keys_of_perm_append hsent]
    exact ⟨fun h => h.2.resolve_right fun hother => hothers key hother hkey,
      fun h => ⟨(hmembers key h).1, Or.inl h⟩⟩
  refine ⟨collected root p (request.query.getD []), hobject, ?_, ?_⟩
  · intro key value sub hmember hsub
    refine get?_of_mem (distinct_collected hd root p) ?_
    have hget : get? (request.query.getD []) key = some value :=
      get?_of_mem hd (hsent.mem_iff.mpr (List.mem_append_left _ hmember))
    have hkey : key ≠ p.name := (hmembers key (List.mem_map.mpr ⟨_, hmember, rfl⟩)).1
    rw [hcollected]
    exact List.mem_filterMap.mpr
      ⟨(key, sub), List.mem_filter.mpr ⟨hsub, by simpa using hkey⟩, by rw [hget]; rfl⟩
  · refine gathers hp (Or.inl ⟨hform, hexplode⟩) hd ?_ ?_ ?_ ?_
    · rw [mem_keys_of_perm_append hsent]
      exact fun h => h.elim (fun h => (hmembers _ h).1 rfl) hname
    · -- the first member that is sent is among those that are gathered
      obtain ⟨e, rest, rfl⟩ := List.exists_cons_of_ne_nil hne
      have hfirst : e.1 ∈ keys (collected root p (request.query.getD [])) := by
        rw [hobject, List.mem_filter]
        exact ⟨(hmembers e.1 (by simp [keys])).2, by simp [keys]⟩
      intro hnil
      rw [hnil] at hfirst
      cases hfirst
    · exact fun key hkey => ⟨(hmembers key hkey).1,
        (denoted?_isSome_iff_of_isExploded hexploded).mpr (hmembers key hkey)⟩
    · intro key hkey
      rw [get?_perm hsent hd, get?_append]
      split
      · rename_i hdenoted
        rw [get?_eq_none_iff]
        exact fun h => hothers key h ((denoted?_isSome_iff_of_isExploded hexploded).mp hdenoted).2
      · rename_i hdenoted
        rw [denoted?_isSome_iff_of_isExploded hexploded] at hdenoted
        rw [get?_eq_none_iff.mpr fun h => hdenoted (hmembers key h), Option.none_or]

/-! ### Members in brackets -/

/-- A member as it is sent in brackets. -/
def inBrackets (name : String) (e : String × Json) : String × Json :=
  (name ++ "[" ++ e.1 ++ "]", e.2)

theorem bracketMembers_map_inBrackets (name : String) (members : Entries Json) :
    bracketMembers name (members.map (inBrackets name)) = members := by
  rw [bracketMembers, List.filterMap_map]
  refine (List.filterMap_congr fun e _ => ?_).trans List.filterMap_some
  have hmember : bracketed? name (inBrackets name e).1 = some e.1 := bracketed?_eq_some_iff.mpr rfl
  rw [Function.comp_apply, hmember]
  rfl

/-- The members stand in the order in which they are sent. -/
theorem map_inBrackets_bracketMembers_sublist (name : String) (table : Entries Json) :
    ((bracketMembers name table).map (inBrackets name)).Sublist table := by
  rw [bracketMembers, List.map_filterMap]
  induction table with
  | nil => exact List.Sublist.slnil
  | cons e table ih =>
    rw [List.filterMap_cons]
    cases hmember : bracketed? name e.1 with
    | none => exact ih.cons e
    | some member =>
      have hself : inBrackets name (member, e.2) = e := by
        rw [inBrackets, ← bracketed?_eq_some_iff.mp hmember]
      exact hself ▸ ih.cons_cons e

/-- **An object in brackets is gathered** from the entries with its name. -/
theorem gathers_bracketed (hp : isQueryObject root p = true) (hdeep : p.style = "deepObject")
    (hd : Distinct (request.query.getD [])) (hne : members ≠ []) (hname : p.name ∉ keys others)
    (hsent : (request.query.getD []).Perm (members.map (inBrackets p.name) ++ others))
    (hothers : ∀ key ∈ keys others, ∀ member, key ≠ p.name ++ "[" ++ member ++ "]") :
    ∃ object, object.Perm members ∧
      (object.map (inBrackets p.name)).Sublist (request.query.getD []) ∧
      Gathers root route p request (keys (members.map (inBrackets p.name))) object others := by
  have hbracketed : IsBracketed root p := ⟨hp, hdeep⟩
  have hcollected := collected_of_isBracketed hbracketed (request.query.getD [])
  have hfree : ∀ key ∈ keys others, bracketed? p.name key = none := by
    intro key hkey
    rw [Option.eq_none_iff_forall_ne_some]
    exact fun member hmember => hothers key hkey member (bracketed?_eq_some_iff.mp hmember)
  have hinside : ∀ key ∈ keys (members.map (inBrackets p.name)),
      (bracketed? p.name key).isSome = true := by
    intro key hkey
    obtain ⟨e, he, rfl⟩ := List.mem_map.mp hkey
    obtain ⟨member, -, rfl⟩ := List.mem_map.mp he
    exact bracketed?_isSome_iff.mpr ⟨member.1, rfl⟩
  -- the entries of the others have no brackets, so they add no member
  have hperm : (collected root p (request.query.getD [])).Perm members := by
    have hnone : bracketMembers p.name others = [] :=
      List.filterMap_eq_nil_iff.mpr fun e he => by rw [hfree e.1 (List.mem_map_of_mem he)]; rfl
    have hboth := hsent.filterMap fun e => (bracketed? p.name e.1).map fun member => (member, e.2)
    rw [List.filterMap_append] at hboth
    change (bracketMembers _ _).Perm (bracketMembers _ _ ++ bracketMembers _ _) at hboth
    rwa [bracketMembers_map_inBrackets, hnone, List.append_nil, ← hcollected] at hboth
  refine ⟨collected root p (request.query.getD []), hperm, ?_, ?_⟩
  · rw [hcollected]
    exact map_inBrackets_bracketMembers_sublist p.name _
  · refine gathers hp (Or.inr hdeep) hd ?_ ?_ ?_ ?_
    · rw [mem_keys_of_perm_append hsent]
      refine fun h => h.elim (fun h => ?_) hname
      have hself := hinside _ h
      rw [bracketed?_self] at hself
      cases hself
    · exact fun hnil => hne (List.nil_perm.mp (hnil ▸ hperm))
    · intro key hkey
      rw [denoted?_of_isBracketed hbracketed]
      refine ⟨?_, hinside key hkey⟩
      -- the bare name is not one with brackets
      rintro rfl
      have hself := hinside _ hkey
      rw [bracketed?_self] at hself
      cases hself
    · intro key _
      rw [denoted?_of_isBracketed hbracketed, get?_perm hsent hd, get?_append]
      split
      · rename_i hsome
        rw [get?_eq_none_iff]
        intro h
        rw [hfree key h] at hsome
        cases hsome
      · rename_i hsome
        rw [get?_eq_none_iff.mpr fun h => hsome (hinside key h), Option.none_or]

/-- **Objects are decoded to what was encoded.** Take an object with at least one member for a
parameter whose own name is not sent. If the members are sent as entries of their own, the object
has them in the order of declaration, with an array for an array. If they are sent in brackets, it
has just them, in the order in which they are sent. No entry of a member remains and all other
entries keep their values. The bytes that are taken for a member are always there to be taken. -/
theorem object_roundTrip (route : String) (hp : isQueryObject root p = true)
    (hd : Distinct (request.query.getD [])) (hne : members ≠ []) (hname : p.name ∉ keys others) :
    (p.style = "form" → p.explode = true → (request.query.getD []).Perm (members ++ others) →
      (∀ key ∈ keys members, key ≠ p.name ∧ key ∈ keys (Schema.properties root p.schema)) →
      (∀ key ∈ keys others, key ∉ keys (Schema.properties root p.schema)) →
        ∃ object,
          keys object =
            (keys (Schema.properties root p.schema)).filter (fun key => key ∈ keys members) ∧
          (∀ key value sub, (key, value) ∈ members → (key, sub) ∈ Schema.properties root p.schema →
            get? object key = some
              (if Schema.effectiveType root sub = some "array" then wrap value else value)) ∧
          Gathers root route p request (keys members) object others) ∧
    (p.style = "deepObject" →
      (request.query.getD []).Perm (members.map (inBrackets p.name) ++ others) →
      (∀ key ∈ keys others, ∀ member, key ≠ p.name ++ "[" ++ member ++ "]") →
        ∃ object, object.Perm members ∧
          (object.map (inBrackets p.name)).Sublist (request.query.getD []) ∧
          Gathers root route p request (keys (members.map (inBrackets p.name))) object others) ∧
    ∀ key rest front : String, key = p.name ++ "[" ++ rest → key = front ++ "]" →
      (p.name ++ "[").utf8ByteSize ≤ key.utf8ByteSize - 1 ∧
        String.Pos.Raw.IsValid key ⟨(p.name ++ "[").utf8ByteSize⟩ ∧
        String.Pos.Raw.IsValid key ⟨key.utf8ByteSize - 1⟩ ∧
        bracketed? p.name key = some (String.Pos.Raw.extract key ⟨(p.name ++ "[").utf8ByteSize⟩
          ⟨key.utf8ByteSize - 1⟩) :=
  ⟨fun hform hexplode hsent hmembers hothers =>
      gathers_exploded hp hform hexplode hd hne hname hsent hmembers hothers,
    fun hdeep hsent hothers => gathers_bracketed hp hdeep hd hne hname hsent hothers,
    fun _ _ _ hstart hend => bracketed?_slice hstart hend⟩

/-- An area of a map, each property as an entry of its own, with a default that is not needed. -/
def areaSiblings : Parameter :=
  { name := "area", location := .query, required := false, style := "form", explode := true,
    allowEmptyValue := false, contentMediaType := none,
    schema := .obj [("type", .str "object"),
      ("properties", .obj
        [("tags", .obj [("type", .str "array")]), ("lat", .obj []), ("area", .obj [])]),
      ("default", .obj [("lat", .str "0")])] }

/-- The same in brackets. -/
def areaBrackets : Parameter :=
  { areaSiblings with style := "deepObject", explode := false }

def areaSiblingsRequest : Request :=
  { method := "GET", route := "/t",
    query := some [("lat", .str "1"), ("page", .str "2"), ("tags", .str "x")] }

def areaBracketsRequest : Request :=
  { method := "GET", route := "/t",
    query := some [("area[]", .str "1"), ("page", .str "2"), ("area[é]]", .str "3")] }

theorem object_roundTrip_area :
    (∃ object, keys object = ["tags", "lat"] ∧ get? object "tags" = some (.arr [.str "x"]) ∧
      Gathers .null "/t" areaSiblings areaSiblingsRequest ["lat", "tags"] object
        [("page", .str "2")]) ∧
    (∃ object, object.Perm [("", .str "1"), ("é]", .str "3")] ∧
      Gathers .null "/t" areaBrackets areaBracketsRequest ["area[]", "area[é]]"] object
        [("page", .str "2")]) ∧
    bracketed? "area" "area[é]]" = some (String.Pos.Raw.extract "area[é]]" ⟨5⟩ ⟨8⟩) := by
  have hsiblings : isQueryObject .null areaSiblings = true := by decide
  have hbrackets : isQueryObject .null areaBrackets = true := by decide
  have hpage : "area" ∉ keys [("page", Json.str "2")] := by decide
  have hdSiblings : Distinct (areaSiblingsRequest.query.getD []) :=
    show (["lat", "page", "tags"] : List String).Nodup by decide
  have hdBrackets : Distinct (areaBracketsRequest.query.getD []) :=
    show (["area[]", "page", "area[é]]"] : List String).Nodup by decide
  have hneSiblings : [("lat", Json.str "1"), ("tags", .str "x")] ≠ [] := List.cons_ne_nil _ _
  have hneBrackets : [("", Json.str "1"), ("é]", .str "3")] ≠ [] := List.cons_ne_nil _ _
  refine ⟨?_, ?_, ?_⟩
  · -- the entry of another parameter may stand between those of the members
    obtain ⟨object, hkeys, hvalues, hgathers⟩ :=
      (object_roundTrip "/t" hsiblings hdSiblings hneSiblings hpage).1 rfl rfl
        (.cons _ (.swap ("tags", Json.str "x") ("page", Json.str "2") [])) (by decide)
        (by decide)
    refine ⟨object, hkeys.trans (by decide), ?_, hgathers⟩
    have htags := hvalues "tags" (.str "x") (.obj [("type", .str "array")]) (by decide)
      (by decide)
    exact htags.trans (by decide)
  · have hfree : ∀ key ∈ keys [("page", Json.str "2")], ∀ member,
        key ≠ areaBrackets.name ++ "[" ++ member ++ "]" := by
      intro key hkey member hmember
      obtain rfl := List.mem_singleton.mp hkey
      have hsome := bracketed?_isSome_iff.mpr ⟨member, hmember⟩
      exact absurd hsome (by decide)
    obtain ⟨object, hperm, -, hgathers⟩ :=
      (object_roundTrip "/t" hbrackets hdBrackets hneBrackets hpage).2.1 rfl
        (.cons _ (.swap ("area[é]]", Json.str "3") ("page", Json.str "2") [])) hfree
    exact ⟨object, hperm, hgathers⟩
  · have hbytes := (object_roundTrip "/t" hbrackets hdBrackets hneBrackets hpage).2.2
      "area[é]]" "é]]" "area[é]" rfl rfl
    exact hbytes.2.2.2

end Style

end RequestGate
