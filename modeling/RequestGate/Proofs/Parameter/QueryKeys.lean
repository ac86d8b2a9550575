import RequestGate.Proofs.Entries
import RequestGate.Proofs.Parameter.Kinds
import RequestGate.Proofs.Text.Cutting
import RequestGate.Proofs.Validator.Stages

/-!
# Which query keys a parameter takes

Decoding moves keys of the query about. An object that is exploded collects the keys of its
properties, one of style `deepObject` the keys with its name and brackets, and everything else only
rewrites the value under its own name. What a parameter takes away besides is said by
`RequestGate.Parameter.Covers`; what it adds is its own name and nothing more
(`RequestGate.Style.takes_decodeEntry`).

The parameters of an operation work on one and the same table, each on what the one before has left.
Since no parameter adds a key that another could take, this comes to the same as if each of them had
taken its keys from the query as it was sent (`RequestGate.Style.leaves_decode`).
-/

namespace RequestGate

open Entries

/-! ### Queries that were read -/

theorem Json.distinct_collapse (value : Json) : Distinct (value.collapse.obj?.getD []) := by
  cases value with
  | obj members => exact distinct_ofList _
  | _ => exact List.nodup_nil

/-- A table that is read, or left out, repeats no key. -/
theorem Request.distinct_of_readTable? {value : Option Json} {table : Option (Entries Json)}
    (h : Json.optional? readTable? value = some table) : Distinct (table.getD []) := by
  cases value with
  | none =>
    obtain rfl := Option.some.inj h
    exact List.nodup_nil
  | some value =>
    rw [Json.optional?.eq_def] at h
    split at h
    · cases h
      exact List.nodup_nil
    · cases h
      exact List.nodup_nil
    · rename_i raw _ _
      obtain ⟨members, hmembers, rfl⟩ := Option.map_eq_some_iff.mp h
      have hd := Json.distinct_collapse raw
      change raw.collapse.obj? = some members at hmembers
      rwa [hmembers] at hd

/-- **A request that has been read repeats no query parameter.** -/
theorem Request.distinct_query_of_ofJson? {value : Json} {r : Request}
    (h : Request.ofJson? value = some r) : Distinct (r.query.getD []) := by
  obtain ⟨fields, -, h⟩ := Option.bind_eq_some_iff.mp h
  split at h
  · obtain ⟨_, -, h⟩ := Option.bind_eq_some_iff.mp h
    obtain ⟨_, -, h⟩ := Option.bind_eq_some_iff.mp h
    obtain ⟨table, htable, h⟩ := Option.bind_eq_some_iff.mp h
    obtain ⟨_, -, h⟩ := Option.bind_eq_some_iff.mp h
    obtain ⟨_, -, h⟩ := Option.bind_eq_some_iff.mp h
    obtain ⟨_, -, h⟩ := Option.bind_eq_some_iff.mp h
    obtain ⟨_, -, h⟩ := Option.bind_eq_some_iff.mp h
    obtain rfl := Option.some.inj h
    exact distinct_of_readTable? htable
  · simp at h

/-! ### Objects and their properties -/

namespace Schema

variable {root : Json}

/-- A schema that describes no object contributes no property. -/
theorem collectProperties_of_not_isObjectLike (n : Nat) :
    ∀ (known : Entries Json) (schema : Json), isObjectLikeWithin root n schema = false →
      collectProperties root n known schema = known := by
  induction n with
  | zero => exact fun known schema _ => rfl
  | succ n ih =>
    intro known schema h
    rw [isObjectLikeWithin] at h
    rw [collectProperties]
    cases hresolve : resolve root schema with
    | none => rfl
    | some schema' =>
      simp only [hresolve] at h
      have hmembers : ∀ members : List Json,
          members.any (isObjectLikeWithin root n) = false →
            members.foldl (collectProperties root n) known = known := by
        intro members hany
        induction members with
        | nil => rfl
        | cons m members ihm =>
          rw [List.any_cons, Bool.or_eq_false_iff] at hany
          rw [List.foldl_cons, ih known m hany.1]
          exact ihm hany.2
      cases hshape : shape schema' with
      | object properties => simp [hshape] at h
      | _ =>
        rw [hshape] at h
        simp only [hshape]
        exact hmembers _ h

theorem properties_of_not_isObjectLike {schema : Json} (h : isObjectLike root schema = false) :
    properties root schema = [] :=
  collectProperties_of_not_isObjectLike levels [] schema h

end Schema

/-- Whether a query parameter takes a key that is not its own name. -/
def Parameter.Covers (root : Json) (p : Parameter) (key : String) : Prop :=
  p.location = .query ∧ p.contentMediaType = none ∧ Schema.isObjectLike root p.schema = true ∧
    ((p.style = "form" ∧ p.explode = true ∧ key ≠ p.name ∧
        key ∈ keys (Schema.properties root p.schema)) ∨
      (p.style = "deepObject" ∧ ∃ inner, key = p.name ++ "[" ++ inner ++ "]"))

namespace Style

variable {root schema : Json} {p : Parameter} {name key : String} {table next : Entries Json}

/-! ### The moves, one by one -/

/-- A move of the parameter `name` takes some keys: apart from `name` itself, it leaves those that
are not taken, and no key is repeated afterwards if none was. -/
def Takes (taken : String → Prop) (name : String) (table next : Entries Json) : Prop :=
  Distinct table → Distinct next ∧ ∀ key, key ≠ name → (key ∈ keys next ↔ key ∈ keys table ∧ ¬taken key)

/-- A move that takes nothing. -/
def Keeps (name : String) (table next : Entries Json) : Prop :=
  Takes (fun _ => False) name table next

theorem keeps_of_keys_eq (h : keys next = keys table) : Keeps name table next := by
  intro hd
  refine ⟨?_, fun key _ => by simp [h]⟩
  rw [Distinct, h]
  exact hd

theorem keeps_insert (value : Json) : Keeps name table (insert table name value) := by
  intro hd
  refine ⟨hd.insert name value, fun key hkey => ?_⟩
  simp [hkey]

/-- Two moves take what either of them takes. -/
theorem Takes.trans {taken taken' : String → Prop} {last : Entries Json}
    (h : Takes taken name table next) (h' : Takes taken' name next last) :
    Takes (fun key => taken key ∨ taken' key) name table last := by
  intro hd
  obtain ⟨hnext, hkeys⟩ := h hd
  obtain ⟨hlast, hkeys'⟩ := h' hnext
  refine ⟨hlast, fun key hkey => ?_⟩
  rw [hkeys' key hkey, hkeys key hkey, not_or, and_assoc]

theorem Takes.congr {taken taken' : String → Prop} (h : Takes taken name table next)
    (htaken : ∀ key, key ≠ name → (taken key ↔ taken' key)) : Takes taken' name table next := by
  intro hd
  obtain ⟨hnext, hkeys⟩ := h hd
  refine ⟨hnext, fun key hkey => ?_⟩
  rw [hkeys key hkey, htaken key hkey]

theorem Takes.keeps {taken : String → Prop} {last : Entries Json}
    (h : Takes taken name table next) (h' : Keeps name next last) : Takes taken name table last :=
  (h.trans h').congr fun _ _ => or_iff_left not_false

/-- A parameter that covers nothing takes nothing. -/
theorem Keeps.takes {taken : String → Prop} (h : Keeps name table next) (hnone : ∀ key, ¬taken key) :
    Takes taken name table next :=
  Takes.congr h fun key _ => (iff_false_right (hnone key)).mpr not_false

theorem keeps_supplied (default : Option Json) (name : String) (table : Entries Json) :
    Keeps name table (supplied default name table) := by
  rw [supplied.eq_def]
  split
  · exact keeps_of_keys_eq rfl
  · split
    · exact keeps_insert _
    · exact keeps_of_keys_eq rfl

theorem keeps_modify (f : Json → Json) : Keeps name table (modify table name f) :=
  keeps_of_keys_eq (keys_modify ..)

theorem keeps_readJson (table : Entries Json) (name : String) :
    Keeps name table (readJson table name) := by
  rw [readJson_eq_modify]
  exact keeps_modify _

theorem keeps_addMembers (table : Entries Json) (name : String) (members : Entries Json) :
    Keeps name table (addMembers table name members) := by
  rw [addMembers]
  split
  · exact keeps_of_keys_eq rfl
  · split
    · exact keeps_insert _
    · exact keeps_insert _

theorem keeps_splitDelimited (delimiter : Char) (name : String) (table : Entries Json) :
    Keeps name table (splitDelimited delimiter name table) := by
  rw [splitDelimited_eq_modify]
  exact keeps_modify _

/-- If every step takes the key of its pair, then all of them take the listed keys. -/
theorem takes_foldl
    {step : Entries Json × Entries Json → String × String → Entries Json × Entries Json}
    (hstep : ∀ state pair, Distinct state.2 → Distinct (step state pair).2 ∧
      ∀ key, key ∈ keys (step state pair).2 ↔ key ≠ pair.1 ∧ key ∈ keys state.2)
    (names : List (String × String)) (name : String) :
    ∀ state : Entries Json × Entries Json,
      Takes (fun key => key ∈ names.map Prod.fst) name state.2 (names.foldl step state).2 := by
  induction names with
  | nil => exact fun state hd => ⟨hd, fun key _ => by simp⟩
  | cons pair names ih =>
    intro state hd
    obtain ⟨hnext, hkeys⟩ := hstep state pair hd
    obtain ⟨hlast, hkeys'⟩ := ih (step state pair) hnext
    refine ⟨hlast, fun key hkey => ?_⟩
    rw [List.foldl_cons, hkeys' key hkey, hkeys key]
    simp [and_comm, and_assoc, and_left_comm]

/-- **Entries are taken out under the listed keys**, and only there. -/
theorem takes_takeEntries (names : List (String × String)) (name : String) (table : Entries Json) :
    Takes (fun key => key ∈ names.map Prod.fst) name table (takeEntries names table).2 := by
  refine takes_foldl (fun state pair hd => ?_) names name ([], table)
  obtain ⟨taken, table⟩ := state
  obtain ⟨first, newName⟩ := pair
  cases hget : get? table first with
  | some value =>
    simp only [hget]
    exact ⟨hd.swapRemove first, fun key => mem_keys_swapRemove hd⟩
  | none =>
    -- a key that is missing is as good as taken
    simp only [hget]
    refine ⟨hd, fun key => ⟨fun hkey => ⟨?_, hkey⟩, And.right⟩⟩
    rintro rfl
    exact get?_eq_none_iff.mp hget hkey

/-- **An exploded object takes the keys of its properties.** -/
theorem takes_collapseExploded (root schema : Json) (name : String) (table : Entries Json) :
    Takes (fun key => key ∈ keys (Schema.properties root schema)) name table
      (collapseExploded root schema name table) := by
  refine ((takes_takeEntries _ name table).keeps (keeps_addMembers _ name _)).congr fun key hkey => ?_
  simp [keys, hkey]

/-- A key in brackets denotes what stands between them. -/
theorem bracketed?_eq_some_iff {member : String} :
    bracketed? name key = some member ↔ key = name ++ "[" ++ member ++ "]" := by
  constructor
  · intro h
    rw [bracketed?] at h
    split at h
    · rename_i rest hrest
      split at h
      · rename_i property hproperty
        obtain rfl := Option.some.inj h
        have hlist := Text.dropStart?_eq_some_iff.mp hrest
        rw [List.reverse_eq_iff.mp hproperty] at hlist
        apply String.toList_inj.mp
        simpa using hlist
      · cases h
    · cases h
  · rintro rfl
    have hdrop : Text.dropStart? (name ++ "[").toList (name ++ "[" ++ member ++ "]").toList =
        some (member.toList ++ [']']) := by
      refine Text.dropStart?_eq_some_iff.mpr ?_
      simp
    rw [bracketed?, hdrop]
    simp

theorem bracketed?_isSome_iff :
    (bracketed? name key).isSome = true ↔ ∃ inner, key = name ++ "[" ++ inner ++ "]" := by
  simp only [Option.isSome_iff_exists, bracketed?_eq_some_iff]

/-- **An object in brackets takes the keys in brackets.** -/
theorem takes_collapseDeepObject (name : String) (table : Entries Json) :
    Takes (fun key => ∃ inner, key = name ++ "[" ++ inner ++ "]") name table
      (collapseDeepObject name table) := by
  have htaken : Takes (fun key => key ∈ keys table ∧ ∃ inner, key = name ++ "[" ++ inner ++ "]")
      name table (collapseDeepObject name table) := by
    refine ((takes_takeEntries _ name table).keeps (keeps_addMembers _ name _)).congr fun key _ => ?_
    rw [← bracketed?_isSome_iff]
    constructor
    · intro h
      obtain ⟨pair, hpair, rfl⟩ := List.mem_map.mp h
      obtain ⟨entry, hentry, hsome⟩ := List.mem_filterMap.mp hpair
      obtain ⟨property, hproperty, rfl⟩ := Option.map_eq_some_iff.mp hsome
      exact ⟨List.mem_map_of_mem hentry, by rw [hproperty]; rfl⟩
    · rintro ⟨hkey, hsome⟩
      obtain ⟨entry, hentry, rfl⟩ := List.mem_map.mp hkey
      obtain ⟨property, hproperty⟩ := Option.isSome_iff_exists.mp hsome
      exact List.mem_map.mpr ⟨(entry.1, property),
        List.mem_filterMap.mpr ⟨entry, hentry, by rw [hproperty]; rfl⟩, rfl⟩
  -- what is not in the table need not be taken from it
  intro hd
  obtain ⟨hnext, hkeys⟩ := htaken hd
  refine ⟨hnext, fun key hkey => ?_⟩
  rw [hkeys key hkey]
  tauto

/-! ### One parameter -/

theorem NoObject.not_covers (h : NoObject root p) (key : String) : ¬p.Covers root key := by
  rintro ⟨hlocation, -, hlike, -⟩
  rw [h.isObjectLike_eq hlocation] at hlike
  cases hlike

/-- **What a query parameter takes** of the table it is decoded in. -/
theorem takes_decodeEntry (hp : p.location = .query) (h : decodeEntry root p table = .ok next) :
    Takes (p.Covers root) p.name table next := by
  cases decoding_of_decodeEntry h with
  | json hcontent =>
    exact (keeps_readJson table p.name).takes fun key => by simp [Parameter.Covers, hcontent]
  | text hcontent =>
    exact (keeps_of_keys_eq rfl).takes fun key => by simp [Parameter.Covers, hcontent]
  | exploded hobject hform =>
    obtain ⟨hlocation, hcontent, hlike⟩ := isQueryObject_iff.mp hobject
    refine ((keeps_readJson table p.name).trans
      (takes_collapseExploded root p.schema p.name _)).congr fun key hkey => ?_
    simp [Parameter.Covers, hlocation, hcontent, hlike, hform, hkey]
  | bracketed hobject hdeep =>
    obtain ⟨hlocation, hcontent, hlike⟩ := isQueryObject_iff.mp hobject
    refine (((takes_collapseDeepObject p.name table).keeps (keeps_supplied _ p.name _)).keeps
      (keeps_readJson _ p.name)).congr fun key _ => ?_
    simp [Parameter.Covers, hlocation, hcontent, hlike, hdeep]
  | whole hobject hform hdeep =>
    refine (keeps_readJson table p.name).takes fun key => ?_
    rintro ⟨-, -, -, ⟨hstyle, hexplode, -⟩ | ⟨hstyle, -⟩⟩
    · exact hform ⟨hstyle, hexplode⟩
    · exact hdeep hstyle
  | wrapped hother => exact (keeps_modify _).takes hother.not_covers
  | cut hother => exact (keeps_splitDelimited _ p.name table).takes hother.not_covers
  | scattered hother =>
    -- a schema that describes no object has no properties to look for
    refine Keeps.takes ((takes_collapseExploded root p.schema p.name table).congr fun key _ => ?_)
      hother.not_covers
    simp [Schema.properties_of_not_isObjectLike (hother.isObjectLike_eq hp)]
  | unchanged hother => exact (keeps_of_keys_eq rfl).takes hother.not_covers

/-! ### All parameters -/


variable {route : String} {parameters : List Parameter} {request : Request}
  {r decoded : NormalizedRequest}

/-- What is left of a query by some parameters: apart from their names, the keys that none of them
takes. -/
def Leaves (root : Json) (parameters : List Parameter) (table next : Entries Json) : Prop :=
  Distinct next ∧ ∀ key, (∀ p ∈ parameters, p.location = .query → p.name ≠ key) →
    (key ∈ keys next ↔ key ∈ keys table ∧ ∀ p ∈ parameters, ¬p.Covers root key)

theorem leaves_of_decodeParameter {done : List Parameter} {last : NormalizedRequest}
    (hr : Leaves root done table r.query) (h : decodeParameter root route p r = .ok last) :
    Leaves root (done ++ [p]) table last.query := by
  obtain ⟨next, hnext, rfl⟩ := decodeParameter_eq_ok_iff.mp h
  by_cases hp : p.location = .query
  · rw [hp] at hnext ⊢
    obtain ⟨hdistinct, hkeys⟩ := takes_decodeEntry hp hnext hr.1
    refine ⟨hdistinct, fun key hkey => ?_⟩
    have hne : key ≠ p.name := (hkey p (by simp) hp).symm
    refine (hkeys key hne).trans ?_
    change (key ∈ keys r.query ∧ _) ↔ _
    rw [hr.2 key fun q hq => hkey q (List.mem_append_left _ hq), and_assoc]
    simp [or_imp, forall_and]
  · rw [NormalizedRequest.query_withTable_of_ne _ _ hp]
    refine ⟨hr.1, fun key hkey => ?_⟩
    rw [hr.2 key fun q hq => hkey q (List.mem_append_left _ hq)]
    have hcovers : ¬p.Covers root key := fun hc => hp hc.1
    simp [or_imp, forall_and, hcovers]

/-- **What decoding leaves of the query as it was sent.** -/
theorem leaves_decode (hd : Distinct (request.query.getD []))
    (h : decode root route parameters request = .ok decoded) :
    Leaves root parameters (request.query.getD []) decoded.query :=
  foldlM_induction
    (P := fun done r => Leaves root done (request.query.getD []) (NormalizedRequest.query r))
    (fun _ _ _ _ hr hstep => leaves_of_decodeParameter hr hstep)
    ⟨hd, fun key _ => by simp [NormalizedRequest.ofRequest]⟩ h

end Style

end RequestGate
