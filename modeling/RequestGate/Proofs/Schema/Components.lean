import RequestGate.Parameter.Style
import RequestGate.Proofs.Json.Measures
import RequestGate.Proofs.Schema.Shape
import RequestGate.Proofs.Text.Cutting
import RequestGate.Schema.Defaults

/-!
# References into the components

The schemas of a document refer to its components, which stand in every root under the same name. Then
it makes no difference which root a schema is looked at in, so long as the components are the same
(`RequestGate.Schema.SameComponents`): it stands for the same schema, has the same properties in the same
order, and what is decoded and filled in by it is the same.

A reference may also lead to another part of the root, for instance to the schemas of the query. What
stands there need not be the same in two roots.
-/

namespace RequestGate

open Entries Json

namespace Schema

variable {root root' s t u schema value : Json} {n : Nat} {reference : String}
  {table known : Entries Json}

/-! ### Where references lead -/

/-- Whether a reference leads to a part of the components. -/
def leadsIntoComponents (reference : String) : Bool :=
  Text.startsWith "#/components/".toList reference.toList

/-- Whether all references within a value lead into the components. -/
def RefersToComponents (value : Json) : Prop :=
  ∀ s ∈ value.subvalues, ∀ reference ∈ reference? s, leadsIntoComponents reference = true

instance (value : Json) : Decidable (RefersToComponents value) :=
  inferInstanceAs (Decidable (∀ s ∈ value.subvalues, ∀ reference ∈ reference? s, _))

/-- Two roots with the same components, whose references stay among them. -/
structure SameComponents (root root' : Json) : Prop where
  eq : root.get? "components" = root'.get? "components"
  refers : ∀ components ∈ root.get? "components", RefersToComponents components

theorem step?_components (root : Json) : Pointer.step? root "components" = root.get? "components" := by
  cases root with
  | arr items =>
    have hindex : Pointer.index? "components" = none := by decide
    rw [Pointer.step?, hindex]
    rfl
  | _ => rfl

/-- **Where a reference into the components leads** depends on nothing else of the root. -/
theorem target?_of_leads (h : leadsIntoComponents reference = true) :
    ∃ segments : List String, ∀ root, target? root reference =
      (root.get? "components").bind fun components => segments.foldlM Pointer.step? components := by
  obtain ⟨rest, hrest⟩ := Text.startsWith_iff.mp h
  have hstart : "#/components/".toList = '#' :: '/' :: ("components".toList ++ ['/']) := by
    decide
  have hpointer : reference.toList = '#' :: '/' :: ("components".toList ++ '/' :: rest) := by
    rw [← hrest, hstart, List.cons_append, List.cons_append, List.append_assoc]
    rfl
  have hsegments : Pointer.segments (String.ofList ('/' :: ("components".toList ++ '/' :: rest))) =
      "components" :: (Text.splitOn '/' rest).map fun s => String.ofList (Pointer.unescape s) := by
    have hfirst : Text.splitOn '/' "components".toList = ["components".toList] := by decide
    rw [Pointer.segments, String.toList_ofList, Text.splitOn_cons_sep, Text.splitOn_append_sep, hfirst]
    rfl
  refine ⟨(Text.splitOn '/' rest).map fun s => String.ofList (Pointer.unescape s), fun root => ?_⟩
  have hlookup : target? root reference = Pointer.lookup? root
      (String.ofList ('/' :: ("components".toList ++ '/' :: rest))) := by
    rw [target?, hpointer]
    rfl
  rw [hlookup, Pointer.lookup?.eq_def, String.toList_ofList, hsegments, List.foldlM_cons, step?_components]
  rfl

theorem RefersToComponents.of_mem_subvalues (h : RefersToComponents s) (ht : t ∈ s.subvalues) :
    RefersToComponents t :=
  fun u hu => h u (mem_subvalues_trans ht hu)

theorem RefersToComponents.of_mem_children (h : RefersToComponents s) (ht : t ∈ s.children) :
    RefersToComponents t :=
  h.of_mem_subvalues (mem_subvalues_of_mem_children (mem_subvalues_self s) ht)

theorem RefersToComponents.of_get? (h : RefersToComponents s) {key : String}
    (ht : s.get? key = some t) : RefersToComponents t :=
  h.of_mem_children (mem_children_of_get? ht)

theorem RefersToComponents.of_mem_members (h : RefersToComponents s) (ht : t ∈ (shape s).members) :
    RefersToComponents t := by
  obtain ⟨keyword, -, schemas, hget, hmem⟩ := exists_keyword_of_mem_members ht
  exact (h.of_get? (get?_of_getArr? hget)).of_mem_children hmem

theorem RefersToComponents.of_mem_table (h : RefersToComponents s)
    (hshape : shape s = .object (some table)) {e : String × Json} (he : e ∈ table) :
    RefersToComponents e.2 :=
  (h.of_get? (get?_of_getObj? (getObj?_of_shape hshape))).of_mem_children
    (List.mem_map_of_mem (f := Prod.snd) he)

theorem mem_subvalues_of_foldlM {segments : List String} (h : segments.foldlM Pointer.step? s = some t) :
    t ∈ s.subvalues := by
  induction segments generalizing s with
  | nil => exact Option.some.inj h ▸ mem_subvalues_self s
  | cons segment segments ih =>
    rw [List.foldlM_cons] at h
    obtain ⟨next, hnext, hrest⟩ := Option.bind_eq_some_iff.mp h
    refine mem_subvalues_trans (mem_subvalues_of_mem_children (mem_subvalues_self s) ?_) (ih hrest)
    cases s with
    | obj members => exact mem_children_of_get? hnext
    | arr items =>
      obtain ⟨i, -, hi⟩ := Option.bind_eq_some_iff.mp hnext
      exact List.mem_of_getElem? hi
    | _ => cases hnext

theorem findSome?_congr {α β : Type} {f g : α → Option β} {l : List α} (h : ∀ a ∈ l, f a = g a) :
    l.findSome? f = l.findSome? g := by
  induction l with
  | nil => rfl
  | cons a l ih =>
    rw [List.findSome?_cons, List.findSome?_cons, h a (by simp),
      ih fun b hb => h b (List.mem_cons_of_mem a hb)]

namespace SameComponents

variable (h : SameComponents root root')

include h

theorem target?_eq (hs : RefersToComponents s) (href : reference? s = some reference) :
    target? root reference = target? root' reference := by
  obtain ⟨segments, htarget⟩ := target?_of_leads (hs s (mem_subvalues_self s) reference href)
  rw [htarget, htarget, h.eq]

theorem refers_target? (hs : RefersToComponents s) (href : reference? s = some reference)
    (ht : target? root reference = some t) : RefersToComponents t := by
  obtain ⟨segments, htarget⟩ := target?_of_leads (hs s (mem_subvalues_self s) reference href)
  rw [htarget] at ht
  obtain ⟨components, hcomponents, hfound⟩ := Option.bind_eq_some_iff.mp ht
  exact (h.refers components hcomponents).of_mem_subvalues (mem_subvalues_of_foldlM hfound)

/-- Chains of references lead to the same schema. -/
theorem follow_eq (n : Nat) (hs : RefersToComponents s) :
    follow root n s = follow root' n s ∧ ∀ t ∈ follow root n s, RefersToComponents t := by
  induction n generalizing s with
  | zero => exact ⟨rfl, fun _ ht => by cases ht⟩
  | succ n ih =>
    rw [follow, follow]
    cases href : reference? s with
    | none => exact ⟨rfl, fun t ht => Option.some.inj ht ▸ hs⟩
    | some reference =>
      dsimp only
      rw [← h.target?_eq hs href]
      cases htarget : target? root reference with
      | none => exact ⟨rfl, fun _ ht => by cases ht⟩
      | some t => exact ih (h.refers_target? hs href htarget)

theorem resolve_eq (hs : RefersToComponents s) : resolve root s = resolve root' s :=
  (h.follow_eq maxHops hs).1

theorem refers_resolve (hs : RefersToComponents s) (ht : resolve root s = some t) :
    RefersToComponents t :=
  (h.follow_eq maxHops hs).2 t ht

/-! ### What is seen through references -/

theorem isObjectLikeWithin_eq (n : Nat) : ∀ s, RefersToComponents s →
    isObjectLikeWithin root n s = isObjectLikeWithin root' n s := by
  induction n with
  | zero => exact fun _ _ => rfl
  | succ n ih =>
    intro s hs
    rw [isObjectLikeWithin, isObjectLikeWithin, ← h.resolve_eq hs]
    cases ht : resolve root s with
    | none => rfl
    | some t =>
      have hany : (shape t).members.any (isObjectLikeWithin root n) =
          (shape t).members.any (isObjectLikeWithin root' n) := by
        rw [Bool.eq_iff_iff, List.any_eq_true, List.any_eq_true]
        refine exists_congr fun m => and_congr_right fun hm => ?_
        rw [ih m ((h.refers_resolve hs ht).of_mem_members hm)]
      dsimp only
      split
      · rfl
      · exact hany

theorem collectProperties_eq (n : Nat) : ∀ s, RefersToComponents s → ∀ known,
    collectProperties root n known s = collectProperties root' n known s := by
  induction n with
  | zero => exact fun _ _ _ => rfl
  | succ n ih =>
    intro s hs known
    rw [collectProperties, collectProperties, ← h.resolve_eq hs]
    cases ht : resolve root s with
    | none => rfl
    | some t =>
      have hfold : (shape t).members.foldl (collectProperties root n) known =
          (shape t).members.foldl (collectProperties root' n) known :=
        List.foldl_ext _ _ _ fun known m hm =>
          ih m ((h.refers_resolve hs ht).of_mem_members hm) known
      dsimp only
      split
      · rfl
      · exact hfold

/-- **The properties are the same**, in the same order. -/
theorem properties_eq (hs : RefersToComponents s) : properties root s = properties root' s :=
  h.collectProperties_eq levels s hs []

theorem refers_of_mem_properties (hs : RefersToComponents s) {e : String × Json}
    (he : e ∈ properties root s) : RefersToComponents e.2 := by
  refine collectProperties_induction (P := fun known => ∀ e ∈ known, RefersToComponents e.2)
    (Q := RefersToComponents) (fun s table known hs hshape hknown e he => ?_)
    (fun s t hs ht => h.refers_resolve hs ht) (fun s t hs ht => hs.of_mem_members ht) hs
    (fun e he => by cases he) e he
  exact (mem_addNew he).elim (hknown e) (hs.of_mem_table hshape)

theorem effectiveTypeWithin_eq (n : Nat) : ∀ s, RefersToComponents s →
    effectiveTypeWithin root n s = effectiveTypeWithin root' n s := by
  induction n with
  | zero => exact fun _ _ => rfl
  | succ n ih =>
    intro s hs
    rw [effectiveTypeWithin, effectiveTypeWithin, ← h.resolve_eq hs]
    cases ht : resolve root s with
    | none => rfl
    | some t =>
      dsimp only
      split
      · rfl
      · split
        · rename_i members hshape
          refine findSome?_congr fun m hm => ih m ((h.refers_resolve hs ht).of_mem_members ?_)
          rw [hshape]
          exact hm
        · rfl
        · rfl
        · rfl

theorem defaultWithin_eq (n : Nat) : ∀ outermost s, RefersToComponents s →
    defaultWithin root n outermost s = defaultWithin root' n outermost s := by
  induction n with
  | zero => exact fun _ _ _ => rfl
  | succ n ih =>
    intro outermost s hs
    rw [defaultWithin, defaultWithin]
    split
    · rfl
    · split
      · rename_i reference hshape
        have href := reference?_of_shape hshape
        rw [← h.target?_eq hs href]
        cases ht : target? root reference with
        | none => rfl
        | some t => exact ih false t (h.refers_target? hs href ht)
      · rename_i table hshape
        have hmembers : ∀ p ∈ table, defaultWithin root n false p.2 = defaultWithin root' n false p.2 :=
          fun p hp => ih false p.2 (hs.of_mem_table hshape hp)
        dsimp only
        generalize hfound : List.filterMap _ table = found
        generalize hfound' : List.filterMap _ table = found'
        obtain rfl : found = found' := by
          rw [← hfound, ← hfound']
          exact List.filterMap_congr fun p hp => by rw [hmembers p hp]
        rfl
      · exact findSome?_congr fun m hm => ih false m (hs.of_mem_members hm)

/-! ### Filling in defaults -/

theorem declaredDefault?_eq (hs : RefersToComponents s) :
    declaredDefault? root s = declaredDefault? root' s := by
  rw [declaredDefault?, declaredDefault?, h.resolve_eq hs]

theorem fillProperty_eq {f g : Json → Json → Json} (members : Entries Json) {p : String × Json}
    (hp : RefersToComponents p.2) (hfg : ∀ value, f p.2 value = g p.2 value) :
    fillProperty root f members p = fillProperty root' g members p := by
  rw [fillProperty, fillProperty, funext hfg, h.declaredDefault?_eq hp]

theorem fillWithin_eq (n : Nat) : ∀ s, RefersToComponents s → ∀ value,
    fillWithin root n s value = fillWithin root' n s value := by
  induction n with
  | zero => exact fun _ _ _ => rfl
  | succ n ih =>
    intro s hs value
    rw [fillWithin, fillWithin, ← h.resolve_eq hs]
    cases ht : resolve root s with
    | none => rfl
    | some t =>
      have hrefers := h.refers_resolve hs ht
      cases value with
      | obj members =>
        dsimp only
        rw [← h.properties_eq hrefers]
        refine congrArg Json.obj (List.foldl_ext _ _ _ fun members p hp => ?_)
        have hp := h.refers_of_mem_properties hrefers hp
        exact h.fillProperty_eq members hp (ih p.2 hp)
      | arr items =>
        dsimp only
        rw [mapItems, mapItems]
        cases hsub : itemSchema? t with
        | none => rfl
        | some sub =>
          have hget := (Option.filter_eq_some_iff.mp hsub).1
          exact congrArg Json.arr (List.map_congr_left fun item _ => ih sub (hrefers.of_get? hget) item)
      | _ => rfl

theorem fillDefaults_eq (hs : RefersToComponents s) (value : Json) :
    fillDefaults root s value = fillDefaults root' s value :=
  h.fillWithin_eq levels s hs value

end SameComponents

end Schema

/-! ### Decoding -/

namespace Style

open Schema

variable {root root' : Json} {p : Parameter} {parameters : List Parameter}

theorem collapseExploded_eq (h : SameComponents root root') {schema : Json}
    (hs : RefersToComponents schema) (name : String) (table : Entries Json) :
    collapseExploded root schema name table = collapseExploded root' schema name table := by
  rw [collapseExploded, collapseExploded, ← h.properties_eq hs]
  dsimp only
  generalize hproperties : (properties root schema).filter (fun p => p.1 != name) = known
  have htype : ∀ key sub, Entries.get? known key = some sub →
      effectiveType root sub = effectiveType root' sub := by
    intro key sub hget
    have hmem := List.mem_filter.mp (hproperties ▸ mem_of_get? hget)
    exact h.effectiveTypeWithin_eq levels sub (h.refers_of_mem_properties hs hmem.1)
  congr 1
  refine List.map_congr_left fun e _ => ?_
  obtain ⟨key, value⟩ := e
  dsimp only
  cases hget : Entries.get? known key with
  | none => rfl
  | some sub =>
    dsimp only
    rw [htype key sub hget]

theorem decodeEntry_eq (h : SameComponents root root') (hp : RefersToComponents p.schema)
    (table : Entries Json) : decodeEntry root p table = decodeEntry root' p table := by
  have hobject : isObjectLike root p.schema = isObjectLike root' p.schema :=
    h.isObjectLikeWithin_eq levels p.schema hp
  have htype : effectiveType root p.schema = effectiveType root' p.schema :=
    h.effectiveTypeWithin_eq levels p.schema hp
  have hdefault : defaultValue root p.schema = defaultValue root' p.schema :=
    h.defaultWithin_eq levels true p.schema hp
  simp only [decodeEntry, isQueryObject, decodeObject, hobject, htype, hdefault,
    collapseExploded_eq h hp]

/-- **Requests are decoded alike**, whatever else stands in the root. -/
theorem decode_eq (h : SameComponents root root')
    (hparameters : ∀ p ∈ parameters, RefersToComponents p.schema) (route : String) (request : Request) :
    decode root route parameters request = decode root' route parameters request := by
  have hstep : ∀ p ∈ parameters, ∀ r, decodeParameter root route p r = decodeParameter root' route p r :=
    fun p hp r => by rw [decodeParameter, decodeParameter, decodeEntry_eq h (hparameters p hp)]
  rw [decode, decode]
  generalize NormalizedRequest.ofRequest request = r
  clear hparameters
  induction parameters generalizing r with
  | nil => rw [List.foldlM_nil, List.foldlM_nil]
  | cons p parameters ih =>
    rw [List.foldlM_cons, List.foldlM_cons, hstep p (by simp)]
    exact bind_congr fun r => ih (fun q hq => hstep q (List.mem_cons_of_mem p hq)) r

end Style

end RequestGate
