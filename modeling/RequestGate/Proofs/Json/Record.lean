import RequestGate.Proofs.Json.Measures

/-!
# Reading what was written

A record is written as an object with one member for each field, and some members may be left out.
Reading looks every field up by its name, so what it finds does not depend on how the members are
arranged (`RequestGate.Json.readFields?_obj`). Lists are read item by item and tables member by member;
they come back if every item does.
-/

namespace RequestGate.Json

variable {α : Type}

/-- A `mapM` that fails nowhere is a `map`. -/
theorem mapM_eq_some {β γ : Type} {f : β → Option γ} {g : β → γ} {l : List β}
    (h : ∀ a ∈ l, f a = some (g a)) : l.mapM f = some (l.map g) := by
  induction l with
  | nil => rfl
  | cons a l ih =>
    rw [List.mapM_cons, h a (by simp), ih fun b hb => h b (List.mem_cons_of_mem a hb)]
    rfl

/-- Without repeated keys, the members with a key are at most one, and that is looked up. -/
theorem filter_key {members : Entries Json} (h : Entries.Distinct members) (name : String) :
    (members.filter fun member => (Field.named name).answersTo member.1) =
      ((Entries.get? members name).map fun value => (name, value)).toList := by
  have hanswers : ∀ key : String, (Field.named name).answersTo key = (key == name) := by
    simp [Field.answersTo, Field.named]
  simp only [hanswers]
  induction members with
  | nil => rfl
  | cons entry rest ih =>
    obtain ⟨k, v⟩ := entry
    obtain ⟨hk, hrest⟩ := List.nodup_cons.mp h
    by_cases heq : k = name
    · subst heq
      have hnone : Entries.get? rest k = none := Entries.get?_eq_none_iff.mpr hk
      rw [List.filter_cons_of_pos (by simp), ih hrest, hnone, Entries.get?_cons, if_pos rfl]
      rfl
    · rw [List.filter_cons_of_neg (by simpa using heq), ih hrest, Entries.get?_cons, if_neg heq]

/-- **Fields are looked up by their names.** -/
theorem readFields?_obj {members : Entries Json} (h : Entries.Distinct members)
    (names : List String) :
    readFields? (names.map Field.named) (.obj members) =
      some (names.map (Entries.get? members)) := by
  rw [readFields?, mapM_eq_some (g := fun field : Field => Entries.get? members field.name),
    List.map_map]
  · rfl
  · intro field hfield
    obtain ⟨name, -, rfl⟩ := List.mem_map.mp hfield
    have hname : (Field.named name).name = name := rfl
    rw [filter_key h name, hname]
    cases Entries.get? members name <;> rfl

/-- A record that leaves no field out is read in order. -/
theorem readFields?_all {members : Entries Json} (names : List String)
    (hkeys : Entries.keys members = names) (hnames : names.Nodup) :
    readFields? (names.map Field.named) (.obj members) =
      some (members.map fun member => some member.2) := by
  subst hkeys
  rw [readFields?_obj hnames, Entries.keys, List.map_map]
  refine congrArg some (List.map_congr_left fun member hmember => ?_)
  exact Entries.get?_of_mem hnames hmember

/-- A list comes back if its items do. -/
theorem readList?_arr {read : Json → Option α} {write : α → Json} {items : List α}
    (h : ∀ a ∈ items, read (write a) = some a) :
    readList? read (.arr (items.map write)) = some items := by
  have hread : ∀ a ∈ items, (read ∘ write) a = some (id a) := h
  rw [readList?, List.mapM_map, mapM_eq_some hread, List.map_id]

theorem readList?_ofStrings (items : List String) :
    readList? readStr? (ofStrings items) = some items :=
  readList?_arr fun _ _ => rfl

/-- A table without repeated keys comes back if its values do. -/
theorem readEntries?_obj {read : Json → Option α} {write : α → Json} {entries : Entries α}
    (hd : Entries.Distinct entries) (h : ∀ e ∈ entries, read (write e.2) = some e.2) :
    readEntries? read (.obj (Entries.mapValues write entries)) = some entries := by
  have hread : ∀ e ∈ entries, (((read (write e.2)).map fun v => (e.1, v)) : Option (String × α)) =
      some (id e) := by
    intro e he
    rw [h e he]
    rfl
  have hmembers : (Entries.mapValues write entries).mapM (fun member =>
      (read member.2).map fun v => (member.1, v)) = some entries := by
    rw [Entries.mapValues, List.mapM_map]
    exact (mapM_eq_some hread).trans (congrArg some (List.map_id entries))
  rw [readEntries?, hmembers]
  exact congrArg some hd.ofList_eq

/-! ### What is read is part of the record -/

theorem exists_of_mem_mapM? {α β : Type} {f : α → Option β} {b : β} : ∀ {l : List α} {r : List β},
    l.mapM f = some r → b ∈ r → ∃ a ∈ l, f a = some b
  | [], _, h, hb => by
    obtain rfl := Option.some.inj h
    cases hb
  | a :: l, r, h, hb => by
    rw [List.mapM_cons] at h
    obtain ⟨first, hfirst, h⟩ := Option.bind_eq_some_iff.mp h
    obtain ⟨rest, hrest, h⟩ := Option.bind_eq_some_iff.mp h
    obtain rfl := Option.some.inj h
    rcases List.mem_cons.mp hb with rfl | hb
    · exact ⟨a, by simp, hfirst⟩
    · obtain ⟨a', ha', hf⟩ := exists_of_mem_mapM? hrest hb
      exact ⟨a', List.mem_cons_of_mem _ ha', hf⟩

/-- What is read from a record is part of it. -/
theorem mem_children_of_readFields? {fields : List Field} {value a : Json}
    {found : List (Option Json)} (h : readFields? fields value = some found) (ha : some a ∈ found) :
    a ∈ value.children := by
  cases value with
  | obj members =>
    obtain ⟨field, -, hfield⟩ := exists_of_mem_mapM? h ha
    split at hfield
    · cases hfield
    · rename_i member hfilter
      obtain rfl := Option.some.inj (Option.some.inj hfield)
      have hmem : member ∈ members.filter fun member => field.answersTo member.1 := by
        rw [hfilter]
        exact List.mem_singleton_self _
      exact List.mem_map_of_mem (List.mem_filter.mp hmem).1
    · cases hfield
  | arr items =>
    rw [readFields?] at h
    split at h
    · cases h
    · obtain rfl := Option.some.inj h
      have hitems : a ∈ items := by simpa using ha
      exact hitems
  | _ => cases h

/-- A field that may be missing holds what is read from it, if anything. -/
theorem exists_of_optional? {read : Json → Option α} {field : Option Json} {result : Option α} {a : α}
    (h : optional? read field = some result) (ha : a ∈ result) :
    ∃ raw, field = some raw ∧ read raw = some a := by
  obtain rfl := ha
  rw [optional?.eq_def] at h
  split at h
  · cases h
  · cases h
  · rename_i raw _
    obtain ⟨found, hfound, hsome⟩ := Option.map_eq_some_iff.mp h
    exact ⟨raw, rfl, hsome ▸ hfound⟩

end RequestGate.Json
