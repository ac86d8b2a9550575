import RequestGate.Draft7.Compile
import RequestGate.Proofs.Ascending
import RequestGate.Proofs.Draft7.Verdict

/-!
# The formats that options bring

Options are gone through for their formats three times. The engine fills a table with the predicates, the
custom formats first and then the deserializers; a string is deserialized by the first deserializer of its
format that is found from the end; and an artifact records the names of all formats in order.

The three agree (`RequestGate.Engine.formatTable_agrees`). What the engine asks about a format is the
deserializer that is found for it, and where there is none the custom format of the name that was given
last; and it has a predicate of its own for the formats that are recorded, and for no others. So a string
that passes its format can be deserialized, and no format goes missing between options and their stamp.
-/

namespace RequestGate

open Json

/-! ### The last one of a name -/

section LastNamed

variable {α : Type*} {name : α → String} {items : List α} {key : String} {item : α}

/-- Whether an item is the last one of a list with a name. -/
def LastNamed (name : α → String) (items : List α) (key : String) (item : α) : Prop :=
  ∃ before after, items = before ++ item :: after ∧ name item = key ∧
    ∀ later ∈ after, name later ≠ key

/-- **The last one of a name is the first one from the end.** -/
theorem find?_reverse_eq_some_iff :
    (items.reverse.find? fun i => name i == key) = some item ↔ LastNamed name items key item := by
  rw [List.find?_eq_some_iff_append, LastNamed]
  constructor
  · rintro ⟨hname, front, back, heq, hfront⟩
    refine ⟨back.reverse, front.reverse, ?_, beq_iff_eq.mp hname, fun later hlater => ?_⟩
    · rw [← List.reverse_reverse items, heq, List.reverse_append, List.reverse_cons,
        List.append_assoc, List.singleton_append]
    · simpa using hfront later (List.mem_reverse.mp hlater)
  · rintro ⟨before, after, rfl, hname, hafter⟩
    refine ⟨beq_iff_eq.mpr hname, after.reverse, before.reverse, by simp, fun later hlater => ?_⟩
    simpa using hafter later (List.mem_reverse.mp hlater)

end LastNamed

/-! ### What passes a format -/

/-- Whether a deserializer reads a string. -/
def Deserializer.reads (d : Deserializer) (text : String) : Bool := (d.read text).isSome

namespace Options

variable {options : Options} {format text : String} {d : Deserializer} {c : CustomFormat}

/-- The custom format of a name; the last one registered counts. -/
def customFormat? (options : Options) (format : String) : Option CustomFormat :=
  options.formats.reverse.find? fun c => c.name == format

theorem deserializer?_eq_some_iff :
    options.deserializer? format = some d ↔
      LastNamed Deserializer.format options.deserializers format d :=
  find?_reverse_eq_some_iff

theorem customFormat?_eq_some_iff :
    options.customFormat? format = some c ↔ LastNamed CustomFormat.name options.formats format c :=
  find?_reverse_eq_some_iff

/-- **When a string passes a format of the options**: it is read by the deserializer of the format, or,
if that has none, accepted by the last custom format of the name. -/
inductive Passes (options : Options) (format text : String) : Prop where
  | read {d : Deserializer} (hd : options.deserializer? format = some d)
      (hread : (d.read text).isSome = true)
  | accepted {c : CustomFormat} (hnone : options.deserializer? format = none)
      (hlast : LastNamed CustomFormat.name options.formats format c)
      (haccepts : c.accepts text = true)

end Options

/-! ### The table of the engine -/

namespace Engine

open Options

variable {options : Options} {format text : String} {d : Deserializer} {schema : Json}
  {predicate : Predicate}

/-- **The table of the engine in one equation.** -/
theorem get?_formatTable (options : Options) (format : String) :
    Entries.get? (formatTable options) format =
      ((options.deserializer? format).map Deserializer.reads).or
        ((options.customFormat? format).map CustomFormat.accepts) := by
  rw [formatTable, Entries.get?_ofList_append, Entries.get?_ofList_map, Entries.get?_ofList_map]
  rfl

/-- **What the table accepts** is what passes the formats of the options. -/
theorem get?_formatTable_accepts_iff :
    (∃ accepts, Entries.get? (formatTable options) format = some accepts ∧ accepts text = true) ↔
      options.Passes format text := by
  rw [get?_formatTable]
  constructor
  · rintro ⟨accepts, hget, haccepts⟩
    cases hd : options.deserializer? format with
    | some d =>
      rw [hd] at hget
      obtain rfl := Option.some.inj hget
      exact .read hd haccepts
    | none =>
      rw [hd, Option.map_none, Option.none_or] at hget
      obtain ⟨c, hc, rfl⟩ := Option.map_eq_some_iff.mp hget
      exact .accepted hd (customFormat?_eq_some_iff.mp hc) haccepts
  · intro h
    cases h with
    | @read d hd hread => exact ⟨d.reads, by rw [hd]; rfl, hread⟩
    | @accepted c hnone hlast haccepts =>
      exact ⟨c.accepts, by rw [hnone, customFormat?_eq_some_iff.mpr hlast]; rfl, haccepts⟩

instance : Decidable (options.Passes format text) :=
  decidable_of_iff ((Entries.get? (formatTable options) format).any (· text) = true)
    ((Option.any_eq_true _ _).trans get?_formatTable_accepts_iff)

/-- **Filling a table and collecting names** come to the same names. -/
theorem mem_keys_formatTable_iff :
    format ∈ Entries.keys (formatTable options) ↔ format ∈ options.formatNames := by
  rw [← Entries.contains_iff, Entries.contains, get?_formatTable, formatNames, mem_sortedDistinct,
    List.mem_append, Option.isSome_or, Option.isSome_map, Option.isSome_map, deserializer?,
    customFormat?, Bool.or_eq_true, List.find?_isSome, List.find?_isSome, or_comm]
  simp only [List.mem_reverse, beq_iff_eq, List.mem_map]

/-! ### What the engine asks -/

/-- A predicate is the schema it was compiled from, with the formats of the options. -/
theorem eq_of_compile_eq_ok (h : compile options schema = .ok predicate) :
    predicate = ⟨schema, formats options⟩ := by
  rw [compile] at h
  split at h
  · simp at h
  · exact (Except.ok.inj h).symm

/-- A format of the options hides a built-in one. -/
theorem predicate?_eq (hon : options.settings.validateFormats = true) (format : String) :
    (formats options).predicate? format =
      (Entries.get? (formatTable options) format).or (Format.builtin? format) := by
  rw [Draft7.Formats.predicate?, formats, if_pos hon]

/-- **A deserializer is the test of its format**, in the place of any other. -/
theorem predicate?_of_deserializer (hon : options.settings.validateFormats = true)
    (hd : options.deserializer? format = some d) :
    (formats options).predicate? format = some d.reads := by
  rw [predicate?_eq hon, get?_formatTable, hd]
  rfl

/-- **The engine holds strings to the formats of the options.** -/
theorem formatHolds_iff (hon : options.settings.validateFormats = true)
    (hmem : format ∈ options.formatNames) :
    Draft7.formatHolds (formats options) (.str format) (.str text) = true ↔
      options.Passes format text := by
  obtain ⟨accepts, haccepts⟩ :=
    Option.isSome_iff_exists.mp (Entries.contains_iff.mpr (mem_keys_formatTable_iff.mpr hmem))
  rw [← get?_formatTable_accepts_iff]
  simp only [Draft7.formatHolds, predicate?_eq hon, haccepts, Option.some_or, Option.some.injEq,
    exists_eq_left']

/-- The schema of the strings of a format, and nothing else. -/
def formatSchema (format : String) : Json := .obj [("format", .str format)]

/-- The schema of a format is compiled whatever the format is called. -/
theorem compile_formatSchema (options : Options) (format : String) :
    compile options (formatSchema format) = .ok ⟨formatSchema format, formats options⟩ := by
  have hvalid : Draft7.allViolations .builtin Draft7.metaSchema (formatSchema format) = [] := rfl
  have hfault : Draft7.compileFault? (formats options) (formatSchema format) = none := by
    rw [Draft7.compileFault?, hvalid]
    rfl
  rw [compile, hfault]

theorem accepts_formatSchema_iff {formats : Draft7.Formats} :
    (Predicate.mk (formatSchema format) formats).accepts (.str text) = true ↔
      Draft7.formatHolds formats (.str format) (.str text) = true := by
  obtain ⟨n, hn⟩ : ∃ n, Draft7.stepsFor (formatSchema format) (.str text) = n + 1 := ⟨_, rfl⟩
  rw [Predicate.accepts, List.isEmpty_iff, Draft7.allViolations, hn, Draft7.violations_eq_nil_iff,
    formatSchema, Draft7.accepts_succ_iff rfl]
  exact List.forall_mem_singleton.trans Draft7.Place.demand_eq_nil_iff

/-- **Whatever goes through the formats of the options comes to the same.** The table of the engine accepts
what the deserializer of a format reads, which is the last one registered, and where there is none what the
last custom format of the name accepts; it has a predicate for the formats that are named, which are those
of the stamp. A compiled schema asks nothing else of a string, and the schema of a format asks nothing but
that. -/
theorem formatTable_agrees (options : Options) (format text : String) :
    ((∃ accepts, Entries.get? (formatTable options) format = some accepts ∧ accepts text = true) ↔
      options.Passes format text) ∧
    (∀ d, options.deserializer? format = some d ↔
      LastNamed Deserializer.format options.deserializers format d) ∧
    (format ∈ Entries.keys (formatTable options) ↔ format ∈ options.formatNames) ∧
    (format ∈ Entries.keys (formatTable options) ↔ format ∈ options.stamp.formats) ∧
    (options.settings.validateFormats = true → format ∈ options.formatNames →
      (∀ schema predicate, compile options schema = .ok predicate →
        (Draft7.formatHolds predicate.formats (.str format) (.str text) = true ↔
          options.Passes format text)) ∧
      ∃ predicate, compile options (formatSchema format) = .ok predicate ∧
        (predicate.accepts (.str text) = true ↔ options.Passes format text)) := by
  refine ⟨get?_formatTable_accepts_iff, fun d => deserializer?_eq_some_iff, mem_keys_formatTable_iff,
    mem_keys_formatTable_iff, fun hon hmem => ⟨fun schema predicate hcompile => ?_, _,
      compile_formatSchema options format, ?_⟩⟩
  · obtain rfl := eq_of_compile_eq_ok hcompile
    exact formatHolds_iff hon hmem
  · rw [accepts_formatSchema_iff, formatHolds_iff hon hmem]

/-- Options that name each of two formats more than once, and one of them as both kinds. -/
def repeatedFormats : Options where
  formats :=
    [⟨"code", .string, fun _ => true⟩, ⟨"switch", .string, fun _ => true⟩,
     ⟨"code", .string, fun text => text == "abc"⟩]
  deserializers :=
    [⟨"switch", fun _ => some .null⟩,
     ⟨"switch", fun text => if text == "on" then some (.bool true) else none⟩]

/-- The last custom format of a name is asked, and the last deserializer in the place of any. -/
theorem formatTable_agrees_repeatedFormats :
    (Draft7.formatHolds (formats repeatedFormats) (.str "code") (.str "ab") = true ↔
      repeatedFormats.Passes "code" "ab") ∧
    (∃ predicate, compile repeatedFormats (formatSchema "code") = .ok predicate ∧
      (predicate.accepts (.str "ab") = true ↔ repeatedFormats.Passes "code" "ab")) ∧
    ¬ repeatedFormats.Passes "code" "ab" ∧ repeatedFormats.Passes "code" "abc" ∧
    ¬ repeatedFormats.Passes "switch" "off" ∧ repeatedFormats.Passes "switch" "on" := by
  obtain ⟨-, -, -, -, hcompiled⟩ := formatTable_agrees repeatedFormats "code" "ab"
  obtain ⟨hany, hown⟩ := hcompiled rfl (by decide)
  exact ⟨hany _ _ (compile_formatSchema repeatedFormats "code"), hown, by decide,
    by decide, by decide, by decide⟩

end Engine

end RequestGate
