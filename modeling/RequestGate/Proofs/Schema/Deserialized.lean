import RequestGate.Proofs.Draft7.Ensured
import RequestGate.Proofs.Draft7.Registered
import RequestGate.Proofs.Json.Canonical
import RequestGate.Schema.Deserialize

/-!
# Formats that are demanded, and formats that are read

The engine holds a string to a format wherever a schema demands it: in the schema itself, in one that it
refers to, or in a member of `allOf` (`RequestGate.Schema.Demands`). A format with a deserializer is the
test whether this reads the string, so what the engine has nothing against can be read
(`RequestGate.Schema.exists_read_of_demands`). Deserializing looks for a format in fewer places. It
follows references, but asks only the schema to which they lead (`RequestGate.Schema.ownFormat?`).
-/

namespace RequestGate

open Json

/-! ### What alike values have in common -/

namespace Json

variable {a b : Json}

theorem Alike.str?_eq (h : Alike a b) : a.str? = b.str? := by
  cases a with
  | str s => rw [h.eq_str]
  | _ =>
    cases b with
    | str s => cases h.symm.eq_str
    | _ => rfl

/-- Alike values have the same texts as members. -/
theorem Alike.getStr?_eq (h : Alike a b) (ha : a.WellFormed) (key : String) :
    a.getStr? key = b.getStr? key := by
  cases a with
  | obj members =>
    obtain ⟨members', rfl, -⟩ := h.exists_obj
    rw [getStr?, getStr?, get?_obj, get?_obj]
    rcases Entries.rel_cases (h.get? ha.1 key) with ⟨hv, hw⟩ | ⟨v, w, hv, hw, hvw⟩
    · rw [hv, hw]
    · rw [hv, hw]
      exact hvw.str?_eq
  | _ =>
    cases b with
    | obj members =>
      obtain ⟨_, heq, -⟩ := h.symm.exists_obj
      cases heq
    | _ => rfl

end Json

namespace Schema

open Draft7

variable {formats : Formats} {options : Options} {root schema s t : Json} {format text : String}
  {d : Deserializer} {n : Nat}

/-! ### Formats that are demanded -/

/-- Whether a schema demands a format of strings, itself or through references and members of `allOf`. -/
inductive Demands (root : Json) (format : String) : Json → Prop where
  | own {s : Json} (href : reference? s = none) (hformat : s.getStr? "format" = some format) :
      Demands root format s
  | reference {s t : Json} {reference : String} (href : reference? s = some reference)
      (htarget : Draft7.resolve? root reference = some t) (h : Demands root format t) :
      Demands root format s
  | allOf {members : Entries Json} {t : Json} (href : reference? (.obj members) = none)
      (ht : t ∈ listUnder members "allOf") (h : Demands root format t) :
      Demands root format (.obj members)

/-- Alike schemas demand the same formats. -/
theorem Demands.of_alike (h : Demands root format s) (hs : s.WellFormed) (halike : Alike s t) :
    Demands root format t := by
  induction h generalizing t with
  | own href hformat =>
    rw [reference?, halike.getStr?_eq hs] at href
    rw [halike.getStr?_eq hs] at hformat
    exact .own href hformat
  | reference href htarget h =>
    rw [reference?, halike.getStr?_eq hs] at href
    exact .reference href htarget h
  | @allOf members u href hu _ ih =>
    rw [reference?, halike.getStr?_eq hs] at href
    obtain ⟨items, hitems, hmem⟩ := mem_listUnder.mp hu
    obtain ⟨members', rfl, -⟩ := halike.exists_obj
    have hrel := halike.get? hs.1 "allOf"
    rw [hitems] at hrel
    obtain ⟨value, hvalue, hitemsAlike⟩ : ∃ value, Entries.get? members' "allOf" = some value ∧
        Alike (.arr items) value := by
      rcases Entries.rel_cases hrel with ⟨hnone, -⟩ | ⟨v, value, hv, hvalue, hvw⟩
      · cases hnone
      · exact ⟨value, hvalue, Option.some.inj hv ▸ hvw⟩
    -- the lists correspond item by item, so the counterpart has the same index
    obtain ⟨items', rfl, hall⟩ := hitemsAlike.exists_arr
    obtain ⟨i, hi, rfl⟩ := List.mem_iff_getElem.mp hmem
    have hi' : i < items'.length := hall.length_eq ▸ hi
    have hwell : items[i].WellFormed :=
      wellFormedList_iff.mp (hs.get? hitems) _ (List.getElem_mem hi)
    exact .allOf href (mem_listUnder.mpr ⟨items', hvalue, List.getElem_mem hi'⟩)
      (ih hwell (hall.get hi hi'))

/-- **A demand is ensured**: what passes has passed a schema that has the format itself. -/
theorem Demands.ensures (h : Demands root format s) :
    Ensures root (fun t => reference? t = none ∧ t.getStr? "format" = some format) s := by
  induction h with
  | own href hformat => exact .of_self ⟨href, hformat⟩
  | reference href htarget _ ih =>
    obtain ⟨rounds, hrounds⟩ := ih
    exact ⟨rounds + 1, .reference href htarget hrounds⟩
  | allOf href ht _ ih =>
    obtain ⟨rounds, hrounds⟩ := ih
    exact ⟨rounds + 1, .allOf href ht hrounds⟩

/-- A schema without a reference holds strings to its format. -/
theorem formatHolds_of_accepts (href : reference? s = none)
    (hformat : s.getStr? "format" = some format)
    (h : Accepts formats root (n + 1) s (.str text)) :
    formatHolds formats (.str format) (.str text) = true := by
  obtain ⟨value, hget, hstr⟩ := Option.bind_eq_some_iff.mp hformat
  cases s with
  | obj members =>
    have hnil := Place.demand_eq_nil_iff.mp
      ((accepts_succ_iff href).mp h ("format", value) (Entries.mem_of_get? hget))
    cases value with
    | str name => exact Option.some.inj hstr ▸ hnil
    | _ => cases hstr
  | _ => cases hget

/-- **The engine holds strings to every format that is demanded.** -/
theorem formatHolds_of_demands (hroot : root.WellFormed) (hs : s ∈ root.subvalues)
    (hdemands : Demands root format s) (hn : root.size + 2 ≤ n)
    (h : Accepts formats root n s (.str text)) :
    formatHolds formats (.str format) (.str text) = true := by
  have htext : (Json.str text).WellFormed := trivial
  obtain ⟨rounds, hrounds⟩ := hdemands.ensures
  -- references may lead in circles, but then fewer steps lead to the format as well: what is visited are
  -- parts of the root, so the steps that the engine has left are enough
  have hwithin := hrounds.within_length (fun _ _ => EnsuresStep.mono) (staysIn_subvalues root _) hs
  rw [Json.length_subvalues] at hwithin
  obtain ⟨k, rfl⟩ : ∃ k, n = k + 2 + root.size := ⟨n - root.size - 2, by omega⟩
  obtain ⟨t, -, ⟨href, hformat⟩, m, hm, haccepts⟩ :=
    accepts_of_rounds hroot htext (Nat.succ_pos _) hs hwithin h
  obtain ⟨m, rfl⟩ : ∃ l, m = l + 1 := ⟨m - 1, by omega⟩
  exact formatHolds_of_accepts href hformat haccepts

/-- **What the engine has nothing against can be read** by the deserializer of a format that is
demanded. -/
theorem exists_read_of_demands (hroot : root.WellFormed) (hs : s ∈ root.subvalues)
    (hon : options.settings.validateFormats = true) (hd : options.deserializer? format = some d)
    (hdemands : Demands root format s) (hn : root.size + 2 ≤ n)
    (h : Accepts (Engine.formats options) root n s (.str text)) : ∃ a, d.read text = some a := by
  have hholds := formatHolds_of_demands hroot hs hdemands hn h
  simp only [formatHolds, Engine.predicate?_of_deserializer hon hd] at hholds
  exact Option.isSome_iff_exists.mp hholds

/-! ### Formats that are read -/

/-- The format by which a string is deserialized: that of the schema to which the references lead. -/
def ownFormat? (root schema : Json) : Option String :=
  (resolve root schema).bind fun s => s.getStr? "format"

/-- What the deserializer of its own format reads in a string. -/
def reading? (options : Options) (root schema : Json) (text : String) : Option Json :=
  ((ownFormat? root schema).bind options.deserializer?).bind fun d => d.read text

/-- **A string becomes what is read in it**, and stays as it is if nothing is. -/
theorem deserialize_str (options : Options) (root schema : Json) (text : String) :
    deserialize options root schema (.str text) =
      (reading? options root schema text).getD (.str text) := by
  rw [deserialize, levels, deserializeWithin, reading?, ownFormat?]
  cases resolve root schema with
  | none => rfl
  | some s =>
    simp only [Option.bind_some, deserializeString]
    cases (s.getStr? "format").bind options.deserializer? <;> rfl

end Schema

end RequestGate
