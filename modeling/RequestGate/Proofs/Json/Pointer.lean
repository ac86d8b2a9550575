import RequestGate.Json.Pointer
import RequestGate.Proofs.Text.Cutting

/-!
# Pointers written and read

A segment is written character by character, which comes to two replacements in the whole text, of the
tildes first and of the slashes then (`RequestGate.Pointer.escape_eq_replaceChar`). What is written holds
no slash. So a pointer falls into its written segments, the empty ones included
(`RequestGate.Pointer.split_render`), and the segments are read back from it
(`RequestGate.Pointer.segments_render`).
-/

namespace RequestGate

namespace Text

/-- Writes a text for a character, wherever it stands. -/
def replaceChar (c : Char) (text cs : List Char) : List Char :=
  cs.flatMap fun d => if d = c then text else [d]

theorem replaceChar_cons_self (c : Char) (text cs : List Char) :
    replaceChar c text (c :: cs) = text ++ replaceChar c text cs := by
  rw [replaceChar, List.flatMap_cons, if_pos rfl, ← replaceChar]

theorem replaceChar_cons_of_ne {c d : Char} (h : d ≠ c) (text cs : List Char) :
    replaceChar c text (d :: cs) = d :: replaceChar c text cs := by
  rw [replaceChar, List.flatMap_cons, if_neg h, ← replaceChar, List.singleton_append]

end Text

namespace Pointer

/-! ### Segments -/

/-- **A segment is written with two replacements.** The slashes come second, so no tilde that stands for
a slash is written out itself. -/
theorem escape_eq_replaceChar (cs : List Char) :
    escape cs = Text.replaceChar '/' ['~', '1'] (Text.replaceChar '~' ['~', '0'] cs) := by
  induction cs with
  | nil => rfl
  | cons c cs ih =>
    by_cases htilde : c = '~'
    · subst htilde
      rw [Text.replaceChar_cons_self, List.cons_append, Text.replaceChar_cons_of_ne (by decide),
        List.singleton_append, Text.replaceChar_cons_of_ne (by decide), ← ih]
      rfl
    · rw [escape, if_neg htilde, Text.replaceChar_cons_of_ne htilde]
      by_cases hslash : c = '/'
      · subst hslash
        rw [if_pos rfl, Text.replaceChar_cons_self, ← ih]
        rfl
      · rw [if_neg hslash, Text.replaceChar_cons_of_ne hslash, ← ih]

theorem slash_not_mem_escape (cs : List Char) : '/' ∉ escape cs := by
  induction cs with
  | nil => simp [escape]
  | cons c cs ih =>
    rw [escape]
    split
    · simpa using ih
    · split
      · simpa using ih
      · rename_i hslash
        exact fun h => (List.mem_cons.mp h).elim (fun heq => hslash heq.symm) ih

theorem unescapeText_escapeText (segment : String) : unescapeText (escapeText segment) = segment := by
  rw [unescapeText, escapeText, String.toList_ofList, unescape_escape, String.ofList_toList]

/-! ### Whole pointers -/

/-- The pieces of a pointer, each of which stands after a slash. -/
def pieces (pointer : String) : List String := (Text.split '/' pointer).drop 1

theorem segments_eq_map_pieces (pointer : String) :
    segments pointer = (pieces pointer).map unescapeText := by
  rw [segments, pieces, Text.split, ← List.map_drop, List.map_map]
  refine List.map_congr_left fun piece _ => ?_
  rw [Function.comp_apply, unescapeText, String.toList_ofList]

theorem render_eq_join (segs : List String) :
    render segs = Text.join '/' ("" :: segs.map escapeText) := by
  induction segs with
  | nil => rfl
  | cons segment segs ih =>
    calc render (segment :: segs)
        = "/" ++ escapeText segment ++ render segs := by
          rw [render, List.map_cons, String.join_cons, ← render]
      _ = "/" ++ Text.join '/' (escapeText segment :: segs.map escapeText) := by
          rw [ih, String.append_assoc, ← Text.join_cons]
      _ = Text.join '/' ("" :: (segment :: segs).map escapeText) := by
          rw [List.map_cons, Text.join_cons_cons, String.empty_append]
          rfl

/-- **A pointer falls into its written segments**, after nothing at all. -/
theorem split_render (segs : List String) :
    Text.split '/' (render segs) = "" :: segs.map escapeText := by
  rw [render_eq_join]
  refine Text.split_join (List.cons_ne_nil _ _) fun piece hpiece => ?_
  rcases List.mem_cons.mp hpiece with rfl | hpiece
  · exact List.not_mem_nil
  · obtain ⟨segment, -, rfl⟩ := List.mem_map.mp hpiece
    rw [escapeText, String.toList_ofList]
    exact slash_not_mem_escape segment.toList

/-- **The pieces of a pointer** are its written segments. -/
theorem pieces_render (segs : List String) : pieces (render segs) = segs.map escapeText := by
  rw [pieces, split_render, List.drop_succ_cons, List.drop_zero]

/-- **Segments are read back from a pointer.** -/
theorem segments_render (segs : List String) : segments (render segs) = segs := by
  rw [segments_eq_map_pieces, pieces_render, List.map_map]
  exact List.map_id'' unescapeText_escapeText segs

/-! ### The encoding in two replacements -/

/-- A segment, with `~0` written for every tilde and then `~1` for every slash. -/
def encodeSegment (segment : String) : String :=
  String.ofList (Text.replaceChar '/' ['~', '1'] (Text.replaceChar '~' ['~', '0'] segment.toList))

/-- The pointer of segments that are encoded in this way, each after a slash. -/
def encode (segs : List String) : String :=
  String.join (segs.map fun segment => "/" ++ encodeSegment segment)

theorem encodeSegment_eq (segment : String) : encodeSegment segment = escapeText segment := by
  rw [encodeSegment, escapeText, escape_eq_replaceChar]

theorem encode_eq_render (segs : List String) : encode segs = render segs := by
  rw [encode, render]
  simp only [encodeSegment_eq]

end Pointer

end RequestGate
