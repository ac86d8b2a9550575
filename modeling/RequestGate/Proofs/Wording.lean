import RequestGate.Proofs.Json.Pointer
import RequestGate.Proofs.Text.Digits
import RequestGate.Wording

/-!
# Dotted paths and lines

A violation has a list of segments, a report the pointer that is written from it, and a rejection item
the dotted path that is read from the pointer. Nothing is lost on the way
(`RequestGate.Pointer.segments_render`), so a dotted path is the segments one by one, each with its dot
or in brackets (`RequestGate.dottedPath_render`). Both readings of a pointer undo its encoding
(`RequestGate.Pointer.decode_encode`).

An error makes a part of the summary and an item of each of its lines. The item alone tells what the part
is (`RequestGate.SchemaError.summary_eq_of_item_eq`), so the items of a rejection determine its summary.
-/

namespace RequestGate

/-- A segment of a dotted path. -/
def segmentText (segment : String) : String :=
  if !segment.isEmpty && Text.allDigits segment.toList then "[" ++ segment ++ "]"
  else "." ++ segment

/-- **A dotted path shows the segments**, one after the other. -/
theorem dottedPath_render (segs : List String) :
    dottedPath (Pointer.render segs) = String.join (segs.map segmentText) := by
  rw [dottedPath, Pointer.segments_render]
  rfl

/-- In brackets stand the segments of digits. -/
theorem segmentText_eq (segment : String) :
    segmentText segment =
      if Text.IsDigits segment.toList then "[" ++ segment ++ "]" else "." ++ segment := by
  have hdigits : (!segment.isEmpty && Text.allDigits segment.toList) = true ↔
      Text.IsDigits segment.toList := by
    rw [Text.isDigits_iff, Bool.and_eq_true, Bool.not_eq_true', ← Bool.not_eq_true, String.isEmpty_iff,
      ne_eq, String.toList_eq_nil_iff, and_comm]
  simp only [segmentText, hdigits]

/-- **Reading a pointer undoes its encoding**, whatever the segments hold. The pieces are the encoded
segments, each of which is decoded to the segment itself, and the dotted path shows the segments in
order: those of digits in brackets, all others after a dot. -/
theorem Pointer.decode_encode (segs : List String) :
    pieces (encode segs) = segs.map encodeSegment ∧
      (pieces (encode segs)).map unescapeText = segs ∧
      dottedPath (encode segs) = String.join (segs.map fun segment =>
        if Text.IsDigits segment.toList then "[" ++ segment ++ "]" else "." ++ segment) := by
  rw [encode_eq_render]
  refine ⟨?_, ?_, ?_⟩
  · rw [pieces_render]
    exact List.map_congr_left fun segment _ => (encodeSegment_eq segment).symm
  · rw [← segments_eq_map_pieces, segments_render]
  · rw [dottedPath_render]
    exact congrArg String.join (List.map_congr_left fun segment _ => segmentText_eq segment)

/-- Segments that look as if they were encoded already, or as if they were several. -/
example : dottedPath (Pointer.encode ["body", "0", "", "a/b~", "~01", "/1"]) = ".body[0]..a/b~.~01./1" := by
  decide

/-- Every segment starts with a dot or a bracket. -/
theorem head?_segmentText (segment : String) :
    (segmentText segment).toList.head? = some '.' ∨ (segmentText segment).toList.head? = some '[' := by
  rw [segmentText]
  split
  · exact Or.inr (by simp)
  · exact Or.inl (by simp)

/-! ### Lines -/

/-- A path that is followed by a blank in one text, and by anything but a blank in another, can be read
off the two. -/
theorem eq_of_followed {path other rest rest' text text' : List Char}
    (hrest : rest.head? ≠ some ' ') (hrest' : rest'.head? ≠ some ' ')
    (htext : text.head? = some ' ') (htext' : text'.head? = some ' ')
    (hplace : path ++ rest = other ++ rest') (hwords : path ++ text = other ++ text') :
    path = other := by
  have hends : ∀ {rest rest' text text' d : List Char}, rest.head? ≠ some ' ' → text.head? = some ' ' →
      rest = d ++ rest' → text = d ++ text' → d = [] := by
    intro rest rest' text text' d hrest htext heq hwords
    cases d with
    | nil => rfl
    | cons c d =>
      subst heq hwords
      exact absurd htext hrest
  rcases List.append_eq_append_iff.mp hplace with ⟨d, rfl, hd⟩ | ⟨d, rfl, hd⟩
  · rw [List.append_assoc, List.append_cancel_left_eq] at hwords
    rw [hends hrest htext hd hwords, List.append_nil]
  · rw [List.append_assoc, List.append_cancel_left_eq] at hwords
    rw [hends hrest' htext' hd hwords.symm, List.append_nil]

namespace SchemaError

variable {e e' : SchemaError} {l l' : String × RejectionItem}

/-- How the two halves of a line hang together. The summary shows the path of the error and the message;
the item shows the path in front of something else, and once more in front of a blank, or else it names a
member that is missing there. -/
structure IsLine (path : String) (l : String × RejectionItem) : Prop where
  summary : l.1 = "request" ++ path ++ " " ++ l.2.message
  item : (∃ rest words, rest.toList.head? ≠ some ' ' ∧ words.toList.head? = some ' ' ∧
      l.2.path = path ++ rest ∧ l.2.fullMessage = some ("request" ++ path ++ words)) ∨
    ∃ name, l.2.path = path ++ "." ++ name ∧
      l.2.message = "must have required property '" ++ name ++ "'" ∧
      l.2.fullMessage = some ("missing required property request" ++ l.2.path)

theorem isLine_plainLine (e : SchemaError) : IsLine (dottedPath e.instancePath) e.plainLine :=
  ⟨rfl, Or.inl ⟨"", " " ++ e.sentence, by decide, by simp, by simp [plainLine, line],
    by simp [plainLine, line, String.append_assoc]⟩⟩

theorem isLine_of_mem_lines (h : l ∈ e.lines) : IsLine (dottedPath e.instancePath) l := by
  rw [lines] at h
  dsimp only at h
  split at h
  · obtain rfl := List.mem_singleton.mp h
    exact ⟨rfl, Or.inr ⟨_, rfl, rfl, rfl⟩⟩
  · obtain ⟨name, -, rfl⟩ := List.mem_map.mp h
    exact ⟨rfl, Or.inl ⟨"." ++ name, " must NOT have additional property: '" ++ name ++ "'", by simp,
      by simp, by simp [line, String.append_assoc], by simp [line, String.append_assoc]⟩⟩
  · obtain rfl := List.mem_singleton.mp h
    exact isLine_plainLine e

/-- **An item tells its part of the summary.** -/
theorem summary_eq_of_item_eq (h : l ∈ e.lines) (h' : l' ∈ e'.lines) (heq : l.2 = l'.2) : l.1 = l'.1 := by
  obtain ⟨hsummary, hitem⟩ := isLine_of_mem_lines h
  obtain ⟨hsummary', hitem'⟩ := isLine_of_mem_lines h'
  -- the full text starts with `missing` if a property is, and with `request` otherwise
  have hdiffer : ∀ a b : String, "request" ++ a ≠ "missing" ++ b := fun a b hab => by
    have hhead := congrArg (fun s => s.toList.head?) hab
    simp at hhead
  suffices dottedPath e.instancePath = dottedPath e'.instancePath by
    rw [hsummary, hsummary', this, heq]
  rw [← heq] at hitem'
  rcases hitem with ⟨rest, words, hrest, hwords, hpath, hfull⟩ | ⟨name, hpath, hmessage, hfull⟩ <;>
    rcases hitem' with ⟨rest', words', hrest', hwords', hpath', hfull'⟩ |
      ⟨name', hpath', hmessage', hfull'⟩
  · have hplace := congrArg String.toList (hpath.symm.trans hpath')
    have hboth := congrArg String.toList (Option.some.inj (hfull.symm.trans hfull'))
    simp only [String.toList_append, List.append_assoc, List.append_cancel_left_eq] at hplace hboth
    exact String.toList_inj.mp (eq_of_followed hrest hrest' hwords hwords' hplace hboth)
  · exact absurd (Option.some.inj (hfull.symm.trans hfull')) (by
      rw [String.append_assoc]
      exact hdiffer _ (" required property request" ++ l.2.path))
  · exact absurd (Option.some.inj (hfull'.symm.trans hfull)) (by
      rw [String.append_assoc]
      exact hdiffer _ (" required property request" ++ l.2.path))
  · have hname : name = name' := by
      have hboth := congrArg String.toList (hmessage.symm.trans hmessage')
      simp only [String.toList_append, List.append_assoc, List.append_cancel_left_eq,
        List.append_cancel_right_eq] at hboth
      exact String.toList_inj.mp hboth
    have hplace := congrArg String.toList (hpath.symm.trans hpath')
    rw [hname] at hplace
    simp only [String.toList_append, List.append_cancel_right_eq] at hplace
    exact String.toList_inj.mp hplace

/-! ### Items -/

/-- The items of an error. -/
def items (e : SchemaError) : List RejectionItem := e.lines.map Prod.snd

/-- What the summary says of an item of an error. -/
def part (e : SchemaError) (item : RejectionItem) : String :=
  "request" ++ dottedPath e.instancePath ++ " " ++ item.message

/-- **Every item has its part of the summary**, in order. -/
theorem map_fst_lines (e : SchemaError) : e.lines.map Prod.fst = e.items.map e.part := by
  rw [items, List.map_map]
  exact List.map_congr_left fun l hl => (isLine_of_mem_lines hl).summary

theorem items_ne_nil (e : SchemaError) : e.items ≠ [] := by
  rw [items, lines]
  dsimp only
  split <;> simp

/-- **Undeclared members have an item each**, with the path of the member. An error that names none of them
has one item, with its own path. -/
theorem map_path_items_of_additional (hkeyword : e.keyword = "additionalProperties") :
    e.items.map RejectionItem.path =
      if e.unexpectedProperties = [] then [dottedPath e.instancePath]
      else e.unexpectedProperties.map fun name => dottedPath e.instancePath ++ "." ++ name := by
  rw [items, lines, hkeyword]
  cases e.unexpectedProperties with
  | nil => rfl
  | cons name names => simp [line, Function.comp_def]

end SchemaError

namespace Rejection

/-- **The items of a rejection** are those of the errors, one error after the other. -/
theorem items_ofErrors (route : String) (errors : List SchemaError) :
    (ofErrors route errors).items = errors.flatMap SchemaError.items := by
  change (errors.flatMap SchemaError.lines).map Prod.snd = _
  rw [List.map_flatMap]
  rfl

/-- **The summary of a rejection** joins the parts of the items. -/
theorem summary_ofErrors (route : String) (errors : List SchemaError) :
    (ofErrors route errors).summary =
      String.intercalate ", " (errors.flatMap fun e => e.items.map e.part) := by
  change String.intercalate ", " ((errors.flatMap SchemaError.lines).map Prod.fst) = _
  rw [List.map_flatMap]
  simp only [SchemaError.map_fst_lines]

end Rejection

end RequestGate
