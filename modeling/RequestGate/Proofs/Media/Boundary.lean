import RequestGate.Media.Negotiation
import RequestGate.Operation.Key
import RequestGate.Proofs.Media.ContentType

/-!
# Neither a boundary nor letter case selects

A sender of a form puts a boundary behind the media type, a new one each time, and letter case is up to
senders and to authors of documents. Neither may have a say in which body schema a request is held to.

A boundary and everything after it is cut off, at the semicolon before it and at no earlier one, so that
what is left of the header is what would be left without it
(`RequestGate.ContentType.cleaned_of_boundary`). Then the two content types are `Alike`: they differ at
most in the header as it was sent. What is selected is the first that passes an attempt, and a media type
that passes an attempt passes it in any case (`RequestGate.ContentType.passes_in_any_case`); so the
attempts come to the same place in a list whose letters are of another case.
-/

namespace RequestGate.ContentType

open Text

variable {a b : ContentType} {cs w t : List Char}

/-! ### Cutting at the right semicolon -/

/-- Blanks before a boundary do not hide it. -/
theorem boundaryAhead_of_blanks (hw : ∀ c ∈ w, isBlank c = true) (ht : "boundary".toList <+: t) :
    BoundaryAhead (w ++ t) := by
  have hblank : w.dropWhile isBlank = [] := List.dropWhile_eq_nil_iff.mpr hw
  have hfront : t.dropWhile isBlank = t := by
    obtain ⟨rest, rfl⟩ := ht
    rfl
  rw [BoundaryAhead, trimStart, List.dropWhile_append, hblank, hfront]
  exact ht

/-- Trimming at the end does not reach into a boundary. -/
theorem exists_trimEnd_of_boundary (w : List Char) (ht : "boundary".toList <+: t) :
    ∃ t', "boundary".toList <+: t' ∧ trimEnd (w ++ t) = w ++ t' := by
  obtain ⟨rest, rfl⟩ := ht
  refine ⟨"boundary".toList ++ trimEnd rest, List.prefix_append _ _, ?_⟩
  have hlast : ∀ rest, w ++ ("boundary".toList ++ rest) = (w ++ "boundar".toList) ++ 'y' :: rest := by
    simp
  rw [hlast, hlast, trimEnd_append_cons (by decide)]

/-- A front part without a character ends before the character. -/
theorem front_of_front_append_cons {front before after : List Char} {c : Char}
    (h : front <+: before ++ c :: after) (hc : c ∉ front) : front <+: before := by
  have hbefore := List.prefix_append before (c :: after)
  rcases List.prefix_or_prefix_of_prefix h hbefore with hfront | ⟨rest, rfl⟩
  · exact hfront
  · cases rest with
    | nil => simp
    | cons d rest =>
      have hd := (List.cons_prefix_cons.mp ((List.prefix_append_right_inj before).mp h)).1
      exact absurd (by simp [hd]) hc

theorem NoBoundary.of_back {back : List Char} (h : NoBoundary cs) (hback : back <:+ cs) :
    NoBoundary back := by
  obtain ⟨front, rfl⟩ := hback
  intro before after hcut
  exact h (front ++ before) after (by rw [hcut, List.append_assoc])

theorem NoBoundary.trimStart (h : NoBoundary cs) : NoBoundary (trimStart cs) :=
  h.of_back (List.dropWhile_suffix isBlank)

/-- **A boundary is cut off at the semicolon before it**, and at no earlier one. -/
theorem stripBoundary_of_boundary (h : NoBoundary cs) (ht : BoundaryAhead t) :
    stripBoundary (cs ++ ';' :: t) = cs := by
  induction cs with
  | nil => rw [List.nil_append, stripBoundary_cons, if_pos ⟨rfl, startsWith_iff.mpr ht⟩]
  | cons c cs ih =>
    rw [List.cons_append, stripBoundary_cons, if_neg, ih (h.of_back (List.suffix_cons c cs))]
    -- a boundary ahead of an earlier semicolon would end before the last one, which it does not contain
    rintro ⟨rfl, hahead⟩
    rw [startsWith_iff, trimStart_append_cons (by decide)] at hahead
    exact h [] cs rfl (front_of_front_append_cons hahead (by decide))

/-- What is left of a header without a boundary is the header, in small letters and trimmed. -/
theorem cleaned_of_noBoundary {header : String} (h : NoBoundary (header.toList.map Char.toLower)) :
    cleaned header = trim (header.toList.map Char.toLower) := by
  have htrim : NoBoundary (trim (header.toList.map Char.toLower)) :=
    h.trimStart.of_front (trimEnd_front _)
  rw [cleaned, ← trim_map_toLower, noBoundary_iff.mp htrim, trimEnd_of_back (trimmed_trim _).back]

/-- **What is left of a header does not depend on a boundary**, or on the case of letters. -/
theorem cleaned_of_boundary {h h' w t : String} (hno : NoBoundary (h.toList.map Char.toLower))
    (hcase : asciiLower h' = asciiLower h) (hw : ∀ c ∈ w.toList, isBlank c = true)
    (ht : "boundary".toList <+: t.toList.map Char.toLower) :
    cleaned (h' ++ ";" ++ w ++ t) = cleaned h := by
  have hlower : h'.toList.map Char.toLower = h.toList.map Char.toLower := String.ofList_inj.mp hcase
  have hws : ∀ c ∈ w.toList.map Char.toLower, isBlank c = true := by
    intro c hc
    obtain ⟨d, hd, rfl⟩ := List.mem_map.mp hc
    rw [isBlank_toLower, hw d hd]
  have htext : (h' ++ ";" ++ w ++ t).toList.map Char.toLower =
      h.toList.map Char.toLower ++ ';' :: (w.toList.map Char.toLower ++ t.toList.map Char.toLower) := by
    simp [hlower]
  obtain ⟨t', ht', htrim⟩ := exists_trimEnd_of_boundary (w.toList.map Char.toLower) ht
  rw [cleaned_of_noBoundary hno, cleaned, ← trim_map_toLower, htext, trim_append_cons (by decide), htrim,
    stripBoundary_of_boundary hno.trimStart (boundaryAhead_of_blanks hws ht'), trim]

/-! ### Content types that differ in the header as it was sent -/

/-- Content types that agree in all that counts of a header. -/
structure Alike (a b : ContentType) : Prop where
  mediaType : a.header?.map MediaHeader.mediaType = b.header?.map MediaHeader.mediaType
  charset : a.header?.bind MediaHeader.charset = b.header?.bind MediaHeader.charset
  withoutBoundary : a.header?.map MediaHeader.withoutBoundary = b.header?.map MediaHeader.withoutBoundary
  equivalents : a.equivalents = b.equivalents
  keyClass : a.keyClass = b.keyClass

/-- Headers of which the same is left are alike. -/
theorem alike_of_cleaned {header other : String} (hheader : trim header.toList ≠ [])
    (hother : trim other.toList ≠ []) (h : cleaned header = cleaned other) :
    Alike (parse (some header)) (parse (some other)) := by
  obtain ⟨c, hc, hwithout, hmedia, hcharset⟩ := parse_eq_provided hheader
  obtain ⟨d, hd, hwithout', hmedia', hcharset'⟩ := parse_eq_provided hother
  have hequivalents : (parse (some header)).equivalents = (parse (some other)).equivalents := by
    rw [equivalents_parse hheader, equivalents_parse hother, h]
  have hkeyClass : (parse (some header)).keyClass = (parse (some other)).keyClass := by
    rw [keyClass, keyClass, hequivalents]
  refine ⟨?_, ?_, ?_, hequivalents, hkeyClass⟩ <;> rw [hc, hd, header?, header?]
  · rw [Option.map_some, Option.map_some, hmedia, hmedia', h]
  · rw [Option.bind_some, Option.bind_some, hcharset, hcharset', h]
  · rw [Option.map_some, Option.map_some, hwithout, hwithout', h]

theorem Alike.key_eq (h : Alike a b) (method route : String) :
    OperationKey.of method route a = OperationKey.of method route b := by
  rw [OperationKey.of, OperationKey.of, h.keyClass]

/-! ### One attempt after the other -/

/-- What is tried on the declared media types, one attempt after the other. -/
def attempts (contentType : ContentType) : List (String → Bool) :=
  (contentType.equivalents.map fun name d => eqIgnoreAsciiCase d name) ++ [(· == "*/*")] ++
    (contentType.header?.toList.map fun header d => coversByKind d header.mediaType) ++ [fun _ => true]

/-- **What is selected is the first media type that passes an attempt.** -/
theorem negotiate_eq_attempts (declared : List String) (contentType : ContentType) :
    negotiate declared contentType = contentType.attempts.findSome? fun p => declared.find? p := by
  have hhead : (declared.find? fun _ => true) = declared.head? := by cases declared <;> rfl
  have hkind : ((contentType.header?.toList.map fun header d => coversByKind d header.mediaType).findSome?
      fun p => declared.find? p) = contentType.header?.bind fun header =>
        declared.find? fun d => coversByKind d header.mediaType := by
    cases contentType.header? with
    | none => rfl
    | some header => simp
  rw [attempts, List.findSome?_append, List.findSome?_append, List.findSome?_append, List.findSome?_map,
    List.findSome?_singleton, List.findSome?_singleton, hkind, hhead]
  rfl

/-- The place of the media type that is selected. -/
def selectedAt? (declared : List String) (contentType : ContentType) : Option Nat :=
  contentType.attempts.findSome? fun p => declared.findIdx? p

/-- What is selected stands in its place. -/
theorem negotiate_eq_selectedAt? (declared : List String) (contentType : ContentType) :
    negotiate declared contentType =
      (selectedAt? declared contentType).bind fun i => declared[i]? := by
  rw [negotiate_eq_attempts, selectedAt?]
  induction contentType.attempts with
  | nil => rfl
  | cons p attempts ih =>
    rw [List.findSome?_cons, List.findSome?_cons, ih]
    cases hfound : declared.findIdx? p with
    | none =>
      rw [List.find?_eq_bind_findIdx?_getElem?, hfound]
      rfl
    | some i =>
      obtain ⟨hi, -⟩ := List.findIdx?_eq_some_iff_findIdx_eq.mp hfound
      rw [List.find?_eq_bind_findIdx?_getElem?, hfound, Option.bind_some, List.getElem?_eq_getElem hi]

/-- A character that is no letter comes from itself only. -/
theorem toLower_eq_self {c : Char} (h : c.toLower.isLower = false) : c.toLower = c := by
  rcases Nat.lt_or_ge c.toNat 128 with hc | hc
  · exact forall_ascii (P := fun c => c.toLower.isLower = false → c.toLower = c)
      (by decide) hc h
  · exact toLower_of_not_ascii hc

/-- The wildcard of everything has no letters. -/
theorem asciiLower_eq_any_iff {d : String} : asciiLower d = "*/*" ↔ d = "*/*" := by
  refine ⟨fun h => ?_, fun h => by rw [h]; decide⟩
  have hlist : d.toList.map Char.toLower = "*/*".toList := by
    rw [← h, asciiLower, String.toList_ofList]
  have hlower : Lower d.toList := by
    intro c hc
    have hmem : c.toLower ∈ "*/*".toList := hlist ▸ List.mem_map_of_mem hc
    have hall : "*/*".toList.all (fun c => !c.isLower) = true := by decide
    exact toLower_eq_self ((Bool.not_eq_true' _).mp (List.all_eq_true.mp hall _ hmem))
  rw [hlower.map_toLower] at hlist
  exact String.toList_inj.mp hlist

/-- A media type passes an attempt in any case. -/
theorem passes_in_any_case {contentType : ContentType} {p : String → Bool}
    (hp : p ∈ contentType.attempts) (d : String) : p (asciiLower d) = p d := by
  simp only [attempts, List.mem_append, List.mem_singleton, List.mem_map] at hp
  obtain ((⟨name, -, rfl⟩ | rfl) | ⟨header, -, rfl⟩) | rfl := hp
  · simp only [eqIgnoreAsciiCase, asciiLower_asciiLower]
  · exact Bool.eq_iff_iff.mpr (by rw [beq_iff_eq, beq_iff_eq, asciiLower_eq_any_iff])
  · simp only [coversByKind, asciiLower_asciiLower]
  · rfl

/-- **The place of what is selected is the same in any case.** -/
theorem selectedAt?_of_map_asciiLower {declared declared' : List String}
    (h : declared'.map asciiLower = declared.map asciiLower) (contentType : ContentType) :
    selectedAt? declared' contentType = selectedAt? declared contentType := by
  -- an attempt does not tell a list from the same list in small letters
  have hplace : ∀ p ∈ contentType.attempts, declared'.findIdx? p = declared.findIdx? p := by
    intro p hp
    have hlower : p ∘ asciiLower = p := funext fun d => passes_in_any_case hp d
    rw [← hlower, ← List.findIdx?_map, h, List.findIdx?_map]
  rw [selectedAt?, selectedAt?]
  generalize contentType.attempts = attempts at hplace ⊢
  induction attempts with
  | nil => rfl
  | cons p attempts ih =>
    rw [List.findSome?_cons, List.findSome?_cons, hplace p List.mem_cons_self,
      ih fun q hq => hplace q (List.mem_cons_of_mem p hq)]

/-- Alike content types attempt the same. -/
theorem Alike.attempts_eq (h : Alike a b) : a.attempts = b.attempts := by
  have hkinds : ∀ c : ContentType,
      (c.header?.toList.map fun header d => coversByKind d header.mediaType) =
        (c.header?.map MediaHeader.mediaType).toList.map fun mediaType d => coversByKind d mediaType := by
    intro c
    cases c.header? <;> rfl
  rw [attempts, attempts, h.equivalents, hkinds a, hkinds b, h.mediaType]

theorem Alike.negotiate_eq (h : Alike a b) (declared : List String) :
    negotiate declared a = negotiate declared b := by
  rw [negotiate_eq_attempts, negotiate_eq_attempts, h.attempts_eq]

theorem Alike.selectedAt?_eq (h : Alike a b) (declared : List String) :
    selectedAt? declared a = selectedAt? declared b := by
  rw [selectedAt?, selectedAt?, h.attempts_eq]

/-- **Neither a boundary nor letter case has a say in what is selected.** A header in other letters with
a boundary behind it is like the header, is served under the same keys, and selects the same of any
declared media types; and if these are spelled in other letters as well, it selects what stands in the
same place. -/
theorem alike_of_boundary {h h' w t : String} (hblank : trim h.toList ≠ [])
    (hno : NoBoundary (h.toList.map Char.toLower)) (hcase : asciiLower h' = asciiLower h)
    (hw : ∀ c ∈ w.toList, isBlank c = true) (ht : "boundary".toList <+: t.toList.map Char.toLower) :
    Alike (parse (some (h' ++ ";" ++ w ++ t))) (parse (some h)) ∧
      (∀ method route, OperationKey.of method route (parse (some (h' ++ ";" ++ w ++ t))) =
        OperationKey.of method route (parse (some h))) ∧
      (∀ declared, negotiate declared (parse (some (h' ++ ";" ++ w ++ t))) =
        negotiate declared (parse (some h))) ∧
      ∀ declared declared' : List String, declared'.map asciiLower = declared.map asciiLower →
        negotiate declared (parse (some h)) =
            ((selectedAt? declared (parse (some h))).bind fun i => declared[i]?) ∧
          negotiate declared' (parse (some (h' ++ ";" ++ w ++ t))) =
            (selectedAt? declared (parse (some h))).bind fun i => declared'[i]? := by
  have hblank' : trim (h' ++ ";" ++ w ++ t).toList ≠ [] := by
    have htext : (h' ++ ";" ++ w ++ t).toList = h'.toList ++ ';' :: (w.toList ++ t.toList) := by simp
    rw [htext, trim_append_cons (by decide)]
    simp
  have halike := alike_of_cleaned hblank' hblank (cleaned_of_boundary hno hcase hw ht)
  refine ⟨halike, halike.key_eq, halike.negotiate_eq, fun declared declared' hdeclared =>
    ⟨negotiate_eq_selectedAt? _ _, ?_⟩⟩
  rw [negotiate_eq_selectedAt?, halike.selectedAt?_eq, selectedAt?_of_map_asciiLower hdeclared]

/-- A form with a boundary, against media types in capitals. -/
theorem alike_of_boundary_form :
    Alike (parse (some ("multipart/FORM-data" ++ ";" ++ " " ++ "Boundary=x; y")))
        (parse (some "Multipart/Form-Data")) ∧
      negotiate ["TEXT/PLAIN", "MULTIPART/*"]
          (parse (some ("multipart/FORM-data" ++ ";" ++ " " ++ "Boundary=x; y"))) =
        some "MULTIPART/*" :=
  have hno : NoBoundary ("Multipart/Form-Data".toList.map Char.toLower) := noBoundary_iff.mpr (by decide)
  have hcase : asciiLower "multipart/FORM-data" = asciiLower "Multipart/Form-Data" := by decide
  have hblanks : ∀ c ∈ " ".toList, isBlank c = true := List.all_eq_true.mp (by decide)
  have hform := alike_of_boundary (t := "Boundary=x; y") (by decide) hno hcase hblanks (by decide)
  ⟨hform.1, (hform.2.2.2 ["text/plain", "multipart/*"] _ (by decide)).2.trans (by decide)⟩

end RequestGate.ContentType
