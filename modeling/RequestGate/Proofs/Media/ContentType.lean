import RequestGate.Media.ContentType
import RequestGate.Proofs.Text.Blank
import RequestGate.Proofs.Text.Cutting

/-!
# The normal form of a header

What counts of a `Content-Type` header is its text in small letters, without blanks at the ends and
without a boundary: `RequestGate.ContentType.Clean` text. From it the media type and the first
parameter are cut (`RequestGate.ContentType.mediaOf`, `RequestGate.ContentType.parameterOf`), and
everything else is built from these two.

Clean text is a header again, and reading it changes nothing (`RequestGate.ContentType.parse_clean`).
That makes it easy to say what class a declared media type has when it is named by a header: that of
the name.
-/

namespace RequestGate.ContentType

open Text

/-! ### Cutting before a boundary -/

/-- Whether a parameter `boundary` follows. -/
def BoundaryAhead (cs : List Char) : Prop := "boundary".toList <+: trimStart cs

/-- A boundary that is ahead in a front part is ahead in the whole. -/
theorem BoundaryAhead.append {a : List Char} (h : BoundaryAhead a) (b : List Char) :
    BoundaryAhead (a ++ b) := by
  have hne : trimStart a ≠ [] := by
    intro hnil
    rw [BoundaryAhead, hnil] at h
    exact absurd (List.prefix_nil.mp h) (by decide)
  have hnot : ((a.dropWhile isBlank).isEmpty) = false := by
    simpa [trimStart] using hne
  rw [BoundaryAhead, trimStart, List.dropWhile_append, hnot]
  exact h.trans (List.prefix_append _ _)

theorem stripBoundary_cons (c : Char) (cs : List Char) :
    stripBoundary (c :: cs) =
      if c = ';' ∧ startsWith "boundary".toList (trimStart cs) = true then []
      else c :: stripBoundary cs := rfl

theorem stripBoundary_front (cs : List Char) : stripBoundary cs <+: cs := by
  induction cs with
  | nil => exact List.prefix_refl []
  | cons c cs ih =>
    rw [stripBoundary_cons]
    split
    · exact List.nil_prefix
    · exact List.cons_prefix_cons.mpr ⟨rfl, ih⟩

/-- No semicolon has a boundary ahead. -/
def NoBoundary (cs : List Char) : Prop :=
  ∀ a b, cs = a ++ ';' :: b → ¬BoundaryAhead b

/-- **What is cut before a boundary has none**, -/
theorem noBoundary_stripBoundary (cs : List Char) : NoBoundary (stripBoundary cs) := by
  induction cs with
  | nil =>
    intro a b h
    cases a <;> cases h
  | cons c cs ih =>
    rw [stripBoundary_cons]
    split
    · intro a b h
      cases a <;> cases h
    · rename_i hnot
      intro a b h hahead
      cases a with
      | nil =>
        obtain ⟨rfl, hb⟩ := List.cons.inj h
        refine hnot ⟨rfl, startsWith_iff.mpr ?_⟩
        -- `b` is a front part of what followed the semicolon
        obtain ⟨rest, hrest⟩ := stripBoundary_front cs
        rw [← hrest, hb]
        exact hahead.append rest
      | cons d a =>
        obtain ⟨rfl, hab⟩ := List.cons.inj h
        exact ih a b hab hahead

/-- and what has none is not cut. -/
theorem noBoundary_iff {cs : List Char} : NoBoundary cs ↔ stripBoundary cs = cs := by
  refine ⟨fun h => ?_, fun h => h ▸ noBoundary_stripBoundary cs⟩
  induction cs with
  | nil => rfl
  | cons c cs ih =>
    rw [stripBoundary_cons, if_neg]
    · exact congrArg (c :: ·) (ih fun a b hab => h (c :: a) b (by rw [hab, List.cons_append]))
    · rintro ⟨rfl, hahead⟩
      exact h [] cs rfl (startsWith_iff.mp hahead)

theorem NoBoundary.of_front {a b : List Char} (h : NoBoundary b) (hab : a <+: b) :
    NoBoundary a := by
  obtain ⟨rest, rfl⟩ := hab
  intro x y hxy hahead
  refine h x (y ++ rest) ?_ (hahead.append rest)
  rw [hxy, List.append_assoc, List.cons_append]

theorem noBoundary_of_not_mem {cs : List Char} (h : ';' ∉ cs) : NoBoundary cs := by
  rintro a b rfl
  exact absurd (by simp) h

/-! ### Clean text -/

/-- Text as it is left of a header: trimmed, in small letters and without a boundary. -/
structure Clean (cs : List Char) : Prop where
  trimmed : Trimmed cs
  lower : Lower cs
  noBoundary : NoBoundary cs

/-- The media type in clean text: what stands before the first semicolon. -/
def mediaOf (cs : List Char) : List Char :=
  trim ((splitOn ';' cs).headD [])

/-- The first parameter in clean text, unless it is blank. -/
def parameterOf (cs : List Char) : Option (List Char) :=
  match splitOn ';' cs with
  | _ :: parameter :: _ => if (trim parameter).isEmpty then none else some (trim parameter)
  | _ => none

/-- What is left of a header. -/
def cleaned (header : String) : List Char :=
  trimEnd (stripBoundary ((trim header.toList).map Char.toLower))

/-- **A header is read by way of its clean text.** -/
theorem parse_eq_provided {header : String} (h : trim header.toList ≠ []) :
    ∃ c : MediaHeader, parse (some header) = .provided c ∧
      c.withoutBoundary = String.ofList (cleaned header) ∧
      c.mediaType = String.ofList (mediaOf (cleaned header)) ∧
      c.charset = (parameterOf (cleaned header)).map String.ofList := by
  refine ⟨ofTrimmed (trim header.toList), ?_, rfl, rfl, ?_⟩
  · rw [parse]
    exact if_neg (by simpa using h)
  · simp only [ofTrimmed, parameterOf, cleaned]
    cases splitOn ';' (trimEnd (stripBoundary ((trim header.toList).map Char.toLower))) with
    | nil => rfl
    | cons first pieces =>
      cases pieces with
      | nil => rfl
      | cons parameter rest =>
        by_cases hblank : (trim parameter).isEmpty = true
        · simp [hblank]
        · simp [hblank]

theorem parse_eq_notProvided {header : String} (h : trim header.toList = []) :
    parse (some header) = .notProvided := by
  rw [parse]
  exact if_pos (by simpa using h)

theorem clean_cleaned (header : String) : Clean (cleaned header) := by
  have hprefix : cleaned header <+: (trim header.toList).map Char.toLower :=
    (trimEnd_front _).trans (stripBoundary_front _)
  refine ⟨⟨fun c hc => ?_, fun c hc => isBlank_of_getLast?_trimEnd hc⟩, ?_, ?_⟩
  · have hhead := head?_of_front hprefix hc
    rw [← trim_map_toLower] at hhead
    exact (trimmed_trim _).front c hhead
  · exact (lower_map_toLower _).sublist hprefix.sublist
  · exact (noBoundary_stripBoundary _).of_front (trimEnd_front _)

theorem cleaned_of_clean {cs : List Char} (h : Clean cs) : cleaned (String.ofList cs) = cs := by
  rw [cleaned, String.toList_ofList, h.trimmed.trim_eq, h.lower.map_toLower,
    noBoundary_iff.mp h.noBoundary, trimEnd_of_back h.trimmed.back]

/-- Letter case is gone from clean text. -/
theorem cleaned_asciiLower (header : String) : cleaned (asciiLower header) = cleaned header := by
  rw [cleaned, cleaned, asciiLower, String.toList_ofList, trim_map_toLower,
    (lower_map_toLower _).map_toLower]

/-! ### The class of a header -/

/-- The names that clean text is looked for under. -/
def namesOf (cs : List Char) : List String :=
  match parameterOf cs with
  | some parameter =>
    [String.ofList (mediaOf cs), String.ofList (mediaOf cs) ++ "; " ++ String.ofList parameter]
  | none => [String.ofList cs, String.ofList (mediaOf cs) ++ "; charset=utf-8"]

theorem equivalents_parse {header : String} (h : trim header.toList ≠ []) :
    (parse (some header)).equivalents = namesOf (cleaned header) := by
  obtain ⟨c, hc, hwithout, hmedia, hcharset⟩ := parse_eq_provided h
  rw [hc, equivalents, namesOf, hwithout, hmedia, hcharset]
  cases parameterOf (cleaned header) <;> rfl

/-- **Reading clean text changes nothing.** -/
theorem parse_clean {cs : List Char} (h : Clean cs) (hne : cs ≠ []) :
    (parse (some (String.ofList cs))).equivalents = namesOf cs := by
  rw [equivalents_parse, cleaned_of_clean h]
  rwa [String.toList_ofList, h.trimmed.trim_eq]

/-- A class does not depend on letter case. -/
theorem keyClass_parse_asciiLower (header : String) :
    (parse (some (asciiLower header))).keyClass = (parse (some header)).keyClass := by
  by_cases h : trim header.toList = []
  · have hlower : trim (asciiLower header).toList = [] := by
      rw [asciiLower, String.toList_ofList, trim_map_toLower, h, List.map_nil]
    rw [parse_eq_notProvided h, parse_eq_notProvided hlower]
  · have hlower : trim (asciiLower header).toList ≠ [] := by
      rw [asciiLower, String.toList_ofList, trim_map_toLower]
      simpa using h
    rw [keyClass, keyClass, equivalents_parse h, equivalents_parse hlower, cleaned_asciiLower]

/-! ### The parts of clean text -/

variable {cs first rest : List Char}

/-- Clean text is one piece, or a piece that a semicolon and more follow. -/
theorem exists_pieces (cs : List Char) :
    ';' ∉ cs ∨ ∃ first rest, ';' ∉ first ∧ cs = first ++ ';' :: rest := by
  by_cases h : ';' ∈ cs
  · obtain ⟨first, rest, hcs, hfirst⟩ := List.eq_append_cons_of_mem h
    exact Or.inr ⟨first, rest, hfirst, hcs⟩
  · exact Or.inl h

theorem splitOn_piece (h : ';' ∉ first) (rest : List Char) :
    splitOn ';' (first ++ ';' :: rest) = first :: splitOn ';' rest := by
  rw [splitOn_append_sep, splitOn_of_not_mem h, List.singleton_append]

theorem mediaOf_of_not_mem (h : ';' ∉ cs) : mediaOf cs = trim cs := by
  rw [mediaOf, splitOn_of_not_mem h]
  rfl

theorem parameterOf_of_not_mem (h : ';' ∉ cs) : parameterOf cs = none := by
  rw [parameterOf, splitOn_of_not_mem h]

theorem mediaOf_piece (h : ';' ∉ first) (rest : List Char) :
    mediaOf (first ++ ';' :: rest) = trim first := by
  rw [mediaOf, splitOn_piece h]
  rfl

/-- The first parameter is cut from the rest as the media type from the whole. -/
theorem parameterOf_piece (h : ';' ∉ first) (rest : List Char) :
    parameterOf (first ++ ';' :: rest) =
      if mediaOf rest = [] then none else some (mediaOf rest) := by
  obtain ⟨piece, pieces, hrest⟩ := List.exists_cons_of_ne_nil (splitOn_ne_nil ';' rest)
  rw [parameterOf, splitOn_piece h, mediaOf, hrest]
  simp

theorem mediaOf_sublist (cs : List Char) : (mediaOf cs).Sublist cs := by
  rcases exists_pieces cs with h | ⟨first, rest, h, rfl⟩
  · rw [mediaOf_of_not_mem h]
    exact trim_sublist cs
  · rw [mediaOf_piece h]
    exact (trim_sublist first).trans (List.sublist_append_left _ _)

theorem not_mem_mediaOf (cs : List Char) : ';' ∉ mediaOf cs := by
  rcases exists_pieces cs with h | ⟨first, rest, h, rfl⟩
  · exact fun hmem => h ((mediaOf_sublist cs).subset hmem)
  · rw [mediaOf_piece h]
    exact fun hmem => h ((trim_sublist first).subset hmem)

theorem trimmed_mediaOf (cs : List Char) : Trimmed (mediaOf cs) := trimmed_trim _

/-- What a media type starts with follows the blanks at the front of the text. -/
theorem mediaOf_front (cs : List Char) : mediaOf cs <+: trimStart cs := by
  rcases exists_pieces cs with h | ⟨first, rest, h, rfl⟩
  · rw [mediaOf_of_not_mem h]
    exact trimEnd_front _
  · rw [mediaOf_piece h, trim, trimStart, trimStart, List.dropWhile_append]
    split
    · rename_i hempty
      rw [List.isEmpty_iff.mp hempty]
      exact List.nil_prefix
    · exact (trimEnd_front _).trans (List.prefix_append _ _)

theorem clean_mediaOf (h : Lower cs) : Clean (mediaOf cs) where
  trimmed := trimmed_mediaOf cs
  lower := h.sublist (mediaOf_sublist cs)
  noBoundary := noBoundary_of_not_mem (not_mem_mediaOf cs)

/-- **Classes are in small letters**, as far as ASCII goes. -/
theorem asciiLower_keyClass (header : Option String) :
    asciiLower (parse header).keyClass = (parse header).keyClass := by
  cases header with
  | none => decide
  | some header =>
    by_cases h : trim header.toList = []
    · rw [parse_eq_notProvided h]
      decide
    · have hlower := (clean_cleaned header).lower
      rw [keyClass, equivalents_parse h, namesOf]
      cases parameterOf (cleaned header) with
      | none => exact asciiLower_ofList hlower
      | some parameter => exact asciiLower_ofList (clean_mediaOf hlower).lower

/-- What can stand as a first parameter. -/
structure IsParameter (parameter : List Char) : Prop where
  ne_nil : parameter ≠ []
  trimmed : Trimmed parameter
  lower : Lower parameter
  not_mem : ';' ∉ parameter
  noBoundary : ¬"boundary".toList <+: parameter

theorem isParameter_of_parameterOf {parameter : List Char} (h : Clean cs)
    (hp : parameterOf cs = some parameter) : IsParameter parameter := by
  rcases exists_pieces cs with hcs | ⟨first, rest, hfirst, rfl⟩
  · rw [parameterOf_of_not_mem hcs] at hp
    cases hp
  · rw [parameterOf_piece hfirst] at hp
    split at hp
    · cases hp
    · rename_i hne
      obtain rfl := Option.some.inj hp
      have hsub : (mediaOf rest).Sublist (first ++ ';' :: rest) :=
        (mediaOf_sublist rest).trans
          ((List.sublist_cons_self _ _).trans (List.sublist_append_right _ _))
      exact ⟨hne, trimmed_mediaOf rest, h.lower.sublist hsub, not_mem_mediaOf rest,
        fun hb => h.noBoundary first rest rfl (hb.trans (mediaOf_front rest))⟩

/-! ### Building clean text -/

theorem stripBoundary_append (h : ';' ∉ first) (rest : List Char) :
    stripBoundary (first ++ rest) = first ++ stripBoundary rest := by
  induction first with
  | nil => rfl
  | cons c first ih =>
    have hc : c ≠ ';' := fun hc => h (by simp [hc])
    have hfirst : ';' ∉ first := fun hmem => h (List.mem_cons_of_mem c hmem)
    rw [List.cons_append, stripBoundary_cons, if_neg (fun hand => hc hand.1), ih hfirst,
      List.cons_append]

/-- A media type with a parameter, as it is written. -/
def withParameter (media parameter : List Char) : List Char :=
  media ++ ';' :: ' ' :: parameter

theorem ofList_withParameter (media parameter : List Char) :
    String.ofList (withParameter media parameter) =
      String.ofList media ++ "; " ++ String.ofList parameter := by
  apply String.toList_inj.mp
  simp [withParameter]

theorem front_append {a b : List Char} (ha : ∀ c ∈ a.head?, isBlank c = false)
    (hb : ∀ c ∈ b.head?, isBlank c = false) : ∀ c ∈ (a ++ b).head?, isBlank c = false := by
  cases a with
  | nil => exact hb
  | cons d a => exact ha

variable {media parameter : List Char}

theorem clean_withParameter (hmedia : Clean media) (hmem : ';' ∉ media)
    (hp : IsParameter parameter) : Clean (withParameter media parameter) := by
  have hlast : (withParameter media parameter).getLast? = parameter.getLast? := by
    rw [withParameter, List.getLast?_append, List.getLast?_cons, List.getLast?_cons]
    cases hp' : parameter.getLast? with
    | none => exact absurd (List.getLast?_eq_none_iff.mp hp') hp.ne_nil
    | some c => rfl
  refine ⟨⟨?_, ?_⟩, ?_, noBoundary_iff.mpr ?_⟩
  · refine front_append hmedia.trimmed.front fun c hc => ?_
    obtain rfl : ';' = c := by simpa using hc
    decide
  · rw [hlast]
    exact hp.trimmed.back
  · refine hmedia.lower.append fun c hc => ?_
    rcases List.mem_cons.mp hc with rfl | hc
    · decide
    · rcases List.mem_cons.mp hc with rfl | hc
      · decide
      · exact hp.lower c hc
  · -- the blank before the parameter is trimmed, and what follows is no boundary
    have hblank : trimStart (' ' :: parameter) = parameter := by
      rw [trimStart, List.dropWhile_cons_of_pos (by decide), ← trimStart,
        trimStart_of_front hp.trimmed.front]
    have hnot : ';' ∉ ' ' :: parameter := by simpa using hp.not_mem
    rw [withParameter, stripBoundary_append hmem, stripBoundary_cons, if_neg,
      noBoundary_iff.mp (noBoundary_of_not_mem hnot)]
    rw [hblank, startsWith_iff]
    exact fun hand => hp.noBoundary hand.2

theorem mediaOf_withParameter (hmedia : Trimmed media) (hmem : ';' ∉ media) :
    mediaOf (withParameter media parameter) = media := by
  rw [withParameter, mediaOf_piece hmem, hmedia.trim_eq]

theorem parameterOf_withParameter (hmem : ';' ∉ media) (hp : IsParameter parameter) :
    parameterOf (withParameter media parameter) = some parameter := by
  have hnot : ';' ∉ ' ' :: parameter := by simpa using hp.not_mem
  have hrest : mediaOf (' ' :: parameter) = parameter := by
    rw [mediaOf_of_not_mem hnot, trim, trimStart, List.dropWhile_cons_of_pos (by decide),
      ← trimStart, ← trim, hp.trimmed.trim_eq]
  rw [withParameter, parameterOf_piece hmem, hrest, if_neg hp.ne_nil]

/-- A media type with blank parameters, as many as one likes. -/
def withBlankParameters (media : List Char) (n : Nat) : List Char :=
  media ++ List.replicate (n + 1) ';'

theorem stripBoundary_replicate (n : Nat) :
    stripBoundary (List.replicate n ';') = List.replicate n ';' := by
  induction n with
  | zero => rfl
  | succ n ih =>
    rw [List.replicate_succ, stripBoundary_cons, if_neg, ih]
    rintro ⟨-, hahead⟩
    have hb : 'b' ∈ List.replicate n ';' :=
      (trimStart_sublist _).subset ((startsWith_iff.mp hahead).subset (by decide))
    have hsemicolon := List.eq_of_mem_replicate hb
    revert hsemicolon
    decide

theorem clean_withBlankParameters (hmedia : Clean media) (hmem : ';' ∉ media) (n : Nat) :
    Clean (withBlankParameters media n) := by
  refine ⟨⟨?_, ?_⟩, ?_, noBoundary_iff.mpr ?_⟩
  · refine front_append hmedia.trimmed.front fun c hc => ?_
    obtain rfl : ';' = c := by simpa [List.replicate_succ] using hc
    decide
  · intro c hc
    rw [withBlankParameters, List.replicate_succ', ← List.append_assoc,
      List.getLast?_concat] at hc
    obtain rfl : ';' = c := by simpa using hc
    decide
  · refine hmedia.lower.append fun c hc => ?_
    rw [List.eq_of_mem_replicate hc]
    decide
  · rw [withBlankParameters, stripBoundary_append hmem, stripBoundary_replicate]

theorem mediaOf_withBlankParameters (hmedia : Trimmed media) (hmem : ';' ∉ media) (n : Nat) :
    mediaOf (withBlankParameters media n) = media := by
  rw [withBlankParameters, List.replicate_succ, mediaOf_piece hmem, hmedia.trim_eq]

theorem parameterOf_withBlankParameters (hmem : ';' ∉ media) (n : Nat) :
    parameterOf (withBlankParameters media n) = none := by
  have hrest : mediaOf (List.replicate n ';') = [] := by
    cases n with
    | zero => rfl
    | succ n =>
      have hnil : ';' ∉ ([] : List Char) := by simp
      exact mediaOf_piece hnil _
  rw [withBlankParameters, List.replicate_succ, parameterOf_piece hmem, hrest, if_pos rfl]

end RequestGate.ContentType
