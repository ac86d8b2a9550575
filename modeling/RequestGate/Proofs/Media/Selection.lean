import RequestGate.Proofs.Media.Negotiation

/-!
# What a class settles, and what a spelling does

A media type is selected by name, and failing that by the *fallback*: the wildcard of everything, a
wildcard of the kind, or whatever is declared first (`RequestGate.fallback?`). Of the two names of a
header only the first is its class. The second has a parameter that the class does not tell, so two
headers of one class may select differently. The file says for which declared media types they never do
(`RequestGate.ContentType.class_settles_iff`).

The second name is put together from the media type and the first parameter, and a declared media type is
compared with it as it stands. So a header may be spelled exactly as a declared media type and not find
it. `RequestGate.ContentType.recognized_iff` says when such a header still finds a declaration of its
media type, and that it always does so if the declaration is spelled as the name is put together
(`RequestGate.ContentType.IsNameSpelling`).
-/

namespace RequestGate

open Text

variable {declared : List String} {d : String}

/-- What is selected if no name of a header is declared. -/
def fallback? (declared : List String) (mediaType : String) : Option String :=
  ((declared.find? (· == "*/*")).or (declared.find? fun d => coversByKind d mediaType)).or
    declared.head?

theorem mem_of_fallback? {mediaType : String} (h : fallback? declared mediaType = some d) :
    d ∈ declared := by
  rcases Option.or_eq_some_iff.mp h with h | ⟨-, h⟩
  · rcases Option.or_eq_some_iff.mp h with h | ⟨-, h⟩ <;> exact List.mem_of_find?_eq_some h
  · exact List.mem_of_head? h

theorem slash_mem_of_coversByKind {mediaType : String} (h : coversByKind d mediaType = true) :
    '/' ∈ mediaType.toList := by
  rw [coversByKind] at h
  cases hkind : ContentType.wildcardKind? (asciiLower d) with
  | none => simp [hkind] at h
  | some kind =>
    simp only [hkind] at h
    split at h
    · rename_i hdrop
      rw [dropStart?_eq_some_iff.mp hdrop]
      simp
    · cases h

namespace ContentType

variable {cs cs' media parameter : List Char} {header : String}

/-! ### Names first -/

/-- **A header selects by its two names**, and else by its media type. -/
theorem negotiate_parse (declared : List String) (h : trim header.toList ≠ []) :
    negotiate declared (parse (some header)) =
      ((declaredAs? declared (String.ofList (classOf (cleaned header)))).or
        (declaredAs? declared (fullNameOf (cleaned header)))).or
          (fallback? declared (String.ofList (mediaOf (cleaned header)))) := by
  obtain ⟨c, hc, -, hmedia, -⟩ := parse_eq_provided h
  rw [negotiate_eq declared (equivalents_parse h), hc, header?, Option.bind_some, hmedia, fallback?,
    Option.or_assoc, Option.or_assoc, Option.or_assoc, Option.or_assoc, Option.or_assoc]

/-- Clean text selects as a header. -/
theorem negotiate_clean (declared : List String) (h : Clean cs) (hne : cs ≠ []) :
    negotiate declared (parse (some (String.ofList cs))) =
      ((declaredAs? declared (String.ofList (classOf cs))).or
        (declaredAs? declared (fullNameOf cs))).or
          (fallback? declared (String.ofList (mediaOf cs))) := by
  rw [negotiate_parse, cleaned_of_clean h]
  rwa [String.toList_ofList, h.trimmed.trim_eq]

/-- No header selects like one whose media type has no kind. -/
theorem negotiate_notProvided_eq_fallback (declared : List String) :
    negotiate declared .notProvided = fallback? declared notProvidedClass := by
  have hnone : (declared.find? fun d => coversByKind d notProvidedClass) = none :=
    List.find?_eq_none.mpr fun d _ hcovers =>
      absurd (slash_mem_of_coversByKind hcovers) (by decide)
  rw [negotiate_notProvided, fallback?, hnone, Option.or_none]

theorem isMediaType_notProvided : IsMediaType notProvidedClass.toList :=
  ⟨⟨by decide, by decide, noBoundary_of_not_mem (by decide)⟩, by decide⟩

/-- A class has the media type of its headers. -/
theorem mediaOf_classOf (cs : List Char) : mediaOf (classOf cs) = mediaOf cs := by
  rw [classOf]
  split
  · rw [mediaOf_of_not_mem (not_mem_mediaOf cs), (trimmed_mediaOf cs).trim_eq]
  · rfl

/-- A class is a media type, unless a blank parameter comes first; then it is all of the text. -/
theorem classOf_cases (h : Trimmed cs) :
    classOf cs = mediaOf cs ∨ ';' ∈ cs ∧ classOf cs = cs := by
  rw [classOf]
  split
  · exact Or.inl rfl
  · by_cases hmem : ';' ∈ cs
    · exact Or.inr ⟨hmem, rfl⟩
    · exact Or.inl (by rw [mediaOf_of_not_mem hmem, h.trim_eq])

/-- The second name is a media type with a parameter. -/
theorem exists_fullNameOf (h : Clean cs) :
    ∃ parameter, IsParameter parameter ∧
      fullNameOf cs = String.ofList (withParameter (mediaOf cs) parameter) := by
  rw [fullNameOf]
  cases hparam : parameterOf cs with
  | some parameter =>
    exact ⟨parameter, isParameter_of_parameterOf h hparam, (ofList_withParameter _ _).symm⟩
  | none =>
    refine ⟨"charset=utf-8".toList, ⟨by decide, by decide, by decide, by decide, by decide⟩, ?_⟩
    have hutf8 : "; charset=utf-8" = "; " ++ "charset=utf-8" := by decide
    rw [ofList_withParameter, String.ofList_toList, String.append_assoc, ← hutf8]

/-! ### Headers of one class -/

/-- A header that is absent or blank is none; any other has a class of its own. -/
theorem parse_cases (header : Option String) : parse header = .notProvided ∨
    ∃ text, header = some text ∧ trim text.toList ≠ [] := by
  cases header with
  | none => exact Or.inl rfl
  | some text =>
    by_cases htext : trim text.toList = []
    · exact Or.inl (parse_eq_notProvided htext)
    · exact Or.inr ⟨text, rfl, htext⟩

/-- Whether what is declared leaves nothing to a parameter. A media type that is declared with a
parameter, and not without one, is what its headers fall back on; and so is one that is called as the
class of no header is. -/
structure Settled (declared : List String) : Prop where
  parameter : ∀ media parameter d, IsMediaType media → IsParameter parameter →
    declaredAs? declared (String.ofList media) = none →
    declaredAs? declared (String.ofList (withParameter media parameter)) = some d →
    fallback? declared (String.ofList media) = some d
  absent : ∀ d, declaredAs? declared notProvidedClass = some d →
    fallback? declared notProvidedClass = some d

/-- A header whose class is not declared falls back. -/
theorem Settled.negotiate_of_none (h : Settled declared) (hclean : Clean cs)
    (hclass : classOf cs = mediaOf cs)
    (hnone : declaredAs? declared (String.ofList (classOf cs)) = none) :
    (declaredAs? declared (fullNameOf cs)).or (fallback? declared (String.ofList (mediaOf cs))) =
      fallback? declared (String.ofList (mediaOf cs)) := by
  obtain ⟨parameter, hp, hfull⟩ := exists_fullNameOf hclean
  cases hd : declaredAs? declared (fullNameOf cs) with
  | none => rfl
  | some d =>
    rw [h.parameter _ parameter d (isMediaType_mediaOf hclean) hp (hclass ▸ hnone) (hfull ▸ hd)]
    rfl

theorem Settled.negotiate_eq_of_provided (h : Settled declared) {other : String}
    (hheader : trim header.toList ≠ []) (hother : trim other.toList ≠ [])
    (hclass : classOf (cleaned header) = classOf (cleaned other)) :
    negotiate declared (parse (some header)) = negotiate declared (parse (some other)) := by
  have hclean := clean_cleaned header
  have hclean' := clean_cleaned other
  have hmedia : mediaOf (cleaned header) = mediaOf (cleaned other) := by
    rw [← mediaOf_classOf, hclass, mediaOf_classOf]
  rw [negotiate_parse declared hheader, negotiate_parse declared hother, ← hclass, ← hmedia]
  cases hd : declaredAs? declared (String.ofList (classOf (cleaned header))) with
  | some d => rw [Option.some_or, Option.some_or, Option.some_or, Option.some_or]
  | none =>
    rw [Option.none_or, Option.none_or]
    rcases classOf_cases hclean.trimmed with hself | ⟨hmem, hself⟩
    · rw [h.negotiate_of_none hclean hself hd, hmedia,
        h.negotiate_of_none hclean' (by rw [← hclass, hself, hmedia]) (hclass ▸ hd)]
    · -- the class has a semicolon, so it is all of either text
      rcases classOf_cases hclean'.trimmed with hself' | ⟨-, hself'⟩
      · rw [hclass, hself'] at hself
        exact absurd (hself ▸ hmem) (not_mem_mediaOf _)
      · rw [show cleaned header = cleaned other by rw [← hself, hclass, hself']]

theorem Settled.negotiate_eq_of_absent (h : Settled declared) (hheader : trim header.toList ≠ [])
    (hkey : (parse (some header)).keyClass = ContentType.notProvided.keyClass) :
    negotiate declared (parse (some header)) = negotiate declared .notProvided := by
  have hname : String.ofList notProvidedClass.toList = notProvidedClass := String.ofList_toList
  have hclass : classOf (cleaned header) = notProvidedClass.toList := by
    rw [keyClass_parse hheader] at hkey
    exact String.ofList_inj.mp (hkey.trans hname.symm)
  have hclean := clean_cleaned header
  have hmedia : mediaOf (cleaned header) = notProvidedClass.toList := by
    rw [← mediaOf_classOf, hclass]
    decide
  rw [negotiate_parse declared hheader, negotiate_notProvided_eq_fallback]
  cases hd : declaredAs? declared (String.ofList (classOf (cleaned header))) with
  | some d =>
    rw [hclass, hname] at hd
    rw [h.absent d hd]
    rfl
  | none =>
    rw [Option.none_or, h.negotiate_of_none hclean (hclass.trans hmedia.symm) hd, hmedia, hname]

/-- A parameter that no declared media type has. -/
def longParameter (n : Nat) : List Char := List.replicate (n + 1) 'x'

theorem isParameter_longParameter (n : Nat) : IsParameter (longParameter n) := by
  have hall : ∀ c ∈ longParameter n, c = 'x' := fun c hc => List.eq_of_mem_replicate hc
  refine ⟨by simp [longParameter], ⟨fun c hc => ?_, fun c hc => ?_⟩, fun c hc => ?_, fun hmem => ?_,
    fun hb => ?_⟩
  · rw [hall c (List.mem_of_mem_head? hc)]
    decide
  · rw [hall c (List.mem_of_mem_getLast? hc)]
    decide
  · rw [hall c hc]
    decide
  · exact absurd (hall ';' hmem) (by decide)
  · exact absurd (hall 'b' (hb.subset (by decide))) (by decide)

/-- **A parameter decides for a header if it is declared**, -/
theorem negotiate_withParameter (hmedia : IsMediaType media) (hp : IsParameter parameter)
    (hnone : declaredAs? declared (String.ofList media) = none) :
    (parse (some (String.ofList (withParameter media parameter)))).keyClass = String.ofList media ∧
      negotiate declared (parse (some (String.ofList (withParameter media parameter)))) =
        (declaredAs? declared (String.ofList (withParameter media parameter))).or
          (fallback? declared (String.ofList media)) := by
  have hclean := clean_withParameter hmedia.clean hmedia.not_mem hp
  have hne : withParameter media parameter ≠ [] := by simp [withParameter]
  have hparam := parameterOf_withParameter hmedia.not_mem hp
  have hbare : mediaOf (withParameter media parameter) = media :=
    mediaOf_withParameter hmedia.clean.trimmed hmedia.not_mem
  have hclass : classOf (withParameter media parameter) = media := by
    rw [classOf, hparam, hbare]
    rfl
  have hfull : fullNameOf (withParameter media parameter) =
      String.ofList (withParameter media parameter) := by
    rw [fullNameOf, hparam, hbare, ofList_withParameter]
  exact ⟨by rw [keyClass_of_equivalents (parse_clean hclean hne), hclass],
    by rw [negotiate_clean declared hclean hne, hclass, hfull, hbare, hnone, Option.none_or]⟩

/-- and else it does not. -/
theorem negotiate_longParameter (hmedia : IsMediaType media)
    (hnone : declaredAs? declared (String.ofList media) = none) {n : Nat}
    (hlong : ∀ d ∈ declared, d.length ≤ n) :
    negotiate declared (parse (some (String.ofList (withParameter media (longParameter n))))) =
      fallback? declared (String.ofList media) := by
  rw [(negotiate_withParameter hmedia (isParameter_longParameter n) hnone).2,
    declaredAs?_of_long, Option.none_or]
  intro d hd
  have hlength := hlong d hd
  rw [String.length_ofList, withParameter, longParameter, List.length_append, List.length_cons,
    List.length_cons, List.length_replicate]
  omega

/-- **When the class of a header settles what is selected.** All headers of one class select the same
exactly if nothing is left to a parameter. -/
theorem class_settles_iff (declared : List String) :
    (∀ header other : Option String, (parse header).keyClass = (parse other).keyClass →
      negotiate declared (parse header) = negotiate declared (parse other)) ↔ Settled declared := by
  constructor
  · intro h
    refine ⟨fun media parameter d hmedia hp hnone hd => ?_, fun d hd => ?_⟩
    · -- against the declared parameter stands one that is longer than all that is declared
      obtain ⟨n, hlong⟩ := exists_length_le declared
      obtain ⟨hclass, hselected⟩ := negotiate_withParameter hmedia hp hnone
      obtain ⟨hclass', -⟩ := negotiate_withParameter hmedia (isParameter_longParameter n) hnone
      have hsame := h _ _ (hclass.trans hclass'.symm)
      rw [hselected, hd, negotiate_longParameter hmedia hnone hlong] at hsame
      exact hsame.symm
    · -- against no header stands one that is spelled as the class of none
      have hclass : (parse (some notProvidedClass)).keyClass = (parse none).keyClass := by decide
      have hname := String.ofList_toList (s := notProvidedClass)
      have hown : classOf notProvidedClass.toList = notProvidedClass.toList := by decide
      have hsame := h _ _ hclass
      rw [← hname, negotiate_clean declared isMediaType_notProvided.clean (by decide), hown, hname,
        hd] at hsame
      rw [← negotiate_notProvided_eq_fallback]
      exact hsame.symm
  · intro h header other hclass
    rcases parse_cases header with hnone | ⟨text, rfl, htext⟩ <;>
      rcases parse_cases other with hnone' | ⟨text', rfl, htext'⟩
    · rw [hnone, hnone']
    · rw [hnone] at hclass ⊢
      exact (h.negotiate_eq_of_absent htext' hclass.symm).symm
    · rw [hnone'] at hclass ⊢
      exact h.negotiate_eq_of_absent htext hclass
    · rw [keyClass_parse htext, keyClass_parse htext'] at hclass
      exact h.negotiate_eq_of_provided htext htext' (String.ofList_inj.mp hclass)

/-- Two headers have the class `application/json`, but only one of them is taken to mean UTF-8. -/
theorem class_leaves_charset_open :
    (parse (some "application/json")).keyClass =
        (parse (some "application/json; charset=latin1")).keyClass ∧
      negotiate ["text/plain", "application/json; charset=utf-8"] (parse (some "application/json")) =
        some "application/json; charset=utf-8" ∧
      negotiate ["text/plain", "application/json; charset=utf-8"]
        (parse (some "application/json; charset=latin1")) = some "text/plain" := by
  decide

/-! ### Declared media types as headers -/

/-- The bare media type of a declaration: what stands before the first semicolon, without blanks around
it and in small letters. -/
def bareOf (d : String) : String := String.ofList (mediaOf (asciiLower d).toList)

/-- **Cleaning a header leaves its media type.** -/
theorem mediaOf_cleaned (header : String) :
    String.ofList (mediaOf (cleaned header)) = bareOf header := by
  have hsemicolon : isBlank ';' = false := by decide
  rw [bareOf, asciiLower, String.toList_ofList, cleaned, ← trim_map_toLower]
  generalize header.toList.map Char.toLower = cs
  refine congrArg String.ofList ?_
  rcases exists_pieces cs with hcs | ⟨first, rest, hfirst, rfl⟩
  · have htrim : ';' ∉ trim cs := fun hmem => hcs ((trim_sublist cs).subset hmem)
    rw [noBoundary_iff.mp (noBoundary_of_not_mem htrim), trimEnd_of_back (trimmed_trim cs).back,
      mediaOf_of_not_mem htrim, mediaOf_of_not_mem hcs, (trimmed_trim cs).trim_eq]
  · have hstart : ';' ∉ trimStart first := fun hmem => hfirst ((trimStart_sublist first).subset hmem)
    rw [trim_append_cons hsemicolon, stripBoundary_append hstart, stripBoundary_cons,
      mediaOf_piece hfirst]
    split
    · have hend : ';' ∉ trim first := fun hmem => hfirst ((trim_sublist first).subset hmem)
      rw [List.append_nil, ← trim, mediaOf_of_not_mem hend, (trimmed_trim first).trim_eq]
    · rw [trimEnd_append_cons hsemicolon, mediaOf_piece hstart, trim_trimStart]

/-- What is found under a name of a header has the header's media type. -/
theorem bareOf_of_found (h : Clean cs) (hd : declaredAs? declared (String.ofList (classOf cs)) = some d ∨
    declaredAs? declared (fullNameOf cs) = some d) : bareOf d = String.ofList (mediaOf cs) := by
  rcases hd with hd | hd
  · rw [bareOf, asciiLower_of_declaredAs? hd, asciiLower_ofList (clean_classOf h).lower,
      String.toList_ofList, mediaOf_classOf]
  · obtain ⟨parameter, hp, hfull⟩ := exists_fullNameOf h
    have hmem := not_mem_mediaOf cs
    have hclean := clean_withParameter (clean_mediaOf h.lower) hmem hp
    rw [bareOf, asciiLower_of_declaredAs? hd, hfull, asciiLower_ofList hclean.lower,
      String.toList_ofList, mediaOf_withParameter (trimmed_mediaOf cs) hmem]

/-- Whether a declared media type is spelled as a name of the header. -/
def Named (declared : List String) (header : String) : Prop :=
  ∃ d ∈ declared, ∃ name ∈ (parse (some header)).equivalents, eqIgnoreAsciiCase d name = true

instance : Decidable (Named declared header) :=
  inferInstanceAs (Decidable (∃ d ∈ declared, ∃ name ∈ (parse (some header)).equivalents,
    eqIgnoreAsciiCase d name = true))

/-- Whether a header selects a declaration of its own media type. -/
def Recognized (declared : List String) (header : String) : Prop :=
  ∃ d ∈ declared, negotiate declared (parse (some header)) = some d ∧ bareOf d = bareOf header

instance : Decidable (Recognized declared header) :=
  inferInstanceAs (Decidable (∃ d ∈ declared,
    negotiate declared (parse (some header)) = some d ∧ bareOf d = bareOf header))

/-- Whether a media type is spelled as names are put together: in clean text, and if there is a first
parameter, then no other, and one blank before it. -/
def IsNameSpelling (d : String) : Prop :=
  ∃ cs, cs ≠ [] ∧ Clean cs ∧ asciiLower d = String.ofList cs ∧
    ∀ parameter, parameterOf cs = some parameter → cs = withParameter (mediaOf cs) parameter

theorem named_iff (hheader : trim header.toList ≠ []) : Named declared header ↔
    ((declaredAs? declared (String.ofList (classOf (cleaned header)))).or
      (declaredAs? declared (fullNameOf (cleaned header)))).isSome = true := by
  rw [Named, equivalents_parse hheader, namesOf_eq, Option.isSome_or, Bool.or_eq_true, declaredAs?,
    declaredAs?, List.find?_isSome, List.find?_isSome]
  simp only [List.mem_cons, List.not_mem_nil, or_false, exists_eq_or_imp, exists_eq_left, and_or_left,
    exists_or]

/-- What is spelled as a name is found by it. -/
theorem named_of_isNameSpelling (hmem : d ∈ declared) (h : IsNameSpelling d) :
    trim d.toList ≠ [] ∧ Named declared d := by
  obtain ⟨cs, hne, hclean, hlower, hparam⟩ := h
  have hcleaned : cleaned d = cs := by
    rw [← cleaned_asciiLower, hlower, cleaned_of_clean hclean]
  have hblank : trim d.toList ≠ [] := by
    intro hnil
    have htrim := hclean.trimmed.trim_eq
    rw [← String.toList_ofList (l := cs), ← hlower, asciiLower, String.toList_ofList, trim_map_toLower,
      hnil, List.map_nil] at htrim
    rw [asciiLower] at hlower
    exact hne (String.ofList_inj.mp (hlower ▸ congrArg String.ofList htrim.symm))
  refine ⟨hblank, d, hmem, String.ofList cs, ?_, ?_⟩
  · rw [equivalents_parse hblank, hcleaned, namesOf]
    cases hp : parameterOf cs with
    | none => exact List.mem_cons_self
    | some parameter =>
      have hsecond := ofList_withParameter (mediaOf cs) parameter
      rw [← hparam parameter hp] at hsecond
      exact List.mem_cons_of_mem _ (List.mem_singleton.mpr hsecond)
  · rw [eqIgnoreAsciiCase, beq_iff_eq, hlower, asciiLower_ofList hclean.lower]

/-- What is found by its own name is spelled as one. -/
theorem isNameSpelling_of_named (hd : trim d.toList ≠ []) (h : Named [d] d) : IsNameSpelling d := by
  obtain ⟨d', hmem, name, hname, heq⟩ := h
  obtain rfl := List.mem_singleton.mp hmem
  rw [eqIgnoreAsciiCase, beq_iff_eq] at heq
  have hclean := clean_cleaned d'
  have hmedia := clean_mediaOf hclean.lower
  have hsemi := not_mem_mediaOf (cleaned d')
  have hown : ∀ {cs}, Clean cs → name = String.ofList cs →
      asciiLower d' = String.ofList cs ∧ cs ≠ [] := fun {cs} hcs hofList => by
    have hlower : asciiLower d' = String.ofList cs := by rw [heq, hofList, asciiLower_ofList hcs.lower]
    refine ⟨hlower, fun hnil => hd ?_⟩
    rw [hnil, asciiLower, String.ofList_inj, List.map_eq_nil_iff] at hlower
    rw [hlower]
    rfl
  rw [equivalents_parse hd, namesOf_eq] at hname
  -- a media type goes by two names, the class and the full one
  rcases List.mem_pair.mp hname with hclass | hfull
  · obtain ⟨hlower, hne⟩ := hown (clean_classOf hclean) hclass
    refine ⟨_, hne, clean_classOf hclean, hlower, fun parameter hp => ?_⟩
    rw [parameterOf_classOf] at hp
    cases hp
  · obtain ⟨parameter, hp, hofList⟩ := exists_fullNameOf hclean
    have hcs := clean_withParameter hmedia hsemi hp
    obtain ⟨hlower, hne⟩ := hown hcs (hfull.trans hofList)
    refine ⟨_, hne, hcs, hlower, fun first hfirst => ?_⟩
    rw [parameterOf_withParameter hsemi hp, Option.some.injEq] at hfirst
    rw [mediaOf_withParameter hmedia.trimmed hsemi, hfirst]

/-- A header that is spelled as a name finds its media type by it. -/
theorem recognized_of_named (hheader : trim header.toList ≠ []) (h : Named declared header) :
    Recognized declared header := by
  obtain ⟨d, hd⟩ := Option.isSome_iff_exists.mp ((named_iff hheader).mp h)
  have hfound := Option.or_eq_some_iff.mp hd
  refine ⟨d, ?_, ?_, ?_⟩
  · rcases hfound with hclass | ⟨-, hfull⟩
    · exact mem_of_declaredAs? hclass
    · exact mem_of_declaredAs? hfull
  · rw [negotiate_parse declared hheader, hd, Option.some_or]
  · rw [bareOf_of_found (clean_cleaned header) (hfound.imp_right And.right), mediaOf_cleaned]

/-- **Which declared media types are recognized as headers.** One that is spelled as its own name is
always found. Any other is found if one of its names is declared besides, and else it falls back. -/
theorem recognized_iff (hmem : d ∈ declared) (hd : trim d.toList ≠ []) :
    (IsNameSpelling d ↔ Named [d] d) ∧ (IsNameSpelling d → Named declared d) ∧
      (Named declared d → Recognized declared d) ∧
        (¬ Named declared d → negotiate declared (parse (some d)) = fallback? declared (bareOf d) ∧
          (Recognized declared d ↔
            ∃ w, fallback? declared (bareOf d) = some w ∧ bareOf w = bareOf d)) := by
  refine ⟨⟨fun h => (named_of_isNameSpelling List.mem_cons_self h).2, isNameSpelling_of_named hd⟩,
    fun h => (named_of_isNameSpelling hmem h).2, recognized_of_named hd, fun hnot => ?_⟩
  have hfallback : negotiate declared (parse (some d)) = fallback? declared (bareOf d) := by
    rw [named_iff hd, Bool.not_eq_true, Option.isSome_eq_false_iff, Option.isNone_iff_eq_none] at hnot
    rw [negotiate_parse declared hd, hnot, Option.none_or, mediaOf_cleaned]
  refine ⟨hfallback, ?_⟩
  rw [Recognized, hfallback]
  exact ⟨fun ⟨w, _, hw⟩ => ⟨w, hw⟩, fun ⟨w, hw, hbare⟩ => ⟨w, mem_of_fallback? hw, hw, hbare⟩⟩

/-- A media type that is written as its name is, but for the case of its letters, is recognized. -/
theorem recognized_in_any_case :
    Recognized ["text/plain", "Application/JSON; Charset=UTF-8"] "Application/JSON; Charset=UTF-8" :=
  have hmem : "Application/JSON; Charset=UTF-8" ∈ ["text/plain", "Application/JSON; Charset=UTF-8"] :=
    by decide
  have hiff := recognized_iff hmem (by decide)
  hiff.2.2.1 (hiff.2.1 (hiff.1.mpr (by decide)))

/-- Without the blank that names have before a parameter, a media type is not found, and another is
selected. -/
theorem unspaced_not_recognized :
    "application/json;charset=utf-8" ∈ ["text/plain", "application/json;charset=utf-8"] ∧
      trim "application/json;charset=utf-8".toList ≠ [] ∧
        negotiate ["text/plain", "application/json;charset=utf-8"]
          (parse (some "application/json;charset=utf-8")) = some "text/plain" ∧
          ¬ Recognized ["text/plain", "application/json;charset=utf-8"]
            "application/json;charset=utf-8" := by
  decide

end ContentType

end RequestGate
