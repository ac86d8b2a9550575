import RequestGate.Media.Negotiation
import RequestGate.Proofs.Media.ContentType

/-!
# Which headers can be foreseen

An operation declares finitely many media types, and a header can be anything. What can be told in
advance of a header is the media type that it selects among the declared ones, and for that it is
enough to know its class, or some class that selects the same. The *foreseen classes* are those of the
declared media types themselves, and the class of no header at all
(`RequestGate.ContentType.foreseenClasses`).

They stand for nearly every header (`RequestGate.ContentType.standsIn_or_gap`): a declared media type
that is found under the first name of a header has the header's class; one that is found under a name
with a parameter does so too; and what the later attempts come to is what they come to without a
header. There are two gaps.

* A header may have the empty class, and the empty media type may be declared. To read a class is to
  read a header, though, and an empty header counts as none.
* To a header without a parameter the parameter `charset=utf-8` is added, but not in its class. So a
  declared media type with that parameter may be selected by such a header and by no class.
-/

namespace RequestGate

open Text

/-- The first declared media type that is spelled as the name, up to ASCII case. -/
def declaredAs? (declared : List String) (name : String) : Option String :=
  declared.find? fun d => eqIgnoreAsciiCase d name

variable {declared : List String} {d name : String}

theorem matchEquivalent?_eq (declared : List String) (first second : String) :
    matchEquivalent? declared [first, second] =
      (declaredAs? declared first).or (declaredAs? declared second) := by
  rw [matchEquivalent?, List.findSome?_cons]
  cases h : declared.find? fun d => eqIgnoreAsciiCase d first with
  | some d => simp [declaredAs?, h]
  | none =>
    simp only [declaredAs?, h, Option.none_or, List.findSome?_cons, List.findSome?_nil]
    cases declared.find? fun d => eqIgnoreAsciiCase d second <;> rfl

theorem asciiLower_of_declaredAs? (h : declaredAs? declared name = some d) :
    asciiLower d = asciiLower name := by
  have hd := List.find?_some h
  rwa [eqIgnoreAsciiCase, beq_iff_eq] at hd

theorem mem_of_declaredAs? (h : declaredAs? declared name = some d) : d ∈ declared :=
  List.mem_of_find?_eq_some h

/-- What is found first is found first among fewer, too. -/
theorem find?_of_imp {α : Type} {l : List α} {p q : α → Bool} {a : α} (h : l.find? p = some a)
    (ha : q a = true) (hqp : ∀ b, q b = true → p b = true) : l.find? q = some a := by
  obtain ⟨-, before, after, hl, hbefore⟩ := List.find?_eq_some_iff_append.mp h
  refine List.find?_eq_some_iff_append.mpr ⟨ha, before, after, hl, fun b hb => ?_⟩
  have hp := hbefore b hb
  rw [Bool.not_eq_true'] at hp ⊢
  exact Bool.eq_false_iff.mpr fun hq => Bool.eq_false_iff.mp hp (hqp b hq)

namespace ContentType

variable {cs media : List Char}

/-! ### The two names of a header -/

/-- The class of clean text: the media type if a parameter follows, else all of the text. -/
def classOf (cs : List Char) : List Char :=
  if (parameterOf cs).isSome then mediaOf cs else cs

/-- The name with a parameter: its own, or else UTF-8. -/
def fullNameOf (cs : List Char) : String :=
  match parameterOf cs with
  | some parameter => String.ofList (mediaOf cs) ++ "; " ++ String.ofList parameter
  | none => String.ofList (mediaOf cs) ++ "; charset=utf-8"

theorem namesOf_eq (cs : List Char) : namesOf cs = [String.ofList (classOf cs), fullNameOf cs] := by
  rw [namesOf, classOf, fullNameOf]
  cases parameterOf cs <;> rfl

theorem keyClass_of_equivalents {contentType : ContentType}
    (h : contentType.equivalents = namesOf cs) : contentType.keyClass = String.ofList (classOf cs) := by
  rw [keyClass, h, namesOf_eq]
  rfl

theorem keyClass_parse {header : String} (h : trim header.toList ≠ []) :
    (parse (some header)).keyClass = String.ofList (classOf (cleaned header)) :=
  keyClass_of_equivalents (equivalents_parse h)

theorem clean_classOf (h : Clean cs) : Clean (classOf cs) := by
  rw [classOf]
  split
  · exact clean_mediaOf h.lower
  · exact h

theorem parameterOf_classOf (cs : List Char) : parameterOf (classOf cs) = none := by
  rw [classOf]
  split
  · exact parameterOf_of_not_mem (not_mem_mediaOf cs)
  · rename_i hnone
    simpa using hnone

/-- A class is its own class. -/
theorem classOf_classOf (cs : List Char) : classOf (classOf cs) = classOf cs := by
  rw [classOf, parameterOf_classOf]
  rfl

/-- A media type that is spelled as clean text has the class of that text. -/
theorem keyClass_of_asciiLower (h : Clean cs) (hne : cs ≠ []) (hd : asciiLower d = String.ofList cs) :
    (parse (some d)).keyClass = String.ofList (classOf cs) := by
  rw [← keyClass_parse_asciiLower, hd]
  exact keyClass_of_equivalents (parse_clean h hne)

theorem negotiate_eq (declared : List String) {contentType : ContentType}
    (h : contentType.equivalents = namesOf cs) :
    negotiate declared contentType =
      ((((declaredAs? declared (String.ofList (classOf cs))).or
        (declaredAs? declared (fullNameOf cs))).or (declared.find? (· == "*/*"))).or
          (contentType.header?.bind fun header =>
            declared.find? fun d => coversByKind d header.mediaType)).or declared.head? := by
  rw [negotiate, h, namesOf_eq, matchEquivalent?_eq]

/-! ### Classes that select for themselves -/

/-- **A class that is clean selects the media type that is spelled like it.** -/
theorem negotiate_ofKeyClass (h : Clean cs) (hne : cs ≠ []) (hparam : parameterOf cs = none)
    (hclass : String.ofList cs ≠ notProvidedClass)
    (hd : declaredAs? declared (String.ofList cs) = some d) :
    negotiate declared (ofKeyClass (String.ofList cs)) = some d := by
  have hcs : classOf cs = cs := by
    rw [classOf, hparam]
    rfl
  rw [ofKeyClass, if_neg hclass, negotiate_eq declared (parse_clean h hne), hcs, hd]
  rfl

theorem negotiate_notProvided (declared : List String) :
    negotiate declared .notProvided = (declared.find? (· == "*/*")).or declared.head? := by
  simp [negotiate, equivalents, header?, matchEquivalent?]

/-! ### Wildcards -/

theorem eq_append_of_splitFirst? {sep : Char} {cs a b : List Char}
    (h : splitFirst? sep cs = some (a, b)) : cs = a ++ sep :: b := by
  induction cs generalizing a with
  | nil => cases h
  | cons c cs ih =>
    rw [splitFirst?] at h
    split at h
    · rename_i hc
      obtain ⟨rfl, rfl⟩ := Prod.mk.inj (Option.some.inj h)
      rw [hc, List.nil_append]
    · obtain ⟨⟨a', b'⟩, hrest, heq⟩ := Option.map_eq_some_iff.mp h
      obtain ⟨rfl, rfl⟩ := Prod.mk.inj heq
      rw [List.cons_append, ← ih hrest]

/-- A small letter is no blank, no semicolon, and in lower case. -/
theorem plain_of_isLower {c : Char} (h : c.isLower = true) :
    isBlank c = false ∧ c ≠ ';' ∧ c.toLower = c := by
  have hsmall : c.toNat < 128 := by
    have hz : c.toNat ≤ 'z'.toNat := of_decide_eq_true ((Bool.and_eq_true _ _).mp h).2
    have hvalue : 'z'.toNat = 122 := by decide
    omega
  exact forall_ascii
    (P := fun c => c.isLower = true → isBlank c = false ∧ c ≠ ';' ∧ c.toLower = c)
    (by decide) hsmall h

/-- A wildcard `kind/*` is clean, and has no semicolon. -/
theorem clean_of_wildcardKind? {text kind : String} (h : wildcardKind? text = some kind) :
    Clean text.toList ∧ ';' ∉ text.toList ∧ '/' ∈ text.toList := by
  rw [wildcardKind?] at h
  split at h
  · rename_i letters hsplit
    split at h
    · rename_i hletters
      obtain ⟨hne, hlower⟩ := Bool.and_eq_true_iff.mp hletters
      rw [List.all_eq_true] at hlower
      have htext : text.toList = letters ++ ['/', '*'] := eq_append_of_splitFirst? hsplit
      have hnot : ';' ∉ text.toList := by
        rw [htext]
        intro hmem
        rcases List.mem_append.mp hmem with hmem | hmem
        · exact (plain_of_isLower (hlower _ hmem)).2.1 rfl
        · revert hmem
          decide
      -- the text starts with a letter and ends in a star, so there is nothing to trim
      refine ⟨⟨⟨?_, ?_⟩, ?_, noBoundary_of_not_mem hnot⟩, hnot, by simp [htext]⟩
      · intro c hc
        cases letters with
        | nil => cases hne
        | cons first rest =>
          obtain rfl : first = c := by simpa [htext] using hc
          exact (plain_of_isLower (hlower first (by simp))).1
      · intro c hc
        obtain rfl : '*' = c := by simpa [htext] using hc
        decide
      · rw [htext]
        exact Lower.append (fun c hc => (plain_of_isLower (hlower c hc)).2.2) (by decide)
    · cases h
  · cases h

/-! ### What the foreseen classes stand for -/

/-- The classes that can be foreseen: those of the declared media types, and that of no header. -/
def foreseenClasses (declared : List String) : List String :=
  declared.map (fun m => (parse (some m)).keyClass) ++ [notProvidedClass]

theorem keyClass_mem_foreseenClasses (h : d ∈ declared) :
    (parse (some d)).keyClass ∈ foreseenClasses declared :=
  List.mem_append_left _ (List.mem_map_of_mem h)

theorem notProvidedClass_mem (declared : List String) :
    notProvidedClass ∈ foreseenClasses declared := by
  simp [foreseenClasses]

/-- Whether a foreseen class stands in for a content type: its own class, or one that selects the
same media type. -/
def StandsIn (declared : List String) (contentType : ContentType) : Prop :=
  contentType.keyClass ∈ foreseenClasses declared ∨
    ∃ k ∈ foreseenClasses declared,
      negotiate declared (ofKeyClass k) = negotiate declared contentType

/-- What stands for no header stands for every header that no attempt before the last two helps. -/
theorem standsIn_of_notProvided {contentType : ContentType}
    (h : negotiate declared contentType = negotiate declared .notProvided) :
    StandsIn declared contentType :=
  Or.inr ⟨notProvidedClass, notProvidedClass_mem declared, h.symm⟩

/-- **A wildcard stands for the media types that it covers.** Its class is its own spelling, and the
first wildcard of a spelling is the first that covers. -/
theorem standsIn_of_coversByKind {contentType : ContentType} {mediaType : String}
    (hd : (declared.find? fun d => coversByKind d mediaType) = some d)
    (h : negotiate declared contentType = some d) : StandsIn declared contentType := by
  have hcovers := List.find?_some hd
  simp only [coversByKind] at hcovers
  cases hkind : wildcardKind? (asciiLower d) with
  | none => simp [hkind] at hcovers
  | some kind =>
    obtain ⟨hclean, hnot, hslash⟩ := clean_of_wildcardKind? hkind
    have hne : (asciiLower d).toList ≠ [] := List.ne_nil_of_mem hslash
    have hparam := parameterOf_of_not_mem hnot
    have hlower : asciiLower d = String.ofList (asciiLower d).toList := String.ofList_toList.symm
    have hclass : (parse (some d)).keyClass = String.ofList (asciiLower d).toList := by
      rw [keyClass_of_asciiLower hclean hne hlower, classOf, hparam]
      rfl
    have hspelled : declaredAs? declared (String.ofList (asciiLower d).toList) = some d := by
      refine find?_of_imp hd (by simp [eqIgnoreAsciiCase, asciiLower_asciiLower]) fun b hb => ?_
      rw [eqIgnoreAsciiCase, beq_iff_eq, ← hlower, asciiLower_asciiLower] at hb
      have hcovers' := List.find?_some (p := fun d => coversByKind d mediaType) hd
      rwa [coversByKind, hb, ← coversByKind]
    refine Or.inr ⟨_, keyClass_mem_foreseenClasses (List.mem_of_find?_eq_some hd), ?_⟩
    rw [h, hclass]
    refine negotiate_ofKeyClass hclean hne hparam ?_ hspelled
    rw [← hlower]
    -- the name for a missing content type has no slash
    intro hprovided
    rw [hprovided] at hslash
    revert hslash
    decide

/-- What no name finds is left to a wildcard, or to the first that is declared. -/
theorem standsIn_of_no_name {contentType : ContentType} (hnames : contentType.equivalents = namesOf cs)
    (hclass : declaredAs? declared (String.ofList (classOf cs)) = none)
    (hfull : declaredAs? declared (fullNameOf cs) = none) : StandsIn declared contentType := by
  have hnegotiate := negotiate_eq declared hnames
  rw [hclass, hfull, Option.or_none, Option.none_or] at hnegotiate
  cases hall : declared.find? (· == "*/*") with
  | some d =>
    rw [hall] at hnegotiate
    refine standsIn_of_notProvided ?_
    rw [hnegotiate, negotiate_notProvided, hall]
    rfl
  | none =>
    rw [hall, Option.none_or] at hnegotiate
    cases hkind : contentType.header?.bind fun header =>
        declared.find? fun d => coversByKind d header.mediaType with
    | some d =>
      obtain ⟨header, -, hd⟩ := Option.bind_eq_some_iff.mp hkind
      refine standsIn_of_coversByKind hd ?_
      rw [hnegotiate, hkind]
      rfl
    | none =>
      refine standsIn_of_notProvided ?_
      rw [hnegotiate, hkind, negotiate_notProvided, hall]

/-- A media type that is found under the first name of a header has the header's class. -/
theorem standsIn_of_class {contentType : ContentType} (hclean : Clean cs)
    (hnames : contentType.equivalents = namesOf cs) (hne : classOf cs ≠ [])
    (hd : declaredAs? declared (String.ofList (classOf cs)) = some d) :
    StandsIn declared contentType := by
  have hlower := (asciiLower_of_declaredAs? hd).trans (asciiLower_ofList (clean_classOf hclean).lower)
  have hkeyClass := keyClass_of_asciiLower (clean_classOf hclean) hne hlower
  rw [classOf_classOf, ← keyClass_of_equivalents hnames] at hkeyClass
  exact Or.inl (hkeyClass ▸ keyClass_mem_foreseenClasses (mem_of_declaredAs? hd))

/-- A media type that is found with the parameter of a header has the header's class. -/
theorem standsIn_of_parameter {contentType : ContentType} {parameter : List Char} (hclean : Clean cs)
    (hnames : contentType.equivalents = namesOf cs) (hparam : parameterOf cs = some parameter)
    (hd : declaredAs? declared (fullNameOf cs) = some d) : StandsIn declared contentType := by
  have hp := isParameter_of_parameterOf hclean hparam
  have hfull : fullNameOf cs = String.ofList (withParameter (mediaOf cs) parameter) := by
    rw [fullNameOf, hparam, ofList_withParameter]
  have hmedia := not_mem_mediaOf cs
  have hclean' := clean_withParameter (clean_mediaOf hclean.lower) hmedia hp
  have hlower : asciiLower d = String.ofList (withParameter (mediaOf cs) parameter) := by
    rw [asciiLower_of_declaredAs? hd, hfull, asciiLower_ofList hclean'.lower]
  have hclass : classOf (withParameter (mediaOf cs) parameter) = classOf cs := by
    rw [classOf, classOf, parameterOf_withParameter hmedia hp, hparam,
      mediaOf_withParameter (trimmed_mediaOf cs) hmedia]
    rfl
  have hkeyClass := keyClass_of_asciiLower hclean' (by simp [withParameter]) hlower
  rw [hclass, ← keyClass_of_equivalents hnames] at hkeyClass
  exact Or.inl (hkeyClass ▸ keyClass_mem_foreseenClasses (mem_of_declaredAs? hd))

/-! ### The gaps -/

/-- What a header can have as its media type. -/
structure IsMediaType (media : List Char) : Prop where
  clean : Clean media
  not_mem : ';' ∉ media

theorem isMediaType_mediaOf (h : Clean cs) : IsMediaType (mediaOf cs) :=
  ⟨clean_mediaOf h.lower, not_mem_mediaOf cs⟩

/-- A media type in UTF-8, as it is declared in full. -/
def inUtf8 (media : List Char) : String :=
  String.ofList media ++ "; charset=utf-8"

/-- Whether the empty media type is selected, by a header whose class is empty. -/
def EmptyGap (declared : List String) (contentType : ContentType) : Prop :=
  contentType.keyClass = "" ∧ declaredAs? declared "" = some "" ∧
    negotiate declared contentType = some ""

/-- Whether a media type is selected because a header without a parameter was taken to mean UTF-8. -/
def CharsetGap (declared : List String) (contentType : ContentType) : Prop :=
  ∃ media d, IsMediaType media ∧
    declaredAs? declared (inUtf8 media) = some d ∧
    negotiate declared contentType = some d ∧
    ∃ header, contentType = .provided header ∧ header.charset = none

/-- Only a header that names no media type has the empty class. -/
theorem keyClass_ne_empty {header : Option String}
    (h : ∀ c, parse header = .provided c → c.charset ≠ none ∧ c.mediaType ≠ "") :
    (parse header).keyClass ≠ "" := by
  cases hparse : parse header with
  | notProvided => decide
  | provided c =>
    obtain ⟨hcharset, hmedia⟩ := h c hparse
    obtain ⟨charset, hsome⟩ := Option.ne_none_iff_exists'.mp hcharset
    rw [keyClass, equivalents, hsome]
    exact hmedia

theorem eq_empty_of_asciiLower (h : asciiLower d = "") : d = "" := by
  have hlist := congrArg String.toList h
  rw [asciiLower, String.toList_ofList, String.toList_empty, List.map_eq_nil_iff] at hlist
  exact String.toList_eq_nil_iff.mp hlist

/-- **The foreseen classes stand in for every header**, up to the two gaps. -/
theorem standsIn_or_gap (declared : List String) (header : Option String) :
    StandsIn declared (parse header) ∨ EmptyGap declared (parse header) ∨
      CharsetGap declared (parse header) := by
  cases header with
  | none => exact Or.inl (standsIn_of_notProvided rfl)
  | some text =>
    by_cases hblank : trim text.toList = []
    · exact Or.inl (standsIn_of_notProvided (by rw [parse_eq_notProvided hblank]))
    · have hclean := clean_cleaned text
      have hnames := equivalents_parse hblank
      cases hclass : declaredAs? declared (String.ofList (classOf (cleaned text))) with
      | some d =>
        by_cases hne : classOf (cleaned text) = []
        · -- the empty media type, under the empty class
          rw [hne] at hclass
          obtain rfl := eq_empty_of_asciiLower (asciiLower_of_declaredAs? hclass)
          refine Or.inr (Or.inl ⟨?_, hclass, ?_⟩)
          · rw [keyClass_of_equivalents hnames, hne, String.ofList_nil]
          · rw [negotiate_eq declared hnames, hne, hclass]
            rfl
        · exact Or.inl (standsIn_of_class hclean hnames hne hclass)
      | none =>
        cases hfull : declaredAs? declared (fullNameOf (cleaned text)) with
        | none => exact Or.inl (standsIn_of_no_name hnames hclass hfull)
        | some d =>
          cases hparam : parameterOf (cleaned text) with
          | some parameter => exact Or.inl (standsIn_of_parameter hclean hnames hparam hfull)
          | none =>
            -- UTF-8 was added to the name, but not to the class
            obtain ⟨header, hheader, -, -, hcharset⟩ := parse_eq_provided hblank
            refine Or.inr (Or.inr ⟨mediaOf (cleaned text), d, isMediaType_mediaOf hclean, ?_, ?_,
              header, hheader, by rw [hcharset, hparam]; rfl⟩)
            · rwa [fullNameOf, hparam] at hfull
            · rw [negotiate_eq declared hnames, hclass, hfull]
              rfl

/-- **The second gap is closed where the bare media type is not declared**: the class of what is
declared in UTF-8 is the bare media type, and this is taken to mean UTF-8. -/
theorem standsIn_utf8 (h : IsMediaType media) (hne : media ≠ [])
    (hclass : String.ofList media ≠ notProvidedClass)
    (hbare : declaredAs? declared (String.ofList media) = none)
    (hd : declaredAs? declared (inUtf8 media) = some d) :
    ∃ k ∈ foreseenClasses declared, negotiate declared (ofKeyClass k) = some d := by
  have hutf8 : IsParameter "charset=utf-8".toList :=
    ⟨by decide, by decide, by decide, by decide, by decide⟩
  have hclean := clean_withParameter h.clean h.not_mem hutf8
  have hlower : asciiLower d = String.ofList (withParameter media "charset=utf-8".toList) := by
    rw [asciiLower_of_declaredAs? hd, ← asciiLower_ofList hclean.lower, ofList_withParameter]
    exact congrArg asciiLower (by simp [inUtf8, String.append_assoc])
  have hmedia : classOf (withParameter media "charset=utf-8".toList) = media := by
    rw [classOf, parameterOf_withParameter h.not_mem hutf8,
      mediaOf_withParameter h.clean.trimmed h.not_mem]
    rfl
  have hparam := parameterOf_of_not_mem h.not_mem
  have hself : classOf media = media := by
    rw [classOf, hparam]
    rfl
  -- without a parameter, the full name is the one with the character set
  have hfull : fullNameOf media = inUtf8 media := by
    rw [fullNameOf, hparam, mediaOf_of_not_mem h.not_mem, h.clean.trimmed.trim_eq, inUtf8]
  have hkeyClass := keyClass_of_asciiLower hclean (by simp [withParameter]) hlower
  rw [hmedia] at hkeyClass
  refine ⟨_, hkeyClass ▸ keyClass_mem_foreseenClasses (mem_of_declaredAs? hd), ?_⟩
  rw [ofKeyClass, if_neg hclass, negotiate_eq declared (parse_clean h.clean hne), hself, hbare,
    hfull, hd]
  rfl

/-! ### Headers in the gaps -/

theorem declaredAs?_empty (h : "" ∈ declared) : declaredAs? declared "" = some "" := by
  cases hd : declaredAs? declared "" with
  | some d => rw [eq_empty_of_asciiLower (asciiLower_of_declaredAs? hd)]
  | none =>
    have hnot := List.find?_eq_none.mp hd "" h
    exact absurd (by decide) hnot

/-- A header with nothing but a boundary has the empty class. -/
theorem keyClass_of_boundary : (parse (some ";boundary=x")).keyClass = "" := by
  decide

theorem negotiate_of_boundary (h : "" ∈ declared) :
    negotiate declared (parse (some ";boundary=x")) = some "" := by
  have hnames : (parse (some ";boundary=x")).equivalents = namesOf [] := by decide
  have hempty : declaredAs? declared (String.ofList (classOf [])) = some "" := declaredAs?_empty h
  rw [negotiate_eq declared hnames, hempty]
  rfl

theorem length_asciiLower (s : String) : (asciiLower s).length = s.length := by
  rw [asciiLower, String.length_ofList, List.length_map, String.length_toList]

theorem exists_length_le (l : List String) : ∃ n, ∀ s ∈ l, s.length ≤ n := by
  induction l with
  | nil => exact ⟨0, by simp⟩
  | cons t l ih =>
    obtain ⟨n, hn⟩ := ih
    refine ⟨max t.length n, fun s hs => ?_⟩
    rcases List.mem_cons.mp hs with rfl | hs
    · exact le_max_left _ _
    · exact (hn s hs).trans (le_max_right _ _)

/-- No declared media type is spelled as a name that is longer than all of them. -/
theorem declaredAs?_of_long (h : ∀ d ∈ declared, d.length < name.length) :
    declaredAs? declared name = none := by
  cases hd : declaredAs? declared name with
  | none => rfl
  | some d =>
    have hlength := congrArg String.length (asciiLower_of_declaredAs? hd)
    rw [length_asciiLower, length_asciiLower] at hlength
    exact absurd (h d (mem_of_declaredAs? hd)) (by omega)

/-- A header of a media type and blank parameters. -/
def blankHeader (media : List Char) (n : Nat) : String :=
  String.ofList (withBlankParameters media n)

theorem lt_length_blankHeader (media : List Char) (n : Nat) : n < (blankHeader media n).length := by
  rw [blankHeader, String.length_ofList, withBlankParameters, List.length_append,
    List.length_replicate]
  omega

theorem equivalents_blankHeader (h : IsMediaType media) (n : Nat) :
    (parse (some (blankHeader media n))).equivalents = namesOf (withBlankParameters media n) :=
  parse_clean (clean_withBlankParameters h.clean h.not_mem n) (by simp [withBlankParameters])

theorem classOf_withBlankParameters (h : IsMediaType media) (n : Nat) :
    classOf (withBlankParameters media n) = withBlankParameters media n := by
  rw [classOf, parameterOf_withBlankParameters h.not_mem]
  rfl

/-- Blank parameters stay in the class of a header, -/
theorem keyClass_blankHeader (h : IsMediaType media) (n : Nat) :
    (parse (some (blankHeader media n))).keyClass = blankHeader media n := by
  rw [keyClass_of_equivalents (equivalents_blankHeader h n), classOf_withBlankParameters h, blankHeader]

/-- but UTF-8 is added as if there were none. With enough of them, no class can be the same. -/
theorem negotiate_blankHeader (h : IsMediaType media) {n : Nat} (hlong : ∀ d ∈ declared, d.length ≤ n)
    (hd : declaredAs? declared (inUtf8 media) = some d) :
    negotiate declared (parse (some (blankHeader media n))) = some d := by
  have hclass : declaredAs? declared (blankHeader media n) = none :=
    declaredAs?_of_long fun d hd => (hlong d hd).trans_lt (lt_length_blankHeader media n)
  have hfull : fullNameOf (withBlankParameters media n) = inUtf8 media := by
    rw [fullNameOf, parameterOf_withBlankParameters h.not_mem,
      mediaOf_withBlankParameters h.clean.trimmed h.not_mem, inUtf8]
  rw [negotiate_eq declared (equivalents_blankHeader h n), classOf_withBlankParameters h, ← blankHeader,
    hclass, hfull, hd]
  rfl

end ContentType

end RequestGate
