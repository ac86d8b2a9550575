import RequestGate.Proofs.Media.Boundary
import RequestGate.Proofs.Media.Negotiation
import RequestGate.Proofs.Operation.Key

/-!
# Headers rebuilt from their class

What is built ahead of time is built for a class, without a header to look at. So a class is made
into a content type again, the one of a header that reads like the class, and what is built for it
is filed under the class. That is sound as long as the content type has the class that it was made
from.

A class is clean text with no parameter, and such text is its own class. One class is not like that:
the empty one. A header whose media type is empty but which has a parameter, like `; charset=utf-8`,
is of the empty class, and the empty text is a blank header, which counts as none. Nothing else goes
wrong (`RequestGate.ContentType.rebuilt_iff`).
-/

namespace RequestGate.ContentType

open Text

variable {cs rest : List Char} {header : String}

/-! ### Classes that are rebuilt -/

/-- **Clean text without a parameter is rebuilt**, be it the text that stands for no header. -/
theorem keyClass_ofKeyClass (h : Clean cs) (hne : cs ≠ []) (hparam : parameterOf cs = none) :
    (ofKeyClass (String.ofList cs)).keyClass = String.ofList cs := by
  rw [ofKeyClass]
  split
  · rename_i hclass
    exact hclass.symm
  · rw [keyClass_of_equivalents (parse_clean h hne), classOf, hparam]
    rfl

/-- The empty class is taken for that of no header. -/
theorem keyClass_ofKeyClass_empty : (ofKeyClass "").keyClass = notProvidedClass := by decide

theorem keyClass_ofKeyClass_parse_iff (header : Option String) :
    (ofKeyClass (parse header).keyClass).keyClass = (parse header).keyClass ↔
      (parse header).keyClass ≠ "" := by
  refine ⟨fun h hempty => ?_, fun h => ?_⟩
  · rw [hempty, keyClass_ofKeyClass_empty] at h
    exact absurd h (by decide)
  · cases header with
    | none => decide
    | some header =>
      by_cases hblank : trim header.toList = []
      · rw [parse_eq_notProvided hblank]
        decide
      · rw [keyClass_parse hblank] at h ⊢
        have hne : classOf (cleaned header) ≠ [] := fun hnil => h (by rw [hnil])
        exact keyClass_ofKeyClass (clean_classOf (clean_cleaned header)) hne (parameterOf_classOf _)

/-! ### The empty class -/

/-- A media type is empty if, apart from blanks, nothing or a semicolon comes first. -/
theorem mediaOf_eq_nil_iff : mediaOf cs = [] ↔ ∀ c ∈ (trimStart cs).head?, c = ';' := by
  rcases exists_pieces cs with h | ⟨first, rest, h, rfl⟩
  · rw [mediaOf_of_not_mem h, trim_eq_nil_iff]
    constructor
    · intro hnil c hc
      simp [hnil] at hc
    · intro hsemi
      by_contra hne
      obtain ⟨c, rest, hcs⟩ := List.exists_cons_of_ne_nil hne
      have hmem : c ∈ cs := (trimStart_sublist cs).subset (by rw [hcs]; exact List.mem_cons_self)
      exact h (hsemi c (by rw [hcs]; rfl) ▸ hmem)
  · rw [mediaOf_piece h, trim_eq_nil_iff, trimStart_append_cons (by decide)]
    cases hfirst : trimStart first with
    | nil => simp
    | cons c piece =>
      have hmem : c ∈ first :=
        (trimStart_sublist first).subset (by rw [hfirst]; exact List.mem_cons_self)
      have hc : c ≠ ';' := fun hc => h (hc ▸ hmem)
      simp [hc]

theorem toLower_eq_semicolon_iff {c : Char} : c.toLower = ';' ↔ c = ';' := by
  constructor
  · intro h
    have hlower : c.toLower.isLower = false := by rw [h]; decide
    rw [← h, toLower_eq_self hlower]
  · rintro rfl
    decide

/-- What is left of a text leads with the same character, if that is no semicolon. -/
theorem mediaOf_ne_nil_of_left (h : mediaOf rest ≠ []) :
    mediaOf (trimEnd (stripBoundary (rest.map Char.toLower))) ≠ [] := by
  rw [Ne, mediaOf_eq_nil_iff] at h ⊢
  push Not at h ⊢
  obtain ⟨c, hc, hsemi⟩ := h
  obtain ⟨tail, htail⟩ := List.head?_eq_some_iff.mp hc
  have hblank : isBlank c = false := isBlank_of_head?_trimStart hc
  -- the blanks in front are passed over, and then comes the character
  set blanks := (rest.takeWhile isBlank).map Char.toLower with hblanks
  have hall : ∀ d ∈ blanks, isBlank d = true := by
    intro d hd
    obtain ⟨e, he, rfl⟩ := List.mem_map.mp hd
    rw [isBlank_toLower, List.mem_takeWhile_imp he]
  have hsplit : rest = rest.takeWhile isBlank ++ c :: tail := by
    rw [← htail, trimStart, List.takeWhile_append_dropWhile]
  have hrest : rest.map Char.toLower = (blanks ++ [c.toLower]) ++ tail.map Char.toLower := by
    refine (congrArg (List.map Char.toLower) hsplit).trans ?_
    simp [hblanks]
  have hnot : ';' ∉ blanks ++ [c.toLower] := by
    rw [List.mem_append, List.mem_singleton, not_or]
    refine ⟨fun hmem => ?_, fun hc => hsemi (toLower_eq_semicolon_iff.mp hc.symm)⟩
    have hsemicolon := hall ';' hmem
    revert hsemicolon
    decide
  have hlower : isBlank c.toLower = false := by rw [isBlank_toLower, hblank]
  refine ⟨c.toLower, ?_, fun hc => hsemi (toLower_eq_semicolon_iff.mp hc)⟩
  rw [hrest, stripBoundary_append hnot, List.append_assoc, List.singleton_append,
    trimEnd_append_cons hlower, trimStart_append_cons hlower, trimStart,
    List.dropWhile_eq_nil_iff.mpr hall]
  rfl

theorem mediaOf_left_of_nil (h : mediaOf rest = []) :
    mediaOf (trimEnd (stripBoundary (rest.map Char.toLower))) = [] := by
  rw [mediaOf_eq_nil_iff] at h ⊢
  intro c hc
  have hfront := head?_trimStart_of_front ((trimEnd_front _).trans (stripBoundary_front _)) hc
  rw [trimStart_map_toLower, List.head?_map] at hfront
  obtain ⟨d, hd, rfl⟩ := Option.map_eq_some_iff.mp hfront
  exact toLower_eq_semicolon_iff.mpr (h d hd)

/-- Whether a header begins with a parameter, its media type being empty. -/
def StartsWithParameter (header : String) : Prop :=
  ∃ rest, trim header.toList = ';' :: rest ∧ mediaOf rest ≠ []

theorem classOf_cons_ne_nil {c : Char} (hc : c ≠ ';') (hblank : isBlank c = false)
    (cs : List Char) :
    classOf (c :: cs) ≠ [] := by
  rw [classOf]
  split
  · rw [Ne, mediaOf_eq_nil_iff, trimStart, List.dropWhile_cons_of_neg (by simp [hblank])]
    exact fun hsemi => hc (hsemi c rfl)
  · exact List.cons_ne_nil c cs

/-- After a semicolon, a class is empty if a parameter comes next. -/
theorem classOf_semicolon (cs : List Char) : classOf (';' :: cs) = [] ↔ mediaOf cs ≠ [] := by
  have hnil : ';' ∉ ([] : List Char) := List.not_mem_nil
  have hmedia : mediaOf (';' :: cs) = [] := mediaOf_piece hnil cs
  have hparam : parameterOf (';' :: cs) = if mediaOf cs = [] then none else some (mediaOf cs) :=
    parameterOf_piece hnil cs
  rw [classOf, hmedia, hparam]
  by_cases hcs : mediaOf cs = []
  · simp [hcs]
  · simp [hcs]

/-- **A class is empty** if its header begins with a parameter. -/
theorem classOf_cleaned_eq_nil_iff (h : trim header.toList ≠ []) :
    classOf (cleaned header) = [] ↔ StartsWithParameter header := by
  obtain ⟨c, rest, hheader⟩ := List.exists_cons_of_ne_nil h
  have hblank : isBlank c = false := (trimmed_trim header.toList).front c (by rw [hheader]; rfl)
  have hlower : isBlank c.toLower = false := by rw [isBlank_toLower, hblank]
  rw [StartsWithParameter, hheader, cleaned, hheader, List.map_cons, stripBoundary_cons]
  by_cases hc : c = ';'
  · subst hc
    have hstarts : (∃ r, ';' :: rest = ';' :: r ∧ mediaOf r ≠ []) ↔ mediaOf rest ≠ [] := by simp
    rw [hstarts]
    split
    · -- a boundary is a parameter, too
      rename_i hboundary
      obtain ⟨tail, htail⟩ := startsWith_iff.mp hboundary.2
      refine iff_of_true rfl fun hnil => ?_
      have hb : 'b' ∈ (trimStart (rest.map Char.toLower)).head? := by rw [← htail]; rfl
      rw [trimStart_map_toLower, List.head?_map] at hb
      obtain ⟨d, hd, hdb⟩ := Option.map_eq_some_iff.mp hb
      rw [mediaOf_eq_nil_iff.mp hnil d hd] at hdb
      revert hdb
      decide
    · have hend : trimEnd (';'.toLower :: stripBoundary (rest.map Char.toLower)) =
          ';' :: trimEnd (stripBoundary (rest.map Char.toLower)) :=
        trimEnd_append_cons (by decide) [] _
      rw [hend, classOf_semicolon]
      exact ⟨mt mediaOf_left_of_nil, mediaOf_ne_nil_of_left⟩
  · have hcl : c.toLower ≠ ';' := fun h => hc (toLower_eq_semicolon_iff.mp h)
    rw [if_neg fun hand => hcl hand.1]
    have hend : trimEnd (c.toLower :: stripBoundary (rest.map Char.toLower)) =
        c.toLower :: trimEnd (stripBoundary (rest.map Char.toLower)) :=
      trimEnd_append_cons hlower [] _
    rw [hend]
    refine iff_of_false (classOf_cons_ne_nil hcl hlower _) ?_
    rintro ⟨r, hr, -⟩
    exact hc (List.cons.inj hr).1

theorem keyClass_eq_empty_iff (header : Option String) :
    (parse header).keyClass = "" ↔ ∃ text ∈ header, StartsWithParameter text := by
  cases header with
  | none => exact iff_of_false (by decide) (by simp)
  | some header =>
    have htext : (∃ text ∈ some header, StartsWithParameter text) ↔
        StartsWithParameter header := by simp
    rw [htext]
    by_cases hblank : trim header.toList = []
    · rw [parse_eq_notProvided hblank]
      refine iff_of_false (by decide) ?_
      rintro ⟨rest, hrest, -⟩
      rw [hblank] at hrest
      cases hrest
    · have hempty : "" = String.ofList [] := rfl
      rw [keyClass_parse hblank, ← classOf_cleaned_eq_nil_iff hblank, hempty, String.ofList_inj]

/-- Keys of the empty class and of the class of no header are different. -/
theorem of_eq_of_rebuilt_iff (method route : String) (header : Option String) :
    OperationKey.of method route (ofKeyClass (parse header).keyClass) =
        OperationKey.of method route (parse header) ↔ (parse header).keyClass ≠ "" := by
  refine ⟨fun h hempty => ?_, fun h => ?_⟩
  · rw [OperationKey.of, OperationKey.of, hempty, keyClass_ofKeyClass_empty,
      OperationKey.ofClass_eq_ofClass_iff_of_dashes rfl (by decide)] at h
    exact absurd h.2.2 (by decide)
  · rw [OperationKey.of, OperationKey.of, (keyClass_ofKeyClass_parse_iff header).mpr h]

/-- **A header is rebuilt from its class** unless it begins with a parameter. What is rebuilt has
the class that it was made from, and is served under the key of the header, whatever the operation;
of a header that names no media type before its first parameter neither is true. -/
theorem rebuilt_iff (header : Option String) :
    ((ofKeyClass (parse header).keyClass).keyClass = (parse header).keyClass ↔
        ∀ text ∈ header, ¬StartsWithParameter text) ∧
      ∀ method route, OperationKey.of method route (ofKeyClass (parse header).keyClass) =
          OperationKey.of method route (parse header) ↔
        ∀ text ∈ header, ¬StartsWithParameter text := by
  have hempty : (parse header).keyClass ≠ "" ↔ ∀ text ∈ header, ¬StartsWithParameter text := by
    rw [Ne, keyClass_eq_empty_iff]
    push Not
    rfl
  exact ⟨(keyClass_ofKeyClass_parse_iff header).trans hempty,
    fun method route => (of_eq_of_rebuilt_iff method route header).trans hempty⟩

/-- A character set alone is of the empty class, and what is rebuilt from that is no header at
all. -/
theorem charset_alone_not_rebuilt :
    (parse (some "; charset=utf-8")).keyClass = "" ∧
      (ofKeyClass (parse (some "; charset=utf-8")).keyClass).keyClass ≠
        (parse (some "; charset=utf-8")).keyClass := by
  decide

end RequestGate.ContentType
