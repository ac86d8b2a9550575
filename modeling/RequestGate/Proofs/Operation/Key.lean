import RequestGate.Operation.Key
import RequestGate.Proofs.Media.ContentType
import RequestGate.Proofs.Text.Lowercase

/-!
# What a key forgets

A key is method, route and content class in small letters, joined with dashes. Each of the three may
hold dashes itself, so of two things no trace is left: of the case of letters, in any script, and of
where one part ends and the next begins. Nothing else is forgotten
(`RequestGate.OperationKey.of_eq_of_iff`): two keys are equal exactly if the dashes cut the three parts
in small letters, one after the other, into the same *words*.

Where the boundaries are in the same places, only letter case is left to go wrong. In particular keys
tell routes apart that differ in more than that.
-/

namespace RequestGate.OperationKey

open Text

/-- The pieces of a text in small letters between its dashes. -/
def words (s : String) : List String :=
  split '-' (lowercase s)

/-- The number of dashes in a text. -/
def dashes (s : String) : Nat :=
  s.toList.count '-'

variable {m₁ r₁ k₁ m₂ r₂ k₂ : String}

theorem toList_lowercase (s : String) : (lowercase s).toList = lowerAfter [] s.toList :=
  String.toList_ofList

/-- The text of a key: its parts are lower-cased on their own. -/
theorem toList_text_ofClass (method route keyClass : String) :
    (ofClass method route keyClass).text.toList =
      (lowercase method).toList ++ '-' ::
        ((lowercase route).toList ++ '-' :: (lowercase keyClass).toList) := by
  have hjoined : (method ++ "-" ++ route ++ "-" ++ keyClass).toList =
      method.toList ++ '-' :: (route.toList ++ '-' :: keyClass.toList) := by
    simp
  rw [ofClass, toList_lowercase, hjoined, lowerAfter_append_dash, lowerAfter_append_dash,
    toList_lowercase, toList_lowercase, toList_lowercase]

/-- A key is at least as long as its class. -/
theorem length_le_length_text (method route keyClass : String) :
    keyClass.length ≤ (ofClass method route keyClass).text.length := by
  have hclass := length_le_length_lowerAfter [] keyClass.toList
  rw [← String.length_toList, ← String.length_toList, toList_text_ofClass, toList_lowercase keyClass]
  simp only [List.length_append, List.length_cons]
  omega

/-- **The words of a key are those of its parts.** -/
theorem split_text_ofClass (method route keyClass : String) :
    split '-' (ofClass method route keyClass).text = words method ++ words route ++ words keyClass := by
  rw [split, toList_text_ofClass, splitOn_append_sep, splitOn_append_sep, List.map_append,
    List.map_append, List.append_assoc]
  rfl

theorem split_injective (sep : Char) : Function.Injective (split sep) := by
  intro s t h
  have hpieces := List.map_injective_iff.mpr (fun _ _ => String.ofList_injective) h
  exact String.toList_inj.mp (splitOn_injective sep hpieces)

/-- **Keys are equal exactly if their words are.** -/
theorem ofClass_eq_ofClass_iff :
    ofClass m₁ r₁ k₁ = ofClass m₂ r₂ k₂ ↔
      words m₁ ++ words r₁ ++ words k₁ = words m₂ ++ words r₂ ++ words k₂ := by
  rw [← split_text_ofClass, ← split_text_ofClass, (split_injective '-').eq_iff]
  constructor
  · intro h
    rw [h]
  · intro h
    cases hk₁ : ofClass m₁ r₁ k₁
    cases hk₂ : ofClass m₂ r₂ k₂
    simpa [hk₁, hk₂] using h

/-! ### Boundaries in the same places -/

theorem length_words (s : String) : (words s).length = dashes s + 1 := by
  rw [words, split, List.length_map, length_splitOn, toList_lowercase, count_dash_lowerAfter, dashes]

theorem words_eq_iff {s t : String} : words s = words t ↔ lowercase s = lowercase t :=
  (split_injective '-').eq_iff

/-- With as many dashes in the methods and as many in the classes, the parts are in the same
places. -/
theorem ofClass_eq_ofClass_iff_of_dashes (hm : dashes m₁ = dashes m₂) (hk : dashes k₁ = dashes k₂) :
    ofClass m₁ r₁ k₁ = ofClass m₂ r₂ k₂ ↔
      lowercase m₁ = lowercase m₂ ∧ lowercase r₁ = lowercase r₂ ∧ lowercase k₁ = lowercase k₂ := by
  rw [ofClass_eq_ofClass_iff, ← words_eq_iff, ← words_eq_iff, ← words_eq_iff]
  constructor
  · intro h
    have hmlength : (words m₁).length = (words m₂).length := by rw [length_words, length_words, hm]
    have hklength : (words k₁).length = (words k₂).length := by rw [length_words, length_words, hk]
    obtain ⟨hfront, hkeyClass⟩ := List.append_inj' h hklength
    obtain ⟨hmethod, hroute⟩ := List.append_inj hfront hmlength
    exact ⟨hmethod, hroute, hkeyClass⟩
  · rintro ⟨hmethod, hroute, hkeyClass⟩
    rw [hmethod, hroute, hkeyClass]

/-- Methods and classes that have their dashes alike and are in ASCII. -/
structure Aligned (m₁ k₁ m₂ k₂ : String) : Prop where
  dashes_method : dashes m₁ = dashes m₂
  dashes_keyClass : dashes k₁ = dashes k₂
  ascii_methods : IsAscii m₁ ∧ IsAscii m₂
  ascii_keyClasses : IsAscii k₁ ∧ IsAscii k₂

theorem lowercase_eq_iff_of_ascii {s t : String} (hs : IsAscii s) (ht : IsAscii t) :
    lowercase s = lowercase t ↔ eqIgnoreAsciiCase s t = true := by
  rw [lowercase_of_ascii hs, lowercase_of_ascii ht, eqIgnoreAsciiCase, beq_iff_eq]

/-- **What a key forgets.** The keys of two look-ups are equal exactly if their words are the same. So
if methods and classes are aligned, equal keys mean the same method up to ASCII case, the same route
and the same class, exactly if the two routes do not differ in nothing but letter case. -/
theorem of_eq_of_iff (m₁ r₁ m₂ r₂ : String) (h₁ h₂ : Option String) :
    (of m₁ r₁ (.parse h₁) = of m₂ r₂ (.parse h₂) ↔
      words m₁ ++ words r₁ ++ words (ContentType.parse h₁).keyClass =
        words m₂ ++ words r₂ ++ words (ContentType.parse h₂).keyClass) ∧
    (Aligned m₁ (ContentType.parse h₁).keyClass m₂ (ContentType.parse h₂).keyClass →
      ((of m₁ r₁ (.parse h₁) = of m₂ r₂ (.parse h₂) →
          eqIgnoreAsciiCase m₁ m₂ = true ∧ r₁ = r₂ ∧
            (ContentType.parse h₁).keyClass = (ContentType.parse h₂).keyClass) ↔
        (eqIgnoreAsciiCase m₁ m₂ = true →
          (ContentType.parse h₁).keyClass = (ContentType.parse h₂).keyClass →
          lowercase r₁ = lowercase r₂ → r₁ = r₂))) := by
  refine ⟨ofClass_eq_ofClass_iff, fun h => ?_⟩
  have hkeys : of m₁ r₁ (.parse h₁) = of m₂ r₂ (.parse h₂) ↔
      lowercase m₁ = lowercase m₂ ∧ lowercase r₁ = lowercase r₂ ∧
        lowercase (ContentType.parse h₁).keyClass = lowercase (ContentType.parse h₂).keyClass :=
    ofClass_eq_ofClass_iff_of_dashes h.dashes_method h.dashes_keyClass
  -- classes are in small letters already, so lower-casing leaves them as they are
  have hclass : lowercase (ContentType.parse h₁).keyClass =
      lowercase (ContentType.parse h₂).keyClass ↔
        (ContentType.parse h₁).keyClass = (ContentType.parse h₂).keyClass := by
    rw [lowercase_of_ascii h.ascii_keyClasses.1, lowercase_of_ascii h.ascii_keyClasses.2,
      ContentType.asciiLower_keyClass, ContentType.asciiLower_keyClass]
  rw [lowercase_eq_iff_of_ascii h.ascii_methods.1 h.ascii_methods.2, hclass] at hkeys
  constructor
  · intro himp hm hk hr
    exact (himp (hkeys.mpr ⟨hm, hr, hk⟩)).2.1
  · intro himp heq
    obtain ⟨hm, hr, hk⟩ := hkeys.mp heq
    exact ⟨hm, himp hm hk hr, hk⟩

/-- Keys of aligned look-ups tell routes apart. -/
theorem of_eq_of_iff_aligned :
    Aligned "GET" (ContentType.parse none).keyClass "get" (ContentType.parse none).keyClass ∧
      of "GET" "/pet-stores" (.parse none) ≠ of "get" "/pets" (.parse none) := by
  have h : Aligned "GET" (ContentType.parse none).keyClass "get"
      (ContentType.parse none).keyClass :=
    ⟨by decide, by decide, by decide, by decide⟩
  refine ⟨h, fun heq => ?_⟩
  have hlower : lowercase "/pet-stores" = lowercase "/pets" → "/pet-stores" = "/pets" := by
    decide
  obtain ⟨-, hroute, -⟩ := ((of_eq_of_iff "GET" "/pet-stores" "get" "/pets" none none).2 h).mpr
    (fun _ _ => hlower) heq
  exact absurd hroute (by decide)

/-- Keys conflate routes that differ in letter case, and a route and a class with others between which
the boundary has moved. -/
theorem of_conflates :
    of "get" "/Pets" (.parse none) = of "get" "/pets" (.parse none) ∧
      of "post" "/a" (.parse (some "x-y/z")) = of "post" "/a-x" (.parse (some "y/z")) ∧
      of "get-/a" "b" (.parse none) = of "get" "/a-b" (.parse none) := by
  decide

end RequestGate.OperationKey
