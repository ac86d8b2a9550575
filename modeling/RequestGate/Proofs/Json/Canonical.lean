import Mathlib.Data.List.Perm.Basic
import RequestGate.Digest.Canonical
import RequestGate.Proofs.Entries
import RequestGate.Proofs.Json.Measures
import RequestGate.Proofs.Number.Text

/-!
# What canonical text tells

A fingerprint is taken of canonical text, so what two values with one fingerprint have in common is
what can be read off their canonical text (`RequestGate.Json.Alike`). The text of a value can be cut
off wherever it stands (`RequestGate.Json.apart_canonical`): a string ends at its quote, a number where
no character of a number follows, and an array or an object at its bracket. Therefore alike arrays have
alike items, and alike objects have the same keys with alike values, in whatever order
(`RequestGate.Json.Alike.exists_obj`).

Two things cannot be read off: the order of members, and how a number is represented. The whole number
`1` and the double `1.0` are alike.
-/

namespace RequestGate.Json

open Text

variable {a b : Json} {c : Char} {cs rest rest' t t' : List Char}

/-! ### Texts that can be cut off -/

/-- Whether a value must have ended before the text. -/
def Stops (rest : List Char) : Prop :=
  ∀ c ∈ rest.head?, c = ',' ∨ c = ']' ∨ c = '\x7d'

/-- Neither of two texts is confused with the other, whatever follows behind a value. -/
def Apart (t t' : List Char) : Prop :=
  ∀ rest rest', Stops rest → Stops rest' → t ++ rest = t' ++ rest' → t = t' ∧ rest = rest'

theorem stops_cons (h : c = ',' ∨ c = ']' ∨ c = '\x7d') (rest : List Char) : Stops (c :: rest) := by
  rintro d ⟨⟩
  exact h

/-- Equal beginnings can be taken off. -/
theorem apart_of_eq (h : t = t') : Apart t t' := by
  subst h
  exact fun rest rest' _ _ heq => ⟨rfl, List.append_cancel_left heq⟩

/-! ### Strings -/

/-- **A quoted string ends at its quote**, whatever follows. -/
theorem quote_append_inj {s s' : String}
    (h : (quote s).toList ++ rest = (quote s').toList ++ rest') : s = s' ∧ rest = rest' := by
  have hread : ∀ (s : String) (rest : List Char),
      readString? ((quote s).toList ++ rest).tail = some (s, rest) := by
    intro s rest
    have htail : ((quote s).toList ++ rest).tail = s.toList.flatMap escapeChar ++ '"' :: rest := by
      simp [quote]
    rw [htail, readString?_escaped, String.ofList_toList]
  have hsome : some (s, rest) = some (s', rest') := by
    rw [← hread s rest, h, hread s' rest']
  obtain ⟨hs, hrest⟩ := Prod.mk.inj (Option.some.inj hsome)
  exact ⟨hs, hrest⟩

/-! ### Numbers -/

/-- A character of a number. -/
def isNumeral (c : Char) : Bool :=
  c.isDigit || c == '-' || c == '+' || c == '.' || c == 'e'

/-- A text of characters of numbers, and of one at least. -/
def Numeral (t : List Char) : Prop := t ≠ [] ∧ ∀ c ∈ t, isNumeral c = true

theorem isNumeral_of_isDigit (h : c.isDigit = true) : isNumeral c = true := by
  simp [isNumeral, h]

theorem numeral_toDigits (n : Nat) : Numeral (Nat.toDigits 10 n) :=
  ⟨Nat.toDigits_ne_nil, fun _ hc => isNumeral_of_isDigit (isDigit_of_mem_toDigits hc)⟩

theorem Numeral.append_left (h : Numeral t) (ht : ∀ c ∈ t', isNumeral c = true) :
    Numeral (t' ++ t) :=
  ⟨List.append_ne_nil_of_right_ne_nil _ h.1, fun c hc => (List.mem_append.mp hc).elim (ht c) (h.2 c)⟩

theorem Numeral.append_right (h : Numeral t) (ht : ∀ c ∈ t', isNumeral c = true) :
    Numeral (t ++ t') :=
  ⟨List.append_ne_nil_of_left_ne_nil h.1 _, fun c hc => (List.mem_append.mp hc).elim (h.2 c) (ht c)⟩

theorem isNumeral_of_mem_zeros {n : Nat} (h : c ∈ (Number.zeros n).toList) : isNumeral c = true := by
  rw [Number.toList_zeros] at h
  exact isNumeral_of_isDigit (isDigit_of_mem_zeros h)

theorem numeral_withPoint (n k : Nat) : Numeral (Number.withPoint (toString n) k).toList := by
  rw [Number.toList_withPoint, Number.toList_digits]
  refine ⟨by simp, fun c hc => ?_⟩
  have hdigits := (numeral_toDigits n).2
  rcases List.mem_append.mp hc with hc | hc
  · exact hdigits c (List.mem_of_mem_take hc)
  · rcases List.mem_cons.mp hc with rfl | hc
    · rfl
    · exact hdigits c (List.mem_of_mem_drop hc)

theorem numeral_layout (format : Number.FloatFormat)
    (hsuffix : ∀ c ∈ format.wholeSuffix.toList, isNumeral c = true) (d : Binary64.Decimal) :
    Numeral (format.layout d).toList := by
  have hdigits : Numeral (toString d.digits).toList := by
    rw [Number.toList_digits]
    exact numeral_toDigits d.digits
  rw [Number.FloatFormat.layout]
  -- with an exponent or not, and then by where the point falls
  split
  · split
    · rw [String.toList_append, String.toList_append]
      refine (hdigits.append_right fun c hc => ?_).append_right hsuffix
      exact isNumeral_of_mem_zeros hc
    · split
      · exact numeral_withPoint _ _
      · rw [String.toList_append, String.toList_append]
        refine hdigits.append_left fun c hc => ?_
        rcases List.mem_append.mp hc with hc | hc
        · exact List.all_eq_true.mp (by decide : "0.".toList.all isNumeral = true) c hc
        · exact isNumeral_of_mem_zeros hc
  · rw [String.append_assoc, String.toList_append, Number.toList_power]
    refine Numeral.append_right ?_ fun c hc => ?_
    · split
      · exact hdigits
      · exact numeral_withPoint _ _
    · rw [powerText] at hc
      rcases List.mem_cons.mp hc with rfl | hc
      · rfl
      · rcases List.mem_cons.mp hc with rfl | hc
        · split <;> rfl
        · exact (numeral_toDigits _).2 c hc

/-- **A number is written with characters of numbers only.** -/
theorem numeral_canonicalText (n : Number) : Numeral n.canonicalText.toList := by
  have hminus : ∀ c ∈ ['-'], isNumeral c = true := List.all_eq_true.mp (by decide)
  cases n with
  | int n =>
    rw [Number.canonicalText, Number.toList_toString]
    refine (numeral_toDigits _).append_left fun c hc => ?_
    split at hc
    · exact hminus c hc
    · cases hc
  | float x =>
    have hlayout := numeral_layout Number.canonicalFloat (by simp [Number.canonicalFloat]) x.shortest
    rw [Number.canonicalText, Number.FloatFormat.render]
    split
    · simp [Number.canonicalFloat, Numeral, isNumeral]
    · split
      · rw [String.toList_append]
        exact hlayout.append_left hminus
      · exact hlayout

/-- **A number ends where no character of a number follows.** -/
theorem Numeral.apart (h : Numeral t) (h' : Numeral t') : Apart t t' := by
  have htake : ∀ {t rest : List Char}, Numeral t → Stops rest →
      (t ++ rest).takeWhile isNumeral = t := by
    intro t rest ht hrest
    have hnone : rest.takeWhile isNumeral = [] := by
      cases rest with
      | nil => rfl
      | cons c rest =>
        refine List.takeWhile_cons_of_neg ?_
        rcases hrest c rfl with rfl | rfl | rfl <;> decide
    rw [List.takeWhile_append_of_pos ht.2, hnone, List.append_nil]
  intro rest rest' hrest hrest' heq
  obtain rfl : t = t' :=
    (htake h hrest).symm.trans ((congrArg _ heq).trans (htake h' hrest'))
  exact ⟨rfl, List.append_cancel_left heq⟩

/-! ### Lists in brackets -/

/-- Whether a text starts with a character that can start a value. -/
def Starts (t : List Char) : Prop := ∃ c ∈ t.head?, c ≠ ',' ∧ c ≠ ']' ∧ c ≠ '\x7d'

theorem intercalate_cons_flatMap (t : List Char) (ts : List (List Char)) :
    [','].intercalate (t :: ts) = t ++ ts.flatMap (',' :: ·) := by
  induction ts generalizing t with
  | nil => simp
  | cons u ts ih => rw [List.intercalate_cons_cons, ih, List.flatMap_cons]; simp

variable {close : Char} {ts ts' : List (List Char)}

/-- What follows an item is a comma and the next one, or the closing bracket. -/
theorem stops_further (hclose : close = ']' ∨ close = '\x7d') (ts : List (List Char))
    (rest : List Char) : Stops (ts.flatMap (',' :: ·) ++ close :: rest) := by
  cases ts with
  | nil => exact stops_cons (Or.inr hclose) rest
  | cons t ts => exact stops_cons (Or.inl rfl) _

theorem further_inj (hclose : close = ']' ∨ close = '\x7d')
    (hapart : ∀ t ∈ ts, ∀ t' ∈ ts', Apart t t')
    (h : ts.flatMap (',' :: ·) ++ close :: rest = ts'.flatMap (',' :: ·) ++ close :: rest') :
    ts = ts' ∧ rest = rest' := by
  have hcomma : close ≠ ',' := by rcases hclose with rfl | rfl <;> decide
  induction ts generalizing ts' with
  | nil =>
    cases ts' with
    | nil => exact ⟨rfl, (List.cons.inj h).2⟩
    | cons t' ts' => exact absurd (List.cons.inj h).1 hcomma
  | cons t ts ih =>
    cases ts' with
    | nil => exact absurd (List.cons.inj h).1.symm hcomma
    | cons t' ts' =>
      simp only [List.flatMap_cons, List.cons_append, List.append_assoc] at h
      obtain ⟨rfl, htail⟩ := hapart t List.mem_cons_self t' List.mem_cons_self _ _
        (stops_further hclose ts rest) (stops_further hclose ts' rest') (List.cons.inj h).2
      obtain ⟨rfl, hrest⟩ := ih (fun u hu u' hu' => hapart u (List.mem_cons_of_mem _ hu) u'
        (List.mem_cons_of_mem _ hu')) htail
      exact ⟨rfl, hrest⟩

/-- **Lists of texts that can be cut off are read off**, up to the bracket that closes them. -/
theorem intercalate_inj (hclose : close = ']' ∨ close = '\x7d') (hts : ∀ t ∈ ts, Starts t)
    (hts' : ∀ t ∈ ts', Starts t) (hapart : ∀ t ∈ ts, ∀ t' ∈ ts', Apart t t')
    (h : [','].intercalate ts ++ close :: rest = [','].intercalate ts' ++ close :: rest') :
    ts = ts' ∧ rest = rest' := by
  -- a list that has a first text is not taken for one that has none
  have hempty : ∀ {t : List Char} (more rest : List Char), Starts t →
      close :: rest ≠ t ++ more := by
    rintro t more rest ⟨c, hc, -, hne, hne'⟩ heq
    have hhead := congrArg List.head? heq
    rw [List.head?_append, hc, Option.some_or] at hhead
    obtain rfl : close = c := Option.some.inj hhead
    exact hclose.elim hne hne'
  cases ts with
  | nil =>
    cases ts' with
    | nil => exact ⟨rfl, (List.cons.inj h).2⟩
    | cons t' ts' =>
      rw [intercalate_cons_flatMap, List.append_assoc] at h
      exact absurd h (hempty _ _ (hts' t' List.mem_cons_self))
  | cons t ts =>
    rw [intercalate_cons_flatMap, List.append_assoc] at h
    cases ts' with
    | nil => exact absurd h.symm (hempty _ _ (hts t List.mem_cons_self))
    | cons t' ts' =>
      rw [intercalate_cons_flatMap, List.append_assoc] at h
      obtain ⟨rfl, htail⟩ := hapart t List.mem_cons_self t' List.mem_cons_self _ _
        (stops_further hclose ts rest) (stops_further hclose ts' rest') h
      obtain ⟨rfl, hrest⟩ := further_inj hclose (fun u hu u' hu' =>
        hapart u (List.mem_cons_of_mem _ hu) u' (List.mem_cons_of_mem _ hu')) htail
      exact ⟨rfl, hrest⟩

/-! ### Values -/

/-- The kind of a value. -/
def kind : Json → Nat
  | .null => 0
  | .bool false => 1
  | .bool true => 2
  | .num _ => 3
  | .str _ => 4
  | .arr _ => 5
  | .obj _ => 6

/-- Two values of one kind: the same constant, or two numbers, texts, arrays or objects. -/
inductive SameKind : Json → Json → Prop
  | null : SameKind .null .null
  | bool (b : Bool) : SameKind (.bool b) (.bool b)
  | num (m n : Number) : SameKind (.num m) (.num n)
  | str (s t : String) : SameKind (.str s) (.str t)
  | arr (items items' : List Json) : SameKind (.arr items) (.arr items')
  | obj (members members' : Entries Json) : SameKind (.obj members) (.obj members')

theorem sameKind_of_kind_eq (h : a.kind = b.kind) : SameKind a b := by
  rcases a with _ | (_ | _) | m | s | items | members <;>
    rcases b with _ | (_ | _) | n | t | items' | members' <;> first | constructor | cases h

/-- The kind of value that a character starts. -/
def kindOf (c : Char) : Nat :=
  match c with
  | 'n' => 0
  | 'f' => 1
  | 't' => 2
  | '"' => 4
  | '[' => 5
  | '\x7b' => 6
  | _ => 3

theorem kindOf_of_isNumeral (h : isNumeral c = true) :
    kindOf c = 3 ∧ c ≠ ',' ∧ c ≠ ']' ∧ c ≠ '\x7d' := by
  have hsmall : c.toNat < 128 := by
    simp only [isNumeral, Bool.or_eq_true, beq_iff_eq] at h
    rcases h with (((h | rfl) | rfl) | rfl) | rfl
    · exact toNat_lt_of_isDigit h
    all_goals decide
  exact forall_ascii
    (P := fun c => isNumeral c = true → kindOf c = 3 ∧ c ≠ ',' ∧ c ≠ ']' ∧ c ≠ '\x7d')
    (by decide) hsmall h

/-- **The first character of a text** tells the kind of the value, and ends none. -/
theorem exists_head_canonical (v : Json) : ∃ c ∈ v.canonical.toList.head?,
    kindOf c = v.kind ∧ c ≠ ',' ∧ c ≠ ']' ∧ c ≠ '\x7d' := by
  cases v with
  | null => exact ⟨'n', by simp [canonical], rfl, by decide⟩
  | bool b =>
    cases b with
    | false => exact ⟨'f', by simp [canonical], rfl, by decide⟩
    | true => exact ⟨'t', by simp [canonical], rfl, by decide⟩
  | num n =>
    obtain ⟨hne, hall⟩ := numeral_canonicalText n
    obtain ⟨c, cs, hcs⟩ := List.exists_cons_of_ne_nil hne
    rw [canonical, hcs]
    exact ⟨c, rfl, kindOf_of_isNumeral (hall c (by simp [hcs]))⟩
  | str s => exact ⟨'"', by simp [canonical, quote], rfl, by decide⟩
  | arr items => exact ⟨'[', by simp [canonical], rfl, by decide⟩
  | obj members => exact ⟨'\x7b', by simp [canonical], rfl, by decide⟩

theorem starts_canonical (v : Json) : Starts v.canonical.toList :=
  let ⟨c, hc, _, hends⟩ := exists_head_canonical v
  ⟨c, hc, hends⟩

/-- Texts that begin alike are of values of one kind. -/
theorem sameKind_of_append (h : a.canonical.toList ++ rest = b.canonical.toList ++ rest') :
    SameKind a b := by
  obtain ⟨c, hc, ha, -⟩ := exists_head_canonical a
  obtain ⟨d, hd, hb, -⟩ := exists_head_canonical b
  have hhead := congrArg List.head? h
  rw [List.head?_append, List.head?_append, hc, hd, Option.some_or, Option.some_or] at hhead
  exact sameKind_of_kind_eq (by rw [← ha, ← hb, Option.some.inj hhead])

theorem canonicalList_eq (items : List Json) : canonicalList items = items.map canonical := by
  induction items with
  | nil => rfl
  | cons a items ih => rw [canonicalList, ih, List.map_cons]

theorem canonicalMembers_eq (members : Entries Json) :
    canonicalMembers members = members.map fun m => (quote m.1, m.2.canonical) := by
  induction members with
  | nil => rfl
  | cons m members ih => rw [canonicalMembers, ih, List.map_cons]

theorem insertByKey_perm (m : String × String) (members : List (String × String)) :
    (insertByKey m members).Perm (m :: members) := by
  induction members with
  | nil => exact .refl _
  | cons next members ih =>
    rw [insertByKey]
    split
    · exact .refl _
    · exact (ih.cons next).trans (.swap m next members)

theorem sortByKey_perm (members : List (String × String)) : (sortByKey members).Perm members := by
  induction members with
  | nil => exact .refl _
  | cons m members ih => exact (insertByKey_perm m _).trans (ih.cons m)

/-- The texts of members are those of their keys and values. -/
theorem exists_of_mem_sortByKey {members : Entries Json} {m : String × String}
    (h : m ∈ sortByKey (canonicalMembers members)) :
    ∃ e ∈ members, (quote e.1, e.2.canonical) = m := by
  rw [(sortByKey_perm _).mem_iff, canonicalMembers_eq] at h
  exact List.mem_map.mp h

theorem pairwise_insertByKey (m : String × String) {members : List (String × String)}
    (h : members.Pairwise fun m n => m.1 ≤ n.1) :
    (insertByKey m members).Pairwise fun m n => m.1 ≤ n.1 := by
  induction members with
  | nil => exact List.pairwise_singleton _ _
  | cons next members ih =>
    obtain ⟨hnext, htail⟩ := List.pairwise_cons.mp h
    rw [insertByKey]
    split
    · rename_i hle
      refine List.pairwise_cons.mpr ⟨fun n hn => ?_, h⟩
      rcases List.mem_cons.mp hn with rfl | hn
      · exact hle
      · exact hle.trans (hnext n hn)
    · rename_i hlt
      refine List.pairwise_cons.mpr ⟨fun n hn => ?_, ih htail⟩
      rcases List.mem_cons.mp ((insertByKey_perm m members).mem_iff.mp hn) with rfl | hn
      · exact (le_total _ _).resolve_right hlt
      · exact hnext n hn

theorem pairwise_sortByKey (members : List (String × String)) :
    (sortByKey members).Pairwise fun m n => m.1 ≤ n.1 := by
  induction members with
  | nil => exact List.Pairwise.nil
  | cons m members ih => exact pairwise_insertByKey m ih

theorem quote_injective {s s' : String} (h : quote s = quote s') : s = s' := by
  have happend : (quote s).toList ++ [] = (quote s').toList ++ [] := by rw [h]
  exact (quote_append_inj happend).1

/-- The keys of an object that repeats none are in the same order, wherever they have been. -/
theorem sortByKey_eq_of_perm {members members' : Entries Json} (hd : Entries.Distinct members)
    (h : (canonicalMembers members).Perm (canonicalMembers members')) :
    sortByKey (canonicalMembers members) = sortByKey (canonicalMembers members') := by
  have hsorted : (sortByKey (canonicalMembers members)).Perm (sortByKey (canonicalMembers members')) :=
    (sortByKey_perm _).trans (h.trans (sortByKey_perm _).symm)
  refine hsorted.eq_of_pairwise (fun m n hm hn hmn hnm => ?_) (pairwise_sortByKey _)
    (pairwise_sortByKey _)
  obtain ⟨e, he, rfl⟩ := exists_of_mem_sortByKey hm
  obtain ⟨o, ho, rfl⟩ := exists_of_mem_sortByKey (hsorted.mem_iff.mpr hn)
  have hkey : e.1 = o.1 := quote_injective (le_antisymm hmn hnm)
  have hvalue : e = o := List.inj_on_of_nodup_map hd he ho hkey
  rw [hvalue]

/-- The text of a member. -/
def memberText (m : String × String) : List Char := (m.1 ++ ":" ++ m.2).toList

theorem memberText_append_inj {s s' v v' : String}
    (h : memberText (quote s, v) ++ rest = memberText (quote s', v') ++ rest') :
    s = s' ∧ v.toList ++ rest = v'.toList ++ rest' := by
  simp only [memberText, String.toList_append, List.append_assoc] at h
  obtain ⟨hs, htail⟩ := quote_append_inj h
  exact ⟨hs, List.append_cancel_left htail⟩

theorem starts_memberText (s v : String) : Starts (memberText (quote s, v)) :=
  ⟨'"', by simp [memberText, quote], by decide⟩

theorem toList_canonical_arr (items : List Json) :
    (canonical (.arr items)).toList =
      '[' :: ([','].intercalate (items.map fun a => a.canonical.toList) ++ [']']) := by
  simp [canonical, canonicalList_eq, String.toList_intercalate, Function.comp_def]

theorem toList_canonical_obj (members : Entries Json) :
    (canonical (.obj members)).toList =
      '\x7b' :: ([','].intercalate ((sortByKey (canonicalMembers members)).map memberText) ++
        ['\x7d']) := by
  have hmap : (sortByKey (canonicalMembers members)).map memberText =
      ((sortByKey (canonicalMembers members)).map fun m => m.1 ++ ":" ++ m.2).map String.toList := by
    rw [List.map_map]
    rfl
  rw [hmap]
  simp only [canonical, String.toList_append, String.toList_intercalate, List.append_assoc]
  rfl

/-- The texts of items are read off if each of them can be. -/
theorem arr_append_inj {items items' : List Json}
    (hapart : ∀ a ∈ items, ∀ b ∈ items', Apart a.canonical.toList b.canonical.toList)
    (h : (canonical (.arr items)).toList ++ rest = (canonical (.arr items')).toList ++ rest') :
    items.map (fun a => a.canonical.toList) = items'.map (fun a => a.canonical.toList) ∧
      rest = rest' := by
  rw [toList_canonical_arr, toList_canonical_arr] at h
  simp only [List.cons_append, List.append_assoc] at h
  have hstarts : ∀ items : List Json, ∀ t ∈ items.map fun a => a.canonical.toList, Starts t := by
    intro items t ht
    obtain ⟨a, -, rfl⟩ := List.mem_map.mp ht
    exact starts_canonical a
  refine intercalate_inj (Or.inl rfl) (hstarts items) (hstarts items') ?_ (List.cons.inj h).2
  intro t ht t' ht'
  obtain ⟨a, ha, rfl⟩ := List.mem_map.mp ht
  obtain ⟨b, hb, rfl⟩ := List.mem_map.mp ht'
  exact hapart a ha b hb

/-- The texts of members, in the order of their keys, are read off if each of their values can be. -/
theorem obj_append_inj {members members' : Entries Json}
    (hapart : ∀ m ∈ members, ∀ m' ∈ members', Apart m.2.canonical.toList m'.2.canonical.toList)
    (h : (canonical (.obj members)).toList ++ rest = (canonical (.obj members')).toList ++ rest') :
    (sortByKey (canonicalMembers members)).map memberText =
      (sortByKey (canonicalMembers members')).map memberText ∧ rest = rest' := by
  rw [toList_canonical_obj, toList_canonical_obj] at h
  simp only [List.cons_append, List.append_assoc] at h
  have hstarts : ∀ members : Entries Json,
      ∀ t ∈ (sortByKey (canonicalMembers members)).map memberText, Starts t := by
    intro members t ht
    obtain ⟨m, hm, rfl⟩ := List.mem_map.mp ht
    obtain ⟨e, -, rfl⟩ := exists_of_mem_sortByKey hm
    exact starts_memberText _ _
  refine intercalate_inj (Or.inr rfl) (hstarts members) (hstarts members') ?_ (List.cons.inj h).2
  intro t ht t' ht'
  obtain ⟨m, hm, rfl⟩ := List.mem_map.mp ht
  obtain ⟨m', hm', rfl⟩ := List.mem_map.mp ht'
  obtain ⟨e, he, rfl⟩ := exists_of_mem_sortByKey hm
  obtain ⟨e', he', rfl⟩ := exists_of_mem_sortByKey hm'
  intro rest rest' hrest hrest' heq
  -- a member ends where its value does, and the key comes first
  obtain ⟨hkey, htail⟩ := memberText_append_inj heq
  obtain ⟨hvalue, hrest⟩ := hapart e he e' he' rest rest' hrest hrest' htail
  rw [hkey, String.toList_inj.mp hvalue]
  exact ⟨rfl, hrest⟩

/-- **The canonical text of a value can be cut off**, whatever follows behind it. -/
theorem apart_canonical (a b : Json) : Apart a.canonical.toList b.canonical.toList := by
  induction hsize : a.size using Nat.strongRecOn generalizing a b with
  | ind n ih =>
    subst hsize
    have hchild : ∀ v ∈ a.children, ∀ w : Json, Apart v.canonical.toList w.canonical.toList :=
      fun v hv w => ih v.size (size_lt_of_mem_children hv) v w rfl
    intro rest rest' hrest hrest' heq
    cases sameKind_of_append heq with
    | null => exact apart_of_eq rfl _ _ hrest hrest' heq
    | bool => exact apart_of_eq rfl _ _ hrest hrest' heq
    | num m n => exact (numeral_canonicalText m).apart (numeral_canonicalText n) _ _ hrest hrest' heq
    | str =>
      obtain ⟨rfl, h⟩ := quote_append_inj heq
      exact ⟨rfl, h⟩
    | arr items =>
      obtain ⟨htexts, h⟩ := arr_append_inj (fun a (ha : a ∈ items) b _ => hchild a ha b) heq
      exact ⟨by rw [toList_canonical_arr, toList_canonical_arr, htexts], h⟩
    | obj members =>
      obtain ⟨htexts, h⟩ := obj_append_inj (fun m (hm : m ∈ members) m' _ =>
        hchild m.2 (List.mem_map_of_mem (f := Prod.snd) hm) m'.2) heq
      exact ⟨by rw [toList_canonical_obj, toList_canonical_obj, htexts], h⟩

/-! ### What alike values have in common -/

/-- Two values with the same canonical text. -/
def Alike (a b : Json) : Prop := a.canonical = b.canonical

theorem Alike.refl (a : Json) : Alike a a := rfl

theorem Alike.symm (h : Alike a b) : Alike b a := Eq.symm h

theorem Alike.append (h : Alike a b) (rest : List Char) :
    a.canonical.toList ++ rest = b.canonical.toList ++ rest := by
  rw [show a.canonical = b.canonical from h]

theorem Alike.sameKind (h : Alike a b) : SameKind a b := sameKind_of_append (h.append [])

theorem Alike.eq_bool {v : Bool} (h : Alike (.bool v) b) : b = .bool v := by
  cases h.sameKind
  rfl

theorem Alike.eq_str {s : String} (h : Alike (.str s) b) : b = .str s := by
  cases h.sameKind with
  | str =>
    obtain ⟨rfl, -⟩ := quote_append_inj (h.append [])
    rfl

/-- **Alike arrays have alike items**, in the same order. -/
theorem Alike.exists_arr {items : List Json} (h : Alike (.arr items) b) :
    ∃ items', b = .arr items' ∧ List.Forall₂ Alike items items' := by
  cases h.sameKind with
  | arr _ items' =>
    obtain ⟨htexts, -⟩ := arr_append_inj (fun a _ b _ => apart_canonical a b) (h.append [])
    rw [← List.forall₂_eq_eq_eq, List.forall₂_map_left_iff, List.forall₂_map_right_iff] at htexts
    exact ⟨items', rfl, htexts.imp fun _ _ heq => String.toList_inj.mp heq⟩

/-- **Alike objects have alike members**, in some order. -/
theorem Alike.exists_obj {members : Entries Json} (h : Alike (.obj members) b) :
    ∃ members', b = .obj members' ∧ members.Permuted (fun _ => Alike) members' := by
  cases h.sameKind with
  | obj _ members' =>
    obtain ⟨htexts, -⟩ :=
      obj_append_inj (fun m _ m' _ => apart_canonical m.2 m'.2) (h.append [])
    have hsorted : ∀ members : Entries Json,
        ((sortByKey (canonicalMembers members)).map memberText).Perm
          (members.map fun m => memberText (quote m.1, m.2.canonical)) := by
      intro members
      have hmap := (sortByKey_perm (canonicalMembers members)).map memberText
      rw [canonicalMembers_eq] at hmap ⊢
      rwa [List.map_map] at hmap
    refine ⟨members', rfl, .of_map_perm ((hsorted members).symm.trans (htexts ▸ hsorted members')) ?_⟩
    intro m _ m' _ heq
    obtain ⟨hkey, hvalue⟩ := memberText_append_inj (congrArg (· ++ []) heq)
    rw [List.append_nil, List.append_nil] at hvalue
    exact ⟨hkey, String.toList_inj.mp hvalue⟩

theorem Alike.permuted {members members' : Entries Json} (h : Alike (.obj members) (.obj members')) :
    members.Permuted (fun _ => Alike) members' := by
  obtain ⟨_, heq, hpermuted⟩ := h.exists_obj
  exact Json.obj.inj heq ▸ hpermuted

/-- Alike objects have alike members under every key. -/
theorem Alike.get? {members members' : Entries Json} (h : Alike (.obj members) (.obj members'))
    (hd : Entries.Distinct members) (key : String) :
    Option.Rel Alike (Entries.get? members key) (Entries.get? members' key) :=
  h.permuted.get? hd key

/-- Lists of strings are alike only if they are the same. -/
theorem ofStrings_inj_of_alike {items items' : List String}
    (h : Alike (ofStrings items) (ofStrings items')) : items = items' := by
  obtain ⟨values, heq, hvalues⟩ := h.exists_arr
  obtain rfl : items'.map .str = values := Json.arr.inj heq
  rw [List.forall₂_map_left_iff, List.forall₂_map_right_iff] at hvalues
  exact List.forall₂_eq_eq_eq ▸ hvalues.imp fun _ _ hs => (Json.str.inj hs.eq_str).symm

end RequestGate.Json
