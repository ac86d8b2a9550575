import RequestGate.Proofs.Number.Text

/-!
# Text that was written is read back

Text is read in two passes, and what the first one hands to the second can be said beforehand: the
tokens of a value (`RequestGate.Json.tokens`). The text of the value is cut into them wherever it stands
(`RequestGate.Json.stands_prettyAt`), and they are put together to the value on whatever stack of open
containers (`RequestGate.Json.run_tokens`). So a well-formed value is read back from its text
(`RequestGate.Json.WellFormed.parseRawWithin?_pretty`), provided that it is not nested too deeply.
-/

namespace RequestGate.Json

open Text

/-! ### Tokens of a value -/

mutual

/-- The tokens of a value. -/
def tokens : Json → List Token
  | .null => [.atom .null]
  | .bool b => [.atom (.bool b)]
  | .num n => [.atom (.num n)]
  | .str s => [.str s]
  | .arr items => .openArr :: ([.comma].intercalate (tokensList items) ++ [.closeArr])
  | .obj members => .openObj :: ([.comma].intercalate (tokensMembers members) ++ [.closeObj])

/-- The tokens of each item. -/
def tokensList : List Json → List (List Token)
  | [] => []
  | a :: as => tokens a :: tokensList as

/-- The tokens of each member. -/
def tokensMembers : List (String × Json) → List (List Token)
  | [] => []
  | (key, a) :: as => (.str key :: .colon :: tokens a) :: tokensMembers as

end

variable {c : Char} {cs rest text : List Char} {t : Token} {ts us : List Token}

/-! ### Cutting -/

/-- Whether a text is cut into these tokens, however much fuel is left. -/
def Cuts (cs : List Char) (ts : List Token) : Prop :=
  ∀ fuel done, cs.length < fuel → tokenizeFuel fuel cs done = some (done.reverse ++ ts)

theorem cuts_nil : Cuts [] [] := by
  intro fuel done h
  obtain ⟨fuel, rfl⟩ := Nat.exists_eq_add_one_of_ne_zero (Nat.ne_of_gt h)
  simp [tokenizeFuel]

theorem Cuts.space (h : Cuts cs ts) (hc : isSpace c = true) : Cuts (c :: cs) ts := by
  intro fuel done hfuel
  obtain ⟨fuel, rfl⟩ := Nat.exists_eq_add_one_of_ne_zero (Nat.ne_of_gt (Nat.zero_lt_of_lt hfuel))
  rw [← h (fuel + 1) done (Nat.lt_of_succ_lt hfuel), tokenizeFuel, tokenizeFuel,
    List.dropWhile_cons_of_pos hc]

theorem Cuts.spaces {blanks : List Char} (h : Cuts cs ts) (hblanks : ∀ c ∈ blanks, isSpace c = true) :
    Cuts (blanks ++ cs) ts := by
  induction blanks with
  | nil => exact h
  | cons c blanks ih =>
    exact (ih fun d hd => hblanks d (List.mem_cons_of_mem _ hd)).space (hblanks c List.mem_cons_self)

/-- A token is cut off if it is the next one and starts with no blank. -/
theorem Cuts.token (c : Char) (cs : List Char) (h : Cuts rest ts) (hc : isSpace c = false)
    (hnext : nextToken? (c :: cs ++ rest) = some (t, rest)) :
    Cuts (c :: cs ++ rest) (t :: ts) := by
  intro fuel done hfuel
  obtain ⟨fuel, rfl⟩ := Nat.exists_eq_add_one_of_ne_zero (Nat.ne_of_gt (Nat.zero_lt_of_lt hfuel))
  have hrest : rest.length < fuel := by
    simp only [List.cons_append, List.length_cons, List.length_append] at hfuel
    omega
  have hstart : (c :: cs ++ rest).dropWhile isSpace = c :: (cs ++ rest) :=
    List.dropWhile_cons_of_neg (by simp [hc])
  rw [tokenizeFuel, hstart]
  simp only [← List.cons_append, hnext]
  rw [h fuel _ hrest]
  simp

/-- Whether a text is cut into these tokens wherever it stands, unless more of a number follows. -/
def Stands (text : List Char) (ts : List Token) : Prop :=
  ∀ rest us, Follows rest → Cuts rest us → Cuts (text ++ rest) (ts ++ us)

theorem follows_cons (hc : c.isDigit = false ∧ c ≠ '.' ∧ c ≠ 'e' ∧ c ≠ 'E') (rest : List Char) :
    Follows (c :: rest) := by
  rintro d ⟨⟩
  exact hc

/-! ### Scalars -/

theorem stands_str (s : String) : Stands (quote s).toList [.str s] := by
  intro rest us _ h
  have htext : (quote s).toList ++ rest =
      '"' :: (s.toList.flatMap escapeChar ++ ['"']) ++ rest := by
    simp [quote]
  rw [htext]
  refine h.token _ _ rfl ?_
  have hread := readString?_escaped s.toList rest
  rw [String.ofList_toList] at hread
  rw [List.cons_append, List.append_assoc, List.singleton_append, nextToken?, hread]
  rfl

theorem stands_null : Stands "null".toList [.atom .null] := by
  intro rest us _ h
  exact h.token 'n' ['u', 'l', 'l'] rfl rfl

theorem stands_bool (b : Bool) :
    Stands (if b then "true" else "false").toList [.atom (.bool b)] := by
  intro rest us _ h
  cases b with
  | true => exact h.token 't' ['r', 'u', 'e'] rfl rfl
  | false => exact h.token 'f' ['a', 'l', 's', 'e'] rfl rfl

/-- What a number may start with is no blank and starts no other token. -/
theorem numeral_head (hc : c = '-' ∨ c.isDigit = true) :
    isSpace c = false ∧ c ∉ ['[', ']', '\x7b', '\x7d', ',', ':', '"', 'n', 't', 'f'] := by
  rcases hc with rfl | hdigit
  · decide
  · have hsmall := toNat_lt_of_isDigit hdigit
    exact forall_ascii (P := fun c => c.isDigit = true → isSpace c = false ∧
      c ∉ ['[', ']', '\x7b', '\x7d', ',', ':', '"', 'n', 't', 'f']) (by decide) hsmall hdigit

/-- What is read as a number is the next token. -/
theorem nextToken?_of_readLiteral? {l : Literal} {n : Number} (h : readLiteral? cs = some (l, rest))
    (hvalue : l.value? = some n) : nextToken? cs = some (.atom (.num n), rest) := by
  obtain ⟨c, tail, rfl, hc⟩ := exists_cons_of_readLiteral? h
  have hhead := (numeral_head hc).2
  rw [nextToken?]
  · rw [h]
    simp [hvalue]
  · rintro ⟨⟩
  all_goals
    rintro _ ⟨⟩
    exact hhead (by decide)

theorem stands_num {n : Number} (hn : (num n).WellFormed) :
    Stands n.text.toList [.atom (.num n)] := by
  intro rest us hfollows h
  obtain ⟨l, hproper, hl, hvalue⟩ := Number.exists_literal hn
  have hread := readLiteral?_text hproper
  rw [← hl] at hread
  obtain ⟨c, tail, htext, hc⟩ := exists_cons_of_readLiteral? hread
  rw [htext] at hread ⊢
  exact h.token _ _ (numeral_head hc).1
    (nextToken?_of_readLiteral? (readLiteral?_append hread hfollows) hvalue)

/-! ### Lines -/

variable {lines : List String} {tss : List (List Token)} {indent : String}

/-- Whether an indentation is blank. -/
def IsIndent (indent : String) : Prop := ∀ c ∈ indent.toList, isSpace c = true

theorem IsIndent.deeper (h : IsIndent indent) : IsIndent (indent ++ "  ") := by
  intro c hc
  rw [String.toList_append] at hc
  rcases List.mem_append.mp hc with hc | hc
  · exact h c hc
  · obtain rfl : c = ' ' := by simpa using hc
    rfl

/-- Lines are cut one after the other. -/
theorem cuts_lines (hindent : IsIndent indent)
    (hlines : List.Forall₂ (fun line ts => Stands line.toList ts) lines tss) (hrest : Follows rest)
    (h : Cuts rest us) :
    Cuts ((String.intercalate ",\n" (lines.map fun line => indent ++ line)).toList ++ rest)
      ([.comma].intercalate tss ++ us) := by
  induction hlines with
  | nil => simpa using h
  | @cons line ts lines tss hline hlines ih =>
    rw [String.toList_intercalate] at ih ⊢
    cases hlines with
    | nil =>
      have hcut := (hline rest us hrest h).spaces hindent
      simpa using hcut
    | cons hnext hlines =>
      -- a line is followed by a comma, which belongs to no number
      have hcomma := (ih.space (c := '\n') rfl).token ',' [] rfl rfl
      have hcut := (hline _ _ (follows_cons (by decide) _) hcomma).spaces hindent
      simpa [List.intercalate_cons_cons] using hcut

/-- A block in brackets is cut into the tokens of its lines, with commas between them. -/
theorem stands_block {opening closing : String} {first last : Char} {start stop : Token}
    (hopening : opening.toList = [first]) (hclosing : closing.toList = [last])
    (hfirst : isSpace first = false ∧ ∀ cs, nextToken? (first :: cs) = some (start, cs))
    (hlast : isSpace last = false ∧ ∀ cs, nextToken? (last :: cs) = some (stop, cs))
    (hindent : IsIndent indent)
    (hlines : List.Forall₂ (fun line ts => Stands line.toList ts) lines tss) :
    Stands (block opening closing indent lines).toList
      (start :: ([.comma].intercalate tss ++ [stop])) := by
  intro rest us _ h
  have hstop : Cuts (last :: rest) (stop :: us) := h.token last [] hlast.1 (hlast.2 rest)
  cases hlines with
  | nil =>
    have hcut := hstop.token first [] hfirst.1 (hfirst.2 _)
    simpa [block, hopening, hclosing] using hcut
  | cons hline hlines =>
    have hend := (hstop.spaces hindent).space (c := '\n') rfl
    have hbody := cuts_lines hindent.deeper (.cons hline hlines) (follows_cons (by decide) _) hend
    have hcut := (hbody.space (c := '\n') rfl).token first [] hfirst.1 (hfirst.2 _)
    simpa [block, hopening, hclosing] using hcut

mutual

/-- **The text of a value is cut into its tokens**, wherever it stands. -/
theorem stands_prettyAt : ∀ {v : Json} {indent : String}, IsIndent indent → v.WellFormed →
    Stands (prettyAt indent v).toList (tokens v)
  | .null, _, _, _ => by
    rw [prettyAt, tokens]
    exact stands_null
  | .bool true, _, _, _ => by
    rw [prettyAt, tokens]
    exact stands_bool true
  | .bool false, _, _, _ => by
    rw [prettyAt, tokens]
    exact stands_bool false
  | .num _, _, _, hn => stands_num hn
  | .str s, _, _, _ => stands_str s
  | .arr items, _, hindent, hitems =>
    stands_block rfl rfl ⟨rfl, fun _ => rfl⟩ ⟨rfl, fun _ => rfl⟩ hindent
      (stands_prettyList hindent.deeper hitems)
  | .obj members, _, hindent, hmembers =>
    stands_block rfl rfl ⟨rfl, fun _ => rfl⟩ ⟨rfl, fun _ => rfl⟩ hindent
      (stands_prettyMembers hindent.deeper hmembers.2)

theorem stands_prettyList : ∀ {items : List Json} {indent : String},
    IsIndent indent → WellFormedList items →
      List.Forall₂ (fun line ts => Stands line.toList ts) (prettyList indent items)
        (tokensList items)
  | [], _, _, _ => .nil
  | _ :: _, _, hindent, h => .cons (stands_prettyAt hindent h.1) (stands_prettyList hindent h.2)

theorem stands_prettyMembers : ∀ {members : List (String × Json)} {indent : String},
    IsIndent indent → WellFormedMembers members →
      List.Forall₂ (fun line ts => Stands line.toList ts) (prettyMembers indent members)
        (tokensMembers members)
  | [], _, _, _ => .nil
  | (key, a) :: _, _, hindent, h => by
    refine .cons (fun rest us hfollows hcut => ?_) (stands_prettyMembers hindent h.2)
    have hvalue := (stands_prettyAt hindent h.1 rest us hfollows hcut).space (c := ' ') rfl
    have hcolon := hvalue.token (t := .colon) ':' [] rfl rfl
    have hmember := stands_str key _ _ (follows_cons (by decide) _) hcolon
    simpa using hmember

end

/-! ### Putting together -/

variable {limit : Nat} {state next : State} {stack : List Frame} {expect : Expect}

/-- The state after some tokens. -/
def State.run (limit : Nat) (state : State) (ts : List Token) : Option State :=
  ts.foldlM (State.step limit) state

theorem run_cons (h : state.step limit t = some next) :
    state.run limit (t :: ts) = next.run limit ts := by
  rw [State.run, List.foldlM_cons, h]
  rfl

/-- Whether a value may come next. -/
def Expect.Opens (expect : Expect) : Prop := expect = .value ∨ expect = .valueOrClose

theorem step_openArr (h : expect.Opens) (hlimit : stack.length < limit) :
    State.step limit ⟨stack, expect⟩ .openArr = some ⟨.items [] :: stack, .valueOrClose⟩ := by
  rcases h with rfl | rfl <;> simp [State.step, Nat.not_le.mpr hlimit]

theorem step_openObj (h : expect.Opens) (hlimit : stack.length < limit) :
    State.step limit ⟨stack, expect⟩ .openObj = some ⟨stack, .keyOrClose⟩ := by
  rcases h with rfl | rfl <;> simp [State.step, Nat.not_le.mpr hlimit]

theorem step_str (h : expect.Opens) (s : String) :
    State.step limit ⟨stack, expect⟩ (.str s) = some ⟨stack, .after (.str s)⟩ := by
  rcases h with rfl | rfl <;> rfl

theorem step_atom (h : expect.Opens) (v : Json) :
    State.step limit ⟨stack, expect⟩ (.atom v) = some ⟨stack, .after v⟩ := by
  rcases h with rfl | rfl <;> rfl

mutual

/-- **The tokens of a value are put together to it**, on any stack that leaves room for it. -/
theorem run_tokens : ∀ {v : Json} {stack : List Frame} {expect : Expect} (ts : List Token),
    expect.Opens → stack.length + v.depth ≤ limit →
      State.run limit ⟨stack, expect⟩ (tokens v ++ ts) = State.run limit ⟨stack, .after v⟩ ts
  | .null, _, _, _, h, _ => run_cons (step_atom h _)
  | .bool _, _, _, _, h, _ => run_cons (step_atom h _)
  | .num _, _, _, _, h, _ => run_cons (step_atom h _)
  | .str s, _, _, _, h, _ => run_cons (step_str h s)
  | .arr [], stack, _, ts, h, hdepth => by
    rw [depth] at hdepth
    exact (run_cons (step_openArr h (by omega))).trans (run_cons rfl)
  | .arr (a :: as), stack, _, ts, h, hdepth => by
    rw [depth] at hdepth
    rw [tokens, List.cons_append, List.append_assoc, run_cons (step_openArr h (by omega))]
    exact run_items [] ts (by simp) (.inr rfl) (by omega)
  | .obj [], stack, _, ts, h, hdepth => by
    rw [depth] at hdepth
    exact (run_cons (step_openObj h (by omega))).trans (run_cons rfl)
  | .obj (member :: members), stack, _, ts, h, hdepth => by
    rw [depth] at hdepth
    rw [tokens, List.cons_append, List.append_assoc, run_cons (step_openObj h (by omega))]
    exact run_members [] ts (by simp) (fun _ => rfl) (by omega)

/-- Items are put together to an array. -/
theorem run_items : ∀ {items : List Json} (done : List Json) {stack : List Frame} {expect : Expect}
    (ts : List Token), items ≠ [] → expect.Opens → stack.length + 1 + depthList items ≤ limit →
      State.run limit ⟨.items done :: stack, expect⟩
          ([.comma].intercalate (tokensList items) ++ ([.closeArr] ++ ts)) =
        State.run limit ⟨stack, .after (.arr (done.reverse ++ items))⟩ ts
  | [], _, _, _, _, hne, _, _ => absurd rfl hne
  | [a], done, stack, _, ts, _, h, hdepth => by
    rw [depthList, depthList] at hdepth
    rw [tokensList, tokensList, List.intercalate_singleton,
      run_tokens _ h (by rw [List.length_cons]; omega), List.singleton_append, run_cons rfl,
      List.reverse_cons]
  | a :: b :: as, done, stack, _, ts, _, h, hdepth => by
    rw [depthList] at hdepth
    -- the frame holds the items in reverse
    have hnext : State.run limit ⟨.items (a :: done) :: stack, .value⟩
        ([.comma].intercalate (tokensList (b :: as)) ++ ([.closeArr] ++ ts)) =
          State.run limit ⟨stack, .after (.arr ((a :: done).reverse ++ b :: as))⟩ ts :=
      run_items (a :: done) ts (by simp) (.inl rfl) (by omega)
    rw [List.reverse_cons, List.append_assoc, List.singleton_append] at hnext
    rw [tokensList, tokensList, List.intercalate_cons_cons, List.append_assoc, List.append_assoc,
      run_tokens _ h (by rw [List.length_cons]; omega), List.singleton_append, run_cons rfl]
    exact hnext

/-- Members are put together to an object, from wherever a key may come next. -/
theorem run_members : ∀ {members : List (String × Json)} (done : List (String × Json))
    {stack : List Frame} {start : State} (ts : List Token), members ≠ [] →
      (∀ key, start.step limit (.str key) = some ⟨.members done key :: stack, .colon⟩) →
        stack.length + 1 + depthMembers members ≤ limit →
          State.run limit start
              ([.comma].intercalate (tokensMembers members) ++ ([.closeObj] ++ ts)) =
            State.run limit ⟨stack, .after (.obj (done.reverse ++ members))⟩ ts
  | [], _, _, _, _, hne, _, _ => absurd rfl hne
  | [(key, a)], done, stack, _, ts, _, h, hdepth => by
    rw [depthMembers, depthMembers] at hdepth
    rw [tokensMembers, tokensMembers, List.intercalate_singleton, List.cons_append,
      run_cons (h key), List.cons_append, run_cons rfl,
      run_tokens _ (.inl rfl) (by rw [List.length_cons]; omega), List.singleton_append,
      run_cons rfl, List.reverse_cons]
  | (key, a) :: member :: members, done, stack, _, ts, _, h, hdepth => by
    rw [depthMembers] at hdepth
    -- after a comma the run waits for a key, with one more member done
    have hnext : State.run limit ⟨stack, .key ((key, a) :: done)⟩
        ([.comma].intercalate (tokensMembers (member :: members)) ++ ([.closeObj] ++ ts)) =
          State.run limit ⟨stack, .after (.obj (((key, a) :: done).reverse ++ member :: members))⟩ ts :=
      run_members ((key, a) :: done) ts (by simp) (fun _ => rfl) (by omega)
    rw [List.reverse_cons, List.append_assoc, List.singleton_append] at hnext
    rw [tokensMembers, tokensMembers, List.intercalate_cons_cons, List.append_assoc,
      List.append_assoc, List.cons_append, run_cons (h key), List.cons_append, run_cons rfl,
      run_tokens _ (.inl rfl) (by rw [List.length_cons]; omega), List.singleton_append, run_cons rfl]
    exact hnext

end

/-! ### Both passes -/

/-- **A value is read back from its text**, if it is not nested too deeply. -/
theorem WellFormed.parseRawWithin?_pretty {v : Json} (h : v.WellFormed) (hdepth : v.depth ≤ limit) :
    parseRawWithin? limit v.pretty = some v := by
  have hblank : IsIndent "" := fun c hc => by cases hc
  have hcuts := stands_prettyAt hblank h [] [] follows_nil cuts_nil
  rw [List.append_nil, List.append_nil] at hcuts
  have htokens : tokenize? v.pretty.toList = some (tokens v) := hcuts _ _ (Nat.lt_succ_self _)
  have hrun : State.run limit ⟨[], .value⟩ (tokens v ++ []) = State.run limit ⟨[], .after v⟩ [] :=
    run_tokens [] (.inl rfl) (by simpa using hdepth)
  rw [List.append_nil] at hrun
  rw [parseRawWithin?, htokens, Option.bind_some, ofTokens?, ← State.run, hrun]
  rfl

/-! ### Depth -/

@[simp] theorem depth_bool (b : Bool) : (bool b).depth = 0 := rfl

@[simp] theorem depth_num (n : Number) : (num n).depth = 0 := rfl

@[simp] theorem depth_str (s : String) : (str s).depth = 0 := rfl

theorem depth_arr_le {items : List Json} (h : ∀ a ∈ items, a.depth ≤ limit) :
    (arr items).depth ≤ limit + 1 := by
  have hall : depthList items ≤ limit := by
    induction items with
    | nil => exact Nat.zero_le _
    | cons a items ih =>
      exact Nat.max_le.mpr ⟨h a List.mem_cons_self, ih fun b hb => h b (List.mem_cons_of_mem _ hb)⟩
  exact Nat.succ_le_succ hall

theorem depth_obj_le {members : List (String × Json)} (h : ∀ e ∈ members, e.2.depth ≤ limit) :
    (obj members).depth ≤ limit + 1 := by
  have hall : depthMembers members ≤ limit := by
    induction members with
    | nil => exact Nat.zero_le _
    | cons e members ih =>
      exact Nat.max_le.mpr ⟨h e List.mem_cons_self, ih fun d hd => h d (List.mem_cons_of_mem _ hd)⟩
  exact Nat.succ_le_succ hall

end RequestGate.Json
