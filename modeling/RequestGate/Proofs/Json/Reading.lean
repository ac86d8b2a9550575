import RequestGate.Json.Parser
import RequestGate.Proofs.Json.Measures

/-!
# Values that are read are well formed

The parser reads a whole number as such only if it is in range, and keeps every member that it comes
upon, repeated keys included. It goes from token to token, so this is an invariant of its state
(`RequestGate.Json.State.Ranged`). Of repeated keys only one is left by
`RequestGate.Json.collapse`, and what comes out of both is well formed
(`RequestGate.Json.wellFormed_of_parse?`).
-/

namespace RequestGate.Json

variable {value a : Json} {items : List Json} {members : Entries Json}

/-- Whether every whole number within a value is in range; keys may be repeated. -/
def Ranged (value : Json) : Prop :=
  ∀ n, .num (.int n) ∈ value.subvalues → Number.InRange n

theorem Ranged.of_mem_children (h : value.Ranged) (ha : a ∈ value.children) : a.Ranged :=
  fun n hn => h n (mem_subvalues_iff.mpr (Or.inr ⟨a, ha, hn⟩))

theorem ranged_iff (hnum : ∀ n, value ≠ .num (.int n)) :
    value.Ranged ↔ ∀ a ∈ value.children, a.Ranged := by
  constructor
  · exact fun h a ha => h.of_mem_children ha
  · intro h n hn
    rcases mem_subvalues_iff.mp hn with rfl | ⟨a, ha, hn⟩
    · exact absurd rfl (hnum n)
    · exact h a ha n hn

theorem ranged_arr_iff : (arr items).Ranged ↔ ∀ a ∈ items, a.Ranged :=
  ranged_iff (fun _ => Json.noConfusion)

theorem ranged_obj_iff : (obj members).Ranged ↔ ∀ e ∈ members, e.2.Ranged := by
  rw [ranged_iff (fun _ => Json.noConfusion), children, List.forall_mem_map]

theorem ranged_of_scalar (hnum : ∀ n, value ≠ .num (.int n)) (h : value.children = []) :
    value.Ranged := by
  rw [ranged_iff hnum, h]
  exact List.forall_mem_nil _

/-! ### Repeated keys -/

mutual

/-- **A value in range is well formed once its repeated keys are gone.** -/
theorem Ranged.wellFormed_collapse : ∀ {value : Json}, value.Ranged → value.collapse.WellFormed
  | .null, _ | .bool _, _ | .str _, _ | .num (.float _), _ => trivial
  | .num (.int n), h => h n (mem_subvalues_self _)
  | .arr items, h => by
    rw [collapse]
    exact wellFormedList_collapse (ranged_arr_iff.mp h)
  | .obj members, h => by
    rw [collapse]
    refine wellFormed_obj_iff.mpr ⟨Entries.distinct_ofList _, fun e he => ?_⟩
    exact wellFormed_of_mem_collapseMembers (ranged_obj_iff.mp h) (Entries.mem_of_mem_ofList he)

theorem wellFormedList_collapse :
    ∀ {items : List Json}, (∀ a ∈ items, a.Ranged) → WellFormedList (collapseList items)
  | [], _ => trivial
  | a :: items, h =>
    ⟨(h a (by simp)).wellFormed_collapse,
      wellFormedList_collapse fun b hb => h b (List.mem_cons_of_mem _ hb)⟩

theorem wellFormed_of_mem_collapseMembers : ∀ {members : Entries Json} {e : String × Json},
    (∀ e ∈ members, e.2.Ranged) → e ∈ collapseMembers members → e.2.WellFormed
  | (key, a) :: members, e, h, he => by
    rw [collapseMembers] at he
    rcases List.mem_cons.mp he with rfl | he
    · exact (h (key, a) (by simp)).wellFormed_collapse
    · exact wellFormed_of_mem_collapseMembers (fun e he => h e (List.mem_cons_of_mem _ he)) he

end

/-! ### Tokens -/

/-- Whether the value of a token is in range, if it has one. -/
def Token.Ranged : Token → Prop
  | .atom value => value.Ranged
  | _ => True

theorem inRange_of_value? {l : Literal} {n : Int} (h : l.value? = some (.int n)) :
    Number.InRange n := by
  rw [Literal.value?] at h
  generalize (Text.digitsValue l.whole : Int) = size at h
  dsimp only at h
  generalize (if l.negative = true then -size else size) = m at h
  split at h
  · split at h
    · rename_i hrange
      obtain rfl := Number.int.inj (Option.some.inj h)
      exact hrange.1
    · simp at h
  · simp at h

theorem ranged_num {number : Number} (h : ∀ n, number = .int n → Number.InRange n) :
    (num number).Ranged := by
  intro n hn
  rcases mem_subvalues_iff.mp hn with heq | ⟨b, hb, -⟩
  · exact h n (Json.num.inj heq).symm
  · cases hb

theorem ranged_of_nextToken? {cs rest : List Char} {token : Token}
    (h : nextToken? cs = some (token, rest)) : token.Ranged := by
  rw [nextToken?.eq_def] at h
  split at h
  case h_12 =>
    obtain ⟨⟨literal, after⟩, -, h⟩ := Option.bind_eq_some_iff.mp h
    obtain ⟨number, hnumber, h⟩ := Option.bind_eq_some_iff.mp h
    obtain ⟨rfl, -⟩ := Prod.mk.inj (Option.some.inj h)
    refine ranged_num fun n hn => ?_
    exact inRange_of_value? (hn ▸ hnumber)
  case h_8 =>
    obtain ⟨found, -, h⟩ := Option.map_eq_some_iff.mp h
    obtain ⟨rfl, -⟩ := Prod.mk.inj h
    trivial
  case h_1 => cases h
  all_goals
    obtain ⟨rfl, -⟩ := Prod.mk.inj (Option.some.inj h)
    first
      | trivial
      | exact ranged_of_scalar (fun _ => Json.noConfusion) rfl

theorem ranged_of_tokenizeFuel {fuel : Nat} : ∀ {cs : List Char} {done tokens : List Token},
    (∀ token ∈ done, token.Ranged) → tokenizeFuel fuel cs done = some tokens →
      ∀ token ∈ tokens, token.Ranged := by
  induction fuel with
  | zero => exact fun _ h => nomatch h
  | succ fuel ih =>
    intro cs done tokens hdone h
    rw [tokenizeFuel] at h
    split at h
    · obtain rfl := Option.some.inj h
      exact fun token htoken => hdone token (List.mem_reverse.mp htoken)
    · split at h
      · rename_i token rest hnext
        refine ih (fun other hother => ?_) h
        rcases List.mem_cons.mp hother with rfl | hother
        · exact ranged_of_nextToken? hnext
        · exact hdone other hother
      · cases h

/-! ### Structure -/

/-- Whether what a container holds so far is in range. -/
def Frame.Ranged : Frame → Prop
  | .items done => ∀ a ∈ done, a.Ranged
  | .members done _ => ∀ e ∈ done, e.2.Ranged

/-- Whether what has just been read is in range. -/
def Expect.Ranged : Expect → Prop
  | .key done => ∀ e ∈ done, e.2.Ranged
  | .after value => value.Ranged
  | _ => True

/-- Whether all that a state holds is in range. -/
structure State.Ranged (state : State) : Prop where
  stack : ∀ frame ∈ state.stack, frame.Ranged
  expect : state.expect.Ranged

theorem ranged_arr_nil : (arr []).Ranged :=
  ranged_arr_iff.mpr (List.forall_mem_nil _)

theorem ranged_obj_nil : (obj []).Ranged :=
  ranged_obj_iff.mpr (List.forall_mem_nil _)

theorem ranged_str (s : String) : (str s).Ranged :=
  ranged_of_scalar (fun _ => Json.noConfusion) rfl

/-- **One token further, all is in range still.** -/
theorem State.Ranged.step {limit : Nat} {state next : State} {token : Token} (h : state.Ranged)
    (htoken : token.Ranged) (hstep : state.step limit token = some next) : next.Ranged := by
  obtain ⟨stack, expect⟩ := state
  obtain ⟨hstack, hexpect⟩ := h
  dsimp only at hstack hexpect
  cases expect <;> cases token <;> simp only [State.step, reduceCtorEq] at hstep
  -- a container is opened
  case value.openArr | valueOrClose.openArr =>
    split at hstep
    · cases hstep
    · obtain rfl := Option.some.inj hstep
      exact ⟨List.forall_mem_cons.mpr ⟨List.forall_mem_nil _, hstack⟩, trivial⟩
  case value.openObj | valueOrClose.openObj =>
    split at hstep
    · cases hstep
    · obtain rfl := Option.some.inj hstep
      exact ⟨hstack, trivial⟩
  -- a value is read, or an empty container is closed
  case value.str s | valueOrClose.str s =>
    obtain rfl := Option.some.inj hstep
    exact ⟨hstack, ranged_str s⟩
  case value.atom v | valueOrClose.atom v =>
    obtain rfl := Option.some.inj hstep
    exact ⟨hstack, htoken⟩
  case keyOrClose.closeObj =>
    obtain rfl := Option.some.inj hstep
    exact ⟨hstack, ranged_obj_nil⟩
  case valueOrClose.closeArr =>
    split at hstep
    · obtain rfl := Option.some.inj hstep
      exact ⟨(List.forall_mem_cons.mp hstack).2, ranged_arr_nil⟩
    · cases hstep
  -- a key is read, and its colon
  case keyOrClose.str key =>
    obtain rfl := Option.some.inj hstep
    exact ⟨List.forall_mem_cons.mpr ⟨List.forall_mem_nil _, hstack⟩, trivial⟩
  case key.str done key =>
    obtain rfl := Option.some.inj hstep
    exact ⟨List.forall_mem_cons.mpr ⟨hexpect, hstack⟩, trivial⟩
  case colon.colon =>
    obtain rfl := Option.some.inj hstep
    exact ⟨hstack, trivial⟩
  -- the value that has been read goes into its container
  case after.comma v =>
    split at hstep
    · obtain rfl := Option.some.inj hstep
      obtain ⟨hdone, hstack⟩ := List.forall_mem_cons.mp hstack
      exact ⟨List.forall_mem_cons.mpr ⟨List.forall_mem_cons.mpr ⟨hexpect, hdone⟩, hstack⟩, trivial⟩
    · obtain rfl := Option.some.inj hstep
      obtain ⟨hdone, hstack⟩ := List.forall_mem_cons.mp hstack
      exact ⟨hstack, List.forall_mem_cons.mpr ⟨hexpect, hdone⟩⟩
    · cases hstep
  case after.closeArr v =>
    split at hstep
    · obtain rfl := Option.some.inj hstep
      obtain ⟨hdone, hstack⟩ := List.forall_mem_cons.mp hstack
      refine ⟨hstack, ranged_arr_iff.mpr fun a ha => ?_⟩
      rcases List.mem_cons.mp (List.mem_reverse.mp ha) with rfl | ha
      · exact hexpect
      · exact hdone a ha
    · cases hstep
  case after.closeObj v =>
    split at hstep
    · obtain rfl := Option.some.inj hstep
      obtain ⟨hdone, hstack⟩ := List.forall_mem_cons.mp hstack
      refine ⟨hstack, ranged_obj_iff.mpr fun e he => ?_⟩
      rcases List.mem_cons.mp (List.mem_reverse.mp he) with rfl | he
      · exact hexpect
      · exact hdone e he
    · cases hstep

theorem ranged_of_ofTokens? {limit : Nat} {tokens : List Token}
    (htokens : ∀ token ∈ tokens, token.Ranged) (h : ofTokens? limit tokens = some value) :
    value.Ranged := by
  have hrun : ∀ {tokens : List Token} {state last : State}, (∀ token ∈ tokens, token.Ranged) →
      state.Ranged → tokens.foldlM (State.step limit) state = some last → last.Ranged := by
    intro tokens
    induction tokens with
    | nil => exact fun _ hstate h => Option.some.inj h ▸ hstate
    | cons token tokens ih =>
      intro state last htokens hstate h
      obtain ⟨htoken, htokens⟩ := List.forall_mem_cons.mp htokens
      rw [List.foldlM_cons] at h
      obtain ⟨next, hnext, h⟩ := Option.bind_eq_some_iff.mp h
      exact ih htokens (hstate.step htoken hnext) h
  rw [ofTokens?] at h
  split at h
  · rename_i hlast
    obtain rfl := Option.some.inj h
    have hstart : State.Ranged ⟨[], .value⟩ := ⟨List.forall_mem_nil _, trivial⟩
    exact (hrun htokens hstart hlast).expect
  · cases h

/-- **A value that is read is in range**, and well formed once its repeated keys are gone. -/
theorem ranged_of_parseRaw? {text : String} (h : parseRaw? text = some value) : value.Ranged := by
  obtain ⟨tokens, htokens, h⟩ := Option.bind_eq_some_iff.mp h
  exact ranged_of_ofTokens? (ranged_of_tokenizeFuel (List.forall_mem_nil _) htokens) h

theorem wellFormed_of_parse? {text : String} (h : parse? text = some value) : value.WellFormed := by
  obtain ⟨raw, hraw, rfl⟩ := Option.map_eq_some_iff.mp h
  exact (ranged_of_parseRaw? hraw).wellFormed_collapse

end RequestGate.Json
