import SqlShell.Proofs.ReservedWords
import SqlShell.Proofs.StatementLookahead

/-!
# Reading again from one cursor

A cursor can be asked for one statement or condition after another, also after errors. It stays in
its token list and in front of the first end of input, and what stands behind that is never looked
at. Parentheses that an error left open bring the limit on depth nearer and do nothing else.
-/

set_option autoImplicit false

namespace SqlShell

open Grammar Condition

inductive Request where
  | statement
  | condition
  deriving DecidableEq, Repr

inductive Answer where
  | statement (statement : Statement)
  | condition (condition : Condition)
  deriving DecidableEq, Repr

def Request.reader : Request → Reader Answer
  | statement => do return .statement (← Reader.statement (some depthLimit))
  | condition => do return .condition (← Condition.reader (some depthLimit))

theorem Request.tracks (request : Request) (shift : Nat) :
    Reader.Tracks (some depthLimit) shift request.reader request.reader := by
  cases request with
  | statement => exact (Reader.tracks_statement fun _ => id).bind fun _ => Reader.tracks_pure _
  | condition => exact (Reader.tracks_condition fun _ => id).bind fun _ => Reader.tracks_pure _

theorem Request.nesting_of_ok (request : Request) {tokens : List Token} {n : Nat} {a : Answer}
    {cursor : Cursor} (h : request.reader ⟨tokens, n⟩ = (.ok a, cursor)) : cursor.nesting = n := by
  cases request with
  | statement =>
    have ha := (Reader.accepts_statement (some depthLimit) n).bind fun s =>
      Reader.accepts_pure n (Answer.statement s)
    obtain ⟨_, _, _, rfl, _⟩ := (ha _ _ _).mp h
    rfl
  | condition =>
    have ha := (Reader.accepts_condition (some depthLimit) n).bind fun c =>
      Reader.accepts_pure n (Answer.condition c)
    obtain ⟨_, _, _, rfl, _⟩ := (ha _ _ _).mp h
    rfl

namespace Cursor

def answer (c : Cursor) : Request → Except ParseError Answer × Cursor
  | .statement => (c.readStatement.1.map .statement, c.readStatement.2)
  | .condition => (c.readCondition.1.map .condition, c.readCondition.2)

def answers (c : Cursor) : List Request → List (Except ParseError Answer) × Cursor
  | [] => ([], c)
  | request :: requests =>
    let first := c.answer request
    let more := first.2.answers requests
    (first.1 :: more.1, more.2)

theorem answer_eq_reader (c : Cursor) (request : Request) :
    c.answer request = request.reader c := by
  cases request with
  | statement =>
    change _ = Reader.bind (Reader.statement (some depthLimit)) _ c
    unfold answer readStatement Reader.bind
    rcases Reader.statement (some depthLimit) c with ⟨_ | _, _⟩ <;> rfl
  | condition =>
    change _ = Reader.bind (Condition.reader (some depthLimit)) _ c
    unfold answer readCondition Reader.bind
    rcases Condition.reader (some depthLimit) c with ⟨_ | _, _⟩ <;> rfl

structure Moves (c c' : Cursor) : Prop where
  place : ∃ taken, c.rest = taken ++ c'.rest ∧ .eof ∉ taken
  opens : c.nesting ≤ c'.nesting
  within : c.nesting ≤ 128 → c'.nesting ≤ 128

theorem answer_moves (c : Cursor) (request : Request) : Moves c (c.answer request).2 := by
  obtain ⟨taken, rest, outcome, m, hc, hread, ht⟩ := (request.tracks 0).reading c
  rw [answer_eq_reader, hread]
  refine ⟨⟨taken, hc, ht.eof⟩, ht.opens, fun hn => ?_⟩
  have hw := ht.within fun bound hb => by cases hb; exact hn
  exact hw _ rfl

theorem answer_ok_nesting {c : Cursor} {request : Request} {a : Answer}
    (h : (c.answer request).1 = .ok a) : (c.answer request).2.nesting = c.nesting := by
  rw [answer_eq_reader] at h ⊢
  exact request.nesting_of_ok (Prod.ext h rfl)

/-- Open parentheses in front change an answer into a refusal only. -/
theorem answer_eq_or_tooDeep (c : Cursor) (request : Request) :
    (c.answer request).1 = ((⟨c.rest, 0⟩ : Cursor).answer request).1 ∨
      (c.answer request).1 = .error (.tooDeep 128) := by
  have h := (request.tracks c.nesting).agree c.rest 0
  rw [Nat.zero_add] at h
  rw [answer_eq_reader, answer_eq_reader]
  rcases h with ⟨outcome, rest, m, hr, hr'⟩ | ⟨_, ⟨rfl⟩, hr⟩
  · left
    rw [show request.reader c = _ from hr, hr']
  · exact Or.inr hr

theorem answer_before_eof (request : Request) {front : List Token} (hf : .eof ∉ front) (n : Nat) :
    ∃ left outcome m, .eof ∉ left ∧ ∀ after,
      (⟨front ++ .eof :: after, n⟩ : Cursor).answer request =
        (outcome, ⟨left ++ .eof :: after, m⟩) := by
  obtain ⟨taken, rest, outcome, m, hc, ht⟩ := request.tracks 0 n (front ++ [.eof])
  obtain ⟨left, rfl, rfl⟩ := append_eof_eq ht.eof hc
  refine ⟨left, outcome, m, fun h => hf (List.mem_append_right _ h), fun after => ?_⟩
  have hhead : (left ++ Token.eof :: after).headD .eof = (left ++ [Token.eof]).headD .eof := by
    cases left <;> rfl
  rw [answer_eq_reader, List.append_assoc]
  exact ht.reads _ hhead

theorem Moves.trans {a b c : Cursor} (h : Moves a b) (h' : Moves b c) : Moves a c := by
  obtain ⟨taken, hp, he⟩ := h.place
  obtain ⟨taken', hp', he'⟩ := h'.place
  refine ⟨⟨taken ++ taken', ?_, by simp [he, he']⟩, Nat.le_trans h.opens h'.opens,
    fun hn => h'.within (h.within hn)⟩
  rw [hp, hp', List.append_assoc]

theorem answers_moves (c : Cursor) (requests : List Request) : Moves c (c.answers requests).2 := by
  induction requests generalizing c with
  | nil => exact ⟨⟨[], rfl, by simp⟩, Nat.le_refl _, id⟩
  | cons request requests ih => exact (answer_moves c request).trans (ih _)

theorem answers_ok_nesting {c : Cursor} {requests : List Request}
    (h : ∀ x ∈ (c.answers requests).1, ∃ a, x = .ok a) :
    (c.answers requests).2.nesting = c.nesting := by
  induction requests generalizing c with
  | nil => rfl
  | cons request requests ih =>
    obtain ⟨a, ha⟩ := h _ List.mem_cons_self
    have hrest := ih fun x hx => h x (List.mem_cons_of_mem _ hx)
    exact hrest.trans (answer_ok_nesting ha)

theorem answers_before_eof (requests : List Request) {front : List Token} (hf : .eof ∉ front)
    (n : Nat) :
    ∃ left results m, ∀ after, (⟨front ++ .eof :: after, n⟩ : Cursor).answers requests =
      (results, ⟨left ++ .eof :: after, m⟩) := by
  induction requests generalizing front n with
  | nil => exact ⟨front, [], n, fun _ => rfl⟩
  | cons request requests ih =>
    obtain ⟨left, outcome, m, hl, hfirst⟩ := answer_before_eof request hf n
    obtain ⟨last, results, k, hmore⟩ := ih hl m
    refine ⟨last, outcome :: results, k, fun after => ?_⟩
    simp only [answers, hfirst after, hmore after]

theorem ofTokens_of_eof_notMem {front : List Token} (hf : .eof ∉ front) :
    ofTokens front = ⟨front ++ [.eof], 0⟩ := by
  unfold ofTokens
  rw [if_neg fun h => hf (List.mem_of_getLast? h)]

/-- A suffix of the token list that still has its end is a token list of its own. -/
theorem ofTokens_suffix {tokens taken rest : List Token}
    (h : (ofTokens tokens).rest = taken ++ rest) (hr : rest ≠ []) :
    ofTokens rest = ⟨rest, 0⟩ := by
  have hl := getLast?_ofTokens tokens
  rw [h, List.getLast?_append_of_ne_nil _ hr] at hl
  unfold ofTokens
  rw [if_pos hl]

/-- After any readings the cursor is at a token of its list, not behind the first end of input, and
what stands behind that has changed no answer. No more than 128 parentheses are open. The next
reading closes none that were open in front of it, and leaves none open when it succeeds. Its answer
is that of a new cursor at the same place, or a refusal for depth; after successes alone it is
always that of the new cursor. -/
theorem answers_stay_safe {tokens : List Token} {requests : List Request}
    {results : List (Except ParseError Answer)} {c : Cursor}
    (h : (ofTokens tokens).answers requests = (results, c)) :
    (∃ taken later, (ofTokens tokens).rest = taken ++ c.rest ∧ .eof ∉ taken ∧
        c.rest = c.peek :: later) ∧
      (∀ front after, tokens = front ++ .eof :: after → .eof ∉ front →
        ((ofTokens front).answers requests).1 = results) ∧
      c.nesting ≤ 128 ∧
      ∀ request,
        c.nesting ≤ (c.answer request).2.nesting ∧ (c.answer request).2.nesting ≤ 128 ∧
        (∀ a, (c.answer request).1 = .ok a → (c.answer request).2.nesting = c.nesting) ∧
        ((c.answer request).1 = ((ofTokens c.rest).answer request).1 ∨
          (c.answer request).1 = .error (.tooDeep 128)) ∧
        ((∀ x ∈ results, ∃ a, x = .ok a) →
          (c.answer request).1 = ((ofTokens c.rest).answer request).1) := by
  have hmoves : Moves (ofTokens tokens) c := by
    have hm := answers_moves (ofTokens tokens) requests
    rwa [h] at hm
  have hn : c.nesting ≤ 128 := hmoves.within (Nat.zero_le _)
  obtain ⟨taken, hp, he⟩ := hmoves.place
  have hr := ne_nil_of_eof_notMem hp he
  have hfresh := ofTokens_suffix hp hr
  refine ⟨⟨taken, c.rest.tail, hp, he, ?_⟩, ?_, hn, fun request => ?_⟩
  · cases hc : c.rest with
    | nil => exact absurd hc hr
    | cons t later => simp [peek, hc]
  · rintro front after rfl hf
    obtain ⟨left, found, m, hrun⟩ := answers_before_eof requests hf 0
    obtain ⟨later, hl⟩ := ofTokens_cons .eof after
    rw [ofTokens_append front (by simp), hl] at h
    rw [ofTokens_of_eof_notMem hf, hrun]
    exact (congrArg Prod.fst (hrun later)).symm.trans (congrArg Prod.fst h)
  · have hstep := answer_moves c request
    refine ⟨hstep.opens, hstep.within hn, fun a => answer_ok_nesting, ?_, fun hok => ?_⟩
    · rw [hfresh]
      exact answer_eq_or_tooDeep c request
    · have hz : c.nesting = 0 := by
        have hnest := @answers_ok_nesting (ofTokens tokens) requests
        rw [h] at hnest
        exact hnest hok
      rw [hfresh, ← hz]

/-- Each of 128 failed readings leaves a parenthesis open. The next one is refused, where a new
cursor finds another fault. -/
theorem answers_leave_parentheses_open :
    let tokens := (List.replicate 129 [.leftParen, .identifier "a", .operator .equal]).flatten
    let c : Cursor := ⟨[.leftParen, .identifier "a", .operator .equal, .eof], 128⟩
    (ofTokens tokens).answers (List.replicate 128 .condition) =
        (List.replicate 128 (.error (.unexpected .literal .leftParen)), c) ∧
      (c.answer .condition).1 = .error (.tooDeep 128) ∧
      (c.answer .condition).1 ≠ ((ofTokens c.rest).answer .condition).1 ∧
      (c.answer .condition).2.nesting ≤ 128 := by
  intro tokens c
  have hrun : (ofTokens tokens).answers (List.replicate 128 .condition) =
      (List.replicate 128 (.error (.unexpected .literal .leftParen)), c) := by decide +kernel
  have hne : (c.answer .condition).1 ≠ ((ofTokens c.rest).answer .condition).1 := by decide +kernel
  have hsafe := (answers_stay_safe hrun).2.2.2 .condition
  exact ⟨hrun, hsafe.2.2.2.1.resolve_left hne, hne, hsafe.2.1⟩

end Cursor

end SqlShell
