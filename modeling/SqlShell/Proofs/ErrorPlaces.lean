import SqlShell.Proofs.DepthLimit

/-!
# Where reading fails

A reader that fails has taken the beginning of something that it reads, and the token at which it
stops cannot follow. So the token of an error is the first one that is wrong.
-/

set_option autoImplicit false

namespace SqlShell

open Grammar Condition

namespace Reader

variable {α β : Type}

/-- What reading the tokens comes to: a success has taken tokens of the form, a failure the
beginning of some. -/
def Inside (Form : List Token → α → Prop) (n : Nat) (tokens : List Token) :
    Except ParseError α × Cursor → Prop
  | (.ok a, cursor) => ∃ p rest, tokens = p ++ rest ∧ cursor = ⟨rest, n⟩ ∧ Form p a
  | (.error _, cursor) => ∃ p, tokens = p ++ cursor.rest ∧ Begins (Formed Form) p

structure Follows (n : Nat) (r : Reader α) (Form : List Token → α → Prop) : Prop where
  form : ∃ p, Formed Form p
  inside : ∀ tokens, Inside Form n tokens (r ⟨tokens, n⟩)

def FollowsAt (n : Nat) (token : Token) (r : Reader α) (Form : List Token → α → Prop) : Prop :=
  ∀ tokens, tokens.headD .eof = token → Inside Form n tokens (r ⟨tokens, n⟩)

def Sequence (First : List Token → α → Prop) (Next : α → List Token → β → Prop) (p : List Token)
    (b : β) : Prop :=
  ∃ q a s, p = q ++ s ∧ First q a ∧ Next a s b

variable {n : Nat} {Form Form' : List Token → α → Prop} {First : List Token → α → Prop}
  {Next : α → List Token → β → Prop} {r : Reader α} {next : α → Reader β} {token : Token}

theorem Inside.prepend (q : List Token) {tokens : List Token}
    {result : Except ParseError α × Cursor} (h : Inside Form n tokens result)
    (hf : ∀ p a, Form p a → Form' (q ++ p) a) : Inside Form' n (q ++ tokens) result := by
  obtain ⟨outcome, cursor⟩ := result
  cases outcome with
  | ok a =>
    obtain ⟨p, rest, rfl, rfl, hp⟩ := h
    exact ⟨q ++ p, rest, by simp, rfl, hf p a hp⟩
  | error e =>
    obtain ⟨p, rfl, tail, a, hp⟩ := h
    refine ⟨q ++ p, by simp, tail, a, ?_⟩
    rw [List.append_assoc]
    exact hf _ a hp

/-- What is begun by the first reader is completed for it and then for the next one. -/
theorem Inside.bind {tokens : List Token} (hr : Inside First n tokens (r ⟨tokens, n⟩))
    (hs : ∀ a, ∃ p, Formed (Next a) p)
    (hn : ∀ a rest, r ⟨tokens, n⟩ = (.ok a, ⟨rest, n⟩) →
      Inside (Next a) n rest (next a ⟨rest, n⟩)) :
    Inside (Sequence First Next) n tokens ((r >>= next) ⟨tokens, n⟩) := by
  cases hc : r ⟨tokens, n⟩ with
  | mk outcome cursor =>
    rw [hc] at hr
    cases outcome with
    | error e =>
      obtain ⟨p, hp, tail, a, hl⟩ := hr
      obtain ⟨s, b, hm⟩ := hs a
      rw [bind_of_error hc]
      exact ⟨p, hp, tail ++ s, b, p ++ tail, a, s, by simp, hl, hm⟩
    | ok a =>
      obtain ⟨p, rest, rfl, rfl, hl⟩ := hr
      rw [bind_of_ok hc]
      exact (hn a rest hc).prepend p fun s b hm => ⟨p, a, s, rfl, hl, hm⟩

theorem Follows.bind (hr : Follows n r First) (hn : ∀ a, Follows n (next a) (Next a)) :
    Follows n (r >>= next) (Sequence First Next) := by
  constructor
  · obtain ⟨p, a, hp⟩ := hr.form
    obtain ⟨s, b, hs⟩ := (hn a).form
    exact ⟨p ++ s, b, p, a, s, rfl, hp, hs⟩
  · intro tokens
    exact (hr.inside tokens).bind (fun a => (hn a).form) fun a rest _ => (hn a).inside rest

theorem Follows.mono (hr : Follows n r Form) (h : ∀ p a, Form p a → Form' p a) :
    Follows n r Form' := by
  constructor
  · obtain ⟨p, a, hp⟩ := hr.form
    exact ⟨p, a, h p a hp⟩
  · intro tokens
    exact (hr.inside tokens).prepend [] h

theorem Follows.at (hr : Follows n r Form) (h : ∀ p a, Form p a → Form' p a) :
    FollowsAt n token r Form' :=
  fun tokens _ => (hr.mono h).inside tokens

theorem Follows.advance (hr : Follows n r Form) (ht : token ≠ .eof)
    (h : ∀ p a, Form p a → Form' (token :: p) a) :
    FollowsAt n token (Reader.advance >>= fun _ => r) Form' := by
  intro tokens htoken
  obtain ⟨rest, rfl⟩ := eq_cons_of_headD ht htoken
  have ha : (⟨token :: rest, n⟩ : Cursor).advance = ⟨rest, n⟩ := by
    simp [Cursor.advance, Cursor.peek, ht]
  change Inside Form' n _ (r (Cursor.advance ⟨token :: rest, n⟩))
  rw [ha]
  exact (hr.inside rest).prepend [token] h

theorem follows_pure (n : Nat) (a : α) :
    Follows n (pure a : Reader α) fun p b => p = [] ∧ b = a :=
  ⟨⟨[], a, rfl, rfl⟩, fun tokens => ⟨[], tokens, rfl, rfl, rfl, rfl⟩⟩

/-- Where nothing is taken, any tokens of the form are begun. -/
theorem followsAt_fail (e : ParseError) (hs : ∃ p, Formed Form p) :
    FollowsAt n token (fail e : Reader α) Form :=
  fun _ _ => ⟨[], rfl, hs⟩

theorem follows_peek_bind {next : Token → Reader α} (hs : ∃ p, Formed Form p)
    (h : ∀ token, FollowsAt n token (next token) Form) : Follows n (peek >>= next) Form :=
  ⟨hs, fun tokens => h (tokens.headD .eof) tokens rfl⟩

theorem follows_one (n : Nat) {form : Token → Except ParseError α} (hf : Forms form Form)
    (hs : ∃ p, Formed Form p) : Follows n (one form) Form := by
  refine follows_peek_bind hs fun token => ?_
  cases ht : form token with
  | ok a =>
    have he : token ≠ .eof := fun h => hf.eof a (h ▸ ht)
    intro tokens htoken
    obtain ⟨rest, rfl⟩ := eq_cons_of_headD he htoken
    refine ⟨[token], rest, rfl, ?_, (hf.iff _ _).mpr ⟨token, rfl, ht⟩⟩
    simp [Cursor.advance, Cursor.peek, he]
  | error e => exact followsAt_fail e hs

theorem follows_expect (n : Nat) (token : Token) (ht : token ≠ .eof) :
    Follows n (expect token) fun p _ => p = [token] := by
  refine follows_peek_bind ⟨[token], (), rfl⟩ fun found => ?_
  by_cases hf : found = token
  · simp only [hf, if_true]
    exact (follows_pure n ()).advance ht fun p _ hp => by rw [hp.1]
  · simp only [hf, if_false]
    exact followsAt_fail _ ⟨[token], (), rfl⟩

theorem follows_keyword (n : Nat) (k : Keyword) :
    Follows n (keyword k) fun p _ => p = [.keyword k] :=
  follows_expect n (.keyword k) (by simp)

theorem follows_name (n : Nat) : Follows n name NameForm :=
  follows_one n forms_name ⟨_, _, .identifier "a"⟩

theorem follows_ofTokens {read : List Token → Except ParseError α × List Token}
    {Phrase : List Token → α → Token → Prop} (ha : (ofTokens read).Accepts n Phrase)
    (hp : ∀ p a t, Phrase p a t → Form p a) (hl : ∀ tokens, LooksAheadAt read (Formed Form) tokens)
    (hs : ∃ p, Formed Form p) : Follows n (ofTokens read) Form := by
  refine ⟨hs, fun tokens => ?_⟩
  obtain ⟨taken, rest, outcome, rfl, -, hr, hread⟩ := hl tokens
  have hc : ofTokens read ⟨taken ++ rest, n⟩ = (outcome, ⟨rest, n⟩) := by
    simp only [ofTokens, hread rest rfl]
  cases outcome with
  | ok a =>
    obtain ⟨p, last, hrest, hcursor, hform⟩ := (ha _ _ _).mp hc
    rw [hc]
    exact ⟨p, last, hrest, hcursor, hp p a _ hform⟩
  | error e =>
    rw [hc]
    exact ⟨taken, rfl, (hr e rfl).2⟩

section Lists

variable {item : Token → Except ParseError α}

theorem follows_commaSeparated (n : Nat) (hi : Forms item Form) (hr : Reports item)
    (hs : ∃ p, Formed Form p) : Follows n (ofTokens (commaSeparated item)) (ListForm Form) := by
  refine follows_ofTokens (accepts_commaSeparated n hi) (fun p a t h => h.1)
    (looksAhead_commaSeparated hi hr hs) ?_
  obtain ⟨p, a, hp⟩ := hs
  exact ⟨p, [a], .one hp⟩

theorem follows_closedList (n : Nat) (hi : Forms item Form) (hr : Reports item)
    (hs : ∃ p, Formed Form p) :
    Follows n (closedList item) fun p items =>
      ∃ q, p = q ++ [.rightParen] ∧ ListForm Form q items := by
  have hclose (items : List α) : ∃ p, Formed (fun p found => p = [.rightParen] ∧ found = items) p :=
    ⟨[.rightParen], items, rfl, rfl⟩
  refine ((follows_commaSeparated n hi hr hs).bind fun items =>
    follows_peek_bind (hclose items) fun token => ?_).mono ?_
  · split
    · intro tokens ht
      obtain ⟨rest, rfl⟩ := eq_cons_of_headD (by simp) ht
      exact ⟨[.rightParen], rest, rfl, rfl, rfl, rfl⟩
    · exact followsAt_fail _ (hclose items)
  · rintro p items ⟨q, found, s, rfl, hq, rfl, rfl⟩
    exact ⟨q, rfl, hq⟩

end Lists

end Reader

namespace Condition

open Reader

variable {limit : Option Nat} {base : Nat}

inductive StackForm : List Frame → List Token → Prop
  | nil : StackForm [] []
  | cons {f : Frame} {outer : List Frame} {p q : List Token} (hf : FrameForm f p)
      (ho : StackForm outer q) : StackForm (f :: outer) (q ++ p ++ [.leftParen])

/-- The tokens go on to a condition when every open parenthesis is closed. -/
theorem StackForm.begins {outer : List Frame} {p q : List Token} {c : Condition}
    (ho : StackForm outer q) (hc : ConditionForm .disjunction p c) :
    Begins (Formed (ConditionForm .disjunction)) (q ++ p) := by
  induction ho generalizing p c with
  | nil => exact ⟨[], c, by simpa using hc⟩
  | @cons f outer r q hf ho ih =>
    obtain ⟨tail, d, hd⟩ := ih (hf.complete (.parenthesized hc))
    exact ⟨.rightParen :: tail, d, by simpa using hd⟩

/-- An operand that is begun is completed first. -/
theorem StackForm.begins_operand {f : Frame} {outer : List Frame} {p q r : List Token}
    (ho : StackForm outer q) (hf : FrameForm f p)
    (hr : Begins (Formed (ConditionForm .operand)) r) :
    Begins (Formed fun s => ConditionForm .disjunction (q ++ p ++ s)) r := by
  obtain ⟨tail, c, hc⟩ := hr
  obtain ⟨last, d, hd⟩ := ho.begins (hf.complete hc)
  exact ⟨tail ++ last, d, by simpa using hd⟩

mutual

/-- What has been read is in the frames, and what a run goes on to read completes them. -/
theorem operand_inside {f : Frame} {outer : List Frame} {p q : List Token}
    (ho : StackForm outer q) (hf : FrameForm f p) (tokens : List Token) :
    Inside (fun s => ConditionForm .disjunction (q ++ p ++ s)) base tokens
      (operand limit base f outer tokens) := by
  cases operand_step limit base f outer tokens with
  | @paren rest hd =>
    rw [operand_paren hd]
    refine (operand_inside (.cons hf ho) .empty rest).prepend [.leftParen] fun s c hc => ?_
    simpa using hc
  | @comparison column op hop r rest value hv =>
    have hc := ConditionForm.comparison column op hop hv
    rw [operand_comparison limit base f outer column hop hv]
    refine (after_inside ho hf hc rest).prepend (.identifier column :: .operator op :: r) ?_
    intro s c hs
    simpa using hs
  | @missing taken rest e hn =>
    rw [hn.stops limit base f outer rest rfl]
    exact ⟨taken, rfl, ho.begins_operand hf hn.begins⟩
  | tooDeep hb hs =>
    obtain ⟨c, hc⟩ := exists_comparison "a" .equal rfl
    have hp := ConditionForm.parenthesized (.conjunction (.operand hc))
    rw [hs]
    exact ⟨[.leftParen], rfl, ho.begins_operand hf ⟨_, c, hp⟩⟩
termination_by tokens.length
decreasing_by
  all_goals
    simp only [List.length_cons, List.length_append]
    omega

theorem after_inside {f : Frame} {outer : List Frame} {p q r : List Token} {last : Condition}
    (ho : StackForm outer q) (hf : FrameForm f p) (hl : ConditionForm .operand r last)
    (tokens : List Token) :
    Inside (fun s => ConditionForm .disjunction (q ++ p ++ r ++ s)) base tokens
      (after limit base f outer last tokens) := by
  have hstop : Begins (Formed fun s => ConditionForm .disjunction (q ++ p ++ r ++ s)) [] := by
    obtain ⟨tail, d, hd⟩ := ho.begins (hf.complete hl)
    exact ⟨tail, d, by simpa using hd⟩
  cases after_step limit base f outer last tokens with
  | @and _ rest hd =>
    rw [after_and hd]
    refine (operand_inside ho (hf.extend hl) rest).prepend [.keyword .AND] fun s c hs => ?_
    simpa using hs
  | @or _ rest hd =>
    rw [after_or hd]
    refine (operand_inside ho (.disjunction (hf.complete hl)) rest).prepend [.keyword .OR] ?_
    intro s c hs
    simpa using hs
  | done hr hd =>
    cases ho
    rw [after_end hr hd]
    refine ⟨[], tokens, rfl, rfl, ?_⟩
    simpa using hf.complete hl
  | @close enclosing others rest hd =>
    rw [after_close hd]
    cases ho with
    | cons hg ho =>
      refine (after_inside ho hg (.parenthesized (hf.complete hl)) rest).prepend [.rightParen] ?_
      intro s c hs
      simpa using hs
  | unclosed hr hp hd =>
    rw [after_unclosed hr hp hd]
    exact ⟨[], rfl, hstop⟩
  | tooDeep hb hs =>
    rw [hs tokens rfl]
    exact ⟨[], rfl, hstop⟩
termination_by tokens.length
decreasing_by
  all_goals
    subst_vars
    simp only [List.length_cons]
    omega

end

end Condition

namespace Reader

theorem exists_condition : ∃ p, Formed (ConditionForm .disjunction) p := by
  obtain ⟨c, hc⟩ := exists_comparison "a" .equal rfl
  exact ⟨_, c, .conjunction (.operand hc)⟩

theorem follows_condition (limit : Option Nat) (n : Nat) :
    Follows n (Condition.reader limit) (ConditionForm .disjunction) :=
  ⟨exists_condition, fun tokens => operand_inside .nil .empty tokens⟩

theorem follows_order (n : Nat) :
    Follows n order fun p _ => ∃ q s column direction, p = q ++ s ∧ NameForm q column ∧
      DirectionForm s direction := by
  refine ((follows_name n).bind fun column =>
    (?_ : Follows n _ fun p _ => Formed DirectionForm p)).mono ?_
  · refine follows_peek_bind ⟨[], ⟨column, .ascending⟩, _, .omitted⟩ fun token => ?_
    split
    · refine (follows_pure n _).advance (by simp) ?_
      rintro _ _ ⟨rfl, -⟩
      exact ⟨_, .ascending⟩
    · refine (follows_pure n _).advance (by simp) ?_
      rintro _ _ ⟨rfl, -⟩
      exact ⟨_, .descending⟩
    · refine (follows_pure n _).at ?_
      rintro _ _ ⟨rfl, -⟩
      exact ⟨_, .omitted⟩
  · rintro _ _ ⟨q, column, s, rfl, hq, direction, hs⟩
    exact ⟨q, s, column, direction, rfl, hq, hs⟩

def ClauseOrNone (p : List Token) : Option Clause → Prop
  | some _ => Formed ClauseForm p
  | none => p = []

theorem follows_clause (limit : Option Nat) (n : Nat) : Follows n (clause limit) ClauseOrNone := by
  have hnone : ∃ p, Formed ClauseOrNone p := ⟨[], none, rfl⟩
  refine follows_peek_bind hnone fun token => ?_
  unfold clauseAt
  split
  · refine ((follows_condition limit n).bind fun c => follows_pure n _).advance (by simp) ?_
    rintro _ _ ⟨q, c, _, rfl, hc, rfl, rfl⟩
    rw [List.append_nil]
    exact ⟨_, .condition hc⟩
  · refine ((follows_one n forms_count ⟨_, _, .mk .nan⟩).bind fun _ => follows_pure n _).advance
      (by simp) ?_
    rintro _ _ ⟨_, count, _, rfl, ⟨_⟩, rfl, rfl⟩
    exact ⟨_, .limit count⟩
  · refine ((follows_keyword n .BY).bind fun _ => (follows_order n).bind fun _ =>
      follows_pure n _).advance (by simp) ?_
    rintro _ _ ⟨_, _, _, rfl, rfl, _, _, _, rfl, ⟨q, s, column, direction, rfl, hq, hs⟩, rfl, rfl⟩
    have hform := ClauseForm.order hq hs
    exact ⟨_, by simpa using hform⟩
  · split
    · exact followsAt_fail _ hnone
    · refine (follows_pure n none).at ?_
      rintro _ _ ⟨rfl, rfl⟩
      rfl
  · refine (follows_pure n none).at ?_
    rintro _ _ ⟨rfl, rfl⟩
    rfl

/-- Each clause takes a token, so the induction is on the number of tokens left. -/
theorem follows_clausesAfter (limit : Option Nat) (n : Nat) (found : Clauses) :
    Follows n (clausesAfter limit found) fun p _ => Formed ClausesForm p := by
  refine ⟨⟨[], .none, _, .none⟩, fun tokens => ?_⟩
  induction hs : tokens.length using Nat.strongRecOn generalizing tokens found with
  | ind size ih =>
    have hrun : Inside (Sequence ClauseOrNone fun _ p _ => Formed ClausesForm p) n tokens
        (clausesAfter limit found ⟨tokens, n⟩) := by
      rw [clausesAfter_eq_bind]
      refine ((follows_clause limit n).inside tokens).bind (fun _ => ⟨[], found, _, .none⟩) ?_
      intro x rest hc
      cases x with
      | none => exact ⟨[], rest, rfl, rfl, _, .none⟩
      | some x =>
        have ht := clause_takes limit ⟨tokens, n⟩ x (by rw [hc])
        rw [hc] at ht
        exact ih rest.length (hs ▸ ht) (found.add x) rest rfl
    refine hrun.prepend [] ?_
    rintro _ _ ⟨q, x, s, rfl, hq, written, hs⟩
    cases x with
    | none =>
      obtain rfl : q = [] := hq
      exact ⟨written, hs⟩
    | some x =>
      obtain ⟨w, hw⟩ := hq
      rw [List.nil_append]
      exact ⟨w :: written, .more hw hs⟩

theorem follows_columns (n : Nat) : Follows n columns ColumnsForm := by
  refine follows_peek_bind ⟨[], [], .omitted⟩ fun token => ?_
  split
  · refine (follows_closedList n forms_name reports_asName ⟨_, _, .identifier "a"⟩).advance
      (by simp) ?_
    rintro _ columns ⟨q, rfl, hq⟩
    exact .listed hq
  · refine (follows_pure n []).at ?_
    rintro _ _ ⟨rfl, rfl⟩
    exact .omitted

theorem follows_whereClause (limit : Option Nat) (n : Nat) :
    Follows n (whereClause limit) WhereForm := by
  refine follows_peek_bind ⟨[], none, .omitted⟩ fun token => ?_
  split
  · refine ((follows_condition limit n).bind fun c => follows_pure n _).advance (by simp) ?_
    rintro _ _ ⟨q, c, _, rfl, hc, rfl, rfl⟩
    rw [List.append_nil]
    exact .written hc
  · refine (follows_pure n none).at ?_
    rintro _ _ ⟨rfl, rfl⟩
    exact .omitted

theorem follows_select (limit : Option Nat) (n : Nat) :
    Follows n (select limit) fun p _ => Formed SentenceForm p := by
  refine ((follows_keyword n .SELECT).bind fun _ =>
    (follows_commaSeparated n forms_field reports_asField ⟨_, _, .wildcard⟩).bind fun _ =>
    (follows_keyword n .FROM).bind fun _ => (follows_name n).bind fun _ =>
    (follows_clausesAfter limit n .none).bind fun _ => follows_pure n _).mono ?_
  rintro _ _ ⟨_, _, _, rfl, rfl, p, fields, _, rfl, hf, _, _, _, rfl, rfl, q, table, _, rfl, ht,
    r, _, _, rfl, ⟨clauses, hc⟩, rfl, -⟩
  simp only [List.append_nil, List.cons_append, List.nil_append]
  exact ⟨_, .select hf ht hc⟩

theorem follows_insert (n : Nat) : Follows n insert fun p _ => Formed SentenceForm p := by
  refine ((follows_keyword n .INSERT).bind fun _ => (follows_keyword n .INTO).bind fun _ =>
    (follows_name n).bind fun _ => (follows_columns n).bind fun _ =>
    (follows_keyword n .VALUES).bind fun _ => (follows_expect n .leftParen (by simp)).bind fun _ =>
    (follows_closedList n forms_literal reports_asLiteral ⟨_, _, .identifier "a"⟩).bind fun _ =>
    follows_pure n _).mono ?_
  rintro _ _ ⟨_, _, _, rfl, rfl, _, _, _, rfl, rfl, p, table, _, rfl, ht, q, columns, _, rfl, hc,
    _, _, _, rfl, rfl, _, _, _, rfl, rfl, _, values, _, rfl, ⟨r, rfl, hv⟩, rfl, -⟩
  simp only [List.append_nil, List.cons_append, List.nil_append]
  exact ⟨_, .insert ht hc hv⟩

theorem follows_update (limit : Option Nat) (n : Nat) :
    Follows n (update limit) fun p _ => Formed SentenceForm p := by
  have hpair := AssignmentForm.mk (.identifier "a") (.identifier "b")
  have hpairs : Follows n (ofTokens assignments) (ListForm AssignmentForm) :=
    follows_ofTokens (accepts_assignments n) (fun _ _ _ h => h.1) looksAhead_assignments
      ⟨_, _, .one hpair⟩
  refine ((follows_keyword n .UPDATE).bind fun _ => (follows_name n).bind fun _ =>
    (follows_keyword n .SET).bind fun _ => hpairs.bind fun _ =>
    (follows_whereClause limit n).bind fun _ => follows_pure n _).mono ?_
  rintro _ _ ⟨_, _, _, rfl, rfl, p, table, _, rfl, ht, _, _, _, rfl, rfl, q, pairs, _, rfl, ha,
    r, condition, _, rfl, hw, rfl, -⟩
  simp only [List.append_nil, List.cons_append, List.nil_append]
  exact ⟨_, .update ht ha hw⟩

theorem follows_delete (limit : Option Nat) (n : Nat) :
    Follows n (delete limit) fun p _ => Formed SentenceForm p := by
  refine ((follows_keyword n .DELETE).bind fun _ => (follows_keyword n .FROM).bind fun _ =>
    (follows_name n).bind fun _ => (follows_whereClause limit n).bind fun _ =>
    follows_pure n _).mono ?_
  rintro _ _ ⟨_, _, _, rfl, rfl, _, _, _, rfl, rfl, p, table, _, rfl, ht, r, condition, _, rfl, hw,
    rfl, -⟩
  simp only [List.append_nil, List.cons_append, List.nil_append]
  exact ⟨_, .delete ht hw⟩

theorem follows_statement (limit : Option Nat) (n : Nat) :
    Follows n (statement limit) fun p _ => Formed SentenceForm p := by
  have hs := (follows_select limit n).form
  refine follows_peek_bind hs fun token => ?_
  split
  · exact (follows_select limit n).at fun _ _ => id
  · exact (follows_insert n).at fun _ _ => id
  · exact (follows_update limit n).at fun _ _ => id
  · exact (follows_delete limit n).at fun _ _ => id
  · exact followsAt_fail _ hs

/-- Without a limit every sentence is read. -/
theorem statement_none_sentence {p : List Token} {sentence : Sentence}
    (h : SentenceForm p sentence) :
    statement none ⟨p, 0⟩ = (.ok sentence.statement, ⟨[], 0⟩) := by
  refine (accepts_statement none 0 p sentence.statement ⟨[], 0⟩).mpr
    ⟨p, [], by simp, rfl, sentence, ⟨h, ?_, ?_, ?_⟩, rfl⟩
  · intro c _ bound hb
    cases hb
  · cases sentence with
    | insert => trivial
    | _ => intro bound hb; cases hb
  · intro hm
    have hc := sentence.continuing_subset hm
    revert hc
    decide

end Reader

namespace Cursor

open Reader

/-- An error that is not about depth is at a token, names it and is found behind the same tokens
before the same token again, also without a limit. -/
theorem readStatement_error {tokens : List Token} {e : ParseError} {cursor : Cursor}
    (h : (ofTokens tokens).readStatement = (.error e, cursor)) (he : ∀ bound, e ≠ .tooDeep bound) :
    ∃ front token later, (ofTokens tokens).rest = front ++ token :: later ∧
      cursor.rest = token :: later ∧ e.reported = some token ∧
      ∀ last, statement (some depthLimit) ⟨front ++ token :: last, 0⟩ =
          (.error e, ⟨token :: last, cursor.nesting⟩) ∧
        statement none ⟨front ++ token :: last, 0⟩ =
          (.error e, ⟨token :: last, cursor.nesting⟩) := by
  have htracks : Tracks (some depthLimit) 0 (statement (some depthLimit)) (statement none) :=
    tracks_statement within_none
  obtain ⟨front, rest, outcome, m, hrest, hread, ht⟩ := htracks.reading (ofTokens tokens)
  cases h.symm.trans hread
  have hreported : e.reported = some (rest.headD .eof) := by
    rcases ht.reports e rfl with ⟨bound, -, hb⟩ | hr
    · exact absurd hb (he bound)
    · exact hr
  have hfollows := ht.follows.resolve_left fun ⟨bound, hb⟩ => he bound (Except.error.inj hb)
  cases rest with
  | nil => exact absurd rfl (ne_nil_of_eof_notMem hrest ht.eof)
  | cons token later =>
    refine ⟨front, token, later, hrest, rfl, hreported, fun last => ?_⟩
    exact ⟨ht.reads (token :: last) rfl, hfollows (token :: last) rfl⟩

/-- A sentence is read without a limit, so what fails without one is no sentence. -/
theorem not_sentence_of_error {p : List Token} {e : ParseError} {cursor : Cursor}
    (h : statement none ⟨p, 0⟩ = (.error e, cursor)) : ¬Formed SentenceForm p := by
  rintro ⟨sentence, hs⟩
  cases h.symm.trans (statement_none_sentence hs)

/-- An error that is not about depth names the token at which the cursor stops. It depends on the
tokens up to that one alone. Those in front of it begin a sentence, and with it they begin none. -/
theorem error_at_first_wrong_token {tokens : List Token} {e : ParseError} {cursor : Cursor}
    (h : (ofTokens tokens).readStatement = (.error e, cursor)) (he : ∀ bound, e ≠ .tooDeep bound) :
    ∃ front token later,
      (ofTokens tokens).rest = front ++ token :: later ∧ cursor.rest = token :: later ∧
      e.reported = some token ∧
      (∀ others last, (ofTokens others).rest = front ++ token :: last →
        (ofTokens others).readStatement = (.error e, ⟨token :: last, cursor.nesting⟩)) ∧
      Begins (Formed SentenceForm) front ∧ ¬Begins (Formed SentenceForm) (front ++ [token]) := by
  obtain ⟨front, token, later, hrest, hc, hr, hread⟩ := readStatement_error h he
  refine ⟨front, token, later, hrest, hc, hr, fun others last ho => ?_, ?_, ?_⟩
  · have hother := (hread last).1
    rw [← ho] at hother
    exact hother
  · have hinside := (follows_statement (some depthLimit) 0).inside (ofTokens tokens).rest
    rw [show statement _ ⟨(ofTokens tokens).rest, 0⟩ = _ from h] at hinside
    obtain ⟨p, hp, tail, _, hform⟩ := hinside
    rw [hrest, hc] at hp
    rw [List.append_cancel_right hp]
    exact ⟨tail, hform⟩
  · rintro ⟨tail, hs⟩
    rw [List.append_assoc] at hs
    exact not_sentence_of_error (hread tail).2 hs

/-- In SELECT FROM a the keyword FROM is a field, and another one has to follow it. -/
theorem error_behind_from_as_field :
    let tokens := [.keyword .SELECT, .keyword .FROM, .identifier "a"]
    let cursor : Cursor := ⟨[.identifier "a", .eof], 0⟩
    (ofTokens tokens).readStatement =
        (.error (.unexpected (.token (.keyword .FROM)) (.identifier "a")), cursor) ∧
      Begins (Formed SentenceForm) [.keyword .SELECT, .keyword .FROM] ∧
      ¬Begins (Formed SentenceForm) [.keyword .SELECT, .keyword .FROM, .identifier "a"] := by
  intro tokens cursor
  have hread : (ofTokens tokens).readStatement =
      (.error (.unexpected (.token (.keyword .FROM)) (.identifier "a")), cursor) := by
    decide +kernel
  obtain ⟨front, token, later, hrest, hc, -, -, hb, hn⟩ :=
    error_at_first_wrong_token hread (by simp)
  cases hc
  obtain rfl : [.keyword .SELECT, .keyword .FROM] = front := List.append_cancel_right hrest
  exact ⟨hread, hb, hn⟩

end Cursor

end SqlShell
