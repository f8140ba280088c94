import SqlShell.Proofs.Lookahead

/-!
# Statements are read one token ahead

The readers of conditions, clauses and statements are followed through their runs. A condition is
read from token to token with the frames that are open, so the two runs that are compared go through
the same frames until the limit of the first one is exceeded.
-/

set_option autoImplicit false

namespace SqlShell

open Grammar Reader

namespace Condition

variable {limit limit' : Option Nat} {shift n base : Nat} {f : Frame} {outer : List Frame}

theorem overrun?_of_not_within {d : Nat} (h : ¬Within limit d) :
    ∃ bound ∈ limit, overrun? limit d = some (.tooDeep bound) := by
  cases limit with
  | none => exact absurd (fun _ hb => by cases hb) h
  | some bound =>
    have hd : bound < d := by simpa [Within] using h
    exact ⟨bound, rfl, by simp [overrun?, hd]⟩

theorem bounded_of_not_within {c : Condition} (h : ¬Within limit c.depth) :
    ∃ bound ∈ limit, bounded limit c = .error (.tooDeep bound) := by
  obtain ⟨bound, hb, ho⟩ := overrun?_of_not_within h
  exact ⟨bound, hb, by rw [bounded, ho]⟩

theorem Frame.complete_of_not_within {last : Condition}
    (h : ¬Within limit (f.disjoin (f.conjoin last)).depth) :
    ∃ bound ∈ limit, f.complete limit last = .error (.tooDeep bound) := by
  by_cases hc : Within limit (f.conjoin last).depth
  · obtain ⟨bound, hb, hd⟩ := bounded_of_not_within h
    exact ⟨bound, hb, by rw [complete, extend_eq_ok.mpr ⟨rfl, hc⟩, ← hd]⟩
  · obtain ⟨bound, hb, hd⟩ := bounded_of_not_within hc
    exact ⟨bound, hb, by rw [complete, extend, hd]⟩

/-- The head of a list that is not empty. -/
theorem eq_cons_of_headD {t : Token} {last : List Token} (ht : t ≠ .eof)
    (h : last.headD .eof = t) : ∃ rest, last = t :: rest := by
  cases last with
  | nil => exact absurd h.symm ht
  | cons first rest => exact ⟨rest, by rw [show first = t from h]⟩

theorem operand_paren (h : Within limit (base + outer.length + 1)) (rest : List Token) :
    operand limit base f outer (.leftParen :: rest) =
      operand limit base .empty (f :: outer) rest := by
  rw [operand, overrun?_eq_none.mpr h]

structure NoOperand (taken : List Token) (next : Token) (e : ParseError) : Prop where
  begins : Begins (Formed (ConditionForm .operand)) taken
  reports : e.reported = some next
  stops : ∀ limit base f outer rest, rest.headD .eof = next →
    operand limit base f outer (taken ++ rest) = stop base outer e rest

theorem exists_comparison (column : String) (op : Operator) (hop : op.isComparison) :
    ∃ c, ConditionForm .operand [.identifier column, .operator op, .identifier "b"] c :=
  ⟨_, .comparison column op hop (.identifier "b")⟩

theorem noOperand_column {t : Token} (hp : t ≠ .leftParen) (hi : ∀ column, t ≠ .identifier column) :
    NoOperand [] t (.unexpected .column t) := by
  refine ⟨⟨_, exists_comparison "a" .equal rfl⟩, rfl, ?_⟩
  rintro limit base f outer rest rfl
  change operand limit base f outer rest = _
  unfold operand
  split
  · exact absurd rfl hp
  · exact absurd rfl (hi _)
  · exact absurd rfl (hi _)
  · exact absurd rfl (hi _)
  · rfl

theorem noOperand_comparison (column : String) {t : Token}
    (h : ∀ op, t = .operator op → op.isComparison = false) :
    NoOperand [.identifier column] t (.unexpected .comparison t) := by
  refine ⟨⟨_, exists_comparison column .equal rfl⟩, rfl, ?_⟩
  rintro limit base f outer rest rfl
  cases rest with
  | nil => simp [operand]
  | cons t rest =>
    cases t with
    | operator op => cases rest <;> simp [operand, h op rfl]
    | _ => simp [operand]

theorem noOperand_literal (column : String) {op : Operator} (hop : op.isComparison) {t : Token}
    {e : ParseError} (h : t.asLiteral = .error e) :
    NoOperand [.identifier column, .operator op] t e := by
  refine ⟨⟨_, exists_comparison column op hop⟩, reports_asLiteral _ _ h, ?_⟩
  rintro limit base f outer rest rfl
  cases rest with
  | nil =>
    cases h
    simp [operand, hop]
  | cons value rest => simp [operand, hop, show value.asLiteral = .error e from h]

inductive OperandStep (limit : Option Nat) (base : Nat) (f : Frame) (outer : List Frame) :
    List Token → Prop
  | paren {rest : List Token} (hd : Within limit (base + outer.length + 1)) :
      OperandStep limit base f outer (.leftParen :: rest)
  | comparison (column : String) {op : Operator} (hop : op.isComparison) {p rest : List Token}
      {value : Literal} (hv : LiteralForm p value) :
      OperandStep limit base f outer (.identifier column :: .operator op :: (p ++ rest))
  | missing (taken : List Token) {rest : List Token} {e : ParseError}
      (ho : NoOperand taken (rest.headD .eof) e) : OperandStep limit base f outer (taken ++ rest)
  | tooDeep {bound : Nat} {rest : List Token} (hb : bound ∈ limit)
      (hs : ∀ last, operand limit base f outer (.leftParen :: last) =
        stop base outer (.tooDeep bound) last) :
      OperandStep limit base f outer (.leftParen :: rest)

theorem operand_step_column (column : String) (rest : List Token) :
    OperandStep limit base f outer (.identifier column :: rest) := by
  by_cases ho : ∃ op, rest.headD .eof = .operator op ∧ op.isComparison = true
  · obtain ⟨op, ho, hop⟩ := ho
    obtain ⟨rest, rfl⟩ := eq_cons_of_headD (by simp) ho
    cases hv : (rest.headD .eof).asLiteral with
    | error e => exact .missing [_, _] (noOperand_literal column hop hv)
    | ok value =>
      cases rest with
      | nil => cases hv
      | cons third rest => exact .comparison column hop (literalForm_of_asLiteral hv)
  · refine .missing [_] (noOperand_comparison column ?_)
    intro op h
    exact Bool.eq_false_iff.mpr fun hop => ho ⟨op, h, hop⟩

theorem operand_step (limit : Option Nat) (base : Nat) (f : Frame) (outer : List Frame)
    (tokens : List Token) : OperandStep limit base f outer tokens := by
  by_cases hp : tokens.headD .eof = .leftParen
  · obtain ⟨rest, rfl⟩ := eq_cons_of_headD (by simp) hp
    by_cases hd : Within limit (base + outer.length + 1)
    · exact .paren hd
    · obtain ⟨bound, hb, ho⟩ := overrun?_of_not_within hd
      refine .tooDeep hb fun last => ?_
      rw [operand, ho]
  by_cases hi : ∃ column, tokens.headD .eof = .identifier column
  · obtain ⟨column, hi⟩ := hi
    obtain ⟨rest, rfl⟩ := eq_cons_of_headD (by simp) hi
    exact operand_step_column column rest
  · exact .missing [] (noOperand_column hp fun column h => hi ⟨column, h⟩)

theorem after_end {last : Condition} {rest : List Token} (hr : rest.headD .eof ∉ joining)
    (hd : Within limit (f.disjoin (f.conjoin last)).depth) :
    after limit base f [] last rest = (.ok (f.disjoin (f.conjoin last)), ⟨rest, base⟩) := by
  rw [after_other hr, Frame.complete_eq_ok.mpr ⟨rfl, hd⟩]
  rfl

theorem after_close {enclosing : Frame} {last : Condition}
    (hd : Within limit (f.disjoin (f.conjoin last)).depth) (rest : List Token) :
    after limit base f (enclosing :: outer) last (.rightParen :: rest) =
      after limit base enclosing outer (f.disjoin (f.conjoin last)) rest := by
  rw [after_other (by simp [joining]), Frame.complete_eq_ok.mpr ⟨rfl, hd⟩]
  rfl

theorem after_unclosed {enclosing : Frame} {last : Condition} {rest : List Token}
    (hr : rest.headD .eof ∉ joining) (hp : rest.headD .eof ≠ .rightParen)
    (hd : Within limit (f.disjoin (f.conjoin last)).depth) :
    after limit base f (enclosing :: outer) last rest =
      stop base (enclosing :: outer)
        (.unexpected (.token .rightParen) (rest.headD .eof)) rest := by
  rw [after_other hr, Frame.complete_eq_ok.mpr ⟨rfl, hd⟩]
  simp only [conclude]
  split
  · exact absurd rfl hp
  · rfl

inductive AfterStep (limit : Option Nat) (base : Nat) (f : Frame) (last : Condition) :
    List Frame → List Token → Prop
  | and {outer : List Frame} {rest : List Token} (hd : Within limit (f.conjoin last).depth) :
      AfterStep limit base f last outer (.keyword .AND :: rest)
  | or {outer : List Frame} {rest : List Token}
      (hd : Within limit (f.disjoin (f.conjoin last)).depth) :
      AfterStep limit base f last outer (.keyword .OR :: rest)
  | done {tokens : List Token} (hr : tokens.headD .eof ∉ joining)
      (hd : Within limit (f.disjoin (f.conjoin last)).depth) :
      AfterStep limit base f last [] tokens
  | close {enclosing : Frame} {others : List Frame} {rest : List Token}
      (hd : Within limit (f.disjoin (f.conjoin last)).depth) :
      AfterStep limit base f last (enclosing :: others) (.rightParen :: rest)
  | unclosed {enclosing : Frame} {others : List Frame} {tokens : List Token}
      (hr : tokens.headD .eof ∉ joining) (hp : tokens.headD .eof ≠ .rightParen)
      (hd : Within limit (f.disjoin (f.conjoin last)).depth) :
      AfterStep limit base f last (enclosing :: others) tokens
  | tooDeep {bound : Nat} {outer : List Frame} {tokens : List Token} (hb : bound ∈ limit)
      (hs : ∀ text, text.headD .eof = tokens.headD .eof →
        after limit base f outer last text = stop base outer (.tooDeep bound) text) :
      AfterStep limit base f last outer tokens

theorem after_step (limit : Option Nat) (base : Nat) (f : Frame) (outer : List Frame)
    (last : Condition) (tokens : List Token) : AfterStep limit base f last outer tokens := by
  rcases joining_cases tokens with ⟨rest, rfl⟩ | ⟨rest, rfl⟩ | hr
  · by_cases hd : Within limit (f.conjoin last).depth
    · exact .and hd
    · obtain ⟨bound, hb, hd⟩ := bounded_of_not_within hd
      refine .tooDeep hb fun text ht => ?_
      obtain ⟨tail, rfl⟩ := eq_cons_of_headD (t := .keyword .AND) (by simp) ht
      rw [after, Frame.extend, hd]
  · by_cases hd : Within limit (f.disjoin (f.conjoin last)).depth
    · exact .or hd
    · obtain ⟨bound, hb, hd⟩ := Frame.complete_of_not_within hd
      refine .tooDeep hb fun text ht => ?_
      obtain ⟨tail, rfl⟩ := eq_cons_of_headD (t := .keyword .OR) (by simp) ht
      rw [after, hd]
  · by_cases hd : Within limit (f.disjoin (f.conjoin last)).depth
    · cases outer with
      | nil => exact .done hr hd
      | cons enclosing others =>
        by_cases hp : tokens.headD .eof = .rightParen
        · obtain ⟨rest, rfl⟩ := eq_cons_of_headD (by simp) hp
          exact .close hd
        · exact .unclosed hr hp hd
    · obtain ⟨bound, hb, hd⟩ := Frame.complete_of_not_within hd
      refine .tooDeep hb fun text ht => ?_
      rw [after_other (ht ▸ hr), hd]

/-- The runs stop in the same frames, or the first one for depth. -/
theorem traced_stop {run run' : List Token → Except ParseError Condition × Cursor}
    {rest : List Token} {e : ParseError} (taken : List Token) (he : .eof ∉ taken)
    (hw : Within limit (n + shift) → Within limit (n + shift + outer.length))
    (h : ∀ last, last.headD .eof = rest.headD .eof →
      run (taken ++ last) = stop (n + shift) outer e last)
    (h' : (∃ bound ∈ limit, e = .tooDeep bound) ∨ e.reported = some (rest.headD .eof) ∧
      ∀ last, last.headD .eof = rest.headD .eof → run' (taken ++ last) = stop n outer e last) :
    Traced limit shift n run run' (taken ++ rest) := by
  have hm : n + shift + outer.length = n + outer.length + shift := by omega
  rw [hm] at hw
  refine ⟨taken, rest, .error e, n + outer.length, rfl, he, by omega, hw, ?_, ?_, ?_⟩
  · rintro _ ⟨rfl⟩
    exact h'.imp_right And.left
  · intro last hl
    rw [h last hl, stop, hm]
  · rcases h' with ⟨bound, -, rfl⟩ | ⟨-, h'⟩
    · exact Or.inl ⟨bound, rfl⟩
    · exact Or.inr h'

mutual

theorem operand_traced (hl : ∀ d, Within limit d → Within limit' d) (f : Frame)
    (outer : List Frame) (hw : Within limit (n + shift) → Within limit (n + shift + outer.length))
    (tokens : List Token) :
    Traced limit shift n (operand limit (n + shift) f outer) (operand limit' n f outer) tokens := by
  cases operand_step limit (n + shift) f outer tokens with
  | @paren rest hd =>
    have hd' : Within limit' (n + outer.length + 1) := hl _ (hd.mono (by omega))
    exact (operand_traced hl .empty (f :: outer) (fun _ => hd) rest).prepend
      (p := [.leftParen]) (by simp) (operand_paren hd) (operand_paren hd')
  | @comparison column op hop p rest value hv =>
    have he : .eof ∉ (.identifier column :: .operator op :: p : List Token) := by
      simp [eof_notMem_literal hv]
    exact (after_traced hl f outer hw (.comparison column op value) rest).prepend
      (p := .identifier column :: .operator op :: p) he
      (operand_comparison limit (n + shift) f outer column hop hv)
      (operand_comparison limit' n f outer column hop hv)
  | missing taken ho =>
    obtain ⟨tail, c, hc⟩ := ho.begins
    have he : .eof ∉ taken := fun h => eof_notMem_condition hc (List.mem_append_left _ h)
    exact traced_stop taken he hw (ho.stops limit (n + shift) f outer)
      (Or.inr ⟨ho.reports, ho.stops limit' n f outer⟩)
  | tooDeep hb hs =>
    exact traced_stop [.leftParen] (by simp) hw (fun last _ => hs last) (Or.inl ⟨_, hb, rfl⟩)
termination_by tokens.length
decreasing_by
  all_goals
    simp only [List.length_cons, List.length_append]
    omega

theorem after_traced (hl : ∀ d, Within limit d → Within limit' d) (f : Frame)
    (outer : List Frame) (hw : Within limit (n + shift) → Within limit (n + shift + outer.length))
    (last : Condition) (tokens : List Token) :
    Traced limit shift n (after limit (n + shift) f outer last) (after limit' n f outer last)
      tokens := by
  cases after_step limit (n + shift) f outer last tokens with
  | @and _ rest hd =>
    exact (operand_traced hl _ outer hw rest).prepend (p := [.keyword .AND]) (by simp)
      (after_and hd) (after_and (hl _ hd))
  | @or _ rest hd =>
    exact (operand_traced hl _ outer hw rest).prepend (p := [.keyword .OR]) (by simp)
      (after_or hd) (after_or (hl _ hd))
  | done hr hd =>
    exact .of_ok [] (by simp) (fun text ht => after_end (ht ▸ hr) hd)
      fun text ht => after_end (ht ▸ hr) (hl _ hd)
  | @close enclosing others rest hd =>
    have hw : Within limit (n + shift) → Within limit (n + shift + others.length) :=
      fun h => (hw h).mono (by simp)
    exact (after_traced hl enclosing others hw _ rest).prepend (p := [.rightParen]) (by simp)
      (after_close hd) (after_close (hl _ hd))
  | unclosed hr hp hd =>
    refine traced_stop (e := .unexpected (.token .rightParen) (tokens.headD .eof)) [] (by simp) hw
      (fun text ht => ?_) (Or.inr ⟨rfl, fun text ht => ?_⟩)
    · rw [← ht] at hr hp ⊢
      exact after_unclosed hr hp hd
    · rw [← ht] at hr hp ⊢
      exact after_unclosed hr hp (hl _ hd)
  | tooDeep hb hs => exact traced_stop [] (by simp) hw hs (Or.inl ⟨_, hb, rfl⟩)
termination_by tokens.length
decreasing_by
  all_goals
    subst_vars
    simp only [List.length_cons]
    omega

end

end Condition

namespace Reader

open Condition

variable {limit limit' : Option Nat} {shift : Nat}

theorem tracks_condition (hl : ∀ d, Within limit d → Within limit' d) :
    Tracks limit shift (Condition.reader limit) (Condition.reader limit') :=
  fun _ tokens => operand_traced hl .empty [] id tokens

theorem tracks_name : Tracks limit shift name name := tracks_one reports_asName

theorem tracks_order : Tracks limit shift order order := by
  refine tracks_name.bind fun column => tracks_peek_bind fun token => ?_
  split
  · exact (tracks_advance.bind fun _ => tracks_pure _).at _
  · exact (tracks_advance.bind fun _ => tracks_pure _).at _
  · exact (tracks_pure _).at _

theorem tracksAt_clauseAt (hl : ∀ d, Within limit d → Within limit' d) (token : Token) :
    TracksAt limit shift token (clauseAt limit token) (clauseAt limit' token) := by
  unfold clauseAt
  split
  · exact (tracks_advance.bind fun _ => (tracks_condition hl).bind fun _ => tracks_pure _).at _
  · refine (tracks_advance.bind fun _ => ?_).at _
    exact (tracks_one reports_asCount).bind fun _ => tracks_pure _
  · refine (tracks_advance.bind fun _ => (tracks_keyword .BY).bind fun _ => ?_).at _
    exact tracks_order.bind fun _ => tracks_pure _
  · split
    · exact tracksAt_fail rfl
    · exact (tracks_pure _).at _
  · exact (tracks_pure _).at _

theorem tracks_clause (hl : ∀ d, Within limit d → Within limit' d) :
    Tracks limit shift (clause limit) (clause limit') :=
  tracks_peek_bind (tracksAt_clauseAt hl)

def clausesWith (limit : Option Nat) (found : Clauses) : Option Clause → Reader Clauses
  | some x => clausesAfter limit (found.add x)
  | none => pure found

theorem clausesAfter_eq_bind (limit : Option Nat) (found : Clauses) :
    (clausesAfter limit found : Reader Clauses) = clause limit >>= clausesWith limit found := by
  funext c
  cases hc : clause limit c with
  | mk outcome c' =>
    cases outcome with
    | error e => rw [clausesAfter_error hc, bind_of_error hc]
    | ok x =>
      cases x with
      | none =>
        rw [clausesAfter_none hc, bind_of_ok hc]
        rfl
      | some x =>
        rw [clausesAfter_some hc, bind_of_ok hc]
        rfl

/-- Each clause takes a token, so the induction is on the number of tokens left. -/
theorem tracks_clausesAfter (hl : ∀ d, Within limit d → Within limit' d) (found : Clauses) :
    Tracks limit shift (clausesAfter limit found) (clausesAfter limit' found) := by
  intro n tokens
  induction hs : tokens.length using Nat.strongRecOn generalizing n tokens found with
  | ind size ih =>
    rw [clausesAfter_eq_bind limit, clausesAfter_eq_bind limit']
    refine (tracks_clause hl n tokens).bind fun x m rest hc => ?_
    cases x with
    | none => exact tracks_pure found m rest
    | some x =>
      have ht := clause_takes limit ⟨tokens, n + shift⟩ x (by rw [hc])
      rw [hc] at ht
      exact ih rest.length (hs ▸ ht) (found.add x) m rest rfl

theorem tracks_closedList {α : Type} {item : Token → Except ParseError α}
    {Item : List Token → α → Prop} (hi : Forms item Item) (hr : Reports item)
    (hs : ∃ p a, Item p a) : Tracks limit shift (closedList item) (closedList item) := by
  refine (tracks_ofTokens (looksAhead_commaSeparated hi hr hs)).bind fun items => ?_
  refine tracks_peek_bind fun token => ?_
  split
  · exact (tracks_advance.bind fun _ => tracks_pure _).at _
  · exact tracksAt_fail rfl

theorem tracks_columns : Tracks limit shift columns columns := by
  refine tracks_peek_bind fun token => ?_
  split
  · refine (tracks_advance.bind fun _ => ?_).at _
    exact tracks_closedList forms_name reports_asName ⟨_, _, .identifier "a"⟩
  · exact (tracks_pure _).at _

theorem tracks_whereClause (hl : ∀ d, Within limit d → Within limit' d) :
    Tracks limit shift (whereClause limit) (whereClause limit') := by
  refine tracks_peek_bind fun token => ?_
  split
  · exact (tracks_advance.bind fun _ => (tracks_condition hl).bind fun _ => tracks_pure _).at _
  · exact (tracks_pure _).at _

theorem tracks_select (hl : ∀ d, Within limit d → Within limit' d) :
    Tracks limit shift (select limit) (select limit') := by
  refine (tracks_keyword .SELECT).bind fun _ => ?_
  refine (tracks_ofTokens (looksAhead_commaSeparated forms_field reports_asField
    ⟨_, _, .wildcard⟩)).bind fun fields => ?_
  refine (tracks_keyword .FROM).bind fun _ => tracks_name.bind fun table => ?_
  exact (tracks_clausesAfter hl .none).bind fun clauses => tracks_pure _

theorem tracks_insert : Tracks limit shift insert insert := by
  refine (tracks_keyword .INSERT).bind fun _ => (tracks_keyword .INTO).bind fun _ => ?_
  refine tracks_name.bind fun table => tracks_columns.bind fun columns => ?_
  refine (tracks_keyword .VALUES).bind fun _ => (tracks_expect .leftParen).bind fun _ => ?_
  refine (tracks_closedList forms_literal reports_asLiteral
    ⟨_, _, .identifier "a"⟩).bind fun _ => ?_
  exact tracks_pure _

theorem tracks_update (hl : ∀ d, Within limit d → Within limit' d) :
    Tracks limit shift (update limit) (update limit') := by
  refine (tracks_keyword .UPDATE).bind fun _ => tracks_name.bind fun table => ?_
  refine (tracks_keyword .SET).bind fun _ => ?_
  refine (tracks_ofTokens looksAhead_assignments).bind fun pairs => ?_
  exact (tracks_whereClause hl).bind fun condition => tracks_pure _

theorem tracks_delete (hl : ∀ d, Within limit d → Within limit' d) :
    Tracks limit shift (delete limit) (delete limit') := by
  refine (tracks_keyword .DELETE).bind fun _ => (tracks_keyword .FROM).bind fun _ => ?_
  refine tracks_name.bind fun table => (tracks_whereClause hl).bind fun condition => ?_
  exact tracks_pure _

theorem tracks_statement (hl : ∀ d, Within limit d → Within limit' d) :
    Tracks limit shift (statement limit) (statement limit') := by
  refine tracks_peek_bind fun token => ?_
  split
  · exact (tracks_select hl).at _
  · exact tracks_insert.at _
  · exact (tracks_update hl).at _
  · exact (tracks_delete hl).at _
  · exact tracksAt_fail rfl

end Reader

namespace Cursor

theorem getLast?_ofTokens (tokens : List Token) : (ofTokens tokens).rest.getLast? = some .eof := by
  unfold ofTokens
  split
  · assumption
  · simp

/-- A reading that does not pass the end of input leaves a token. -/
theorem ne_nil_of_eof_notMem {tokens taken rest : List Token}
    (h : (ofTokens tokens).rest = taken ++ rest) (he : .eof ∉ taken) : rest ≠ [] := by
  rintro rfl
  have hl := List.mem_of_getLast? (getLast?_ofTokens tokens)
  rw [h, List.append_nil] at hl
  exact he hl

end Cursor

end SqlShell
