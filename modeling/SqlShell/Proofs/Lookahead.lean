import SqlShell.Proofs.StatementGrammar

/-!
# Readers look one token ahead

A reader moves forward and never past the end of input. What it does depends on the tokens it takes
and on the next one alone, and an error names that next token unless it is about depth. With a
tighter limit, or with more parentheses open in front, a reader does the same as without, unless it
fails for depth.
-/

set_option autoImplicit false

namespace SqlShell

open Grammar Condition

def ParseError.reported : ParseError → Option Token
  | unexpected _ found => some found
  | unsupported k => some (.keyword k)
  | tooDeep _ => none

namespace Grammar

def Formed {α : Type} (Form : List Token → α → Prop) (p : List Token) : Prop := ∃ a, Form p a

def Begins (Form : List Token → Prop) (p : List Token) : Prop := ∃ tail, Form (p ++ tail)

end Grammar

namespace Reader

variable {α β : Type}

/-- One reading, by two readers. With `n` parentheses open, and `shift` more for the first one, they
take the tokens and stop before the next one with `m` open, and `shift` more. The second need not
do so when the first finds the limit exceeded. -/
structure Trace (limit : Option Nat) (shift n : Nat)
    (run run' : List Token → Except ParseError α × Cursor) (taken : List Token) (next : Token)
    (outcome : Except ParseError α) (m : Nat) : Prop where
  eof : .eof ∉ taken
  opens : n ≤ m
  within : Within limit (n + shift) → Within limit (m + shift)
  reports : ∀ e, outcome = .error e →
    (∃ bound ∈ limit, e = .tooDeep bound) ∨ e.reported = some next
  reads : ∀ rest, rest.headD .eof = next → run (taken ++ rest) = (outcome, ⟨rest, m + shift⟩)
  follows : (∃ bound, outcome = .error (.tooDeep bound)) ∨
    ∀ rest, rest.headD .eof = next → run' (taken ++ rest) = (outcome, ⟨rest, m⟩)

def Traced (limit : Option Nat) (shift n : Nat)
    (run run' : List Token → Except ParseError α × Cursor) (tokens : List Token) : Prop :=
  ∃ taken rest outcome m, tokens = taken ++ rest ∧
    Trace limit shift n run run' taken (rest.headD .eof) outcome m

def Tracks (limit : Option Nat) (shift : Nat) (r r' : Reader α) : Prop :=
  ∀ n tokens, Traced limit shift n (fun ts => r ⟨ts, n + shift⟩) (fun ts => r' ⟨ts, n⟩) tokens

def TracksAt (limit : Option Nat) (shift : Nat) (token : Token) (r r' : Reader α) : Prop :=
  ∀ n tokens, tokens.headD .eof = token →
    Traced limit shift n (fun ts => r ⟨ts, n + shift⟩) (fun ts => r' ⟨ts, n⟩) tokens

variable {limit limit' : Option Nat} {shift n : Nat}

theorem Traced.prepend {run run' sub sub' : List Token → Except ParseError α × Cursor}
    {p tokens : List Token} (hp : .eof ∉ p) (h : ∀ rest, run (p ++ rest) = sub rest)
    (h' : ∀ rest, run' (p ++ rest) = sub' rest) (hs : Traced limit shift n sub sub' tokens) :
    Traced limit shift n run run' (p ++ tokens) := by
  obtain ⟨taken, rest, outcome, m, rfl, ht⟩ := hs
  refine ⟨p ++ taken, rest, outcome, m, by simp, ?_, ht.opens, ht.within, ht.reports, ?_, ?_⟩
  · simp [hp, ht.eof]
  · intro rest hr
    rw [List.append_assoc, h, ht.reads rest hr]
  · refine ht.follows.imp_right fun hf rest hr => ?_
    rw [List.append_assoc, h', hf rest hr]

theorem Traced.bind {r r' : Reader α} {next next' : α → Reader β} {tokens : List Token}
    (hr : Traced limit shift n (fun ts => r ⟨ts, n + shift⟩) (fun ts => r' ⟨ts, n⟩) tokens)
    (hn : ∀ a m rest, r ⟨tokens, n + shift⟩ = (.ok a, ⟨rest, m + shift⟩) →
      Traced limit shift m (fun ts => next a ⟨ts, m + shift⟩) (fun ts => next' a ⟨ts, m⟩) rest) :
    Traced limit shift n (fun ts => (r >>= next) ⟨ts, n + shift⟩)
      (fun ts => (r' >>= next') ⟨ts, n⟩) tokens := by
  obtain ⟨taken, rest, outcome, m, rfl, ht⟩ := hr
  cases outcome with
  | error e =>
    refine ⟨taken, rest, .error e, m, rfl, ht.eof, ht.opens, ht.within, ?_, ?_, ?_⟩
    · rintro _ ⟨rfl⟩
      exact ht.reports e rfl
    · intro rest hr
      exact bind_of_error (ht.reads rest hr)
    · rcases ht.follows with ⟨bound, hb⟩ | hf
      · cases hb
        exact Or.inl ⟨bound, rfl⟩
      · exact Or.inr fun rest hr => bind_of_error (hf rest hr)
  | ok a =>
    obtain ⟨taken', last, outcome, k, rfl, ht'⟩ := hn a m rest (ht.reads rest rfl)
    have hhead : ∀ rest : List Token, rest.headD .eof = last.headD .eof →
        (taken' ++ rest).headD .eof = (taken' ++ last).headD .eof := by
      intro rest hr
      rw [headD_append, headD_append, hr]
    refine ⟨taken ++ taken', last, outcome, k, by simp, ?_, Nat.le_trans ht.opens ht'.opens,
      fun h => ht'.within (ht.within h), ht'.reports, ?_, ?_⟩
    · simp [ht.eof, ht'.eof]
    · intro rest hr
      rw [List.append_assoc]
      exact (bind_of_ok (ht.reads _ (hhead rest hr))).trans (ht'.reads rest hr)
    · refine ht'.follows.imp_right fun hf' rest hr => ?_
      rcases ht.follows with ⟨bound, hb⟩ | hf
      · cases hb
      · rw [List.append_assoc]
        exact (bind_of_ok (hf _ (hhead rest hr))).trans (hf' rest hr)

theorem Tracks.bind {r r' : Reader α} {next next' : α → Reader β} (hr : Tracks limit shift r r')
    (hn : ∀ a, Tracks limit shift (next a) (next' a)) :
    Tracks limit shift (r >>= next) (r' >>= next') :=
  fun n tokens => (hr n tokens).bind fun a m rest _ => hn a m rest

theorem Trace.bound_mem {run run' : List Token → Except ParseError α × Cursor}
    {taken : List Token} {next : Token} {outcome : Except ParseError α} {m bound : Nat}
    (ht : Trace limit shift n run run' taken next outcome m)
    (ho : outcome = .error (.tooDeep bound)) : bound ∈ limit := by
  rcases ht.reports _ ho with ⟨bound', hb, he⟩ | hr
  · cases he
    exact hb
  · cases hr

/-- The two readers have one outcome and stop at one place, or the first finds its limit
exceeded. -/
theorem Tracks.agree {r r' : Reader α} (h : Tracks limit shift r r') (tokens : List Token)
    (n : Nat) :
    (∃ outcome rest m, r ⟨tokens, n + shift⟩ = (outcome, ⟨rest, m + shift⟩) ∧
        r' ⟨tokens, n⟩ = (outcome, ⟨rest, m⟩)) ∨
      ∃ bound ∈ limit, (r ⟨tokens, n + shift⟩).1 = .error (.tooDeep bound) := by
  obtain ⟨taken, rest, outcome, m, rfl, ht⟩ := h n tokens
  have hread : r ⟨taken ++ rest, n + shift⟩ = _ := ht.reads rest rfl
  rcases ht.follows with ⟨bound, ho⟩ | hf
  · exact Or.inr ⟨bound, ht.bound_mem ho, by rw [hread, ho]⟩
  · exact Or.inl ⟨outcome, rest, m, hread, hf rest rfl⟩

/-- What one reading comes to, with its trace. -/
theorem Tracks.reading {r r' : Reader α} (h : Tracks limit 0 r r') (c : Cursor) :
    ∃ taken rest outcome m, c.rest = taken ++ rest ∧ r c = (outcome, ⟨rest, m⟩) ∧
      Trace limit 0 c.nesting (fun ts => r ⟨ts, c.nesting⟩) (fun ts => r' ⟨ts, c.nesting⟩) taken
        (rest.headD .eof) outcome m := by
  obtain ⟨taken, rest, outcome, m, hc, ht⟩ := h c.nesting c.rest
  have hread := ht.reads rest rfl
  rw [← hc] at hread
  exact ⟨taken, rest, outcome, m, hc, hread, ht⟩

theorem Tracks.at {r r' : Reader α} (hr : Tracks limit shift r r') (token : Token) :
    TracksAt limit shift token r r' :=
  fun n tokens _ => hr n tokens

theorem Traced.of_ok {run run' : List Token → Except ParseError α × Cursor}
    (taken : List Token) {rest : List Token} {a : α} (he : .eof ∉ taken)
    (h : ∀ last, last.headD .eof = rest.headD .eof →
      run (taken ++ last) = (.ok a, ⟨last, n + shift⟩))
    (h' : ∀ last, last.headD .eof = rest.headD .eof → run' (taken ++ last) = (.ok a, ⟨last, n⟩)) :
    Traced limit shift n run run' (taken ++ rest) := by
  refine ⟨taken, rest, .ok a, n, rfl, he, Nat.le_refl n, id, ?_, h, Or.inr h'⟩
  intro e he
  cases he

theorem Traced.of_error {run run' : List Token → Except ParseError α × Cursor}
    (taken : List Token) {rest : List Token} {e : ParseError} (he : .eof ∉ taken)
    (hr : e.reported = some (rest.headD .eof))
    (h : ∀ last, last.headD .eof = rest.headD .eof →
      run (taken ++ last) = (.error e, ⟨last, n + shift⟩))
    (h' : ∀ last, last.headD .eof = rest.headD .eof →
      run' (taken ++ last) = (.error e, ⟨last, n⟩)) :
    Traced limit shift n run run' (taken ++ rest) := by
  refine ⟨taken, rest, .error e, n, rfl, he, Nat.le_refl n, id, ?_, h, Or.inr h'⟩
  rintro _ ⟨rfl⟩
  exact Or.inr hr

theorem tracks_pure (a : α) : Tracks limit shift (pure a : Reader α) (pure a) :=
  fun _ _ => .of_ok [] (by simp) (fun _ _ => rfl) fun _ _ => rfl

theorem tracksAt_fail {e : ParseError} {token : Token} (h : e.reported = some token) :
    TracksAt limit shift token (fail e : Reader α) (fail e) := by
  intro n tokens ht
  exact .of_error [] (by simp) (by rw [ht, h]) (fun _ _ => rfl) fun _ _ => rfl

/-- The token ahead decides which reader goes on. -/
theorem tracks_peek_bind {next next' : Token → Reader α}
    (h : ∀ token, TracksAt limit shift token (next token) (next' token)) :
    Tracks limit shift (peek >>= next) (peek >>= next') := by
  intro n tokens
  obtain ⟨taken, rest, outcome, m, rfl, ht⟩ := h (tokens.headD .eof) n tokens rfl
  have hhead : ∀ last : List Token, last.headD .eof = rest.headD .eof →
      (taken ++ last).headD .eof = (taken ++ rest).headD .eof := by
    intro last hl
    rw [headD_append, headD_append, hl]
  refine ⟨taken, rest, outcome, m, rfl, ht.eof, ht.opens, ht.within, ht.reports, ?_, ?_⟩
  · intro last hl
    change next ((taken ++ last).headD .eof) _ = _
    rw [hhead last hl]
    exact ht.reads last hl
  · refine ht.follows.imp_right fun hf last hl => ?_
    change next' ((taken ++ last).headD .eof) _ = _
    rw [hhead last hl]
    exact hf last hl

theorem tracks_advance : Tracks limit shift advance advance := by
  intro n tokens
  by_cases ht : tokens.headD .eof = .eof
  · have ha : ∀ k last, last.headD .eof = tokens.headD .eof →
        advance ⟨last, k⟩ = (.ok (), ⟨last, k⟩) := by
      intro k last hl
      simp only [advance, Cursor.advance, Cursor.peek, hl, ht, if_true]
    exact .of_ok [] (by simp) (ha _) (ha _)
  · cases tokens with
    | nil => exact absurd rfl ht
    | cons t tokens =>
      have ht : t ≠ .eof := ht
      have ha : ∀ k last, advance ⟨t :: last, k⟩ = (.ok (), ⟨last, k⟩) := by
        intro k last
        simp [advance, Cursor.advance, Cursor.peek, ht]
      exact .of_ok [t] (by simpa using ht.symm) (fun last _ => ha _ last)
        fun last _ => ha _ last

def Reports (form : Token → Except ParseError α) : Prop :=
  ∀ token e, form token = .error e → e.reported = some token

theorem tracks_one {form : Token → Except ParseError α} (hf : Reports form) :
    Tracks limit shift (one form) (one form) := by
  refine tracks_peek_bind fun token => ?_
  cases ht : form token with
  | ok a => exact (tracks_advance.bind fun _ => tracks_pure a).at token
  | error e => exact tracksAt_fail (hf token e ht)

theorem tracks_expect (token : Token) : Tracks limit shift (expect token) (expect token) := by
  refine tracks_peek_bind fun found => ?_
  by_cases hf : found = token
  · simp only [hf, if_true]
    exact tracks_advance.at token
  · simp only [hf, if_false]
    exact tracksAt_fail rfl

theorem tracks_keyword (k : Keyword) : Tracks limit shift (keyword k) (keyword k) :=
  tracks_expect (.keyword k)

def LooksAheadAt (read : List Token → Except ParseError α × List Token)
    (Form : List Token → Prop) (tokens : List Token) : Prop :=
  ∃ taken rest outcome, tokens = taken ++ rest ∧ .eof ∉ taken ∧
    (∀ e, outcome = .error e → e.reported = some (rest.headD .eof) ∧ Begins Form taken) ∧
    ∀ last, last.headD .eof = rest.headD .eof → read (taken ++ last) = (outcome, last)

section LooksAhead

variable {read : List Token → Except ParseError α × List Token} {Form : List Token → Prop}

theorem LooksAheadAt.of_ok (taken : List Token) {rest : List Token} {a : α} (he : .eof ∉ taken)
    (h : ∀ last, last.headD .eof = rest.headD .eof → read (taken ++ last) = (.ok a, last)) :
    LooksAheadAt read Form (taken ++ rest) := by
  refine ⟨taken, rest, .ok a, rfl, he, ?_, h⟩
  intro e he
  cases he

theorem LooksAheadAt.of_error (taken : List Token) {rest : List Token} {e : ParseError}
    (he : .eof ∉ taken) (hr : e.reported = some (rest.headD .eof)) {tail : List Token}
    (hf : Form (taken ++ tail))
    (h : ∀ last, last.headD .eof = rest.headD .eof → read (taken ++ last) = (.error e, last)) :
    LooksAheadAt read Form (taken ++ rest) := by
  refine ⟨taken, rest, .error e, rfl, he, ?_, h⟩
  rintro _ ⟨rfl⟩
  exact ⟨hr, tail, hf⟩

/-- Behind tokens that change the outcome only. -/
theorem LooksAheadAt.prepend (p : List Token) (g : α → α) {tokens : List Token} (hp : .eof ∉ p)
    (h : ∀ rest, read (p ++ rest) = ((read rest).1.map g, (read rest).2))
    (hf : ∀ q, Form q → Form (p ++ q)) (hs : LooksAheadAt read Form tokens) :
    LooksAheadAt read Form (p ++ tokens) := by
  obtain ⟨taken, rest, outcome, rfl, he, hr, hread⟩ := hs
  refine ⟨p ++ taken, rest, outcome.map g, by simp, by simp [hp, he], ?_, ?_⟩
  · intro e ho
    cases outcome with
    | ok a => cases ho
    | error e' =>
      cases ho
      obtain ⟨hr, tail, ht⟩ := hr e rfl
      refine ⟨hr, tail, ?_⟩
      rw [List.append_assoc]
      exact hf _ ht
  · intro last hl
    rw [List.append_assoc, h, hread last hl]

theorem tracks_ofTokens (h : ∀ tokens, LooksAheadAt read Form tokens) :
    Tracks limit shift (ofTokens read) (ofTokens read) := by
  intro n tokens
  obtain ⟨taken, rest, outcome, rfl, he, hr, h⟩ := h tokens
  have hread : ∀ k last, last.headD .eof = rest.headD .eof →
      ofTokens read ⟨taken ++ last, k⟩ = (outcome, ⟨last, k⟩) := by
    intro k last hl
    simp only [ofTokens, h last hl]
  cases outcome with
  | ok a => exact .of_ok taken he (hread _) (hread _)
  | error e => exact .of_error taken he (hr e rfl).1 (hread _) (hread _)

end LooksAhead

theorem commaSeparated_error {item : Token → Except ParseError α} {e : ParseError}
    {tokens : List Token} (h : item (tokens.headD .eof) = .error e) :
    commaSeparated item tokens = (.error e, tokens) := by
  cases tokens with
  | nil => simp [commaSeparated, show item .eof = .error e from h, Except.map]
  | cons token tokens => simp [commaSeparated, show item token = .error e from h]

theorem commaSeparated_last {item : Token → Except ParseError α} {token : Token} {a : α}
    {rest : List Token} (ht : item token = .ok a) (hr : rest.headD .eof ≠ .comma) :
    commaSeparated item (token :: rest) = (.ok [a], rest) := by
  simp only [commaSeparated, ht]
  split
  · exact absurd rfl hr
  · rfl

theorem looksAhead_commaSeparated {item : Token → Except ParseError α}
    {Item : List Token → α → Prop} (hi : Forms item Item) (hr : Reports item)
    (hs : ∃ p a, Item p a) (tokens : List Token) :
    LooksAheadAt (commaSeparated item) (Formed (ListForm Item)) tokens := by
  obtain ⟨p, b, hp⟩ := hs
  -- the list fails at its first item, so any item begins a list here
  have hfail {tokens : List Token} {e : ParseError} (h : item (tokens.headD .eof) = .error e) :
      LooksAheadAt (commaSeparated item) (Formed (ListForm Item)) tokens :=
    .of_error [] (by simp) (hr _ _ h) ⟨[b], .one hp⟩ fun last hl =>
      commaSeparated_error (by rw [← h, ← hl]; rfl)
  fun_induction commaSeparated item tokens with
  | case1 =>
    cases h : item .eof with
    | ok a => exact absurd h (hi.eof a)
    | error e => exact hfail h
  | case2 token tokens e h => exact hfail h
  | case3 token a h tokens more =>
    rename_i ih
    have hform := (hi.iff [token] a).mpr ⟨token, rfl, h⟩
    have he : token ≠ .eof := by
      rintro rfl
      exact hi.eof a h
    refine ih.prepend [token, .comma] (a :: ·) (by simp [he.symm]) ?_ ?_
    · intro rest
      simp only [List.cons_append, List.nil_append, commaSeparated, h]
    · rintro q ⟨items, hq⟩
      exact ⟨a :: items, .more hform hq⟩
  | case4 token a h tokens hc =>
    have he : token ≠ .eof := by
      rintro rfl
      exact hi.eof a h
    refine .of_ok [token] (by simpa using he.symm) fun last hl => commaSeparated_last h ?_
    exact hl ▸ headD_ne_comma hc

theorem assignments_name_error {tokens : List Token} {e : ParseError}
    (h : (tokens.headD .eof).asName = .error e) : assignments tokens = (.error e, tokens) := by
  unfold assignments
  split
  · rw [List.headD_cons] at h
    simp only [h]
  · simp only [h]

theorem assignments_equal_error {column : Token} {name : String} {rest : List Token}
    (hn : column.asName = .ok name) (hr : rest.headD .eof ≠ .operator .equal) :
    assignments (column :: rest) =
      (.error (.unexpected (.token (.operator .equal)) (rest.headD .eof)), rest) := by
  unfold assignments
  split
  · rename_i heq
    cases heq
    exact absurd rfl hr
  · simp only [List.headD_cons, hn, List.tail_cons]
    split
    · exact absurd rfl hr
    · rfl

theorem assignments_literal_error {column : Token} {name : String} {rest : List Token}
    {e : ParseError} (hn : column.asName = .ok name) (hv : (rest.headD .eof).asLiteral = .error e) :
    assignments (column :: .operator .equal :: rest) = (.error e, rest) := by
  cases rest with
  | nil =>
    cases hv
    simp [assignments, hn]
  | cons value rest => simp [assignments, hn, show value.asLiteral = .error e from hv]

theorem assignments_last {column value : Token} {name : String} {literal : Literal}
    {rest : List Token} (hn : column.asName = .ok name) (hv : value.asLiteral = .ok literal)
    (hr : rest.headD .eof ≠ .comma) :
    assignments (column :: .operator .equal :: value :: rest) = (.ok [(name, literal)], rest) := by
  simp only [assignments, hn, hv]
  split
  · exact absurd rfl hr
  · rfl

theorem reports_asName : Reports Token.asName := by
  intro token e h
  cases token with
  | identifier name => cases h
  | keyword k => cases k <;> cases h <;> rfl
  | _ => cases h; rfl

theorem reports_asLiteral : Reports Token.asLiteral := by
  intro token e h
  cases token with
  | number value => cases h
  | string text => cases h
  | identifier name => cases h
  | _ => cases h; rfl

theorem reports_asField : Reports Token.asField := by
  intro token e h
  cases token with
  | operator op => cases op <;> cases h <;> rfl
  | identifier name => cases h
  | keyword k => cases k <;> cases h <;> rfl
  | _ => cases h; rfl

theorem reports_asCount : Reports Token.asCount := by
  intro token e h
  cases token with
  | number value => cases h
  | _ => cases h; rfl

theorem ne_eof_of_asName {token : Token} {name : String} (h : token.asName = .ok name) :
    token ≠ .eof := by
  rintro rfl
  cases h

theorem assignmentForm_of_asName {column value : Token} {name : String} {literal : Literal}
    (hn : column.asName = .ok name) (hv : value.asLiteral = .ok literal) :
    AssignmentForm [column, .operator .equal, value] (name, literal) :=
  .mk ((forms_name.iff _ _).mpr ⟨column, rfl, hn⟩) (literalForm_of_asLiteral hv)

/-- Assignments fail at a name, at the sign behind it or at the literal behind that. -/
theorem looksAhead_assignments (tokens : List Token) :
    LooksAheadAt assignments (Formed (ListForm AssignmentForm)) tokens := by
  have hb : (Token.identifier "b").asLiteral = .ok (.identifier "b") := rfl
  have hname {tokens : List Token} {e : ParseError} (h : (tokens.headD .eof).asName = .error e) :
      LooksAheadAt assignments (Formed (ListForm AssignmentForm)) tokens := by
    have ha : (Token.identifier "a").asName = .ok "a" := rfl
    refine .of_error [] (by simp) (reports_asName _ _ h)
      ⟨_, .one (assignmentForm_of_asName ha hb)⟩ fun last hl => ?_
    exact assignments_name_error (by rw [← h, ← hl]; rfl)
  have hliteral {column : Token} {name : String} {rest : List Token} {e : ParseError}
      (hn : column.asName = .ok name) (h : (rest.headD .eof).asLiteral = .error e) :
      LooksAheadAt assignments (Formed (ListForm AssignmentForm))
        (column :: .operator .equal :: rest) :=
    .of_error [column, .operator .equal] (by simp [(ne_eof_of_asName hn).symm])
      (reports_asLiteral _ _ h) ⟨_, .one (assignmentForm_of_asName hn hb)⟩ fun last hl =>
        assignments_literal_error hn (by rw [← h, ← hl]; rfl)
  fun_induction assignments tokens with
  | case1 column value rest e h => exact hname h
  | case2 column value rest name hn e h => exact hliteral hn h
  | case3 column value name hn literal hv rest more =>
    rename_i ih
    refine ih.prepend [column, .operator .equal, value, .comma] ((name, literal) :: ·) ?_ ?_ ?_
    · have hl := eof_notMem_literal (literalForm_of_asLiteral hv)
      simpa [(ne_eof_of_asName hn).symm] using hl
    · intro rest
      simp only [List.cons_append, List.nil_append, assignments, hn, hv]
    · rintro q ⟨pairs, hq⟩
      exact ⟨_, .more (assignmentForm_of_asName hn hv) hq⟩
  | case4 column value name hn literal hv rest hc =>
    have hl := eof_notMem_literal (literalForm_of_asLiteral hv)
    have he : .eof ∉ [column, .operator .equal, value] := by
      simpa [(ne_eof_of_asName hn).symm] using hl
    exact .of_ok _ he fun last hr => assignments_last hn hv (hr ▸ headD_ne_comma hc)
  | case5 tokens hp e h => exact hname h
  | case6 tokens hp name hn rest ht =>
    cases tokens with
    | nil => cases ht
    | cons column tokens =>
      obtain rfl : tokens = .operator .equal :: rest := ht
      cases rest with
      | nil => exact hliteral hn rfl
      | cons value rest => exact absurd rfl (hp column value rest)
  | case7 tokens hp name hn ht =>
    cases tokens with
    | nil => cases hn
    | cons column tokens =>
      have hn : column.asName = .ok name := hn
      have hr : tokens.headD .eof ≠ .operator .equal := by
        cases tokens with
        | nil => simp
        | cons next rest => exact fun h => ht rest (by rw [← h]; rfl)
      have he : .eof ∉ [column] := by simpa using (ne_eof_of_asName hn).symm
      have hread : ∀ last : List Token, last.headD .eof = tokens.headD .eof →
          assignments (column :: last) =
            (.error (.unexpected (.token (.operator .equal)) (tokens.headD .eof)), last) := by
        intro last hl
        rw [← hl] at hr ⊢
        exact assignments_equal_error hn hr
      exact .of_error _ he rfl ⟨_, .one (assignmentForm_of_asName hn hb)⟩ hread

end Reader

end SqlShell
