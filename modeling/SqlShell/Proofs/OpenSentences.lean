import SqlShell.Proofs.StatementGrammar

/-!
# Sentences with one literal left open

A number or a quoted text in a sentence is a literal, unless it is the count of a LIMIT. The
sentence is then an open one, filled with the literal, and any other literal may stand in its place:
what is read of the tokens around the place does not depend on it.
-/

set_option autoImplicit false

namespace SqlShell

open Grammar Condition

namespace Grammar

inductive OpenCondition where
  | comparison (column : String) (operator : Operator)
  | andLeft (left : OpenCondition) (right : Condition)
  | andRight (left : Condition) (right : OpenCondition)
  | orLeft (left : OpenCondition) (right : Condition)
  | orRight (left : Condition) (right : OpenCondition)

def OpenCondition.fill : OpenCondition → Literal → Condition
  | comparison column op, literal => .comparison column op literal
  | andLeft left right, literal => .and (left.fill literal) right
  | andRight left right, literal => .and left (right.fill literal)
  | orLeft left right, literal => .or (left.fill literal) right
  | orRight left right, literal => .or left (right.fill literal)

inductive OpenSentence where
  | select (fields : List Field) (table : String) (before : List WrittenClause)
      (condition : OpenCondition) (after : List WrittenClause)
  | insert (table : String) (columns : List String) (before after : List Literal)
  | assign (table : String) (before : List (String × Literal)) (column : String)
      (after : List (String × Literal)) (condition : Option Condition)
  | update (table : String) (assignments : List (String × Literal)) (condition : OpenCondition)
  | delete (table : String) (condition : OpenCondition)

namespace OpenSentence

def fill : OpenSentence → Literal → Sentence
  | select fields table before condition after, literal =>
    .select fields table (before ++ .condition (condition.fill literal) :: after)
  | insert table columns before after, literal => .insert table columns (before ++ literal :: after)
  | assign table before column after condition, literal =>
    .update table (before ++ (column, literal) :: after) condition
  | update table assignments condition, literal =>
    .update table assignments (some (condition.fill literal))
  | delete table condition, literal => .delete table (some (condition.fill literal))

def Written (front back : List Token) (s : OpenSentence) : Prop :=
  ∀ token literal, LiteralForm [token] literal →
    SentenceForm (front ++ token :: back) (s.fill literal)

end OpenSentence

inductive ValueForm : Token → Literal → Prop
  | number (value : Binary64) : ValueForm (.number value) (.number value)
  | string (text : String) : ValueForm (.string text) (.string text)

def IsLimitCount (front : List Token) (t : Token) : Prop :=
  front.getLast? = some (.keyword .LIMIT) ∧ ∃ count, t = .number count

/-- Where the token stands in a form and is no count, the form is an open one, filled with the
literal of the token. -/
def Opens {α ι : Type} (t : Token) (l : Literal) (Form : List Token → α → Prop)
    (fill : ι → Literal → α) : Prop :=
  ∀ ⦃front back : List Token⦄ ⦃a : α⦄, Form (front ++ t :: back) a → ¬IsLimitCount front t →
    ∃ i, a = fill i l ∧ ∀ token literal, LiteralForm [token] literal →
      Form (front ++ token :: back) (fill i literal)

theorem append_eq_split {p q front back : List Token} {t : Token}
    (h : p ++ q = front ++ t :: back) :
    (∃ b, p = front ++ t :: b ∧ back = b ++ q) ∨ ∃ f, front = p ++ f ∧ q = f ++ t :: back := by
  rcases List.append_eq_append_iff.mp h with ⟨f, hf, hq⟩ | ⟨b, hp, hb⟩
  · exact Or.inr ⟨f, hf, hq⟩
  · cases b with
    | nil => exact Or.inr ⟨[], by simpa using hp.symm, by simpa using hb.symm⟩
    | cons x b =>
      obtain ⟨rfl, rfl⟩ := List.cons.inj hb
      exact Or.inl ⟨b, hp, rfl⟩

theorem IsLimitCount.append {f : List Token} {t : Token} (h : IsLimitCount f t) (p : List Token) :
    IsLimitCount (p ++ f) t := by
  refine ⟨?_, h.2⟩
  rw [List.getLast?_append, h.1]
  rfl

/-- A token that does not stand in the first part stands in the second. -/
theorem split_behind {p q front back : List Token} {t : Token} (hp : t ∉ p)
    (h : p ++ q = front ++ t :: back) (hk : ¬IsLimitCount front t) :
    ∃ f, front = p ++ f ∧ q = f ++ t :: back ∧ ¬IsLimitCount f t := by
  rcases append_eq_split h with ⟨b, rfl, -⟩ | ⟨f, rfl, hq⟩
  · exact absurd (by simp) hp
  · exact ⟨f, rfl, hq, fun hf => hk (hf.append p)⟩

/-- A token that does not stand in the last part stands in the first. -/
theorem split_before {p q front back : List Token} {t : Token} (hq : t ∉ q)
    (h : p ++ q = front ++ t :: back) : ∃ b, p = front ++ t :: b ∧ back = b ++ q := by
  rcases append_eq_split h with ⟨b, hp, hb⟩ | ⟨f, -, rfl⟩
  · exact ⟨b, hp, hb⟩
  · exact absurd (by simp) hq

/-- Of two parts with another token between them, the token stands in one. -/
theorem split_joined {p q front back : List Token} {x t : Token} (hx : t ∉ [x])
    (h : p ++ x :: q = front ++ t :: back) (hk : ¬IsLimitCount front t) :
    (∃ b, p = front ++ t :: b ∧ back = b ++ x :: q) ∨
      ∃ f, front = p ++ x :: f ∧ q = f ++ t :: back ∧ ¬IsLimitCount f t := by
  rcases append_eq_split h with hp | ⟨f, rfl, hq⟩
  · exact Or.inl hp
  · obtain ⟨f, rfl, rfl, hk⟩ := split_behind hx hq fun hf => hk (hf.append p)
    exact Or.inr ⟨f, rfl, rfl, hk⟩

section Opening

variable {t : Token} {l : Literal} (ht : ValueForm t l)

include ht

theorem value_notMem_keyword (k : Keyword) : t ∉ [Token.keyword k] := by
  cases ht <;> simp

theorem value_notMem_paren : t ∉ [Token.leftParen] ∧ t ∉ [Token.rightParen] := by
  cases ht <;> simp

theorem value_notMem_comma : t ∉ [Token.comma] := by
  cases ht <;> simp

theorem value_notMem_name {p : List Token} {name : String} (h : NameForm p name) : t ∉ p := by
  cases ht <;> cases h <;> simp

theorem value_notMem_field {p : List Token} {field : Field} (h : FieldForm p field) : t ∉ p := by
  cases h with
  | wildcard => cases ht <;> simp
  | named h => exact value_notMem_name ht h

theorem value_notMem_direction {p : List Token} {direction : Option Direction}
    (h : DirectionForm p direction) : t ∉ p := by
  cases ht <;> cases h <;> simp

theorem value_notMem_list {α : Type} {Item : List Token → α → Prop}
    (hi : ∀ {p a}, Item p a → t ∉ p) {p : List Token} {items : List α} (h : ListForm Item p items) :
    t ∉ p := by
  induction h with
  | one h => exact hi h
  | more h _ ih =>
    have hc : t ≠ .comma := by cases ht <;> simp
    simp [hi h, ih, hc]

theorem value_notMem_columns {p : List Token} {columns : List String} (h : ColumnsForm p columns) :
    t ∉ p := by
  cases h with
  | omitted => simp
  | listed h =>
    have hn := value_notMem_list ht (value_notMem_name ht) h
    cases ht <;> simp_all

theorem opens_literal : Opens t l LiteralForm fun (_ : Unit) literal => literal := by
  intro front back a ha _
  have hs : front = [] ∧ back = [] := by
    generalize hp : front ++ t :: back = p at ha
    have hone : p.length = 1 := by cases ha <;> rfl
    have hlen := congrArg List.length hp
    rw [List.length_append, List.length_cons, hone] at hlen
    exact ⟨List.eq_nil_of_length_eq_zero (by omega), List.eq_nil_of_length_eq_zero (by omega)⟩
  obtain ⟨rfl, rfl⟩ := hs
  refine ⟨(), ?_, fun token literal h => h⟩
  cases ht <;> cases ha <;> rfl

theorem opens_assignment :
    Opens t l AssignmentForm fun (column : String) literal => (column, literal) := by
  intro front back pair hpair hk
  generalize hp : front ++ t :: back = p at hpair
  cases hpair with
  | @mk p q column value hc hv =>
    have he : t ∉ [Token.operator .equal] := by cases ht <;> simp
    obtain ⟨f, rfl, hq, hk⟩ := split_behind (value_notMem_name ht hc) hp.symm hk
    obtain ⟨f, rfl, rfl, hk⟩ := split_behind he hq hk
    obtain ⟨_, rfl, ho⟩ := opens_literal ht hv hk
    refine ⟨column, rfl, fun token literal h => ?_⟩
    rw [List.append_assoc]
    exact .mk hc (ho token literal h)

theorem opens_list {α ι : Type} {Item : List Token → α → Prop} {fill : ι → Literal → α}
    (hi : Opens t l Item fill) :
    Opens t l (ListForm Item) fun (i : List α × ι × List α) literal =>
      i.1 ++ fill i.2.1 literal :: i.2.2 := by
  intro front back items h hk
  generalize hp : front ++ t :: back = p at h
  induction h generalizing front with
  | one h =>
    subst hp
    obtain ⟨i, rfl, ho⟩ := hi h hk
    exact ⟨([], i, []), rfl, fun token literal hl => .one (ho token literal hl)⟩
  | @more p q a items h hrest ih =>
    rcases split_joined (value_notMem_comma ht) hp.symm hk with ⟨b, rfl, rfl⟩ | ⟨f, rfl, rfl, hk⟩
    · obtain ⟨i, rfl, ho⟩ := hi h hk
      refine ⟨([], i, items), rfl, fun token literal hl => ?_⟩
      have hm := ListForm.more (ho token literal hl) hrest
      simpa using hm
    · obtain ⟨⟨before, i, after⟩, rfl, ho⟩ := ih hk rfl
      refine ⟨(a :: before, i, after), rfl, fun token literal hl => ?_⟩
      have hm := ListForm.more h (ho token literal hl)
      simpa using hm

theorem opens_condition (level : Level) : Opens t l (ConditionForm level) OpenCondition.fill := by
  intro front back c h hk
  generalize hp : front ++ t :: back = p at h
  -- Each part of a form has its own tokens around the place, so these vary in the induction.
  induction h generalizing front back with
  | @comparison column op hop p value hv =>
    have hm : t ∉ [Token.identifier column, .operator op] := by cases ht <;> simp
    obtain ⟨f, rfl, rfl, hk⟩ := split_behind hm hp.symm hk
    obtain ⟨_, rfl, ho⟩ := opens_literal ht hv hk
    exact ⟨.comparison column op, rfl, fun token literal hl =>
      .comparison column op hop (ho token literal hl)⟩
  | @parenthesized p c h ih =>
    obtain ⟨f, rfl, hq, hk⟩ := split_behind (value_notMem_paren ht).1 hp.symm hk
    obtain ⟨b, rfl, rfl⟩ := split_before (value_notMem_paren ht).2 hq
    obtain ⟨o, rfl, ho⟩ := ih hk rfl
    refine ⟨o, rfl, fun token literal hl => ?_⟩
    have hm := ConditionForm.parenthesized (ho token literal hl)
    simpa using hm
  | operand h ih =>
    obtain ⟨o, rfl, ho⟩ := ih hk hp
    exact ⟨o, rfl, fun token literal hl => .operand (ho token literal hl)⟩
  | @and p q left right hl hr ihl ihr =>
    rcases split_joined (value_notMem_keyword ht .AND) hp.symm hk with
      ⟨b, rfl, rfl⟩ | ⟨f, rfl, rfl, hk⟩
    · obtain ⟨o, rfl, ho⟩ := ihl hk rfl
      refine ⟨.andLeft o right, rfl, fun token literal hlit => ?_⟩
      have hm := ConditionForm.and (ho token literal hlit) hr
      simpa [OpenCondition.fill] using hm
    · obtain ⟨o, rfl, ho⟩ := ihr hk rfl
      refine ⟨.andRight left o, rfl, fun token literal hlit => ?_⟩
      have hm := ConditionForm.and hl (ho token literal hlit)
      simpa [OpenCondition.fill] using hm
  | conjunction h ih =>
    obtain ⟨o, rfl, ho⟩ := ih hk hp
    exact ⟨o, rfl, fun token literal hl => .conjunction (ho token literal hl)⟩
  | @or p q left right hl hr ihl ihr =>
    rcases split_joined (value_notMem_keyword ht .OR) hp.symm hk with
      ⟨b, rfl, rfl⟩ | ⟨f, rfl, rfl, hk⟩
    · obtain ⟨o, rfl, ho⟩ := ihl hk rfl
      refine ⟨.orLeft o right, rfl, fun token literal hlit => ?_⟩
      have hm := ConditionForm.or (ho token literal hlit) hr
      simpa [OpenCondition.fill] using hm
    · obtain ⟨o, rfl, ho⟩ := ihr hk rfl
      refine ⟨.orRight left o, rfl, fun token literal hlit => ?_⟩
      have hm := ConditionForm.or hl (ho token literal hlit)
      simpa [OpenCondition.fill] using hm

theorem opens_where :
    Opens t l WhereForm fun (o : OpenCondition) literal => some (o.fill literal) := by
  intro front back condition h hk
  generalize hp : front ++ t :: back = p at h
  cases h with
  | omitted => simp at hp
  | written h =>
    obtain ⟨f, rfl, rfl, hk⟩ := split_behind (value_notMem_keyword ht .WHERE) hp.symm hk
    obtain ⟨o, rfl, ho⟩ := opens_condition ht _ h hk
    exact ⟨o, rfl, fun token literal hl => .written (ho token literal hl)⟩

theorem opens_clause :
    Opens t l ClauseForm fun (o : OpenCondition) literal => .condition (o.fill literal) := by
  intro front back clause h hk
  generalize hp : front ++ t :: back = p at h
  cases h with
  | condition h =>
    obtain ⟨f, rfl, rfl, hk⟩ := split_behind (value_notMem_keyword ht .WHERE) hp.symm hk
    obtain ⟨o, rfl, ho⟩ := opens_condition ht _ h hk
    exact ⟨o, rfl, fun token literal hl => .condition (ho token literal hl)⟩
  | order hc hd =>
    -- Neither a name nor a direction has a place for a literal.
    have hn := value_notMem_name ht hc
    have hd := value_notMem_direction ht hd
    have hm : t ∈ front ++ t :: back := by simp
    rw [hp] at hm
    cases ht <;> simp_all
  | limit count =>
    obtain ⟨f, rfl, hq, -⟩ := split_behind (value_notMem_keyword ht .LIMIT) hp.symm hk
    cases f with
    | nil =>
      obtain ⟨rfl, -⟩ := List.cons.inj hq
      exact absurd ⟨rfl, count, rfl⟩ hk
    | cons x f => simp at hq

theorem opens_clauses :
    Opens t l ClausesForm fun (i : List WrittenClause × OpenCondition × List WrittenClause)
      literal => i.1 ++ .condition (i.2.1.fill literal) :: i.2.2 := by
  intro front back clauses h hk
  generalize hp : front ++ t :: back = p at h
  induction h generalizing front with
  | none => simp at hp
  | @more p q clause clauses h hrest ih =>
    rcases append_eq_split hp.symm with ⟨b, rfl, rfl⟩ | ⟨f, rfl, rfl⟩
    · obtain ⟨o, rfl, ho⟩ := opens_clause ht h hk
      refine ⟨([], o, clauses), rfl, fun token literal hl => ?_⟩
      have hm := ClausesForm.more (ho token literal hl) hrest
      simpa using hm
    · obtain ⟨⟨before, o, after⟩, rfl, ho⟩ := ih (fun hf => hk (hf.append p)) rfl
      refine ⟨(clause :: before, o, after), rfl, fun token literal hl => ?_⟩
      have hm := ClausesForm.more h (ho token literal hl)
      simpa using hm

theorem opens_sentence : Opens t l SentenceForm OpenSentence.fill := by
  intro front back sentence h hk
  generalize hp : front ++ t :: back = p at h
  -- The token is behind every part of the sentence that can have no literal.
  cases h with
  | @select p q r fields table clauses hf hn hc =>
    obtain ⟨f, rfl, hq, hk⟩ := split_behind (value_notMem_keyword ht .SELECT) hp.symm hk
    obtain ⟨f, rfl, hq, hk⟩ :=
      split_behind (value_notMem_list ht (value_notMem_field ht) hf) hq hk
    obtain ⟨f, rfl, hq, hk⟩ := split_behind (value_notMem_keyword ht .FROM) hq hk
    obtain ⟨f, rfl, rfl, hk⟩ := split_behind (value_notMem_name ht hn) hq hk
    obtain ⟨⟨before, o, after⟩, rfl, ho⟩ := opens_clauses ht hc hk
    refine ⟨.select fields table before o after, rfl, fun token literal hl => ?_⟩
    have hm := SentenceForm.select hf hn (ho token literal hl)
    simpa [OpenSentence.fill] using hm
  | @insert p q r table columns values hn hc hv =>
    obtain ⟨f, rfl, hq, hk⟩ := split_behind (p := [.keyword .INSERT, .keyword .INTO])
      (by cases ht <;> simp) hp.symm hk
    obtain ⟨f, rfl, hq, hk⟩ := split_behind (value_notMem_name ht hn) hq hk
    obtain ⟨f, rfl, hq, hk⟩ := split_behind (value_notMem_columns ht hc) hq hk
    obtain ⟨f, rfl, hq, hk⟩ := split_behind (p := [.keyword .VALUES, .leftParen])
      (by cases ht <;> simp) hq hk
    obtain ⟨b, rfl, rfl⟩ := split_before (value_notMem_paren ht).2 hq
    obtain ⟨⟨before, _, after⟩, rfl, ho⟩ := opens_list ht (opens_literal ht) hv hk
    refine ⟨.insert table columns before after, rfl, fun token literal hl => ?_⟩
    have hm := SentenceForm.insert hn hc (ho token literal hl)
    simpa [OpenSentence.fill] using hm
  | @update p q r table assignments condition hn ha hw =>
    obtain ⟨f, rfl, hq, hk⟩ := split_behind (value_notMem_keyword ht .UPDATE) hp.symm hk
    obtain ⟨f, rfl, hq, hk⟩ := split_behind (value_notMem_name ht hn) hq hk
    obtain ⟨f, rfl, hq, hk⟩ := split_behind (value_notMem_keyword ht .SET) hq hk
    rcases append_eq_split hq with ⟨b, rfl, rfl⟩ | ⟨f, rfl, rfl⟩
    · obtain ⟨⟨before, column, after⟩, rfl, ho⟩ := opens_list ht (opens_assignment ht) ha hk
      refine ⟨.assign table before column after condition, rfl, fun token literal hl => ?_⟩
      have hm := SentenceForm.update hn (ho token literal hl) hw
      simpa [OpenSentence.fill] using hm
    · obtain ⟨o, rfl, ho⟩ := opens_where ht hw fun hf => hk (hf.append q)
      refine ⟨.update table assignments o, rfl, fun token literal hl => ?_⟩
      have hm := SentenceForm.update hn ha (ho token literal hl)
      simpa [OpenSentence.fill] using hm
  | @delete p q table condition hn hw =>
    obtain ⟨f, rfl, hq, hk⟩ := split_behind (p := [.keyword .DELETE, .keyword .FROM])
      (by cases ht <;> simp) hp.symm hk
    obtain ⟨f, rfl, rfl, hk⟩ := split_behind (value_notMem_name ht hn) hq hk
    obtain ⟨o, rfl, ho⟩ := opens_where ht hw hk
    refine ⟨.delete table o, rfl, fun token literal hl => ?_⟩
    have hm := SentenceForm.delete hn (ho token literal hl)
    simpa [OpenSentence.fill] using hm

end Opening

theorem OpenCondition.depth_fill (o : OpenCondition) (a b : Literal) :
    (o.fill a).depth = (o.fill b).depth := by
  induction o with
  | comparison column op => rfl
  | andLeft left right ih => simp only [fill, Condition.depth, ih]
  | andRight left right ih => simp only [fill, Condition.depth, ih]
  | orLeft left right ih => simp only [fill, Condition.depth, ih]
  | orRight left right ih => simp only [fill, Condition.depth, ih]

namespace OpenSentence

theorem depth_fill {s : OpenSentence} {a : Literal} {bound : Nat}
    (h : ∀ c ∈ (s.fill a).conditions, c.depth ≤ bound) (b : Literal) :
    ∀ c ∈ (s.fill b).conditions, c.depth ≤ bound := by
  cases s with
  | select fields table before condition after =>
    simp only [fill, Sentence.conditions, List.filterMap_append, List.filterMap_cons,
      WrittenClause.condition?, List.forall_mem_append, List.forall_mem_cons] at h ⊢
    exact ⟨h.1, condition.depth_fill a b ▸ h.2.1, h.2.2⟩
  | insert table columns before after => simp [fill, Sentence.conditions]
  | assign table before column after condition => exact h
  | update table assignments condition =>
    simp only [fill, Sentence.conditions, Option.toList_some, List.forall_mem_singleton] at h ⊢
    exact condition.depth_fill a b ▸ h
  | delete table condition =>
    simp only [fill, Sentence.conditions, Option.toList_some, List.forall_mem_singleton] at h ⊢
    exact condition.depth_fill a b ▸ h

theorem continuing_fill (s : OpenSentence) (a b : Literal) :
    (s.fill a).continuing = (s.fill b).continuing := by
  cases s with
  | select fields table before condition after =>
    have hlast (c : Condition) : ((before ++ .condition c :: after).getLast?.map
        WrittenClause.continuing).getD [] =
          (after.getLast?.map WrittenClause.continuing).getD joining := by
      cases hl : after.getLast? <;> simp [List.getLast?_append, List.getLast?_cons, hl,
        WrittenClause.continuing]
    simp only [fill, Sentence.continuing, clausesContinuing, hlast]
  | insert table columns before after => rfl
  | assign table before column after condition => cases condition <;> rfl
  | update table assignments condition => rfl
  | delete table condition => rfl

end OpenSentence

/-- Tokens form one statement: without a limit they are all read. -/
theorem statement_unique {p : List Token} {s s' : Sentence} (h : SentenceForm p s)
    (h' : SentenceForm p s') : s.statement = s'.statement := by
  have hread {s : Sentence} (h : SentenceForm p s) :
      Reader.statement none ⟨p ++ [.eof], 0⟩ = (.ok s.statement, ⟨[.eof], 0⟩) := by
    refine (Reader.accepts_statement none 0 _ _ _).mpr
      ⟨p, [.eof], rfl, rfl, s, ⟨h, ?_, ?_, ?_⟩, rfl⟩
    · exact fun _ _ _ hb => by cases hb
    · cases s with
      | insert table columns values => trivial
      | _ => exact fun _ hb => by cases hb
    · exact fun he => absurd (s.continuing_subset he) (by decide)
  exact Except.ok.inj (congrArg Prod.fst ((hread h).symm.trans (hread h')))

/-- A token that is no parenthesis does not count for the nesting. -/
theorem nestsWithin_skip {t : Token} (h : Flat [t]) (bound n : Nat) (front back : List Token) :
    NestsWithin bound n (front ++ t :: back) ↔ NestsWithin bound n (front ++ back) := by
  induction front generalizing n with
  | nil => exact h bound n back
  | cons x front ih => cases x <;> simp only [List.cons_append, NestsWithin, ih]

end Grammar

namespace Cursor

theorem ofTokens_eq_of_getLast? {tokens : List Token} (h : tokens.getLast? = some .eof) :
    ofTokens tokens = ⟨tokens, 0⟩ := by
  simp [ofTokens, h]

/-- In a statement that is read with a number or a quoted text among its tokens, the place is that
of a literal, and with any literal there the statement is read up to the same token behind it. -/
theorem readStatement_fill {front back rest : List Token} {t : Token} {l : Literal}
    (ht : ValueForm t l) (hk : ¬IsLimitCount front t) (he : (back ++ rest).getLast? = some .eof)
    {statement : Statement}
    (h : (ofTokens (front ++ t :: (back ++ rest))).readStatement = (.ok statement, ⟨rest, 0⟩)) :
    (∃ o : OpenSentence, o.Written front back) ∧
      ∀ o : OpenSentence, o.Written front back → statement = (o.fill l).statement ∧
        ∀ token literal, LiteralForm [token] literal →
          (ofTokens (front ++ token :: (back ++ rest))).readStatement =
            (.ok (o.fill literal).statement, ⟨rest, 0⟩) := by
  have hrest (token : Token) :
      (ofTokens (front ++ token :: (back ++ rest))).rest = front ++ token :: back ++ rest := by
    rw [ofTokens_eq_of_getLast? (by simp [List.getLast?_append, List.getLast?_cons, he])]
    simp
  have hflat {token : Token} {literal : Literal} (hl : LiteralForm [token] literal) :=
    nestsWithin_skip (flat_literal hl) 128 0 front back
  have hlit : LiteralForm [t] l := by cases ht <;> constructor
  obtain ⟨p, _, hp, ⟨rfl⟩, sentence, hs, rfl, hd, hn, hc⟩ := readStatement_eq_ok.mp h
  rw [hrest] at hp
  obtain rfl := List.append_cancel_right hp
  obtain ⟨s, rfl, hw⟩ := opens_sentence ht hs hk
  -- Any other open sentence of these tokens makes the same statements as the one that was read.
  refine ⟨⟨s, hw⟩, fun o ho => ⟨statement_unique hs (ho t l hlit), fun token literal hl => ?_⟩⟩
  have hform := hw token literal hl
  rw [statement_unique (ho token literal hl) hform]
  refine readStatement_eq_ok.mpr ⟨_, rest, hrest token, rfl, _, hform, rfl, ?_, ?_, ?_⟩
  · exact OpenSentence.depth_fill hd literal
  · exact (hflat hl).mpr ((hflat hlit).mp hn)
  · rw [s.continuing_fill literal l]
    exact hc

end Cursor

end SqlShell
