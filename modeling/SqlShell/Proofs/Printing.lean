import Mathlib.Data.List.Forall2
import SqlShell.Proofs.WellFormed

/-!
# Printing statements

A statement is printed as lexemes with single spaces between them: keywords in upper case, names and
words as they are, and only the parentheses without which a condition would be read as another one.
Reading the printed text gives the statement back.
-/

set_option autoImplicit false

namespace SqlShell

open Grammar Scan Condition

/-- What is free in printing: the quotes, which characters of a quoted text have a backslash, the
numeral of each number, and whether an ascending order says so. -/
structure Printer where
  mark : Char
  escaped : Char → Bool
  numeral : Binary64 → List Char
  writesAscending : Bool
  isQuote_mark : isQuote mark = true
  escaped_mark : escaped mark = true
  escaped_backslash : escaped '\\' = true
  numeral_denotes : ∀ {value}, IsNumber value → Denotes (numeral value) value

namespace Printer

variable (pr : Printer)

def word (k : Keyword) : List Char := k.name.toList

def quoted (text : List Char) : List Char :=
  let body := text.flatMap fun c => if pr.escaped c then ['\\', c] else [c]
  pr.mark :: (body ++ [pr.mark])

def literal : Literal → List Char
  | .number value => pr.numeral value
  | .string text => pr.quoted text.toList
  | .identifier name => name.toList

def parenthesized (lexemes : List (List Char)) : List (List Char) := ['('] :: (lexemes ++ [[')']])

/-- The lexemes of a condition that stands where conditions of the level stand. The right side of a
chain binds tighter than the chain, and the left side may be a chain itself. -/
def condition : Level → Condition → List (List Char)
  | _, .comparison column op value => [column.toList, op.symbol.toList, pr.literal value]
  | level, .and left right =>
    let lexemes :=
      condition .conjunction left ++ word .AND :: condition .operand right
    if level = .operand then parenthesized lexemes else lexemes
  | level, .or left right =>
    let lexemes :=
      condition .disjunction left ++ word .OR :: condition .conjunction right
    if level = .disjunction then lexemes else parenthesized lexemes

def field : Field → List Char
  | .wildcard => Operator.star.symbol.toList
  | .named column => column.toList

def assignment (pair : String × Literal) : List (List Char) :=
  [pair.1.toList, Operator.equal.symbol.toList, pr.literal pair.2]

def separated (items : List (List (List Char))) : List (List Char) :=
  List.intercalate [[',']] items

def whereClause : Option Condition → List (List Char)
  | none => []
  | some c => word .WHERE :: pr.condition .disjunction c

def direction? : Direction → Option Direction
  | .ascending => if pr.writesAscending then some .ascending else none
  | .descending => some .descending

def direction : Option Direction → List (List Char)
  | none => []
  | some .ascending => [word .ASC]
  | some .descending => [word .DESC]

def orderClause : Option Order → List (List Char)
  | none => []
  | some order =>
    word .ORDER :: word .BY :: order.column.toList ::
      direction (pr.direction? order.direction)

def limitClause : Option Binary64 → List (List Char)
  | none => []
  | some count => [word .LIMIT, pr.numeral count]

def columns : List String → List (List Char)
  | [] => []
  | names => parenthesized (separated (names.map fun name => [name.toList]))

def lexemes : Statement → List (List Char)
  | .select table fields clauses =>
    word .SELECT :: (separated (fields.map fun f => [field f]) ++
      word .FROM :: table.toList ::
        (pr.whereClause clauses.condition ++ (pr.orderClause clauses.order ++
          pr.limitClause clauses.limit)))
  | .insert table names values =>
    word .INSERT :: word .INTO :: table.toList :: (columns names ++
      word .VALUES :: parenthesized (separated (values.map fun v => [pr.literal v])))
  | .update table assignments condition =>
    word .UPDATE :: table.toList :: word .SET ::
      (separated (assignments.map pr.assignment) ++ pr.whereClause condition)
  | .delete table condition =>
    word .DELETE :: word .FROM :: table.toList ::
      pr.whereClause condition

def print (s : Statement) : String := String.ofList (List.intercalate [' '] (pr.lexemes s))

theorem extends?_space {token : Token} : extends? token ' ' = false := by
  cases token with
  | operator op => cases op <;> rfl
  | _ => rfl

theorem endsAt_spaced (token : Token) (lexemes : List (List Char)) :
    EndsAt token (lexemes.flatMap (' ' :: ·)) := by
  intro c hc
  cases lexemes with
  | nil => cases hc
  | cons lexeme lexemes =>
    cases hc
    exact extends?_space

theorem textForm_spaced {lexemes : List (List Char)} {ts : List Token}
    (h : List.Forall₂ LexemeForm lexemes ts) :
    TextForm (lexemes.flatMap (' ' :: ·)) (ts ++ [.eof]) := by
  induction h with
  | nil => exact .done (by simp)
  | @cons lexeme token lexemes ts hl _ ih =>
    have hg : ∀ c ∈ [' '], Text.isBlank c = true := List.forall_mem_singleton.mpr rfl
    simpa using TextForm.more hg hl (endsAt_spaced token lexemes) ih

theorem textForm_intercalate {lexemes : List (List Char)} {ts : List Token}
    (h : List.Forall₂ LexemeForm lexemes ts) :
    TextForm (List.intercalate [' '] lexemes) (ts ++ [.eof]) := by
  cases h with
  | nil => exact .done (by simp [List.intercalate])
  | @cons lexeme token lexemes ts hl h =>
    have hg : ∀ c ∈ ([] : List Char), Text.isBlank c = true := by simp
    rw [intercalate_cons]
    exact TextForm.more hg hl (endsAt_spaced token lexemes) (textForm_spaced h)

theorem word_form (k : Keyword) : LexemeForm (word k) (.keyword k) :=
  .keyword (isWord_name k) k.toUpper_name

theorem identifier_form {name : String} (h : IsIdentifier name) :
    LexemeForm name.toList (.identifier name) := by
  simpa using LexemeForm.identifier h.1 h.2

theorem name_form {name : String} (h : IsName name) :
    ∃ token, LexemeForm name.toList token ∧ NameForm [token] name := by
  rcases h with hi | ⟨k, hk, rfl⟩
  · exact ⟨_, identifier_form hi, .identifier name⟩
  · exact ⟨_, .keyword (isWord_asName k) (Keyword.ofWord?_eq_some_iff.mp k.ofWord?_asName),
      .keyword k hk⟩

theorem quoted_form (text : List Char) :
    LexemeForm (pr.quoted text) (.string (String.ofList text)) := by
  refine .string pr.isQuote_mark ?_
  induction text with
  | nil => exact .nil
  | cons c text ih =>
    rw [List.flatMap_cons]
    split
    · exact .escaped c ih
    · rename_i hc
      refine .plain ?_ ?_ ih
      · rintro rfl
        exact hc pr.escaped_mark
      · rintro rfl
        exact hc pr.escaped_backslash

theorem numeral_form {value : Binary64} (h : IsNumber value) :
    LexemeForm (pr.numeral value) (.number value) :=
  .number (pr.numeral_denotes h)

theorem literal_form {value : Literal} (h : value.Over vocabulary) :
    ∃ token, LexemeForm (pr.literal value) token ∧ LiteralForm [token] value := by
  cases value with
  | number value => exact ⟨_, pr.numeral_form h, .number value⟩
  | string text =>
    have hl := pr.quoted_form text.toList
    rw [String.ofList_toList] at hl
    exact ⟨_, hl, .string text⟩
  | identifier name => exact ⟨_, identifier_form h, .identifier name⟩

theorem field_form {f : Field} (h : ∀ column, f = .named column → IsName column) :
    ∃ token, LexemeForm (field f) token ∧ FieldForm [token] f := by
  cases f with
  | wildcard => exact ⟨_, .operator .star, .wildcard⟩
  | named column =>
    obtain ⟨token, hl, hn⟩ := name_form (h column rfl)
    exact ⟨token, hl, .named hn⟩

theorem single_form {α : Type} {Item : List Token → α → Prop} {lexeme : List Char} {a : α}
    (h : ∃ token, LexemeForm lexeme token ∧ Item [token] a) :
    ∃ p, List.Forall₂ LexemeForm [lexeme] p ∧ Item p a := by
  obtain ⟨token, hl, hi⟩ := h
  exact ⟨[token], .cons hl .nil, hi⟩

theorem assignment_form {pair : String × Literal} (hn : IsName pair.1)
    (hv : pair.2.Over vocabulary) :
    ∃ p, List.Forall₂ LexemeForm (pr.assignment pair) p ∧ AssignmentForm p pair := by
  obtain ⟨name, hl, hf⟩ := name_form hn
  obtain ⟨value, hl', hf'⟩ := pr.literal_form hv
  exact ⟨_, .cons hl (.cons (.operator .equal) (.cons hl' .nil)), .mk hf hf'⟩

theorem separated_form {α : Type} {Item : List Token → α → Prop} {lexemes : α → List (List Char)}
    {items : List α} (hn : items ≠ [])
    (h : ∀ a ∈ items, ∃ p, List.Forall₂ LexemeForm (lexemes a) p ∧ Item p a) :
    ∃ p, List.Forall₂ LexemeForm (separated (items.map lexemes)) p ∧ ListForm Item p items := by
  induction items with
  | nil => exact absurd rfl hn
  | cons a items ih =>
    obtain ⟨p, hl, hi⟩ := h a List.mem_cons_self
    cases items with
    | nil =>
      refine ⟨p, ?_, .one hi⟩
      simpa [separated, List.intercalate] using hl
    | cons b items =>
      obtain ⟨q, hq, hf⟩ := ih (by simp) fun c hc => h c (List.mem_cons_of_mem a hc)
      refine ⟨p ++ .comma :: q, ?_, .more hi hf⟩
      have hs : separated ((a :: b :: items).map lexemes) =
          lexemes a ++ [','] :: separated ((b :: items).map lexemes) := by
        simp [separated, List.intercalate]
      rw [hs]
      exact List.rel_append hl (.cons .comma hq)

theorem nestsWithin_mono {bound m n : Nat} {p : List Token} (h : NestsWithin bound n p)
    (hm : m ≤ n) : NestsWithin bound m p := by
  induction p generalizing m n with
  | nil => trivial
  | cons token p ih =>
    cases token with
    | leftParen => exact ⟨by have := h.1; omega, ih h.2 (by omega)⟩
    | rightParen => exact ih h (by omega)
    | _ => exact ih h hm

theorem parenthesized_form {lexemes : List (List Char)} {p : List Token} {c : Condition}
    {bound n : Nat} (hl : List.Forall₂ LexemeForm lexemes p) (hf : ConditionForm .disjunction p c)
    (hn : NestsWithin bound (n + 1) p) (hb : n < bound) :
    ∃ q, List.Forall₂ LexemeForm (parenthesized lexemes) q ∧ ConditionForm .operand q c ∧
      NestsWithin bound n q := by
  refine ⟨.leftParen :: (p ++ [.rightParen]), ?_, .parenthesized hf, hb, ?_⟩
  · exact .cons .leftParen (List.rel_append hl (.cons .rightParen .nil))
  · exact (balanced_condition hf bound (n + 1) _).mpr ⟨hn, trivial⟩

/-- The depth of a condition bounds the parentheses it is printed with, because only what stands
below an AND or an OR has any. -/
theorem condition_form {c : Condition} (h : c.Over vocabulary) (level : Level) {bound n : Nat}
    (hn : n + c.depth ≤ bound) :
    ∃ p, List.Forall₂ LexemeForm (pr.condition level c) p ∧ ConditionForm level p c ∧
      NestsWithin bound n p := by
  induction c generalizing level n with
  | comparison column op value =>
    obtain ⟨token, hl, hf⟩ := pr.literal_form h.2.2
    have ho : ConditionForm .operand _ _ := .comparison column op h.2.1 hf
    refine ⟨_, .cons (identifier_form h.1) (.cons (.operator op) (.cons hl .nil)), ?_, ?_⟩
    · cases level with
      | disjunction => exact .conjunction (.operand ho)
      | conjunction => exact .operand ho
      | operand => exact ho
    · exact (flat_cons (by simp) (by simp)
        (flat_cons (by simp) (by simp) (flat_literal hf))).nestsWithin
        bound n
  | and left right ihl ihr =>
    rw [Condition.depth] at hn
    obtain ⟨p, hp, hl, hnl⟩ := ihl h.1 .conjunction (n := n + 1) (by omega)
    obtain ⟨q, hq, hr, hnr⟩ := ihr h.2 .operand (n := n + 1) (by omega)
    have hs := List.rel_append hp (.cons (word_form .AND) hq)
    have hf := ConditionForm.and hl hr
    have hnests : NestsWithin bound (n + 1) (p ++ .keyword .AND :: q) :=
      (balanced_condition hl bound (n + 1) _).mpr ⟨hnl, hnr⟩
    cases level with
    | disjunction => exact ⟨_, hs, .conjunction hf, nestsWithin_mono hnests (by omega)⟩
    | conjunction => exact ⟨_, hs, hf, nestsWithin_mono hnests (by omega)⟩
    | operand => exact parenthesized_form hs (.conjunction hf) hnests (by omega)
  | or left right ihl ihr =>
    rw [Condition.depth] at hn
    obtain ⟨p, hp, hl, hnl⟩ := ihl h.1 .disjunction (n := n + 1) (by omega)
    obtain ⟨q, hq, hr, hnr⟩ := ihr h.2 .conjunction (n := n + 1) (by omega)
    have hs := List.rel_append hp (.cons (word_form .OR) hq)
    have hf := ConditionForm.or hl hr
    have hnests : NestsWithin bound (n + 1) (p ++ .keyword .OR :: q) :=
      (balanced_condition hl bound (n + 1) _).mpr ⟨hnl, hnr⟩
    cases level with
    | disjunction => exact ⟨_, hs, hf, nestsWithin_mono hnests (by omega)⟩
    | conjunction =>
      obtain ⟨r, hr, ho, hno⟩ := parenthesized_form hs hf hnests (by omega)
      exact ⟨r, hr, .operand ho, hno⟩
    | operand => exact parenthesized_form hs hf hnests (by omega)

theorem where_form {condition : Option Condition} (h : ∀ c ∈ condition, c.Over vocabulary)
    {bound : Nat} (hd : ∀ c ∈ condition, c.depth ≤ bound) :
    ∃ p, List.Forall₂ LexemeForm (pr.whereClause condition) p ∧ WhereForm p condition ∧
      NestsWithin bound 0 p := by
  cases condition with
  | none => exact ⟨[], .nil, .omitted, trivial⟩
  | some c =>
    have hc : 0 + c.depth ≤ bound := by
      rw [Nat.zero_add]
      exact hd c rfl
    obtain ⟨p, hl, hf, hn⟩ := pr.condition_form (h c rfl) .disjunction hc
    exact ⟨_, .cons (word_form .WHERE) hl, .written hf, hn⟩

theorem direction_form (d : Option Direction) :
    ∃ p, List.Forall₂ LexemeForm (direction d) p ∧ DirectionForm p d := by
  rcases d with _ | _ | _
  · exact ⟨[], .nil, .omitted⟩
  · exact ⟨_, .cons (word_form .ASC) .nil, .ascending⟩
  · exact ⟨_, .cons (word_form .DESC) .nil, .descending⟩

theorem columns_form {names : List String} (h : ∀ name ∈ names, IsName name) :
    ∃ p, List.Forall₂ LexemeForm (columns names) p ∧ ColumnsForm p names := by
  cases names with
  | nil => exact ⟨[], .nil, .omitted⟩
  | cons name names =>
    obtain ⟨p, hl, hf⟩ := separated_form (List.cons_ne_nil name names) fun a ha =>
      single_form (name_form (h a ha))
    exact ⟨_, .cons .leftParen (List.rel_append hl (.cons .rightParen .nil)), .listed hf⟩

def written (clauses : Clauses) : List WrittenClause :=
  clauses.condition.toList.map .condition ++
    (clauses.order.toList.map (fun order => .order order.column (pr.direction? order.direction)) ++
      clauses.limit.toList.map .limit)

theorem getD_direction? (d : Direction) : (pr.direction? d).getD .ascending = d := by
  cases d with
  | ascending => cases h : pr.writesAscending <;> simp [direction?, h]
  | descending => rfl

theorem lastClauses_written (clauses : Clauses) : lastClauses (pr.written clauses) = clauses := by
  obtain ⟨condition, order, limit⟩ := clauses
  rw [lastClauses_eq_foldl]
  cases condition <;> cases order <;> cases limit <;>
    simp [written, WrittenClause.clause, Clauses.add, Clauses.none, pr.getD_direction?]

theorem clausesForm_append {p q : List Token} {first second : List WrittenClause}
    (hp : ClausesForm p first) (hq : ClausesForm q second) :
    ClausesForm (p ++ q) (first ++ second) := by
  induction hp with
  | none => exact hq
  | more h _ ih =>
    rw [List.append_assoc]
    exact .more h ih

theorem clausesForm_one {p : List Token} {clause : WrittenClause} (h : ClauseForm p clause) :
    ClausesForm p [clause] := by
  simpa using ClausesForm.more h .none

theorem clausesForm_where {p : List Token} {condition : Option Condition}
    (h : WhereForm p condition) : ClausesForm p (condition.toList.map .condition) := by
  cases h with
  | omitted => exact .none
  | written h => exact clausesForm_one (.condition h)

theorem order_form {order : Option Order} (h : ∀ o ∈ order, IsName o.column) :
    ∃ p, List.Forall₂ LexemeForm (pr.orderClause order) p ∧
      ClausesForm p (order.toList.map fun o => .order o.column (pr.direction? o.direction)) ∧
      Flat p := by
  cases order with
  | none => exact ⟨[], .nil, .none, flat_nil⟩
  | some order =>
    obtain ⟨token, hl, hf⟩ := name_form (h order rfl)
    obtain ⟨q, hq, hd⟩ := direction_form (pr.direction? order.direction)
    refine ⟨_, .cons (word_form .ORDER) (.cons (word_form .BY) (.cons hl hq)),
      clausesForm_one (.order hf hd), ?_⟩
    exact flat_keyword _ (flat_keyword _ ((flat_name hf).append (flat_direction hd)))

theorem limit_form {limit : Option Binary64} (h : ∀ count ∈ limit, IsNumber count) :
    ∃ p, List.Forall₂ LexemeForm (pr.limitClause limit) p ∧
      ClausesForm p (limit.toList.map .limit) ∧ Flat p := by
  cases limit with
  | none => exact ⟨[], .nil, .none, flat_nil⟩
  | some count =>
    refine ⟨_, .cons (word_form .LIMIT) (.cons (pr.numeral_form (h count rfl)) .nil),
      clausesForm_one (.limit count), ?_⟩
    exact flat_keyword _ (flat_cons (by simp) (by simp) flat_nil)

theorem written_form {clauses : Clauses} (h : clauses.Over vocabulary) {bound : Nat}
    (hd : ∀ c ∈ clauses.condition, c.depth ≤ bound) :
    ∃ p, List.Forall₂ LexemeForm (pr.whereClause clauses.condition ++
        (pr.orderClause clauses.order ++ pr.limitClause clauses.limit)) p ∧
      ClausesForm p (pr.written clauses) ∧ NestsWithin bound 0 p := by
  obtain ⟨p, hp, hw, hn⟩ := pr.where_form h.1 hd
  obtain ⟨q, hq, ho, hfq⟩ := pr.order_form h.2.1
  obtain ⟨r, hr, hl, hfr⟩ := pr.limit_form h.2.2
  refine ⟨p ++ (q ++ r), List.rel_append hp (List.rel_append hq hr),
    clausesForm_append (clausesForm_where hw) (clausesForm_append ho hl), ?_⟩
  exact (balanced_where hw bound 0 _).mpr ⟨hn, (hfq.append hfr).nestsWithin bound 0⟩

def sentence : Statement → Sentence
  | .select table fields clauses => .select fields table (pr.written clauses)
  | .insert table names values => .insert table names values
  | .update table assignments condition => .update table assignments condition
  | .delete table condition => .delete table condition

theorem statement_sentence {s : Statement} (h : s.assigned.Nodup) :
    (pr.sentence s).statement = s := by
  cases s with
  | select table fields clauses =>
    change Statement.select table fields (lastClauses (pr.written clauses)) = _
    rw [lastClauses_written]
  | insert table names values => rfl
  | update table assignments condition =>
    change Statement.update table (Entries.latest assignments) condition = _
    rw [Entries.latest_of_nodup h]
  | delete table condition => rfl

theorem conditions_sentence (s : Statement) :
    (pr.sentence s).conditions = s.condition?.toList := by
  cases s with
  | select table fields clauses =>
    obtain ⟨condition, order, limit⟩ := clauses
    cases condition <;> cases order <;> cases limit <;> rfl
  | _ => rfl

theorem eof_notMem_continuing (sentence : Sentence) : .eof ∉ sentence.continuing :=
  fun h => absurd (sentence.continuing_subset h) (by decide)

theorem lexemes_form {s : Statement} (h : s.WellFormed) :
    ∃ p, List.Forall₂ LexemeForm (pr.lexemes s) p ∧ SentenceForm p (pr.sentence s) ∧
      NestsWithin 128 0 p := by
  obtain ⟨hparts, hdepth, _⟩ := h
  cases s with
  | select table fields clauses =>
    obtain ⟨ht, hn, hf, hc⟩ := hparts
    obtain ⟨p, hp, hpf⟩ := separated_form hn fun f hm =>
      single_form (field_form fun column he => hf column (he ▸ hm))
    obtain ⟨q, hq, hqf⟩ := single_form (name_form ht)
    obtain ⟨r, hr, hrf, hnests⟩ := pr.written_form hc hdepth
    refine ⟨_, .cons (word_form .SELECT) (List.rel_append hp (.cons (word_form .FROM)
      (List.rel_append hq hr))), .select hpf hqf hrf, ?_⟩
    exact nests_some.mp ((Reader.nests_select hpf hqf r).mpr (nests_some.mpr hnests))
  | insert table names values =>
    obtain ⟨ht, hc, hn, hv⟩ := hparts
    obtain ⟨p, hp, hpf⟩ := single_form (name_form ht)
    obtain ⟨q, hq, hqf⟩ := columns_form hc
    obtain ⟨r, hr, hrf⟩ := separated_form hn fun v hm => single_form (pr.literal_form (hv v hm))
    have hs := SentenceForm.insert hpf hqf hrf
    refine ⟨_, .cons (word_form .INSERT) (.cons (word_form .INTO) (List.rel_append hp
      (List.rel_append hq (.cons (word_form .VALUES) (.cons .leftParen
        (List.rel_append hr (.cons .rightParen .nil))))))), hs,
      Cursor.nestsWithin_insert hs (by decide)⟩
  | update table assignments condition =>
    obtain ⟨ht, hn, ha, hc⟩ := hparts
    obtain ⟨p, hp, hpf⟩ := single_form (name_form ht)
    obtain ⟨q, hq, hqf⟩ := separated_form hn fun pair hm =>
      pr.assignment_form (ha pair hm).1 (ha pair hm).2
    obtain ⟨r, hr, hrf, hnests⟩ := pr.where_form hc hdepth
    refine ⟨_, .cons (word_form .UPDATE) (List.rel_append hp (.cons (word_form .SET)
      (List.rel_append hq hr))), .update hpf hqf hrf, ?_⟩
    exact nests_some.mp ((Reader.nests_update hpf hqf r).mpr (nests_some.mpr hnests))
  | delete table condition =>
    obtain ⟨ht, hc⟩ := hparts
    obtain ⟨p, hp, hpf⟩ := single_form (name_form ht)
    obtain ⟨q, hq, hqf, hnests⟩ := pr.where_form hc hdepth
    refine ⟨_, .cons (word_form .DELETE) (.cons (word_form .FROM) (List.rel_append hp hq)),
      .delete hpf hqf, ?_⟩
    exact nests_some.mp ((Reader.nests_delete hpf q).mpr (nests_some.mpr hnests))

theorem readStatement_lexemes {s : Statement} (h : s.WellFormed) :
    ∃ p, List.Forall₂ LexemeForm (pr.lexemes s) p ∧
      (Cursor.ofTokens (p ++ [.eof])).readStatement = (.ok s, ⟨[.eof], 0⟩) := by
  obtain ⟨p, hl, hs, hn⟩ := pr.lexemes_form h
  refine ⟨p, hl, Cursor.readStatement_eq_ok.mpr ⟨p, [.eof], by simp [Cursor.ofTokens], rfl,
    pr.sentence s, hs, pr.statement_sentence h.distinct, ?_, hn, eof_notMem_continuing _⟩⟩
  intro c hc
  rw [conditions_sentence] at hc
  exact h.depth c (Option.mem_toList.mp hc)

/-- Printing and reading give a statement back exactly when it is well-formed. -/
theorem ofText_print_iff_wellFormed (s : Statement) :
    Statement.ofText (pr.print s) = .ok s ↔ s.WellFormed := by
  constructor
  · exact Statement.wellFormed_of_ofText
  · intro h
    obtain ⟨p, hl, hr⟩ := pr.readStatement_lexemes h
    have ht : tokens (pr.print s).toList = .ok (p ++ [.eof]) := by
      rw [print, String.toList_ofList]
      exact tokens_eq_ok_iff.mpr (textForm_intercalate hl)
    exact Statement.ofText_eq_ok.mpr ⟨_, ht, by rw [hr]⟩

noncomputable def single {run : List Char} {decimal : Decimal} (h : NumeralForm run decimal) :
    Printer where
  mark := '\''
  escaped c := c == '\'' || c == '\\'
  numeral value :=
    if value = .ofDecimal false decimal then run
    else Classical.epsilon fun run => Denotes run value
  writesAscending := false
  isQuote_mark := by decide
  escaped_mark := by decide
  escaped_backslash := by decide
  numeral_denotes := by
    intro value hv
    by_cases he : value = .ofDecimal false decimal
    · rw [if_pos he]
      exact denotes_iff.mpr ⟨decimal, h, he⟩
    · rw [if_neg he]
      exact Classical.epsilon_spec hv

theorem numeralForm_five : NumeralForm ['5'] ⟨5, 0⟩ :=
  .whole (by decide) (List.forall_mem_singleton.mpr rfl)

/-- An OR under an AND keeps its parentheses and a quote its backslash; a keyword is a name. -/
theorem ofText_print_nested :
    ∃ (pr : Printer) (s : Statement),
      pr.print s = "SELECT a , * FROM t WHERE ( a = 'it\\'s' OR b <> c ) AND d < 5 " ++
        "ORDER BY by DESC LIMIT 5" ∧
      s.WellFormed ∧ Statement.ofText (pr.print s) = .ok s := by
  have hr : Statement.ofText
      "select a, * from t where ((a = \"it's\" or b <> c)) and d < 5.0 order by BY desc limit 5" =
      .ok (.select "t" [.named "a", .wildcard]
        ⟨some (.and
            (.or (.comparison "a" .equal (.string "it's"))
              (.comparison "b" .lessGreater (.identifier "c")))
            (.comparison "d" .less (.number (.ofDecimal false ⟨5, 0⟩)))),
          some ⟨"by", .descending⟩, some (.ofDecimal false ⟨5, 0⟩)⟩) := by decide +kernel
  have hw := Statement.wellFormed_of_ofText hr
  exact ⟨single numeralForm_five, _, by decide +kernel, hw,
    ((single numeralForm_five).ofText_print_iff_wellFormed _).mpr hw⟩

end Printer

end SqlShell
