import SqlShell.Proofs.Entries
import SqlShell.Statement.Reader

/-!
# The grammar of statements

Which token lists form a name, a literal, a condition, a clause and a whole sentence. A sentence
keeps everything that is written, also what a later clause or assignment overrides; the statement
it makes keeps what counts.
-/

set_option autoImplicit false

namespace SqlShell

namespace Grammar

inductive NameForm : List Token → String → Prop
  | identifier (name : String) : NameForm [.identifier name] name
  | keyword (k : Keyword) (h : k ≠ .JOIN ∧ k ≠ .ON ∧ k ≠ .AS) :
      NameForm [.keyword k] (String.ofList (k.name.toList.map Char.toLower))

inductive LiteralForm : List Token → Literal → Prop
  | number (value : Binary64) : LiteralForm [.number value] (.number value)
  | string (text : String) : LiteralForm [.string text] (.string text)
  | identifier (name : String) : LiteralForm [.identifier name] (.identifier name)

inductive FieldForm : List Token → Field → Prop
  | wildcard : FieldForm [.operator .star] .wildcard
  | named {p : List Token} {column : String} (h : NameForm p column) : FieldForm p (.named column)

inductive ListForm {α : Type} (Item : List Token → α → Prop) : List Token → List α → Prop
  | one {p : List Token} {a : α} (h : Item p a) : ListForm Item p [a]
  | more {p q : List Token} {a : α} {items : List α} (h : Item p a) (rest : ListForm Item q items) :
      ListForm Item (p ++ .comma :: q) (a :: items)

inductive Level where
  | disjunction | conjunction | operand
  deriving DecidableEq, Repr

inductive ConditionForm : Level → List Token → Condition → Prop
  | comparison (column : String) (op : Operator) (h : op.isComparison) {p : List Token}
      {value : Literal} (hv : LiteralForm p value) :
      ConditionForm .operand (.identifier column :: .operator op :: p) (.comparison column op value)
  | parenthesized {p : List Token} {c : Condition} (h : ConditionForm .disjunction p c) :
      ConditionForm .operand (.leftParen :: (p ++ [.rightParen])) c
  | operand {p : List Token} {c : Condition} (h : ConditionForm .operand p c) :
      ConditionForm .conjunction p c
  | and {p q : List Token} {left right : Condition} (hl : ConditionForm .conjunction p left)
      (hr : ConditionForm .operand q right) :
      ConditionForm .conjunction (p ++ .keyword .AND :: q) (.and left right)
  | conjunction {p : List Token} {c : Condition} (h : ConditionForm .conjunction p c) :
      ConditionForm .disjunction p c
  | or {p q : List Token} {left right : Condition} (hl : ConditionForm .disjunction p left)
      (hr : ConditionForm .conjunction q right) :
      ConditionForm .disjunction (p ++ .keyword .OR :: q) (.or left right)

inductive WrittenClause where
  | condition (condition : Condition)
  | order (column : String) (direction : Option Direction)
  | limit (count : Binary64)
  deriving DecidableEq, Repr

inductive DirectionForm : List Token → Option Direction → Prop
  | omitted : DirectionForm [] none
  | ascending : DirectionForm [.keyword .ASC] (some .ascending)
  | descending : DirectionForm [.keyword .DESC] (some .descending)

inductive ClauseForm : List Token → WrittenClause → Prop
  | condition {p : List Token} {c : Condition} (h : ConditionForm .disjunction p c) :
      ClauseForm (.keyword .WHERE :: p) (.condition c)
  | order {p q : List Token} {column : String} {direction : Option Direction}
      (hc : NameForm p column) (hd : DirectionForm q direction) :
      ClauseForm (.keyword .ORDER :: .keyword .BY :: (p ++ q)) (.order column direction)
  | limit (count : Binary64) : ClauseForm [.keyword .LIMIT, .number count] (.limit count)

inductive ClausesForm : List Token → List WrittenClause → Prop
  | none : ClausesForm [] []
  | more {p q : List Token} {clause : WrittenClause} {clauses : List WrittenClause}
      (h : ClauseForm p clause) (rest : ClausesForm q clauses) :
      ClausesForm (p ++ q) (clause :: clauses)

inductive ColumnsForm : List Token → List String → Prop
  | omitted : ColumnsForm [] []
  | listed {p : List Token} {columns : List String} (h : ListForm NameForm p columns) :
      ColumnsForm (.leftParen :: (p ++ [.rightParen])) columns

inductive AssignmentForm : List Token → String × Literal → Prop
  | mk {p q : List Token} {column : String} {value : Literal} (hc : NameForm p column)
      (hv : LiteralForm q value) : AssignmentForm (p ++ .operator .equal :: q) (column, value)

inductive WhereForm : List Token → Option Condition → Prop
  | omitted : WhereForm [] none
  | written {p : List Token} {c : Condition} (h : ConditionForm .disjunction p c) :
      WhereForm (.keyword .WHERE :: p) (some c)

inductive Sentence where
  | select (fields : List Field) (table : String) (clauses : List WrittenClause)
  | insert (table : String) (columns : List String) (values : List Literal)
  | update (table : String) (assignments : List (String × Literal)) (condition : Option Condition)
  | delete (table : String) (condition : Option Condition)
  deriving DecidableEq, Repr

inductive SentenceForm : List Token → Sentence → Prop
  | select {p q r : List Token} {fields : List Field} {table : String}
      {clauses : List WrittenClause} (hf : ListForm FieldForm p fields) (ht : NameForm q table)
      (hc : ClausesForm r clauses) :
      SentenceForm (.keyword .SELECT :: (p ++ .keyword .FROM :: (q ++ r)))
        (.select fields table clauses)
  | insert {p q r : List Token} {table : String} {columns : List String} {values : List Literal}
      (ht : NameForm p table) (hc : ColumnsForm q columns) (hv : ListForm LiteralForm r values) :
      SentenceForm (.keyword .INSERT :: .keyword .INTO ::
          (p ++ (q ++ .keyword .VALUES :: .leftParen :: (r ++ [.rightParen]))))
        (.insert table columns values)
  | update {p q r : List Token} {table : String} {assignments : List (String × Literal)}
      {condition : Option Condition} (ht : NameForm p table)
      (ha : ListForm AssignmentForm q assignments) (hw : WhereForm r condition) :
      SentenceForm (.keyword .UPDATE :: (p ++ .keyword .SET :: (q ++ r)))
        (.update table assignments condition)
  | delete {p q : List Token} {table : String} {condition : Option Condition}
      (ht : NameForm p table) (hw : WhereForm q condition) :
      SentenceForm (.keyword .DELETE :: .keyword .FROM :: (p ++ q)) (.delete table condition)

namespace WrittenClause

def condition? : WrittenClause → Option Condition
  | condition c => some c
  | _ => none

def order? : WrittenClause → Option Order
  | order column direction => some ⟨column, direction.getD .ascending⟩
  | _ => none

def limit? : WrittenClause → Option Binary64
  | limit count => some count
  | _ => none

end WrittenClause

def lastClauses (clauses : List WrittenClause) : Clauses where
  condition := (clauses.filterMap WrittenClause.condition?).getLast?
  order := (clauses.filterMap WrittenClause.order?).getLast?
  limit := (clauses.filterMap WrittenClause.limit?).getLast?

namespace Sentence

def statement : Sentence → Statement
  | select fields table clauses => .select table fields (lastClauses clauses)
  | insert table columns values => .insert table columns values
  | update table assignments condition => .update table (Entries.latest assignments) condition
  | delete table condition => .delete table condition

def conditions : Sentence → List Condition
  | select _ _ clauses => clauses.filterMap WrittenClause.condition?
  | insert _ _ _ => []
  | update _ _ condition => condition.toList
  | delete _ condition => condition.toList

end Sentence

def joining : List Token := [.keyword .AND, .keyword .OR]

def WrittenClause.continuing : WrittenClause → List Token
  | condition _ => joining
  | order _ none => [.keyword .ASC, .keyword .DESC]
  | order _ (some _) => []
  | limit _ => []

def clauseStarts : List Token :=
  [.keyword .WHERE, .keyword .LIMIT, .keyword .ORDER, .keyword .JOIN, .keyword .ON, .keyword .AS]

def clausesContinuing (clauses : List WrittenClause) : List Token :=
  clauseStarts ++ (clauses.getLast?.map WrittenClause.continuing).getD []

/-- The tokens that do not end a sentence: with one of them after its last token the sentence goes
on. -/
def Sentence.continuing : Sentence → List Token
  | select _ _ clauses => clausesContinuing clauses
  | insert _ _ _ => []
  | update _ _ (some _) => joining
  | update _ _ none => [.keyword .WHERE, .comma]
  | delete _ (some _) => joining
  | delete _ none => [.keyword .WHERE]

def continuations : List Token :=
  .comma :: (clauseStarts ++ joining ++ [.keyword .ASC, .keyword .DESC])

theorem WrittenClause.continuing_subset (clause : WrittenClause) :
    clause.continuing ⊆ continuations := by
  rcases clause with _ | ⟨_, _ | _⟩ | _ <;> simp only [continuing] <;> decide

theorem Sentence.continuing_subset (sentence : Sentence) : sentence.continuing ⊆ continuations := by
  have hs : clauseStarts ⊆ continuations := by decide
  cases sentence with
  | select fields table clauses =>
    apply List.append_subset.mpr
    cases clauses.getLast? with
    | none => exact ⟨hs, by simp⟩
    | some clause => exact ⟨hs, clause.continuing_subset⟩
  | insert table columns values => simp [continuing]
  | update table assignments condition => cases condition <;> simp only [continuing] <;> decide
  | delete table condition => cases condition <;> simp only [continuing] <;> decide

/-- With `n` parentheses open in front, no parenthesis is opened when `bound` are open. -/
def NestsWithin (bound : Nat) : Nat → List Token → Prop
  | _, [] => True
  | n, .leftParen :: p => n < bound ∧ NestsWithin bound (n + 1) p
  | n, .rightParen :: p => NestsWithin bound (n - 1) p
  | n, _ :: p => NestsWithin bound n p

theorem eof_notMem_name {p : List Token} {name : String} (h : NameForm p name) : .eof ∉ p := by
  cases h <;> simp

theorem eof_notMem_literal {p : List Token} {value : Literal} (h : LiteralForm p value) :
    .eof ∉ p := by
  cases h <;> simp

theorem eof_notMem_field {p : List Token} {field : Field} (h : FieldForm p field) : .eof ∉ p := by
  cases h with
  | wildcard => simp
  | named h => exact eof_notMem_name h

theorem eof_notMem_assignment {p : List Token} {pair : String × Literal}
    (h : AssignmentForm p pair) : .eof ∉ p := by
  obtain ⟨hc, hv⟩ := h
  simp [eof_notMem_name hc, eof_notMem_literal hv]

theorem eof_notMem_list {α : Type} {Item : List Token → α → Prop}
    (hi : ∀ {p a}, Item p a → .eof ∉ p) {p : List Token} {items : List α}
    (h : ListForm Item p items) : .eof ∉ p := by
  induction h with
  | one h => exact hi h
  | more h _ ih => simp [hi h, ih]

theorem eof_notMem_condition {level : Level} {p : List Token} {c : Condition}
    (h : ConditionForm level p c) : .eof ∉ p := by
  induction h with
  | comparison column op hop hv => simp [eof_notMem_literal hv]
  | parenthesized h ih => simp [ih]
  | operand h ih => exact ih
  | and hl hr ihl ihr => simp [ihl, ihr]
  | conjunction h ih => exact ih
  | or hl hr ihl ihr => simp [ihl, ihr]

theorem eof_notMem_clause {p : List Token} {clause : WrittenClause} (h : ClauseForm p clause) :
    .eof ∉ p := by
  cases h with
  | condition h => simp [eof_notMem_condition h]
  | order hc hd => cases hd <;> simp [eof_notMem_name hc]
  | limit count => simp

theorem eof_notMem_clauses {p : List Token} {clauses : List WrittenClause}
    (h : ClausesForm p clauses) : .eof ∉ p := by
  induction h with
  | none => simp
  | more h _ ih => simp [eof_notMem_clause h, ih]

theorem eof_notMem_where {p : List Token} {condition : Option Condition}
    (h : WhereForm p condition) : .eof ∉ p := by
  cases h with
  | omitted => simp
  | written h => simp [eof_notMem_condition h]

theorem eof_notMem_columns {p : List Token} {columns : List String} (h : ColumnsForm p columns) :
    .eof ∉ p := by
  cases h with
  | omitted => simp
  | listed h => simp [eof_notMem_list eof_notMem_name h]

theorem eof_notMem_sentence {p : List Token} {sentence : Sentence} (h : SentenceForm p sentence) :
    .eof ∉ p := by
  cases h with
  | select hf ht hc =>
    simp [eof_notMem_list eof_notMem_field hf, eof_notMem_name ht, eof_notMem_clauses hc]
  | insert ht hc hv =>
    simp [eof_notMem_name ht, eof_notMem_columns hc, eof_notMem_list eof_notMem_literal hv]
  | update ht ha hw =>
    simp [eof_notMem_name ht, eof_notMem_list eof_notMem_assignment ha, eof_notMem_where hw]
  | delete ht hw => simp [eof_notMem_name ht, eof_notMem_where hw]

end Grammar

end SqlShell
