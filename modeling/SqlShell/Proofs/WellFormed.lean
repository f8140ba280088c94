import SqlShell.Conversion
import SqlShell.Proofs.Scanning
import SqlShell.Proofs.StatementGrammar

/-!
# Well-formed statements

The names, bare words and numbers of a statement that was read from a text come from its lexemes.
-/

set_option autoImplicit false

namespace SqlShell

open Grammar Scan

structure Vocabulary where
  name : String → Prop
  word : String → Prop
  number : Binary64 → Prop

def Literal.Over (v : Vocabulary) : Literal → Prop
  | number value => v.number value
  | string _ => True
  | identifier name => v.word name

def Condition.Over (v : Vocabulary) : Condition → Prop
  | comparison column op value => v.word column ∧ op.isComparison = true ∧ value.Over v
  | and left right => left.Over v ∧ right.Over v
  | or left right => left.Over v ∧ right.Over v

def Clauses.Over (v : Vocabulary) (clauses : Clauses) : Prop :=
  (∀ c ∈ clauses.condition, c.Over v) ∧ (∀ order ∈ clauses.order, v.name order.column) ∧
    ∀ count ∈ clauses.limit, v.number count

namespace Statement

def Over (v : Vocabulary) : Statement → Prop
  | select table fields clauses =>
    v.name table ∧ fields ≠ [] ∧ (∀ column, .named column ∈ fields → v.name column) ∧
      clauses.Over v
  | insert table columns values =>
    v.name table ∧ (∀ column ∈ columns, v.name column) ∧ values ≠ [] ∧
      ∀ value ∈ values, value.Over v
  | update table assignments condition =>
    v.name table ∧ assignments ≠ [] ∧ (∀ pair ∈ assignments, v.name pair.1 ∧ pair.2.Over v) ∧
      ∀ c ∈ condition, c.Over v
  | delete table condition => v.name table ∧ ∀ c ∈ condition, c.Over v

def condition? : Statement → Option Condition
  | select _ _ clauses => clauses.condition
  | insert _ _ _ => none
  | update _ _ condition => condition
  | delete _ condition => condition

def assigned : Statement → List String
  | update _ assignments _ => assignments.map Prod.fst
  | _ => []

end Statement

namespace Scan

def IsIdentifier (name : String) : Prop :=
  IsWord name.toList ∧ ∀ k : Keyword, ¬k.Spelled name.toList

def IsName (name : String) : Prop :=
  IsIdentifier name ∨ ∃ k : Keyword, (k ≠ .JOIN ∧ k ≠ .ON ∧ k ≠ .AS) ∧ name = k.asName

def IsNumber (value : Binary64) : Prop := ∃ run, Denotes run value

def vocabulary : Vocabulary := ⟨IsName, IsIdentifier, IsNumber⟩

end Scan

structure Statement.WellFormed (s : Statement) : Prop where
  parts : s.Over vocabulary
  depth : ∀ c ∈ s.condition?, c.depth ≤ 128
  distinct : s.assigned.Nodup

namespace Grammar

def Lexed (p : List Token) : Prop := ∀ token ∈ p, ∃ text, LexemeForm text token

theorem Lexed.of_append {p q : List Token} (h : Lexed (p ++ q)) : Lexed p ∧ Lexed q :=
  ⟨fun t ht => h t (List.mem_append_left q ht), fun t ht => h t (List.mem_append_right p ht)⟩

theorem Lexed.of_cons {token : Token} {p : List Token} (h : Lexed (token :: p)) : Lexed p :=
  fun t ht => h t (List.mem_cons_of_mem token ht)

theorem identifier_of_lexed {name : String} {p : List Token} (h : Lexed (.identifier name :: p)) :
    IsIdentifier name := by
  obtain ⟨text, hl⟩ := h _ List.mem_cons_self
  cases hl with
  | identifier hw hk => exact ⟨by rwa [String.toList_ofList], by rwa [String.toList_ofList]⟩

theorem number_of_lexed {value : Binary64} {p : List Token} (h : Lexed (.number value :: p)) :
    IsNumber value := by
  obtain ⟨text, hl⟩ := h _ List.mem_cons_self
  cases hl with
  | number hv => exact ⟨text, hv⟩

theorem name_over {p : List Token} {name : String} (h : NameForm p name) (hl : Lexed p) :
    IsName name := by
  cases h with
  | identifier name => exact Or.inl (identifier_of_lexed hl)
  | keyword k hk => exact Or.inr ⟨k, hk, rfl⟩

theorem literal_over {p : List Token} {value : Literal} (h : LiteralForm p value) (hl : Lexed p) :
    value.Over vocabulary := by
  cases h with
  | number value => exact number_of_lexed hl
  | string text => trivial
  | identifier name => exact identifier_of_lexed hl

theorem field_over {p : List Token} {field : Field} (h : FieldForm p field) (hl : Lexed p) :
    ∀ column, field = .named column → IsName column := by
  intro column hc
  cases h with
  | wildcard => cases hc
  | named h =>
    cases hc
    exact name_over h hl

theorem assignment_over {p : List Token} {pair : String × Literal} (h : AssignmentForm p pair)
    (hl : Lexed p) : IsName pair.1 ∧ pair.2.Over vocabulary := by
  obtain ⟨hc, hv⟩ := h
  obtain ⟨hp, hq⟩ := hl.of_append
  exact ⟨name_over hc hp, literal_over hv hq.of_cons⟩

theorem list_over {α : Type} {Item : List Token → α → Prop} {P : α → Prop} {p : List Token}
    {items : List α} (h : ListForm Item p items) (hl : Lexed p)
    (hi : ∀ {p a}, Item p a → Lexed p → P a) : items ≠ [] ∧ ∀ a ∈ items, P a := by
  refine ⟨by cases h <;> simp, ?_⟩
  induction h with
  | one h => simpa using hi h hl
  | more h _ ih =>
    obtain ⟨hp, hq⟩ := hl.of_append
    exact List.forall_mem_cons.mpr ⟨hi h hp, ih hq.of_cons⟩

theorem condition_over {level : Level} {p : List Token} {c : Condition}
    (h : ConditionForm level p c) (hl : Lexed p) : c.Over vocabulary := by
  induction h with
  | comparison column op hop hv =>
    exact ⟨identifier_of_lexed hl, hop, literal_over hv hl.of_cons.of_cons⟩
  | parenthesized h ih => exact ih hl.of_cons.of_append.1
  | operand h ih => exact ih hl
  | and hl' hr ihl ihr =>
    obtain ⟨hp, hq⟩ := hl.of_append
    exact ⟨ihl hp, ihr hq.of_cons⟩
  | conjunction h ih => exact ih hl
  | or hl' hr ihl ihr =>
    obtain ⟨hp, hq⟩ := hl.of_append
    exact ⟨ihl hp, ihr hq.of_cons⟩

theorem where_over {p : List Token} {condition : Option Condition} (h : WhereForm p condition)
    (hl : Lexed p) : ∀ c ∈ condition, c.Over vocabulary := by
  intro c hc
  cases h with
  | omitted => cases hc
  | written h =>
    cases hc
    exact condition_over h hl.of_cons

theorem columns_over {p : List Token} {columns : List String} (h : ColumnsForm p columns)
    (hl : Lexed p) : ∀ column ∈ columns, IsName column := by
  cases h with
  | omitted => simp
  | listed h => exact (list_over h hl.of_cons.of_append.1 name_over).2

def WrittenClause.Over (v : Vocabulary) : WrittenClause → Prop
  | condition c => c.Over v
  | order column _ => v.name column
  | limit count => v.number count

theorem clause_over {p : List Token} {clause : WrittenClause} (h : ClauseForm p clause)
    (hl : Lexed p) : clause.Over vocabulary := by
  cases h with
  | condition h => exact condition_over h hl.of_cons
  | order hc hd => exact name_over hc hl.of_cons.of_cons.of_append.1
  | limit count => exact number_of_lexed hl.of_cons

theorem clauses_over {p : List Token} {clauses : List WrittenClause} (h : ClausesForm p clauses)
    (hl : Lexed p) : ∀ clause ∈ clauses, clause.Over vocabulary := by
  induction h with
  | none => simp
  | more h _ ih =>
    obtain ⟨hp, hq⟩ := hl.of_append
    exact List.forall_mem_cons.mpr ⟨clause_over h hp, ih hq⟩

theorem mem_of_getLast?_filterMap {α β : Type} {f : α → Option β} {items : List α} {b : β}
    (h : b ∈ (items.filterMap f).getLast?) : ∃ a ∈ items, f a = some b :=
  List.mem_filterMap.mp (List.mem_of_getLast? h)

theorem lastClauses_over {v : Vocabulary} {clauses : List WrittenClause}
    (h : ∀ clause ∈ clauses, clause.Over v) : (lastClauses clauses).Over v := by
  refine ⟨fun c hc => ?_, fun order ho => ?_, fun count hn => ?_⟩
  · obtain ⟨clause, hm, hf⟩ := mem_of_getLast?_filterMap hc
    cases clause <;> cases hf
    exact h _ hm
  · obtain ⟨clause, hm, hf⟩ := mem_of_getLast?_filterMap ho
    cases clause <;> cases hf
    exact h _ hm
  · obtain ⟨clause, hm, hf⟩ := mem_of_getLast?_filterMap hn
    cases clause <;> cases hf
    exact h _ hm

theorem sentence_over {p : List Token} {sentence : Sentence} (h : SentenceForm p sentence)
    (hl : Lexed p) : sentence.statement.Over vocabulary := by
  cases h with
  | select hf ht hc =>
    obtain ⟨hp, hq⟩ := hl.of_cons.of_append
    obtain ⟨hq, hr⟩ := hq.of_cons.of_append
    obtain ⟨hn, hm⟩ := list_over hf hp field_over
    exact ⟨name_over ht hq, hn, fun column hc => hm _ hc column rfl,
      lastClauses_over (clauses_over hc hr)⟩
  | insert ht hc hv =>
    obtain ⟨hp, hq⟩ := hl.of_cons.of_cons.of_append
    obtain ⟨hq, hr⟩ := hq.of_append
    exact ⟨name_over ht hp, columns_over hc hq,
      list_over hv hr.of_cons.of_cons.of_append.1 literal_over⟩
  | update ht ha hw =>
    obtain ⟨hp, hq⟩ := hl.of_cons.of_append
    obtain ⟨hq, hr⟩ := hq.of_cons.of_append
    obtain ⟨hn, hm⟩ := list_over ha hq assignment_over
    exact ⟨name_over ht hp, Entries.latest_ne_nil hn,
      fun pair hp => hm pair (Entries.mem_of_mem_latest hp), where_over hw hr⟩
  | delete ht hw =>
    obtain ⟨hp, hq⟩ := hl.of_cons.of_cons.of_append
    exact ⟨name_over ht hp, where_over hw hq⟩

theorem condition?_mem (sentence : Sentence) :
    ∀ c ∈ sentence.statement.condition?, c ∈ sentence.conditions := by
  intro c hc
  cases sentence with
  | select fields table clauses => exact List.mem_of_getLast? hc
  | insert table columns values => cases hc
  | update table assignments condition => exact Option.mem_toList.mpr hc
  | delete table condition => exact Option.mem_toList.mpr hc

theorem assigned_nodup (sentence : Sentence) : sentence.statement.assigned.Nodup := by
  cases sentence with
  | update table assignments condition => exact Entries.nodup_keys_latest assignments
  | _ => exact List.nodup_nil

end Grammar

theorem Scan.TextForm.lexed {text : List Char} {ts : List Token} (h : TextForm text ts) :
    ∀ token ∈ ts, token ≠ .eof → ∃ lexeme, LexemeForm lexeme token := by
  induction h with
  | done hg => simp
  | more hg hl he _ ih => exact List.forall_mem_cons.mpr ⟨fun _ => ⟨_, hl⟩, ih⟩

theorem bind_ok_iff {ε α β : Type} {x : Except ε α} {f : α → Except ε β} {b : β} :
    (x >>= f) = .ok b ↔ ∃ a, x = .ok a ∧ f a = .ok b := by
  cases x <;> simp [bind, Except.bind]

namespace Statement

theorem ofText_eq_ok {text : String} {s : Statement} :
    ofText text = .ok s ↔
      ∃ ts, tokens text.toList = .ok ts ∧ (Cursor.ofTokens ts).readStatement.1 = .ok s := by
  unfold ofText
  simp only [bind_ok_iff, mapError_ok_iff, tokenize_eq_ok_iff]

theorem mem_ofTokens {ts : List Token} {token : Token} (h : token ∈ (Cursor.ofTokens ts).rest)
    (ht : token ≠ .eof) : token ∈ ts := by
  unfold Cursor.ofTokens at h
  split at h
  · exact h
  · simpa [ht] using h

/-- Whatever a text is read as is well-formed. -/
theorem wellFormed_of_ofText {text : String} {s : Statement} (h : ofText text = .ok s) :
    s.WellFormed := by
  obtain ⟨ts, hts, hr⟩ := ofText_eq_ok.mp h
  obtain ⟨p, rest, hp, _, sentence, hs, rfl, hd, _⟩ :=
    Cursor.readStatement_eq_ok.mp (Prod.ext hr rfl)
  have hl : Lexed p := by
    intro token ht
    have he : token ≠ .eof := fun he => eof_notMem_sentence hs (he ▸ ht)
    have hm : token ∈ (Cursor.ofTokens ts).rest := hp ▸ List.mem_append_left rest ht
    exact (tokens_eq_ok_iff.mp hts).lexed token (mem_ofTokens hm he) he
  exact ⟨sentence_over hs hl, fun c hc => hd c (condition?_mem sentence c hc),
    assigned_nodup sentence⟩

end Statement

end SqlShell
