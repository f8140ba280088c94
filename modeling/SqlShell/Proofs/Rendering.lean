import SqlShell.Proofs.WellFormed

/-!
# Every statement of a text has a command

A command fails only at an operator that compares nothing, and conditions that are read have none.
The names of such statements are also plain enough to stand in a command as they are.
-/

set_option autoImplicit false

namespace SqlShell

open Scan

structure Vocabulary.Within (v w : Vocabulary) : Prop where
  name : ∀ {x}, v.name x → w.name x
  word : ∀ {x}, v.word x → w.word x
  number : ∀ {x}, v.number x → w.number x

section Within

variable {v w : Vocabulary}

theorem Literal.Over.mono (hvw : v.Within w) {value : Literal} (h : value.Over v) :
    value.Over w := by
  cases value with
  | number value => exact hvw.number h
  | string text => trivial
  | identifier name => exact hvw.word h

theorem Condition.Over.mono (hvw : v.Within w) {c : Condition} (h : c.Over v) : c.Over w := by
  induction c with
  | comparison column op value => exact ⟨hvw.word h.1, h.2.1, h.2.2.mono hvw⟩
  | and left right ihl ihr => exact ⟨ihl h.1, ihr h.2⟩
  | or left right ihl ihr => exact ⟨ihl h.1, ihr h.2⟩

theorem Statement.Over.mono (hvw : v.Within w) {s : Statement} (h : s.Over v) : s.Over w := by
  cases s with
  | select table fields clauses =>
    obtain ⟨ht, hn, hf, hc, ho, hl⟩ := h
    exact ⟨hvw.name ht, hn, fun column hm => hvw.name (hf column hm),
      fun c hm => (hc c hm).mono hvw, fun order hm => hvw.name (ho order hm),
      fun count hm => hvw.number (hl count hm)⟩
  | insert table columns values =>
    obtain ⟨ht, hc, hn, hv⟩ := h
    exact ⟨hvw.name ht, fun column hm => hvw.name (hc column hm), hn,
      fun value hm => (hv value hm).mono hvw⟩
  | update table assignments condition =>
    obtain ⟨ht, hn, ha, hc⟩ := h
    exact ⟨hvw.name ht, hn, fun pair hm => ⟨hvw.name (ha pair hm).1, (ha pair hm).2.mono hvw⟩,
      fun c hm => (hc c hm).mono hvw⟩
  | delete table condition =>
    obtain ⟨ht, hc⟩ := h
    exact ⟨hvw.name ht, fun c hm => (hc c hm).mono hvw⟩

end Within

def IsPlainName (name : String) : Prop :=
  ∃ c rest, name.toList = c :: rest ∧ isNameStart c = true ∧
    (c ≠ '$' ∧ c.isDigit = false ∧ c ≠ '.') ∧ ∀ d ∈ c :: rest, isNameChar d = true

def Binary64.IsUnsigned : Binary64 → Prop
  | finite negative _ => negative = false
  | infinite negative => negative = false
  | nan => False

def plainVocabulary : Vocabulary where
  name name := IsPlainName name ∧ ∀ k ∈ [Keyword.JOIN, .ON, .AS], ¬k.Spelled name.toList
  word name := IsPlainName name ∧ ∀ k : Keyword, ¬k.Spelled name.toList
  number value := value.IsUnsigned

theorem isPlainName_of_isWord {name : String} (h : IsWord name.toList) : IsPlainName name := by
  unfold IsWord at h
  split at h
  · exact h.elim
  · rename_i c rest ht
    have hc := isNameStart_ge h.1
    refine ⟨c, rest, ht, h.1, ⟨?_, ?_, ?_⟩, ?_⟩
    · rintro rfl
      exact absurd hc (by decide)
    · cases hd : c.isDigit with
      | false => rfl
      | true =>
        have := isDigit_range hd
        omega
    · rintro rfl
      exact absurd hc (by decide)
    · exact List.forall_mem_cons.mpr ⟨isNameChar_of_isNameStart h.1, h.2⟩

theorem Keyword.Spelled.eq_of_asName {k l : Keyword} (h : l.Spelled k.asName.toList) : l = k := by
  have hl := ofWord?_eq_some_iff.mpr h
  rw [ofWord?_asName] at hl
  exact (Option.some.inj hl).symm

theorem vocabulary_within : vocabulary.Within plainVocabulary where
  name := by
    rintro name (⟨hw, hk⟩ | ⟨k, hk, rfl⟩)
    · exact ⟨isPlainName_of_isWord hw, fun k _ => hk k⟩
    · refine ⟨isPlainName_of_isWord (isWord_asName k), fun l hl hs => ?_⟩
      have he := hs.eq_of_asName
      subst he
      simp [hk] at hl
  word h := ⟨isPlainName_of_isWord h.1, h.2⟩
  number := by
    rintro _ ⟨run, hv⟩
    cases hv with
    | nearest => rfl
    | tooLarge => rfl

section Commands

variable {v : Vocabulary}

theorem Operator.criterion_ok {op : Operator} (h : op.isComparison = true) (value : Value) :
    ∃ criterion, op.criterion value = .ok criterion := by
  cases op <;> first | exact ⟨_, rfl⟩ | cases h

theorem Condition.filter_ok {c : Condition} (h : c.Over v) : ∃ value, c.filter = .ok value := by
  induction c with
  | comparison column op value =>
    obtain ⟨criterion, hc⟩ := Operator.criterion_ok h.2.1 value.toValue
    exact ⟨_, by rw [filter, hc]; rfl⟩
  | and left right ihl ihr =>
    obtain ⟨l, hl⟩ := ihl h.1
    obtain ⟨r, hr⟩ := ihr h.2
    exact ⟨_, by rw [filter, hl, hr]; rfl⟩
  | or left right ihl ihr =>
    obtain ⟨l, hl⟩ := ihl h.1
    obtain ⟨r, hr⟩ := ihr h.2
    exact ⟨_, by rw [filter, hl, hr]; rfl⟩

theorem filterOf_ok {condition : Option Condition} (h : ∀ c ∈ condition, c.Over v) :
    ∃ value, filterOf condition = .ok value := by
  cases condition with
  | none => exact ⟨_, rfl⟩
  | some c => exact Condition.filter_ok (h c rfl)

/-- A condition of the grammar has comparisons only, whatever its words are. -/
theorem filter_ok_of_form {level : Grammar.Level} {p : List Token} {c : Condition}
    (h : Grammar.ConditionForm level p c) : ∃ filter, c.filter = .ok filter := by
  have hover : c.Over ⟨fun _ => True, fun _ => True, fun _ => True⟩ := by
    induction h with
    | comparison column op hop hv =>
      refine ⟨trivial, hop, ?_⟩
      cases hv <;> trivial
    | parenthesized h ih => exact ih
    | operand h ih => exact ih
    | and hl hr ihl ihr => exact ⟨ihl, ihr⟩
    | conjunction h ih => exact ih
    | or hl hr ihl ihr => exact ⟨ihl, ihr⟩
  exact Condition.filter_ok hover

theorem filterOf_ok_of_form {p : List Token} {condition : Option Condition}
    (h : Grammar.WhereForm p condition) : ∃ filter, filterOf condition = .ok filter := by
  cases h with
  | omitted => exact ⟨_, rfl⟩
  | written h => exact filter_ok_of_form h

theorem Statement.Over.condition? {s : Statement} (h : s.Over v) :
    ∀ c ∈ s.condition?, c.Over v := by
  cases s with
  | select table fields clauses => exact h.2.2.2.1
  | insert table columns values => simp [Statement.condition?]
  | update table assignments condition => exact h.2.2.2
  | delete table condition => exact h.2

def Statement.command : Statement → Value → Command
  | select table fields clauses, filter =>
    .find table filter (projection fields) clauses.order (clauses.limit.map .ofNumber)
  | insert table columns values, _ => .insertOne table (insertedDocument columns values)
  | update table assignments _, filter =>
    let set := Entries.ofPairs (assignments.map fun (column, value) => (column, value.toValue))
    .updateMany table filter (.object [("$set", .object set)])
  | delete table _, filter => .deleteMany table filter

theorem Statement.toCommand_eq (s : Statement) :
    s.toCommand = (filterOf s.condition?).map s.command := by
  cases s with
  | select table fields clauses =>
    simp only [toCommand, condition?]
    cases filterOf clauses.condition <;> rfl
  | insert table columns values => rfl
  | update table assignments condition =>
    simp only [toCommand, condition?]
    cases filterOf condition <;> rfl
  | delete table condition =>
    simp only [toCommand, condition?]
    cases filterOf condition <;> rfl

theorem Statement.toCommand_ok {s : Statement} (h : s.Over v) :
    ∃ command, s.toCommand = .ok command := by
  obtain ⟨filter, hf⟩ := filterOf_ok h.condition?
  exact ⟨s.command filter, by rw [toCommand_eq, hf]; rfl⟩

end Commands

theorem convert_of_ok {text : String} {s : Statement} {command : Command}
    (h : Statement.ofText text = .ok s) (hc : s.toCommand = .ok command) :
    convert text = .ok ⟨s, command.text⟩ := by
  simp [convert, h, hc, Except.mapError, bind, Except.bind, pure, Except.pure]

theorem convert_of_error {text : String} {e : ConversionError}
    (h : Statement.ofText text = .error e) : convert text = .error e := by
  rw [convert, h]
  rfl

theorem Statement.ofText_error {text : String} {e : ConversionError}
    (h : ofText text = .error e) : (∃ e', e = .scan e') ∨ ∃ e', e = .parse e' := by
  unfold ofText at h
  cases ht : tokenize text with
  | error e' =>
    rw [ht] at h
    cases h
    exact Or.inl ⟨e', rfl⟩
  | ok ts =>
    rw [ht] at h
    change (Cursor.ofTokens ts).readStatement.1.mapError .parse = .error e at h
    cases hr : (Cursor.ofTokens ts).readStatement.1 with
    | error e' =>
      rw [hr] at h
      cases h
      exact Or.inr ⟨e', rfl⟩
    | ok s =>
      rw [hr] at h
      cases h

/-- A text is converted exactly when a statement is read from it, and otherwise the fault is one of
scanning or reading. The statement has plain parts, conditions no deeper than 128, and a command. -/
theorem convert_total_on_statements (text : String) :
    ((∃ r, convert text = .ok r) ∨ (∃ e, convert text = .error (.scan e)) ∨
        ∃ e, convert text = .error (.parse e)) ∧
      ((∃ r, convert text = .ok r) ↔ ∃ s, Statement.ofText text = .ok s) ∧
      ∀ s, Statement.ofText text = .ok s →
        s.Over plainVocabulary ∧ (∀ c ∈ s.condition?, c.depth ≤ 128) ∧
          ∃ command, s.toCommand = .ok command ∧ convert text = .ok ⟨s, command.text⟩ := by
  cases h : Statement.ofText text with
  | error e =>
    have hc := convert_of_error h
    refine ⟨Or.inr ?_, by simp [hc], by simp⟩
    rcases Statement.ofText_error h with ⟨e', rfl⟩ | ⟨e', rfl⟩
    · exact Or.inl ⟨e', hc⟩
    · exact Or.inr ⟨e', hc⟩
  | ok s =>
    have hw := Statement.wellFormed_of_ofText h
    obtain ⟨command, hs⟩ := Statement.toCommand_ok hw.parts
    have hc := convert_of_ok h hs
    refine ⟨Or.inl ⟨_, hc⟩, ⟨fun _ => ⟨s, rfl⟩, fun _ => ⟨_, hc⟩⟩, ?_⟩
    rintro _ ⟨rfl⟩
    exact ⟨hw.parts.mono vocabulary_within, hw.depth, command, hs, hc⟩

end SqlShell
