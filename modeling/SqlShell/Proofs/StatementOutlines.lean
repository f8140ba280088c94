import SqlShell.Proofs.OutlineLeaves

/-!
# Outlines of statements

What the outline of a statement looks like: a record with every part of the statement under its
label, and conditions, lists and what may be missing laid out inside it. Nothing is left out, so the
text of an outline is that of one statement only.
-/

set_option autoImplicit false

namespace SqlShell.Outline

open Text

inductive LiteralForm (depth : ℕ) : Literal → List Char → Prop
  | number {n : Binary64} {text : List Char} (h : NumberForm n text) :
      LiteralForm depth (.number n) (wrapText depth "Number" text)
  | string {s : String} {text : List Char} (h : QuotedForm s text) :
      LiteralForm depth (.string s) (wrapText depth "String" text)
  | identifier {name : String} {text : List Char} (h : QuotedForm name text) :
      LiteralForm depth (.identifier name) (wrapText depth "Identifier" text)

def operatorLabels : List (Operator × String) :=
  [(.equal, "Equal"), (.notEqual, "NotEqual"), (.lessGreater, "LessGreater"),
    (.greater, "GreaterThan"), (.less, "LessThan"), (.greaterEqual, "GreaterEqual"),
    (.lessEqual, "LessEqual"), (.plus, "Plus"), (.minus, "Minus"), (.star, "Star"),
    (.slash, "Slash")]

inductive OperatorForm (op : Operator) : List Char → Prop
  | mk {label : String} (h : (op, label) ∈ operatorLabels) : OperatorForm op label.toList

inductive ConditionForm : ℕ → Condition → List Char → Prop
  | comparison {depth : ℕ} {column : String} {op : Operator} {value : Literal}
      {columnText opText valueText : List Char} (hc : QuotedForm column columnText)
      (ho : OperatorForm op opText) (hv : LiteralForm (depth + 1) value valueText) :
      ConditionForm depth (.comparison column op value)
        (recordText depth "Comparison"
          [("column", columnText), ("op", opText), ("value", valueText)])
  | and {depth : ℕ} {left right : Condition} {leftText rightText : List Char}
      (hl : ConditionForm (depth + 1) left leftText)
      (hr : ConditionForm (depth + 1) right rightText) :
      ConditionForm depth (.and left right)
        (recordText depth "And" [("left", leftText), ("right", rightText)])
  | or {depth : ℕ} {left right : Condition} {leftText rightText : List Char}
      (hl : ConditionForm (depth + 1) left leftText)
      (hr : ConditionForm (depth + 1) right rightText) :
      ConditionForm depth (.or left right)
        (recordText depth "Or" [("left", leftText), ("right", rightText)])

inductive FieldForm (depth : ℕ) : Field → List Char → Prop
  | wildcard : FieldForm depth .wildcard "Wildcard".toList
  | named {column : String} {text : List Char} (h : QuotedForm column text) :
      FieldForm depth (.named column) (wrapText depth "Named" text)

inductive DirectionForm : Direction → List Char → Prop
  | ascending : DirectionForm .ascending "Asc".toList
  | descending : DirectionForm .descending "Desc".toList

inductive OrderForm (depth : ℕ) : Order → List Char → Prop
  | mk {column : String} {direction : Direction} {columnText directionText : List Char}
      (hc : QuotedForm column columnText) (hd : DirectionForm direction directionText) :
      OrderForm depth ⟨column, direction⟩
        (recordText depth "OrderBy" [("column", columnText), ("direction", directionText)])

inductive EntryForm (depth : ℕ) : String × Literal → List Char → Prop
  | mk {column : String} {value : Literal} {key text : List Char} (hc : QuotedForm column key)
      (hv : LiteralForm depth value text) : EntryForm depth (column, value) (keyed key text)

inductive OptionForm {α : Type} (Form : ℕ → α → List Char → Prop) (depth : ℕ) :
    Option α → List Char → Prop
  | none : OptionForm Form depth none "None".toList
  | some {a : α} {text : List Char} (h : Form (depth + 1) a text) :
      OptionForm Form depth (some a) (wrapText depth "Some" text)

inductive ListForm {α : Type} (opening closing : Char) (Form : ℕ → α → List Char → Prop)
    (depth : ℕ) (items : List α) : List Char → Prop
  | mk {texts : List (List Char)} (h : List.Forall₂ (Form (depth + 1)) items texts) :
      ListForm opening closing Form depth items (enclosed depth [opening] [closing] texts)

inductive StatementForm : Statement → List Char → Prop
  | select {table : String} {fields : List Field} {clauses : Clauses}
      {tableText fieldsText conditionText orderText limitText : List Char}
      (ht : QuotedForm table tableText) (hf : ListForm '[' ']' FieldForm 1 fields fieldsText)
      (hc : OptionForm ConditionForm 1 clauses.condition conditionText)
      (ho : OptionForm OrderForm 1 clauses.order orderText)
      (hl : OptionForm (fun _ => NumberForm) 1 clauses.limit limitText) :
      StatementForm (.select table fields clauses)
        (recordText 0 "Select" [("table", tableText), ("fields", fieldsText),
          ("where_clause", conditionText), ("order_by", orderText), ("limit", limitText)])
  | insert {table : String} {columns : List String} {values : List Literal}
      {tableText columnsText valuesText : List Char} (ht : QuotedForm table tableText)
      (hc : ListForm '[' ']' (fun _ => QuotedForm) 1 columns columnsText)
      (hv : ListForm '[' ']' LiteralForm 1 values valuesText) :
      StatementForm (.insert table columns values)
        (recordText 0 "Insert"
          [("table", tableText), ("columns", columnsText), ("values", valuesText)])
  | update {table : String} {assignments : Entries Literal} {condition : Option Condition}
      {tableText assignmentsText conditionText : List Char} (ht : QuotedForm table tableText)
      (ha : ListForm '{' '}' EntryForm 1 assignments assignmentsText)
      (hc : OptionForm ConditionForm 1 condition conditionText) :
      StatementForm (.update table assignments condition)
        (recordText 0 "Update" [("table", tableText), ("assignments", assignmentsText),
          ("where_clause", conditionText)])
  | delete {table : String} {condition : Option Condition} {tableText conditionText : List Char}
      (ht : QuotedForm table tableText)
      (hc : OptionForm ConditionForm 1 condition conditionText) :
      StatementForm (.delete table condition)
        (recordText 0 "Delete" [("table", tableText), ("where_clause", conditionText)])

theorem textAt_text (depth : ℕ) (text : String) :
    QuotedForm text ((textOutline text).textAt depth) := by
  rw [textOutline, textAt_leaf]
  exact quoted_form text

theorem textAt_literal (depth : ℕ) (value : Literal) :
    LiteralForm depth value (value.outline.textAt depth) := by
  cases value with
  | number n =>
    rw [Literal.outline, textAt_wrap]
    exact .number (textAt_number (depth + 1) n)
  | string text =>
    rw [Literal.outline, textAt_wrap]
    exact .string (textAt_text (depth + 1) text)
  | identifier name =>
    rw [Literal.outline, textAt_wrap]
    exact .identifier (textAt_text (depth + 1) name)

theorem textAt_operator (depth : ℕ) (op : Operator) :
    OperatorForm op ((leaf op.label).textAt depth) := by
  rw [textAt_leaf]
  apply OperatorForm.mk
  cases op <;> decide

theorem textAt_condition (depth : ℕ) (c : Condition) :
    ConditionForm depth c (c.outline.textAt depth) := by
  induction c generalizing depth with
  | comparison column op value =>
    rw [Condition.outline, textAt_record]
    exact .comparison (textAt_text _ column) (textAt_operator _ op) (textAt_literal _ value)
  | and left right ihl ihr =>
    rw [Condition.outline, textAt_record]
    exact .and (ihl _) (ihr _)
  | or left right ihl ihr =>
    rw [Condition.outline, textAt_record]
    exact .or (ihl _) (ihr _)

theorem textAt_field (depth : ℕ) (field : Field) :
    FieldForm depth field (field.outline.textAt depth) := by
  cases field with
  | wildcard =>
    rw [Field.outline, textAt_leaf]
    exact .wildcard
  | named column =>
    rw [Field.outline, textAt_wrap]
    exact .named (textAt_text _ column)

theorem textAt_direction (depth : ℕ) (direction : Direction) :
    DirectionForm direction ((leaf direction.label).textAt depth) := by
  rw [textAt_leaf]
  cases direction with
  | ascending => exact .ascending
  | descending => exact .descending

theorem textAt_order (depth : ℕ) (o : Order) : OrderForm depth o (o.outline.textAt depth) := by
  rw [Order.outline, textAt_record]
  exact .mk (textAt_text _ o.column) (textAt_direction _ o.direction)

theorem textAt_optional {α : Type} {Form : ℕ → α → List Char → Prop} {outline : α → Outline}
    (h : ∀ depth a, Form depth a ((outline a).textAt depth)) (depth : ℕ) (a : Option α) :
    OptionForm Form depth a ((optional (a.map outline)).textAt depth) := by
  cases a with
  | none =>
    rw [Option.map_none, optional, textAt_leaf]
    exact .none
  | some a =>
    rw [Option.map_some, optional, textAt_wrap]
    exact .some (h _ a)

theorem textAt_items {α : Type} {Form : ℕ → α → List Char → Prop} {outline : α → Outline}
    (h : ∀ depth a, Form depth a ((outline a).textAt depth)) (depth : ℕ) (items : List α) :
    ListForm '[' ']' Form depth items ((list (items.map outline)).textAt depth) := by
  rw [textAt_list, List.map_map]
  apply ListForm.mk
  rw [List.forall₂_map_right_iff, List.forall₂_same]
  exact fun a _ => h _ a

theorem textAt_entries (depth : ℕ) (assignments : Entries Literal) :
    ListForm '{' '}' EntryForm depth assignments
      ((table (assignments.map fun (column, value) =>
        (Text.quoted column, value.outline))).textAt depth) := by
  rw [textAt_table, List.map_map]
  apply ListForm.mk
  rw [List.forall₂_map_right_iff, List.forall₂_same]
  rintro ⟨column, value⟩ -
  exact .mk (quoted_form column) (textAt_literal _ value)

theorem outline_form (s : Statement) : StatementForm s s.outline.text.toList := by
  rw [toList_text]
  cases s with
  | select table fields clauses =>
    rw [Statement.outline, textAt_record]
    exact .select (textAt_text _ table) (textAt_items textAt_field _ fields)
      (textAt_optional textAt_condition _ clauses.condition)
      (textAt_optional textAt_order _ clauses.order)
      (textAt_optional textAt_number _ clauses.limit)
  | insert table columns values =>
    rw [Statement.outline, textAt_record]
    exact .insert (textAt_text _ table) (textAt_items textAt_text _ columns)
      (textAt_items textAt_literal _ values)
  | update table assignments condition =>
    rw [Statement.outline, textAt_record]
    exact .update (textAt_text _ table) (textAt_entries _ assignments)
      (textAt_optional textAt_condition _ condition)
  | delete table condition =>
    rw [Statement.outline, textAt_record]
    exact .delete (textAt_text _ table) (textAt_optional textAt_condition _ condition)

theorem legible_literal (depth : ℕ) : Legible (LiteralForm depth) := by
  intro a b text other ha hb
  cases ha with
  | number ha =>
    cases hb with
    | number hb => exact (tellApart_wrap "Number" (legible_number ha hb)).map Literal.number
    | _ =>
      intro rest after h
      simp [wrapText, enclosed] at h
  | string ha =>
    cases hb with
    | string hb => exact (tellApart_wrap "String" (legible_quoted ha hb)).map Literal.string
    | _ =>
      intro rest after h
      simp [wrapText, enclosed] at h
  | identifier ha =>
    cases hb with
    | identifier hb =>
      exact (tellApart_wrap "Identifier" (legible_quoted ha hb)).map Literal.identifier
    | _ =>
      intro rest after h
      simp [wrapText, enclosed] at h

theorem legible_operator : Legible OperatorForm := by
  have hcomma : ∀ pair ∈ operatorLabels, ',' ∉ pair.2.toList := by decide +kernel
  have hinj : ∀ p ∈ operatorLabels, ∀ q ∈ operatorLabels, p.2 = q.2 → p.1 = q.1 := by
    decide +kernel
  intro a b text other ha hb rest after h
  cases ha with
  | mk ha =>
    cases hb with
    | mk hb =>
      obtain ⟨he, hr⟩ := append_cons_inj_first (hcomma _ ha) (hcomma _ hb) h
      exact ⟨hinj _ ha _ hb (String.toList_inj.mp he), hr⟩

/-- The parts of a condition stand before commas, so they are told apart one after another. -/
theorem legible_condition (depth : ℕ) : Legible (ConditionForm depth) := by
  intro a b text other ha
  induction ha generalizing b other with
  | comparison hc ho hv =>
    intro hb rest after h
    cases hb with
    | comparison hc' ho' hv' =>
      obtain ⟨rfl, h⟩ := field_inj (legible_quoted hc hc') (record_inj h)
      obtain ⟨rfl, h⟩ := field_inj (legible_operator ho ho') h
      obtain ⟨rfl, h⟩ := field_inj (legible_literal _ hv hv') h
      exact ⟨rfl, fields_nil_inj h⟩
    | _ => simp [recordText, enclosed] at h
  | and hl hr ihl ihr =>
    intro hb rest after h
    cases hb with
    | and hl' hr' =>
      obtain ⟨rfl, h⟩ := field_inj (ihl hl') (record_inj h)
      obtain ⟨rfl, h⟩ := field_inj (ihr hr') h
      exact ⟨rfl, fields_nil_inj h⟩
    | _ => simp [recordText, enclosed] at h
  | or hl hr ihl ihr =>
    intro hb rest after h
    cases hb with
    | or hl' hr' =>
      obtain ⟨rfl, h⟩ := field_inj (ihl hl') (record_inj h)
      obtain ⟨rfl, h⟩ := field_inj (ihr hr') h
      exact ⟨rfl, fields_nil_inj h⟩
    | _ => simp [recordText, enclosed] at h

theorem legible_field (depth : ℕ) : Legible (FieldForm depth) := by
  intro a b text other ha hb
  cases ha with
  | wildcard =>
    cases hb with
    | wildcard => exact .refl _ _
    | named hb =>
      intro rest after h
      simp [wrapText, enclosed] at h
  | named ha =>
    cases hb with
    | wildcard =>
      intro rest after h
      simp [wrapText, enclosed] at h
    | named hb => exact (tellApart_wrap "Named" (legible_quoted ha hb)).map Field.named

theorem legible_direction : Legible DirectionForm := by
  intro a b text other ha hb
  cases ha with
  | ascending =>
    cases hb with
    | ascending => exact .refl _ _
    | descending =>
      intro rest after h
      simp at h
  | descending =>
    cases hb with
    | ascending =>
      intro rest after h
      simp at h
    | descending => exact .refl _ _

theorem legible_order (depth : ℕ) : Legible (OrderForm depth) := by
  intro a b text other ha hb rest after h
  cases ha with
  | mk hc hd =>
    cases hb with
    | mk hc' hd' =>
      obtain ⟨rfl, h⟩ := field_inj (legible_quoted hc hc') (record_inj h)
      obtain ⟨rfl, h⟩ := field_inj (legible_direction hd hd') h
      exact ⟨rfl, fields_nil_inj h⟩

theorem legible_entry (depth : ℕ) : Legible (EntryForm depth) := by
  intro a b text other ha hb rest after h
  cases ha with
  | mk hc hv =>
    cases hb with
    | mk hc' hv' =>
      simp only [keyed, List.append_assoc] at h
      obtain ⟨rfl, h⟩ := hc.inj hc' h
      obtain ⟨rfl, hr⟩ := legible_literal _ hv hv' (List.append_cancel_left h)
      exact ⟨rfl, hr⟩

section Containers

variable {α : Type} {Form : ℕ → α → List Char → Prop} (hf : ∀ depth, Legible (Form depth))
include hf

theorem legible_option (depth : ℕ) : Legible (OptionForm Form depth) := by
  intro a b text other ha hb
  cases ha with
  | none =>
    cases hb with
    | none => exact .refl _ _
    | some hb =>
      intro rest after h
      simp [wrapText, enclosed] at h
  | some ha =>
    cases hb with
    | none =>
      intro rest after h
      simp [wrapText, enclosed] at h
    | some hb => exact (tellApart_wrap "Some" (hf _ ha hb)).map some

theorem legible_items {opening closing : Char} (hs : closing ≠ ' ') (hn : closing ≠ '\n')
    (depth : ℕ) : Legible (ListForm opening closing Form depth) := by
  intro a b text other ha hb rest after h
  cases ha with
  | mk ha =>
    cases hb with
    | mk hb =>
      obtain ⟨rfl, hr⟩ := enclosed_items_inj (hf _) hs hn ha hb h
      exact ⟨rfl, (List.cons.inj hr).2⟩

theorem legible_bracketed (depth : ℕ) : Legible (ListForm '[' ']' Form depth) :=
  legible_items hf (by decide) (by decide) depth

end Containers

theorem legible_statement : Legible StatementForm := by
  intro a b text other ha hb rest after h
  cases ha with
  | @select _ _ clauses _ _ _ _ _ ht hf hc ho hl =>
    cases hb with
    | @select _ _ clauses' _ _ _ _ _ ht' hf' hc' ho' hl' =>
      obtain ⟨condition, order, limit⟩ := clauses
      obtain ⟨condition', order', limit'⟩ := clauses'
      obtain ⟨rfl, h⟩ := field_inj (legible_quoted ht ht') (record_inj h)
      obtain ⟨rfl, h⟩ := field_inj (legible_bracketed legible_field _ hf hf') h
      obtain ⟨rfl, h⟩ := field_inj (legible_option legible_condition _ hc hc') h
      obtain ⟨rfl, h⟩ := field_inj (legible_option legible_order _ ho ho') h
      obtain ⟨rfl, h⟩ := field_inj (legible_option (fun _ => legible_number) _ hl hl') h
      exact ⟨rfl, fields_nil_inj h⟩
    | _ => simp [recordText, enclosed] at h
  | insert ht hc hv =>
    cases hb with
    | insert ht' hc' hv' =>
      obtain ⟨rfl, h⟩ := field_inj (legible_quoted ht ht') (record_inj h)
      obtain ⟨rfl, h⟩ := field_inj (legible_bracketed (fun _ => legible_quoted) _ hc hc') h
      obtain ⟨rfl, h⟩ := field_inj (legible_bracketed legible_literal _ hv hv') h
      exact ⟨rfl, fields_nil_inj h⟩
    | _ => simp [recordText, enclosed] at h
  | update ht ha hc =>
    cases hb with
    | update ht' ha' hc' =>
      obtain ⟨rfl, h⟩ := field_inj (legible_quoted ht ht') (record_inj h)
      obtain ⟨rfl, h⟩ := field_inj
        (legible_items legible_entry (by decide) (by decide) _ ha ha') h
      obtain ⟨rfl, h⟩ := field_inj (legible_option legible_condition _ hc hc') h
      exact ⟨rfl, fields_nil_inj h⟩
    | _ => simp [recordText, enclosed] at h
  | delete ht hc =>
    cases hb with
    | delete ht' hc' =>
      obtain ⟨rfl, h⟩ := field_inj (legible_quoted ht ht') (record_inj h)
      obtain ⟨rfl, h⟩ := field_inj (legible_option legible_condition _ hc hc') h
      exact ⟨rfl, fields_nil_inj h⟩
    | _ => simp [recordText, enclosed] at h

theorem StatementForm.unique {s s' : Statement} {text : List Char} (h : StatementForm s text)
    (h' : StatementForm s' text) : s = s' :=
  (legible_statement h h' (Eq.refl (text ++ [',']))).1

end SqlShell.Outline
