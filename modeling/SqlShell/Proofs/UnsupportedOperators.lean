import SqlShell.Proofs.Rendering

/-!
# Operators that compare nothing

A condition may be built with any operator, also with a sign of arithmetic, which compares nothing.
The filter of a condition fails exactly when there is such a sign in it, and names the leftmost one.
Nothing else in a statement can fail: neither names, nor numbers, nor lists of different lengths.
-/

set_option autoImplicit false

namespace SqlShell

structure Comparison where
  column : String
  operator : Operator
  value : Literal
  deriving DecidableEq, Repr

def Condition.comparisons : Condition → List Comparison
  | comparison column op value => [⟨column, op, value⟩]
  | and left right => left.comparisons ++ right.comparisons
  | or left right => left.comparisons ++ right.comparisons

def Operator.arithmetic : List Operator := [plus, minus, star, slash]

namespace Condition

def LeftmostArithmetic (c : Condition) (x : Comparison) : Prop :=
  ∃ before after, c.comparisons = before ++ x :: after ∧ x.operator ∈ Operator.arithmetic ∧
    ∀ y ∈ before, y.operator ∉ Operator.arithmetic

def leftmostArithmetic? (c : Condition) : Option Comparison :=
  c.comparisons.find? fun x => x.operator ∈ Operator.arithmetic

theorem leftmostArithmetic?_eq_some_iff {c : Condition} {x : Comparison} :
    c.leftmostArithmetic? = some x ↔ c.LeftmostArithmetic x := by
  unfold leftmostArithmetic?
  rw [List.find?_eq_some_iff_append]
  constructor
  · rintro ⟨hx, before, after, hc, hb⟩
    exact ⟨before, after, hc, of_decide_eq_true hx, fun y hy => by simpa using hb y hy⟩
  · rintro ⟨before, after, hc, hx, hb⟩
    exact ⟨decide_eq_true hx, before, after, hc, fun y hy => by simpa using hb y hy⟩

def FiltersOrFails (c : Condition) : Prop :=
  (c.leftmostArithmetic? = none ∧ ∃ filter, c.filter = .ok filter) ∨
    ∃ x, c.leftmostArithmetic? = some x ∧ c.filter = .error ⟨x.operator⟩

/-- Of two joined conditions the left one is tried first. -/
theorem FiltersOrFails.joined {left right c : Condition} (hl : left.FiltersOrFails)
    (hr : right.FiltersOrFails) (join : Value → Value → Value)
    (hc : c.comparisons = left.comparisons ++ right.comparisons)
    (hf : c.filter = left.filter.bind fun l => right.filter.map (join l)) : c.FiltersOrFails := by
  have hfirst : c.leftmostArithmetic? = left.leftmostArithmetic?.or right.leftmostArithmetic? := by
    rw [leftmostArithmetic?, hc, List.find?_append]
    rfl
  rw [FiltersOrFails, hfirst, hf]
  rcases hl with ⟨hl, l, hfl⟩ | ⟨x, hl, hfl⟩
  · rw [hl, hfl, Option.none_or]
    rcases hr with ⟨hr, r, hfr⟩ | ⟨x, hr, hfr⟩
    · exact Or.inl ⟨hr, join l r, by rw [hfr]; rfl⟩
    · exact Or.inr ⟨x, hr, by rw [hfr]; rfl⟩
  · exact Or.inr ⟨x, by rw [hl, Option.some_or], by rw [hfl]; rfl⟩

theorem filtersOrFails (c : Condition) : c.FiltersOrFails := by
  induction c with
  | comparison column op value =>
    cases op with
    | plus | minus | star | slash => exact Or.inr ⟨_, rfl, rfl⟩
    | _ => exact Or.inl ⟨rfl, _, rfl⟩
  | and left right ihl ihr =>
    refine ihl.joined ihr (fun l r => .object [("$and", .array [l, r])]) rfl ?_
    rw [filter]
    cases left.filter <;> cases right.filter <;> rfl
  | or left right ihl ihr =>
    refine ihl.joined ihr (fun l r => .object [("$or", .array [l, r])]) rfl ?_
    rw [filter]
    cases left.filter <;> cases right.filter <;> rfl

theorem filter_eq_error_iff {c : Condition} {e : UnsupportedOperator} :
    c.filter = .error e ↔ ∃ x, c.LeftmostArithmetic x ∧ e = ⟨x.operator⟩ := by
  simp only [← leftmostArithmetic?_eq_some_iff]
  rcases c.filtersOrFails with ⟨hn, filter, hf⟩ | ⟨x, hx, hf⟩
  · simp [hn, hf]
  · simp [hx, hf, eq_comm]

/-- Where there is a sign of arithmetic there is a leftmost one. -/
theorem exists_leftmostArithmetic_iff {c : Condition} :
    (∃ x, c.LeftmostArithmetic x) ↔ ∃ x ∈ c.comparisons, x.operator ∈ Operator.arithmetic := by
  simp only [← leftmostArithmetic?_eq_some_iff, leftmostArithmetic?]
  rw [← Option.isSome_iff_exists, List.find?_isSome]
  simp

end Condition

theorem filterOf_eq_error_iff {condition : Option Condition} {e : UnsupportedOperator} :
    filterOf condition = .error e ↔
      ∃ c ∈ condition, ∃ x, c.LeftmostArithmetic x ∧ e = ⟨x.operator⟩ := by
  cases condition with
  | none => simp [filterOf]
  | some c => simp [filterOf, Condition.filter_eq_error_iff]

/-- All that a statement's text needs beside the filter is always there. -/
theorem Statement.text_eq_error_iff {s : Statement} {e : UnsupportedOperator} :
    s.toCommand.map Command.text = .error e ↔ filterOf s.condition? = .error e := by
  rw [toCommand_eq]
  cases filterOf s.condition? with
  | error found => constructor <;> intro h <;> cases h <;> rfl
  | ok filter => constructor <;> intro h <;> cases h

/-- The text of a statement's command fails exactly when a comparison of its condition is by a sign
of arithmetic, and then the operator that is reported is that of the leftmost such comparison. The
filter of the condition fails for the same reasons in the same way, and an INSERT, which has no
condition, never fails. -/
theorem Statement.text_fails_at_leftmost_arithmetic :
    (∀ s : Statement,
      ((∃ e, s.toCommand.map Command.text = .error e) ↔
        ∃ c ∈ s.condition?, ∃ x ∈ c.comparisons, x.operator ∈ Operator.arithmetic) ∧
      (∀ e, s.toCommand.map Command.text = .error e ↔
        ∃ c ∈ s.condition?, ∃ x, c.LeftmostArithmetic x ∧ e = ⟨x.operator⟩) ∧
      ∀ e, filterOf s.condition? = .error e ↔ s.toCommand.map Command.text = .error e) ∧
    (∀ table columns values, ∃ text,
      (insert table columns values).toCommand.map Command.text = .ok text) ∧
    ∀ condition e, filterOf condition = .error e ↔
      ∃ c ∈ condition, ∃ x, c.LeftmostArithmetic x ∧ e = ⟨x.operator⟩ := by
  refine ⟨fun s => ⟨?_, fun e => ?_, fun e => text_eq_error_iff.symm⟩,
    fun table columns values => ⟨_, rfl⟩, fun condition e => filterOf_eq_error_iff⟩
  · simp only [text_eq_error_iff, filterOf_eq_error_iff, ← Condition.exists_leftmostArithmetic_iff]
    constructor
    · rintro ⟨_, c, hc, x, hx, _⟩
      exact ⟨c, hc, x, hx⟩
    · rintro ⟨c, hc, x, hx⟩
      exact ⟨⟨x.operator⟩, c, hc, x, hx, rfl⟩
  · rw [text_eq_error_iff, filterOf_eq_error_iff]

example (value : Literal) : Condition.filter (.or (.and (.comparison "a" .equal value)
    (.comparison "b" .star value)) (.comparison "c" .plus value)) = .error ⟨.star⟩ := rfl

end SqlShell
