import SqlShell.Proofs.Grammar

/-!
# Nesting of parentheses

Every form closes the parentheses it opens, so the nesting of a sequence of forms is bounded when
that of each form is. Outside conditions only the lists of an INSERT have parentheses.
-/

set_option autoImplicit false

namespace SqlShell

open Grammar

namespace Condition

def Within (limit : Option Nat) (n : Nat) : Prop := ∀ bound ∈ limit, n ≤ bound

theorem overrun?_eq_none {limit : Option Nat} {n : Nat} :
    overrun? limit n = none ↔ Within limit n := by
  cases limit with
  | none => simp [overrun?, Within]
  | some bound => simp [overrun?, Within]

theorem Within.mono {limit : Option Nat} {m n : Nat} (h : Within limit n) (hm : m ≤ n) :
    Within limit m := fun bound hb => Nat.le_trans hm (h bound hb)

def Nests (limit : Option Nat) (n : Nat) (p : List Token) : Prop :=
  ∀ bound ∈ limit, NestsWithin bound n p

theorem nests_some {bound n : Nat} {p : List Token} :
    Nests (some bound) n p ↔ NestsWithin bound n p := by
  simp [Nests]

end Condition

namespace Grammar

open Condition

def Flat (p : List Token) : Prop :=
  ∀ bound n rest, NestsWithin bound n (p ++ rest) ↔ NestsWithin bound n rest

def Balanced (p : List Token) : Prop :=
  ∀ bound n rest, NestsWithin bound n (p ++ rest) ↔ NestsWithin bound n p ∧ NestsWithin bound n rest

theorem Flat.nestsWithin {p : List Token} (h : Flat p) (bound n : Nat) : NestsWithin bound n p := by
  simpa using (h bound n []).mpr trivial

theorem Flat.balanced {p : List Token} (h : Flat p) : Balanced p := by
  intro bound n rest
  rw [h, and_iff_right (h.nestsWithin bound n)]

theorem Flat.append {p q : List Token} (hp : Flat p) (hq : Flat q) : Flat (p ++ q) := by
  intro bound n rest
  rw [List.append_assoc, hp, hq]

theorem flat_nil : Flat [] := fun _ _ _ => Iff.rfl

theorem flat_cons {token : Token} {p : List Token} (hl : token ≠ .leftParen)
    (hr : token ≠ .rightParen) (hp : Flat p) : Flat (token :: p) := by
  intro bound n rest
  cases token with
  | leftParen => exact absurd rfl hl
  | rightParen => exact absurd rfl hr
  | _ => exact hp bound n rest

theorem flat_keyword (k : Keyword) {p : List Token} (hp : Flat p) : Flat (.keyword k :: p) :=
  flat_cons (by simp) (by simp) hp

theorem Balanced.append {p q : List Token} (hp : Balanced p) (hq : Balanced q) :
    Balanced (p ++ q) := by
  intro bound n rest
  rw [List.append_assoc, hp, hq, hp bound n q, and_assoc]

theorem balanced_keyword (k : Keyword) {p : List Token} (hp : Balanced p) :
    Balanced (.keyword k :: p) :=
  (flat_keyword k flat_nil).balanced.append hp

theorem Balanced.nests_append {limit : Option Nat} {n : Nat} {p : List Token} (hp : Balanced p)
    (rest : List Token) : Nests limit n (p ++ rest) ↔ Nests limit n p ∧ Nests limit n rest := by
  simp only [Nests, hp _ n rest, forall_and]

theorem Flat.nests_append {limit : Option Nat} {n : Nat} {p : List Token} (hp : Flat p)
    (rest : List Token) : Nests limit n (p ++ rest) ↔ Nests limit n rest := by
  simp only [Nests, hp _ n rest]

theorem Flat.nests {p : List Token} (hp : Flat p) (limit : Option Nat) (n : Nat) :
    Nests limit n p := fun bound _ => hp.nestsWithin bound n

theorem flat_name {p : List Token} {name : String} (h : NameForm p name) : Flat p := by
  cases h <;> exact flat_cons (by simp) (by simp) flat_nil

theorem flat_literal {p : List Token} {value : Literal} (h : LiteralForm p value) : Flat p := by
  cases h <;> exact flat_cons (by simp) (by simp) flat_nil

theorem flat_field {p : List Token} {field : Field} (h : FieldForm p field) : Flat p := by
  cases h with
  | wildcard => exact flat_cons (by simp) (by simp) flat_nil
  | named h => exact flat_name h

theorem flat_assignment {p : List Token} {pair : String × Literal} (h : AssignmentForm p pair) :
    Flat p := by
  obtain ⟨hc, hv⟩ := h
  exact (flat_name hc).append (flat_cons (by simp) (by simp) (flat_literal hv))

theorem flat_list {α : Type} {Item : List Token → α → Prop} (hi : ∀ {p a}, Item p a → Flat p)
    {p : List Token} {items : List α} (h : ListForm Item p items) : Flat p := by
  induction h with
  | one h => exact hi h
  | more h _ ih => exact (hi h).append (flat_cons (by simp) (by simp) ih)

theorem flat_direction {p : List Token} {direction : Option Direction}
    (h : DirectionForm p direction) : Flat p := by
  cases h with
  | omitted => exact flat_nil
  | ascending => exact flat_keyword _ flat_nil
  | descending => exact flat_keyword _ flat_nil

theorem balanced_condition {level : Level} {p : List Token} {c : Condition}
    (h : ConditionForm level p c) : Balanced p := by
  induction h with
  | comparison column op hop hv =>
    exact (flat_cons (by simp) (by simp) (flat_cons (by simp) (by simp) (flat_literal hv))).balanced
  | parenthesized h ih =>
    intro bound n rest
    simp [NestsWithin, ih bound (n + 1), and_assoc]
  | operand h ih => exact ih
  | and hl hr ihl ihr => exact ihl.append (balanced_keyword _ ihr)
  | conjunction h ih => exact ih
  | or hl hr ihl ihr => exact ihl.append (balanced_keyword _ ihr)

theorem nests_parenthesized {limit : Option Nat} {n : Nat} {p : List Token} (h : Balanced p) :
    Nests limit n (.leftParen :: (p ++ [.rightParen])) ↔
      Within limit (n + 1) ∧ Nests limit (n + 1) p := by
  simp only [Nests, Within, NestsWithin, h _ (n + 1), and_true, forall_and]
  rfl

theorem balanced_where {p : List Token} {condition : Option Condition}
    (h : WhereForm p condition) : Balanced p := by
  cases h with
  | omitted => exact flat_nil.balanced
  | written h => exact balanced_keyword _ (balanced_condition h)

theorem balanced_clause {p : List Token} {clause : WrittenClause} (h : ClauseForm p clause) :
    Balanced p := by
  cases h with
  | condition h => exact balanced_keyword _ (balanced_condition h)
  | order hc hd =>
    exact (flat_keyword _ (flat_keyword _ ((flat_name hc).append (flat_direction hd)))).balanced
  | limit count =>
    exact (flat_keyword _ (flat_cons (by simp) (by simp) flat_nil)).balanced

end Grammar

end SqlShell
