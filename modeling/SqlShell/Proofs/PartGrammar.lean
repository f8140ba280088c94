import SqlShell.Proofs.ConditionGrammar
import SqlShell.Proofs.Phrases

/-!
# The parts of statements

The readers of names, literals, fields, assignments and WHERE parts accept the forms of these parts.
-/

set_option autoImplicit false

namespace SqlShell

open Grammar Condition

namespace Reader

theorem isUnsupported_eq_false_iff {k : Keyword} :
    k.isUnsupported = false ↔ k ≠ .JOIN ∧ k ≠ .ON ∧ k ≠ .AS := by
  cases k <;> decide

theorem forms_name : Forms Token.asName NameForm where
  iff p name := by
    constructor
    · intro h
      cases h with
      | identifier name => exact ⟨_, rfl, rfl⟩
      | keyword k hk =>
        refine ⟨_, rfl, ?_⟩
        rw [Token.asName, isUnsupported_eq_false_iff.mpr hk]
        rfl
    · rintro ⟨token, rfl, h⟩
      cases token with
      | identifier name => cases h; exact .identifier name
      | keyword k =>
        cases hk : k.isUnsupported with
        | true =>
          rw [Token.asName, hk] at h
          cases h
        | false =>
          rw [Token.asName, hk] at h
          cases h
          exact .keyword k (isUnsupported_eq_false_iff.mp hk)
      | _ => cases h
  eof name h := by cases h

theorem forms_literal : Forms Token.asLiteral LiteralForm where
  iff p value := by
    constructor
    · intro h
      cases h <;> exact ⟨_, rfl, rfl⟩
    · rintro ⟨token, rfl, h⟩
      exact literalForm_of_asLiteral h
  eof value h := by cases h

theorem forms_field : Forms Token.asField FieldForm where
  iff p field := by
    constructor
    · intro h
      cases h with
      | wildcard => exact ⟨_, rfl, rfl⟩
      | named h =>
        obtain ⟨token, rfl, ht⟩ := (forms_name.iff _ _).mp h
        refine ⟨token, rfl, ?_⟩
        cases token with
        | identifier name => cases ht; rfl
        | keyword k => simp [Token.asField, ht, Except.map]
        | _ => cases ht
    · rintro ⟨token, rfl, h⟩
      cases token with
      | operator op => cases op <;> cases h; exact .wildcard
      | identifier name => cases h; exact .named (.identifier name)
      | keyword k =>
        cases hk : (Token.keyword k).asName with
        | error e => simp [Token.asField, hk, Except.map] at h
        | ok name =>
          simp only [Token.asField, hk, Except.map, Except.ok.injEq] at h
          subst h
          exact .named ((forms_name.iff _ _).mpr ⟨_, rfl, hk⟩)
      | _ => cases h
  eof field h := by cases h

inductive CountForm : List Token → Binary64 → Prop
  | mk (count : Binary64) : CountForm [.number count] count

theorem forms_count : Forms Token.asCount CountForm where
  iff p count := by
    constructor
    · intro h
      cases h
      exact ⟨_, rfl, rfl⟩
    · rintro ⟨token, rfl, h⟩
      cases token with
      | number value => cases h; exact .mk _
      | _ => cases h
  eof count h := by cases h

theorem assignments_sound {tokens rest : List Token} {pairs : List (String × Literal)}
    (h : assignments tokens = (.ok pairs, rest)) :
    ∃ p, tokens = p ++ rest ∧ ListForm AssignmentForm p pairs ∧ rest.headD .eof ≠ .comma := by
  fun_induction assignments tokens generalizing pairs rest with
  | case1 => cases h
  | case2 => cases h
  | case3 column value name hn literal hl tail more =>
    rename_i ih
    obtain ⟨others, hm, rfl⟩ := map_cons_eq_ok h
    obtain ⟨p, rfl, hp, hr⟩ := ih hm
    have ha := AssignmentForm.mk ((forms_name.iff _ _).mpr ⟨column, rfl, hn⟩)
      ((forms_literal.iff _ _).mpr ⟨value, rfl, hl⟩)
    exact ⟨column :: .operator .equal :: value :: .comma :: p, rfl, .more ha hp, hr⟩
  | case4 column value name hn literal hl tail hc =>
    cases h
    have ha := AssignmentForm.mk ((forms_name.iff _ _).mpr ⟨column, rfl, hn⟩)
      ((forms_literal.iff _ _).mpr ⟨value, rfl, hl⟩)
    exact ⟨[column, .operator .equal, value], rfl, .one ha, headD_ne_comma hc⟩
  | case5 => cases h
  | case6 => cases h
  | case7 => cases h

theorem assignments_complete {p rest : List Token} {pairs : List (String × Literal)}
    (h : ListForm AssignmentForm p pairs) (hr : rest.headD .eof ≠ .comma) :
    assignments (p ++ rest) = (.ok pairs, rest) := by
  induction h with
  | one h =>
    obtain ⟨hc, hv⟩ := h
    obtain ⟨column, rfl, hn⟩ := (forms_name.iff _ _).mp hc
    obtain ⟨value, rfl, hl⟩ := (forms_literal.iff _ _).mp hv
    simp only [List.cons_append, List.nil_append, assignments, hn, hl]
    split
    · simp at hr
    · rfl
  | more h _ ih =>
    obtain ⟨hc, hv⟩ := h
    obtain ⟨column, rfl, hn⟩ := (forms_name.iff _ _).mp hc
    obtain ⟨value, rfl, hl⟩ := (forms_literal.iff _ _).mp hv
    simp [assignments, hn, hl, ih, Except.map]

theorem accepts_assignments (n : Nat) :
    (ofTokens assignments).Accepts n fun p pairs t =>
      ListForm AssignmentForm p pairs ∧ t ≠ .comma := by
  refine accepts_ofTokens fun tokens pairs rest => ?_
  constructor
  · exact assignments_sound
  · rintro ⟨p, rfl, hp, hr⟩
    exact assignments_complete hp hr

theorem accepts_name (n : Nat) : name.Accepts n fun p a _ => NameForm p a :=
  accepts_one n forms_name

theorem accepts_keyword (n : Nat) (k : Keyword) :
    (keyword k).Accepts n fun p _ _ => p = [.keyword k] :=
  accepts_expect n _ (by simp)

theorem accepts_condition (limit : Option Nat) (n : Nat) :
    (Condition.reader limit).Accepts n fun p c t =>
      ConditionForm .disjunction p c ∧ Within limit c.depth ∧ Nests limit n p ∧ t ∉ joining :=
  fun _ _ _ => reader_eq_ok

def whereContinuing : Option Condition → List Token
  | some _ => joining
  | none => [.keyword .WHERE]

theorem accepts_whereClause (limit : Option Nat) (n : Nat) :
    (whereClause limit).Accepts n fun p condition t =>
      WhereForm p condition ∧ (∀ c ∈ condition, Within limit c.depth) ∧ Nests limit n p ∧
        t ∉ whereContinuing condition := by
  refine accepts_peek_bind fun token => ?_
  split
  · have hs := (accepts_condition limit n).bind fun c => accepts_pure n (some c)
    refine (hs.advance (by simp)).congr fun p condition t hp => ?_
    constructor
    · rintro ⟨q, rfl, q, c, s, rfl, ⟨hc, hd, hn, ht⟩, rfl, rfl⟩
      rw [List.append_nil]
      exact ⟨.written hc, by simpa using hd, hn, ht⟩
    · rintro ⟨hw, hd, hn, ht⟩
      cases hw with
      | omitted => simp [whereContinuing, ← hp] at ht
      | @written q c hc =>
        exact ⟨q, rfl, q, c, [], by simp, ⟨hc, by simpa using hd, hn, ht⟩, rfl, rfl⟩
  · rename_i hw
    refine (accepts_pure n none).at fun p condition t hp => ?_
    constructor
    · rintro ⟨rfl, rfl⟩
      refine ⟨.omitted, by simp, fun _ _ => trivial, ?_⟩
      rintro ht
      exact hw (hp.symm.trans (List.mem_singleton.mp ht))
    · rintro ⟨hf, -⟩
      cases hf with
      | omitted => exact ⟨rfl, rfl⟩
      | written => exact absurd hp.symm hw

end Reader

end SqlShell
