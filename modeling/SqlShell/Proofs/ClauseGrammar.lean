import Mathlib.Data.List.Induction
import SqlShell.Proofs.PartGrammar

/-!
# The clauses of a SELECT

A clause ends where a token follows that does not go on with it, and the tokens that start a clause
never go on with another. The clauses read one after another leave the last one of each kind.
-/

set_option autoImplicit false

namespace SqlShell

open Grammar Condition

namespace Grammar

def WrittenClause.clause : WrittenClause → Clause
  | condition c => .condition c
  | order column direction => .order ⟨column, direction.getD .ascending⟩
  | limit count => .limit count

theorem getLast?_filterMap_concat {α β : Type} (f : α → Option β) (xs : List α) (x : α) :
    ((xs ++ [x]).filterMap f).getLast? = (f x).or (xs.filterMap f).getLast? := by
  cases h : f x <;> simp [h]

theorem lastClauses_concat (clauses : List WrittenClause) (clause : WrittenClause) :
    lastClauses (clauses ++ [clause]) = (lastClauses clauses).add clause.clause := by
  simp only [lastClauses, getLast?_filterMap_concat]
  cases clause <;> rfl

theorem lastClauses_eq_foldl (clauses : List WrittenClause) :
    lastClauses clauses = clauses.foldl (fun found w => found.add w.clause) .none := by
  induction clauses using List.reverseRecOn with
  | nil => rfl
  | append_singleton clauses clause ih =>
    rw [lastClauses_concat, List.foldl_append, ih]
    rfl

theorem forall_conditions_cons {P : Condition → Prop} (clause : WrittenClause)
    (clauses : List WrittenClause) :
    (∀ c ∈ (clause :: clauses).filterMap WrittenClause.condition?, P c) ↔
      (∀ c ∈ clause.condition?, P c) ∧ ∀ c ∈ clauses.filterMap WrittenClause.condition?, P c := by
  cases clause <;> simp [WrittenClause.condition?]

theorem clauseForm_head {p : List Token} {clause : WrittenClause} (h : ClauseForm p clause)
    (t : Token) : p.headD t ∈ clauseStarts := by
  cases h <;> simp [clauseStarts]

/-- A clause that starts does not go on with the one before it. -/
theorem not_continuing_of_start {clause : WrittenClause} {t : Token}
    (h : t ∈ clauseStarts) : t ∉ clause.continuing := by
  have hj : ∀ t ∈ clauseStarts, t ∉ joining := by decide
  have hd : ∀ t ∈ clauseStarts, t ∉ [Token.keyword .ASC, .keyword .DESC] := by decide
  cases clause with
  | condition c => exact hj t h
  | order column direction =>
    cases direction with
    | none => exact hd t h
    | some direction => simp [WrittenClause.continuing]
  | limit count => simp [WrittenClause.continuing]

end Grammar

namespace Reader

def ClausePhrase (limit : Option Nat) (n : Nat) (p : List Token) (clause : WrittenClause)
    (t : Token) : Prop :=
  ClauseForm p clause ∧ (∀ c ∈ clause.condition?, Within limit c.depth) ∧ Nests limit n p ∧
    t ∉ clause.continuing

theorem accepts_order (n : Nat) :
    order.Accepts n fun p o t => ∃ q s column direction, p = q ++ s ∧ NameForm q column ∧
      DirectionForm s direction ∧ o = ⟨column, direction.getD .ascending⟩ ∧
      t ∉ (WrittenClause.order column direction).continuing := by
  refine (@Accepts.bind _ _ n _ _ _ (fun column p o t => ∃ direction, DirectionForm p direction ∧
      o = ⟨column, direction.getD .ascending⟩ ∧
      t ∉ (WrittenClause.order column direction).continuing)
    (accepts_name n) fun column => ?_).congr fun p o t => ?_
  · refine accepts_peek_bind fun token => ?_
    split
    · refine ((accepts_pure n _).advance (by simp)).congr fun p o t hp => ?_
      constructor
      · rintro ⟨q, rfl, rfl, rfl⟩
        exact ⟨_, .ascending, rfl, by simp [WrittenClause.continuing]⟩
      · rintro ⟨direction, hd, rfl, ht⟩
        cases hd with
        | omitted => simp [WrittenClause.continuing, ← hp] at ht
        | ascending => exact ⟨[], rfl, rfl, rfl⟩
        | descending => cases hp
    · refine ((accepts_pure n _).advance (by simp)).congr fun p o t hp => ?_
      constructor
      · rintro ⟨q, rfl, rfl, rfl⟩
        exact ⟨_, .descending, rfl, by simp [WrittenClause.continuing]⟩
      · rintro ⟨direction, hd, rfl, ht⟩
        cases hd with
        | omitted => simp [WrittenClause.continuing, ← hp] at ht
        | ascending => cases hp
        | descending => exact ⟨[], rfl, rfl, rfl⟩
    · rename_i ha hd
      refine (accepts_pure n _).at fun p o t hp => ?_
      constructor
      · rintro ⟨rfl, rfl⟩
        have ht : t ≠ .keyword .ASC ∧ t ≠ .keyword .DESC :=
          ⟨fun h => ha (hp.symm.trans h), fun h => hd (hp.symm.trans h)⟩
        exact ⟨_, .omitted, rfl, by simp [WrittenClause.continuing, ht]⟩
      · rintro ⟨direction, hf, rfl, ht⟩
        cases hf with
        | omitted => exact ⟨rfl, rfl⟩
        | ascending => exact absurd hp.symm ha
        | descending => exact absurd hp.symm hd
  · constructor
    · rintro ⟨q, column, s, rfl, hq, direction, hs, rfl, ht⟩
      exact ⟨q, s, column, direction, rfl, hq, hs, rfl, ht⟩
    · rintro ⟨q, s, column, direction, rfl, hq, hs, rfl, ht⟩
      exact ⟨q, column, s, rfl, hq, direction, hs, rfl, ht⟩

def OptionalClause (limit : Option Nat) (n : Nat) (p : List Token) (found : Option Clause)
    (t : Token) : Prop :=
  match found with
  | some x => ∃ clause, ClausePhrase limit n p clause t ∧ x = clause.clause
  | none => p = [] ∧ t ∉ clauseStarts

theorem OptionalClause.not_start {limit : Option Nat} {n : Nat} {p : List Token} {t token : Token}
    (h : OptionalClause limit n p none t) (hp : p.headD t = token) : token ∉ clauseStarts := by
  obtain ⟨rfl, ht⟩ := h
  exact hp ▸ ht

theorem OptionalClause.start {limit : Option Nat} {n : Nat} {p : List Token} {x : Clause}
    {t token : Token} (h : OptionalClause limit n p (some x) t) (hp : p.headD t = token) :
    token = .keyword .WHERE ∨ token = .keyword .LIMIT ∨ token = .keyword .ORDER := by
  obtain ⟨clause, ⟨hf, -⟩, -⟩ := h
  subst hp
  cases hf <;> simp

/-- Where no clause starts nothing is found. -/
theorem optionalClause_of_not_start {limit : Option Nat} {n : Nat} {p : List Token}
    {found : Option Clause} {t token : Token} (ht : token ∉ clauseStarts)
    (hp : p.headD t = token) : OptionalClause limit n p found t ↔ p = [] ∧ found = none := by
  constructor
  · intro h
    cases found with
    | none => exact ⟨h.1, rfl⟩
    | some x =>
      refine absurd ?_ ht
      rcases h.start hp with rfl | rfl | rfl <;> decide
  · rintro ⟨rfl, rfl⟩
    exact ⟨rfl, fun h => ht (hp ▸ h)⟩

theorem accepts_clauseAt (limit : Option Nat) (n : Nat) (token : Token) :
    (clauseAt limit token).AcceptsAt n token (OptionalClause limit n) := by
  unfold clauseAt
  split
  · have hs := (accepts_condition limit n).bind fun c => accepts_pure n (some (Clause.condition c))
    refine (hs.advance (by simp)).congr fun p found t hp => ?_
    constructor
    · rintro ⟨q, rfl, q, c, s, rfl, ⟨hc, hd, hn, ht⟩, rfl, rfl⟩
      rw [List.append_nil]
      exact ⟨.condition c,
        ⟨.condition hc, by simpa [WrittenClause.condition?] using hd, hn, ht⟩, rfl⟩
    · intro h
      cases found with
      | none => exact absurd (by decide) (h.not_start hp)
      | some x =>
        obtain ⟨clause, ⟨hf, hd, hn, ht⟩, rfl⟩ := h
        cases hf with
        | @condition q c hc =>
          have hd : Within limit c.depth := hd c rfl
          exact ⟨q, rfl, q, c, [], by simp, ⟨hc, hd, hn, ht⟩, rfl, rfl⟩
        | order => cases hp
        | limit => cases hp
  · have hs := (accepts_one n forms_count).bind fun c => accepts_pure n (some (Clause.limit c))
    refine (hs.advance (by simp)).congr fun p found t hp => ?_
    constructor
    · rintro ⟨q, rfl, q, c, s, rfl, ⟨c⟩, rfl, rfl⟩
      exact ⟨.limit c, ⟨.limit c, by simp [WrittenClause.condition?], fun _ _ => trivial,
        by simp [WrittenClause.continuing]⟩, rfl⟩
    · intro h
      cases found with
      | none => exact absurd (by decide) (h.not_start hp)
      | some x =>
        obtain ⟨clause, ⟨hf, -⟩, rfl⟩ := h
        cases hf with
        | condition => cases hp
        | order => cases hp
        | limit count => exact ⟨_, rfl, _, count, [], rfl, .mk count, rfl, rfl⟩
  · have hs := (accepts_keyword n .BY).bind fun _ =>
      (accepts_order n).bind fun o => accepts_pure n (some (Clause.order o))
    refine (hs.advance (by simp)).congr fun p found t hp => ?_
    constructor
    · rintro ⟨q, rfl, q, _, s, rfl, rfl, q, o, s, rfl, ho, rfl, rfl⟩
      obtain ⟨q, r, column, direction, rfl, hq, hr, rfl, ht⟩ := ho
      simp only [List.append_nil, List.cons_append, List.nil_append]
      have hn := ((flat_name hq).append (flat_direction hr)).nests limit n
      exact ⟨.order column direction,
        ⟨.order hq hr, by simp [WrittenClause.condition?], hn, ht⟩, rfl⟩
    · intro h
      cases found with
      | none => exact absurd (by decide) (h.not_start hp)
      | some x =>
        obtain ⟨clause, ⟨hf, -, -, ht⟩, rfl⟩ := h
        cases hf with
        | condition => cases hp
        | @order q r column direction hq hr =>
          exact ⟨_, rfl, [.keyword .BY], (), q ++ r, rfl, rfl, q ++ r, _, [], by simp,
            ⟨q, r, column, direction, rfl, hq, hr, rfl, ht⟩, rfl, rfl⟩
        | limit => cases hp
  · rename_i k hw hl ho
    split
    · rename_i hk
      refine (accepts_fail n _).at fun p found t hp => ?_
      constructor
      · exact False.elim
      · intro h
        cases found with
        | none =>
          refine absurd ?_ (h.not_start hp)
          cases k <;> simp_all [clauseStarts, Keyword.isUnsupported]
        | some x =>
          rcases h.start hp with h | h | h <;> cases h
          · exact hw rfl
          · exact hl rfl
          · exact ho rfl
    · rename_i hk
      have hs : Token.keyword k ∉ clauseStarts := by
        cases k <;> simp_all [clauseStarts, Keyword.isUnsupported]
      refine (accepts_pure n none).at fun p found t hp => ?_
      rw [optionalClause_of_not_start hs hp]
  · rename_i hw hl ho hk
    have hs : token ∉ clauseStarts := by
      intro hm
      simp only [clauseStarts, List.mem_cons, List.not_mem_nil, or_false] at hm
      rcases hm with h | h | h | h | h | h <;> exact hk _ h
    refine (accepts_pure n none).at fun p found t hp => ?_
    rw [optionalClause_of_not_start hs hp]

theorem accepts_clause (limit : Option Nat) (n : Nat) :
    (clause limit).Accepts n (OptionalClause limit n) :=
  accepts_peek_bind (accepts_clauseAt limit n)

theorem clausesAfter_some {limit : Option Nat} {found : Clauses} {c c' : Cursor} {x : Clause}
    (h : clause limit c = (.ok (some x), c')) :
    clausesAfter limit found c = clausesAfter limit (found.add x) c' := by
  rw [clausesAfter]
  split
  · rename_i h'
    cases h.symm.trans h'
    rfl
  · rename_i h'
    cases h.symm.trans h'
  · rename_i h'
    cases h.symm.trans h'

theorem clausesAfter_none {limit : Option Nat} {found : Clauses} {c c' : Cursor}
    (h : clause limit c = (.ok none, c')) : clausesAfter limit found c = (.ok found, c') := by
  rw [clausesAfter]
  split
  · rename_i h'
    cases h.symm.trans h'
  · rename_i h'
    cases h.symm.trans h'
    rfl
  · rename_i h'
    cases h.symm.trans h'

theorem clausesAfter_error {limit : Option Nat} {found : Clauses} {c c' : Cursor} {e : ParseError}
    (h : clause limit c = (.error e, c')) : clausesAfter limit found c = (.error e, c') := by
  rw [clausesAfter]
  split
  · rename_i h'
    cases h.symm.trans h'
  · rename_i h'
    cases h.symm.trans h'
  · rename_i h'
    cases h.symm.trans h'
    rfl

def ClausesPhrase (limit : Option Nat) (n : Nat) (p : List Token) (clauses : List WrittenClause)
    (t : Token) : Prop :=
  ClausesForm p clauses ∧ (∀ c ∈ clauses.filterMap WrittenClause.condition?, Within limit c.depth) ∧
    Nests limit n p ∧ t ∉ clausesContinuing clauses

theorem not_continuing_cons {q : List Token} {clause : WrittenClause}
    {clauses : List WrittenClause} {t : Token} (hq : ClausesForm q clauses) :
    t ∉ clausesContinuing (clause :: clauses) ↔
      q.headD t ∉ clause.continuing ∧ t ∉ clausesContinuing clauses := by
  cases hq with
  | none =>
    simp only [clausesContinuing, List.getLast?_singleton, List.getLast?_nil, Option.map_some,
      Option.map_none, Option.getD_some, Option.getD_none, List.append_nil, List.mem_append,
      not_or, List.headD_nil]
    exact and_comm
  | @more p r next others h hr =>
    have hs : (p ++ r).headD t ∉ clause.continuing := by
      rw [headD_append]
      exact not_continuing_of_start (clauseForm_head h _)
    have hl : clausesContinuing (clause :: next :: others) =
        clausesContinuing (next :: others) := by
      simp [clausesContinuing, List.getLast?_cons_cons]
    rw [hl]
    exact ⟨fun ht => ⟨hs, ht⟩, fun ht => ht.2⟩

theorem clausesPhrase_cons {limit : Option Nat} {n : Nat} {p q : List Token}
    {clause : WrittenClause} {clauses : List WrittenClause} {t : Token} (hp : ClauseForm p clause)
    (hq : ClausesForm q clauses) :
    ClausesPhrase limit n (p ++ q) (clause :: clauses) t ↔
      ClausePhrase limit n p clause (q.headD t) ∧ ClausesPhrase limit n q clauses t := by
  have hn : Nests limit n (p ++ q) ↔ Nests limit n p ∧ Nests limit n q :=
    (balanced_clause hp).nests_append q
  simp only [ClausesPhrase, ClausePhrase, hn, forall_conditions_cons, not_continuing_cons hq, hp,
    hq, ClausesForm.more hp hq, true_and]
  tauto

theorem clausesAfter_sound {limit : Option Nat} {n : Nat} {found clauses : Clauses}
    {tokens : List Token} {cursor : Cursor}
    (h : clausesAfter limit found ⟨tokens, n⟩ = (.ok clauses, cursor)) :
    ∃ p rest written, tokens = p ++ rest ∧ cursor = ⟨rest, n⟩ ∧
      ClausesPhrase limit n p written (rest.headD .eof) ∧
      clauses = written.foldl (fun found w => found.add w.clause) found := by
  induction hl : tokens.length using Nat.strongRecOn generalizing found tokens with
  | ind size ih =>
    cases hc : clause limit ⟨tokens, n⟩ with
    | mk outcome c' =>
      cases outcome with
      | error e =>
        rw [clausesAfter_error hc] at h
        cases h
      | ok x =>
        obtain ⟨p, rest, rfl, rfl, ho⟩ := (accepts_clause limit n _ _ _).mp hc
        cases x with
        | none =>
          rw [clausesAfter_none hc] at h
          cases h
          obtain ⟨rfl, ht⟩ := ho
          refine ⟨[], rest, [], rfl, rfl, ⟨.none, by simp, fun _ _ => trivial, ?_⟩, rfl⟩
          simpa [clausesContinuing] using ht
        | some x =>
          rw [clausesAfter_some hc] at h
          obtain ⟨w, hp, rfl⟩ := ho
          have hlt : rest.length < size := by
            have hpos : 0 < p.length := by cases hp.1 <;> simp
            rw [List.length_append] at hl
            omega
          obtain ⟨q, rest, written, rfl, rfl, hq, rfl⟩ := ih rest.length hlt h rfl
          rw [headD_append] at hp
          exact ⟨p ++ q, rest, w :: written, by simp, rfl,
            (clausesPhrase_cons hp.1 hq.1).mpr ⟨hp, hq⟩, rfl⟩

theorem clausesAfter_complete {limit : Option Nat} {n : Nat} (found : Clauses)
    {p rest : List Token} {written : List WrittenClause}
    (h : ClausesPhrase limit n p written (rest.headD .eof)) :
    clausesAfter limit found ⟨p ++ rest, n⟩ =
      (.ok (written.foldl (fun found w => found.add w.clause) found), ⟨rest, n⟩) := by
  obtain ⟨hf, hr⟩ := h
  induction hf generalizing found with
  | none =>
    have hc := (accepts_clause limit n rest none ⟨rest, n⟩).mpr
      ⟨[], rest, rfl, rfl, rfl, by simpa [clausesContinuing] using hr.2.2⟩
    exact clausesAfter_none hc
  | @more p q w written hp hq ih =>
    obtain ⟨hw, hq'⟩ := (clausesPhrase_cons hp hq).mp ⟨.more hp hq, hr⟩
    rw [← headD_append] at hw
    have hc := (accepts_clause limit n (p ++ (q ++ rest)) (some w.clause) ⟨q ++ rest, n⟩).mpr
      ⟨p, q ++ rest, rfl, rfl, w, hw, rfl⟩
    rw [List.append_assoc, clausesAfter_some hc]
    exact ih (found.add w.clause) hq'.2

theorem accepts_clauses (limit : Option Nat) (n : Nat) :
    (clauses limit).Accepts n fun p found t =>
      ∃ written, ClausesPhrase limit n p written t ∧ found = lastClauses written := by
  intro tokens found cursor
  constructor
  · intro h
    obtain ⟨p, rest, written, rfl, rfl, hp, rfl⟩ := clausesAfter_sound h
    exact ⟨p, rest, rfl, rfl, written, hp, (lastClauses_eq_foldl written).symm⟩
  · rintro ⟨p, rest, rfl, rfl, written, hp, rfl⟩
    rw [lastClauses_eq_foldl]
    exact clausesAfter_complete .none hp

end Reader

end SqlShell
