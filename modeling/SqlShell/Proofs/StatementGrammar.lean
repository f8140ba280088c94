import SqlShell.Proofs.ClauseGrammar

/-!
# Statements are read by their grammar

Inside a sentence the token after a part is fixed by the next part, so only the token after the last
part decides whether the sentence goes on. A cursor at the start of a token list reads exactly the
sentences that stand there.
-/

set_option autoImplicit false

namespace SqlShell

open Grammar Condition

namespace Reader

/-- The lists of an INSERT are not counted with the parentheses of conditions. -/
def NestsIn (limit : Option Nat) (n : Nat) (p : List Token) : Sentence → Prop
  | .insert _ _ _ => True
  | _ => Nests limit n p

def SentencePhrase (limit : Option Nat) (n : Nat) (p : List Token) (sentence : Sentence)
    (t : Token) : Prop :=
  SentenceForm p sentence ∧ (∀ c ∈ sentence.conditions, Within limit c.depth) ∧
    NestsIn limit n p sentence ∧ t ∉ sentence.continuing

/-- In front of the last part of a SELECT there is no parenthesis. -/
theorem nests_select {limit : Option Nat} {n : Nat} {p q : List Token} {fields : List Field}
    {table : String} (hf : ListForm FieldForm p fields) (ht : NameForm q table) (r : List Token) :
    Nests limit n (.keyword .SELECT :: (p ++ .keyword .FROM :: (q ++ r))) ↔ Nests limit n r := by
  have hp := flat_keyword .SELECT
    ((flat_list flat_field hf).append (flat_keyword .FROM (flat_name ht)))
  rw [← hp.nests_append r]
  simp

theorem accepts_select (limit : Option Nat) (n : Nat) :
    (select limit).Accepts n fun p s t => ∃ fields table clauses,
      SentencePhrase limit n p (.select fields table clauses) t ∧
        s = (Sentence.select fields table clauses).statement := by
  have hs := (accepts_keyword n .SELECT).bind fun _ =>
    (accepts_commaSeparated n forms_field).bind fun fields =>
    (accepts_keyword n .FROM).bind fun _ => (accepts_name n).bind fun table =>
    (accepts_clauses limit n).bind fun clauses =>
    accepts_pure n (Statement.select table fields clauses)
  refine hs.congr fun p s t => ?_
  constructor
  · rintro ⟨_, _, _, rfl, rfl, p, fields, _, rfl, ⟨hf, -⟩, _, _, _, rfl, rfl, q, table, _, rfl, ht,
      r, _, _, rfl, ⟨clauses, ⟨hc, hd, hn, he⟩, rfl⟩, rfl, rfl⟩
    simp only [List.append_nil, List.cons_append, List.nil_append]
    exact ⟨fields, table, clauses, ⟨.select hf ht hc, hd, (nests_select hf ht r).mpr hn, he⟩, rfl⟩
  · rintro ⟨fields, table, clauses, ⟨hf, hd, hn, he⟩, rfl⟩
    cases hf with
    | @select p q r _ _ _ hf ht hc =>
      exact ⟨[.keyword .SELECT], (), _, rfl, rfl, p, fields, _, rfl, ⟨hf, by simp⟩,
        [.keyword .FROM], (), _, rfl, rfl, q, table, r, rfl, ht, r, _, [], by simp,
        ⟨clauses, ⟨hc, hd, (nests_select hf ht r).mp hn, he⟩, rfl⟩, rfl, rfl⟩

theorem accepts_columns (n : Nat) :
    columns.Accepts n fun p columns t =>
      ColumnsForm p columns ∧ (p = [] → t ≠ .leftParen) := by
  refine accepts_peek_bind fun token => ?_
  split
  · refine ((accepts_closedList n forms_name).advance (by simp)).congr fun p columns t hp => ?_
    constructor
    · rintro ⟨_, rfl, q, rfl, hq⟩
      exact ⟨.listed hq, by simp⟩
    · rintro ⟨hc, ht⟩
      cases hc with
      | omitted => exact absurd hp (ht rfl)
      | @listed q _ hq => exact ⟨_, rfl, q, rfl, hq⟩
  · rename_i hl
    refine (accepts_pure n []).at fun p columns t hp => ?_
    constructor
    · rintro ⟨rfl, rfl⟩
      exact ⟨.omitted, fun _ h => hl (hp.symm.trans h)⟩
    · rintro ⟨hc, -⟩
      cases hc with
      | omitted => exact ⟨rfl, rfl⟩
      | listed => exact absurd hp.symm hl

theorem accepts_insert (limit : Option Nat) (n : Nat) :
    insert.Accepts n fun p s t => ∃ table columns values,
      SentencePhrase limit n p (.insert table columns values) t ∧
        s = (Sentence.insert table columns values).statement := by
  have hs := (accepts_keyword n .INSERT).bind fun _ => (accepts_keyword n .INTO).bind fun _ =>
    (accepts_name n).bind fun table => (accepts_columns n).bind fun columns =>
    (accepts_keyword n .VALUES).bind fun _ =>
    (accepts_expect n .leftParen (by simp)).bind fun _ =>
    (accepts_closedList n forms_literal).bind fun values =>
    accepts_pure n (Statement.insert table columns values)
  refine hs.congr fun p s t => ?_
  constructor
  · rintro ⟨_, _, _, rfl, rfl, _, _, _, rfl, rfl, p, table, _, rfl, ht, q, columns, _, rfl, ⟨hc, -⟩,
      _, _, _, rfl, rfl, _, _, _, rfl, rfl, _, values, _, rfl, ⟨r, rfl, hv⟩, rfl, rfl⟩
    simp only [List.append_nil, List.cons_append, List.nil_append]
    exact ⟨table, columns, values, ⟨.insert ht hc hv, by simp [Sentence.conditions], trivial,
      by simp [Sentence.continuing]⟩, rfl⟩
  · rintro ⟨table, columns, values, ⟨hf, -⟩, rfl⟩
    cases hf with
    | @insert p q r _ _ _ ht hc hv =>
      exact ⟨[.keyword .INSERT], (), _, rfl, rfl, [.keyword .INTO], (), _, rfl, rfl, p, table, _,
        rfl, ht, q, columns, _, rfl, ⟨hc, by simp⟩, [.keyword .VALUES], (), _, rfl, rfl,
        [.leftParen], (), _, rfl, rfl, r ++ [.rightParen], values, [], by simp, ⟨r, rfl, hv⟩,
        rfl, rfl⟩

theorem nests_update {limit : Option Nat} {n : Nat} {p q : List Token} {table : String}
    {pairs : List (String × Literal)} (ht : NameForm p table)
    (ha : ListForm AssignmentForm q pairs) (r : List Token) :
    Nests limit n (.keyword .UPDATE :: (p ++ .keyword .SET :: (q ++ r))) ↔ Nests limit n r := by
  have hp := flat_keyword .UPDATE
    ((flat_name ht).append (flat_keyword .SET (flat_list flat_assignment ha)))
  rw [← hp.nests_append r]
  simp

/-- An UPDATE without a condition also goes on with a comma. -/
theorem not_continuing_update {p : List Token} {condition : Option Condition} {t : Token}
    (h : WhereForm p condition) (table : String) (pairs : List (String × Literal)) :
    t ∉ (Sentence.update table pairs condition).continuing ↔
      p.headD t ≠ .comma ∧ t ∉ whereContinuing condition := by
  cases h with
  | omitted =>
    simp only [Sentence.continuing, whereContinuing, List.mem_cons, List.not_mem_nil, or_false,
      not_or, List.headD_nil]
    exact and_comm
  | written h => simp [Sentence.continuing, whereContinuing]

theorem accepts_update (limit : Option Nat) (n : Nat) :
    (update limit).Accepts n fun p s t => ∃ table pairs condition,
      SentencePhrase limit n p (.update table pairs condition) t ∧
        s = (Sentence.update table pairs condition).statement := by
  have hs := (accepts_keyword n .UPDATE).bind fun _ => (accepts_name n).bind fun table =>
    (accepts_keyword n .SET).bind fun _ => (accepts_assignments n).bind fun pairs =>
    (accepts_whereClause limit n).bind fun condition =>
    accepts_pure n (Statement.update table (Entries.ofPairs pairs) condition)
  refine hs.congr fun p s t => ?_
  simp only [Entries.ofPairs_eq_latest]
  constructor
  · rintro ⟨_, _, _, rfl, rfl, p, table, _, rfl, ht, _, _, _, rfl, rfl, q, pairs, _, rfl, ⟨ha, hc⟩,
      r, condition, _, rfl, ⟨hw, hd, hn, he⟩, rfl, rfl⟩
    simp only [List.append_nil, List.cons_append, List.nil_append] at hc he ⊢
    exact ⟨table, pairs, condition, ⟨.update ht ha hw, by simpa [Sentence.conditions] using hd,
      (nests_update ht ha r).mpr hn, (not_continuing_update hw table pairs).mpr ⟨hc, he⟩⟩, rfl⟩
  · rintro ⟨table, pairs, condition, ⟨hf, hd, hn, he⟩, rfl⟩
    cases hf with
    | @update p q r _ _ _ ht ha hw =>
      obtain ⟨hc, he⟩ := (not_continuing_update hw table pairs).mp he
      exact ⟨[.keyword .UPDATE], (), _, rfl, rfl, p, table, _, rfl, ht, [.keyword .SET], (), _, rfl,
        rfl, q, pairs, r, rfl, ⟨ha, hc⟩, r, condition, [], by simp,
        ⟨hw, by simpa [Sentence.conditions] using hd, (nests_update ht ha r).mp hn, he⟩, rfl, rfl⟩

theorem nests_delete {limit : Option Nat} {n : Nat} {p : List Token} {table : String}
    (ht : NameForm p table) (r : List Token) :
    Nests limit n (.keyword .DELETE :: .keyword .FROM :: (p ++ r)) ↔ Nests limit n r := by
  have hp := flat_keyword .DELETE (flat_keyword .FROM (flat_name ht))
  rw [← hp.nests_append r]
  simp

theorem accepts_delete (limit : Option Nat) (n : Nat) :
    (delete limit).Accepts n fun p s t => ∃ table condition,
      SentencePhrase limit n p (.delete table condition) t ∧
        s = (Sentence.delete table condition).statement := by
  have hs := (accepts_keyword n .DELETE).bind fun _ => (accepts_keyword n .FROM).bind fun _ =>
    (accepts_name n).bind fun table => (accepts_whereClause limit n).bind fun condition =>
    accepts_pure n (Statement.delete table condition)
  have hcont (table : String) (condition : Option Condition) :
      (Sentence.delete table condition).continuing = whereContinuing condition := by
    cases condition <;> rfl
  refine hs.congr fun p s t => ?_
  constructor
  · rintro ⟨_, _, _, rfl, rfl, _, _, _, rfl, rfl, p, table, _, rfl, ht, r, condition, _, rfl,
      ⟨hw, hd, hn, he⟩, rfl, rfl⟩
    simp only [List.append_nil, List.cons_append, List.nil_append]
    exact ⟨table, condition, ⟨.delete ht hw, by simpa [Sentence.conditions] using hd,
      (nests_delete ht r).mpr hn, by rw [hcont]; exact he⟩, rfl⟩
  · rintro ⟨table, condition, ⟨hf, hd, hn, he⟩, rfl⟩
    cases hf with
    | @delete p r _ _ ht hw =>
      rw [hcont] at he
      exact ⟨[.keyword .DELETE], (), _, rfl, rfl, [.keyword .FROM], (), _, rfl, rfl, p, table, r,
        rfl, ht, r, condition, [], by simp,
        ⟨hw, by simpa [Sentence.conditions] using hd, (nests_delete ht r).mp hn, he⟩, rfl, rfl⟩

def start : Sentence → Keyword
  | .select _ _ _ => .SELECT
  | .insert _ _ _ => .INSERT
  | .update _ _ _ => .UPDATE
  | .delete _ _ => .DELETE

theorem sentenceForm_head {p : List Token} {sentence : Sentence} {t token : Token}
    (h : SentenceForm p sentence) (hp : p.headD t = token) : token = .keyword (start sentence) := by
  rw [← hp]
  cases h <;> rfl

theorem accepts_statement (limit : Option Nat) (n : Nat) :
    (statement limit).Accepts n fun p s t =>
      ∃ sentence, SentencePhrase limit n p sentence t ∧ s = sentence.statement := by
  refine accepts_peek_bind fun token => ?_
  split
  · refine (accepts_select limit n).at fun p s t hp => ?_
    constructor
    · rintro ⟨fields, table, clauses, h, rfl⟩
      exact ⟨_, h, rfl⟩
    · rintro ⟨sentence, h, rfl⟩
      cases sentence with
      | select fields table clauses => exact ⟨fields, table, clauses, h, rfl⟩
      | _ => cases sentenceForm_head h.1 hp
  · refine (accepts_insert limit n).at fun p s t hp => ?_
    constructor
    · rintro ⟨table, columns, values, h, rfl⟩
      exact ⟨_, h, rfl⟩
    · rintro ⟨sentence, h, rfl⟩
      cases sentence with
      | insert table columns values => exact ⟨table, columns, values, h, rfl⟩
      | _ => cases sentenceForm_head h.1 hp
  · refine (accepts_update limit n).at fun p s t hp => ?_
    constructor
    · rintro ⟨table, pairs, condition, h, rfl⟩
      exact ⟨_, h, rfl⟩
    · rintro ⟨sentence, h, rfl⟩
      cases sentence with
      | update table pairs condition => exact ⟨table, pairs, condition, h, rfl⟩
      | _ => cases sentenceForm_head h.1 hp
  · refine (accepts_delete limit n).at fun p s t hp => ?_
    constructor
    · rintro ⟨table, condition, h, rfl⟩
      exact ⟨_, h, rfl⟩
    · rintro ⟨sentence, h, rfl⟩
      cases sentence with
      | delete table condition => exact ⟨table, condition, h, rfl⟩
      | _ => cases sentenceForm_head h.1 hp
  · rename_i hs hi hu hd
    refine (accepts_fail n _).at fun p s t hp => ?_
    constructor
    · exact False.elim
    · rintro ⟨sentence, h, rfl⟩
      have hk := sentenceForm_head h.1 hp
      cases sentence with
      | select => exact hs hk
      | insert => exact hi hk
      | update => exact hu hk
      | delete => exact hd hk

end Reader

namespace Cursor

theorem append_eof_eq {front p rest : List Token} (hp : .eof ∉ p)
    (h : front ++ [.eof] = p ++ rest) :
    ∃ r, front = p ++ r ∧ rest = r ++ [.eof] := by
  rcases List.append_eq_append_iff.mp h with ⟨r, rfl, hr⟩ | ⟨r, hf, hr⟩
  · cases r with
    | nil => exact ⟨[], by simp, hr.symm⟩
    | cons t r =>
      obtain ⟨rfl, _⟩ := List.cons.inj hr
      exact absurd (by simp) hp
  · exact ⟨r, hf, hr⟩

/-- The end of input that closes a token list is what a reader finds after the tokens anyway. -/
theorem ofTokens_rest_eq {tokens p : List Token} (hp : .eof ∉ p) (t : Token) :
    (∃ rest, (ofTokens tokens).rest = p ++ rest ∧ rest.headD .eof = t) ↔
      ∃ rest, tokens = p ++ rest ∧ rest.headD .eof = t := by
  unfold ofTokens
  split
  · exact Iff.rfl
  · constructor
    · rintro ⟨rest, h, rfl⟩
      obtain ⟨front, rfl, rfl⟩ := append_eof_eq hp h
      exact ⟨front, rfl, by cases front <;> rfl⟩
    · rintro ⟨rest, rfl, rfl⟩
      exact ⟨rest ++ [.eof], by simp, by cases rest <;> rfl⟩

theorem nestsWithin_insert {p : List Token} {table : String} {columns : List String}
    {values : List Literal} (h : SentenceForm p (.insert table columns values)) {bound : Nat}
    (hb : 0 < bound) : NestsWithin bound 0 p := by
  cases h with
  | @insert p q r _ _ _ ht hc hv =>
    have hr : NestsWithin bound 0 (.keyword .VALUES :: .leftParen :: (r ++ [.rightParen])) :=
      ⟨hb, ((flat_list flat_literal hv) bound 1 _).mpr trivial⟩
    refine (flat_name ht bound 0 _).mpr ?_
    cases hc with
    | omitted => exact hr
    | @listed q _ hq =>
      rw [List.cons_append, List.append_assoc]
      refine ⟨hb, ?_⟩
      exact ((flat_list flat_name hq) bound 1 _).mpr hr

theorem nestsIn_iff {p : List Token} {sentence : Sentence} (h : SentenceForm p sentence)
    {bound : Nat} (hb : 0 < bound) :
    Reader.NestsIn (some bound) 0 p sentence ↔ NestsWithin bound 0 p := by
  cases sentence with
  | insert table columns values => exact ⟨fun _ => nestsWithin_insert h hb, fun _ => trivial⟩
  | _ => exact nests_some

theorem readStatement_eq_ok {tokens : List Token} {s : Statement} {cursor : Cursor} :
    (ofTokens tokens).readStatement = (.ok s, cursor) ↔
      ∃ p rest, (ofTokens tokens).rest = p ++ rest ∧ cursor = ⟨rest, 0⟩ ∧
        ∃ sentence, SentenceForm p sentence ∧ sentence.statement = s ∧
          (∀ c ∈ sentence.conditions, c.depth ≤ 128) ∧ NestsWithin 128 0 p ∧
          rest.headD .eof ∉ sentence.continuing := by
  have hd (n : Nat) : Within (some depthLimit) n ↔ n ≤ 128 := by simp [Within, depthLimit]
  refine (Reader.accepts_statement (some depthLimit) 0 (ofTokens tokens).rest s cursor).trans ?_
  simp only [Reader.SentencePhrase, hd]
  constructor
  · rintro ⟨p, rest, hp, rfl, sentence, ⟨hs, hc, hn, ht⟩, rfl⟩
    exact ⟨p, rest, hp, rfl, sentence, hs, rfl, hc, (nestsIn_iff hs (by decide)).mp hn, ht⟩
  · rintro ⟨p, rest, hp, rfl, sentence, hs, rfl, hc, hn, ht⟩
    exact ⟨p, rest, hp, rfl, sentence, ⟨hs, hc, (nestsIn_iff hs (by decide)).mpr hn, ht⟩, rfl⟩

/-- A token list is read as a statement, up to some place in it, exactly when the tokens up to there
form a sentence for that statement, no condition in them is deeper than 128 and no parenthesis, and
the token after them does not go on with the sentence. -/
theorem readStatement_iff_sentence (tokens p : List Token) (s : Statement) :
    (∃ cursor, (ofTokens tokens).readStatement = (.ok s, cursor) ∧
        (ofTokens tokens).rest = p ++ cursor.rest) ↔
      ∃ sentence rest, tokens = p ++ rest ∧ SentenceForm p sentence ∧ sentence.statement = s ∧
        (∀ c ∈ sentence.conditions, c.depth ≤ 128) ∧ NestsWithin 128 0 p ∧
        rest.headD .eof ∉ sentence.continuing := by
  constructor
  · rintro ⟨cursor, h, hr⟩
    obtain ⟨p', rest, hp, rfl, sentence, hs, hm, hd, hn, ht⟩ := readStatement_eq_ok.mp h
    obtain rfl : p' = p := List.append_cancel_right (hp.symm.trans hr)
    obtain ⟨rest', hp', hr'⟩ :=
      (ofTokens_rest_eq (eof_notMem_sentence hs) _).mp ⟨rest, hp, rfl⟩
    exact ⟨sentence, rest', hp', hs, hm, hd, hn, hr' ▸ ht⟩
  · rintro ⟨sentence, rest, hp, hs, hm, hd, hn, ht⟩
    obtain ⟨rest', hp', hr'⟩ :=
      (ofTokens_rest_eq (eof_notMem_sentence hs) _).mpr ⟨rest, hp, rfl⟩
    exact ⟨⟨rest', 0⟩, readStatement_eq_ok.mpr
      ⟨p, rest', hp', rfl, sentence, hs, hm, hd, hn, hr' ▸ ht⟩, hp'⟩

end Cursor

end SqlShell
