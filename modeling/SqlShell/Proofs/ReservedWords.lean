import SqlShell.Proofs.Rendering

/-!
# Reserved words after a statement

JOIN, ON and AS are reserved, and a SELECT that finds one of them in the place of a clause fails.
The other statements look for a WHERE alone: before a reserved word they end, and what stands behind
it is not read, a WHERE included.
-/

set_option autoImplicit false

namespace SqlShell

open Grammar Condition

namespace Reader

variable {limit : Option Nat} {n : Nat} {k : Keyword}

theorem start_of_unsupported (hk : k.isUnsupported = true) : .keyword k ∈ clauseStarts := by
  cases k <;> first | decide | cases hk

theorem clausesForm_head {p : List Token} {written : List WrittenClause}
    (h : ClausesForm p written) {t : Token} (ht : t ∈ clauseStarts) : p.headD t ∈ clauseStarts := by
  cases h with
  | none => exact ht
  | more h _ =>
    rw [headD_append]
    exact clauseForm_head h _

theorem clause_unsupported (hk : k.isUnsupported = true) (rest : List Token) :
    clause limit ⟨.keyword k :: rest, n⟩ = (.error (.unsupported k), ⟨.keyword k :: rest, n⟩) := by
  cases k <;> first | rfl | cases hk

/-- Clauses are read one by one up to the reserved word behind the last. -/
theorem clausesAfter_unsupported (hk : k.isUnsupported = true) {p : List Token}
    {written : List WrittenClause} (hf : ClausesForm p written)
    (hd : ∀ c ∈ written.filterMap WrittenClause.condition?, Within limit c.depth)
    (hn : Nests limit n p) (found : Clauses) (rest : List Token) :
    clausesAfter limit found ⟨p ++ .keyword k :: rest, n⟩ =
      (.error (.unsupported k), ⟨.keyword k :: rest, n⟩) := by
  induction hf generalizing found with
  | none => exact clausesAfter_error (clause_unsupported hk rest)
  | @more p q w written hp hq ih =>
    obtain ⟨hw, hd⟩ := (forall_conditions_cons w written).mp hd
    obtain ⟨hnp, hnq⟩ := ((balanced_clause hp).nests_append q).mp hn
    -- the next clause or the reserved word itself ends this clause
    have hs : (q ++ .keyword k :: rest).headD .eof ∈ clauseStarts := by
      rw [headD_append]
      exact clausesForm_head hq (start_of_unsupported hk)
    have hc := (accepts_clause limit n (p ++ (q ++ .keyword k :: rest)) (some w.clause) _).mpr
      ⟨p, q ++ .keyword k :: rest, rfl, rfl, w, ⟨hp, hw, hnp, not_continuing_of_start hs⟩, rfl⟩
    rw [List.append_assoc, clausesAfter_some hc]
    exact ih hd hnq (found.add w.clause)

theorem select_unsupported (hk : k.isUnsupported = true) {p q r : List Token} {fields : List Field}
    {table : String} {written : List WrittenClause} (hf : ListForm FieldForm p fields)
    (ht : NameForm q table) (hc : ClausesForm r written)
    (hd : ∀ c ∈ written.filterMap WrittenClause.condition?, Within limit c.depth)
    (hn : Nests limit n r) (rest : List Token) :
    select limit
        ⟨.keyword .SELECT :: (p ++ .keyword .FROM :: (q ++ (r ++ .keyword k :: rest))), n⟩ =
      (.error (.unsupported k), ⟨.keyword k :: rest, n⟩) := by
  have hselect := (accepts_keyword n .SELECT _ () _).mpr
    ⟨[.keyword .SELECT], p ++ .keyword .FROM :: (q ++ (r ++ .keyword k :: rest)), rfl, rfl, rfl⟩
  have hfields := (accepts_commaSeparated n forms_field _ fields _).mpr
    ⟨p, .keyword .FROM :: (q ++ (r ++ .keyword k :: rest)), rfl, rfl, hf, by simp⟩
  have hfrom := (accepts_keyword n .FROM _ () _).mpr
    ⟨[.keyword .FROM], q ++ (r ++ .keyword k :: rest), rfl, rfl, rfl⟩
  have htable := (accepts_name n _ table _).mpr ⟨q, r ++ .keyword k :: rest, rfl, rfl, ht⟩
  have hclauses := clausesAfter_unsupported hk hc hd hn .none rest
  rw [select]
  exact (bind_of_ok hselect).trans ((bind_of_ok hfields).trans ((bind_of_ok hfrom).trans
    ((bind_of_ok htable).trans (bind_of_error hclauses))))

end Reader

namespace Grammar

def Sentence.outcomeBefore (k : Keyword) : Sentence → Except ParseError Statement
  | select _ _ _ => .error (.unsupported k)
  | sentence => .ok sentence.statement

theorem Sentence.not_continuing_of_unsupported {k : Keyword} (hk : k.isUnsupported = true)
    {sentence : Sentence} (hs : ∀ fields table clauses, sentence ≠ .select fields table clauses) :
    .keyword k ∉ sentence.continuing := by
  have hw : k ≠ .WHERE ∧ k ≠ .AND ∧ k ≠ .OR := by cases k <;> first | decide | cases hk
  cases sentence with
  | select fields table clauses => exact absurd rfl (hs fields table clauses)
  | insert table columns values => simp [continuing]
  | update table assignments condition => cases condition <;> simp [continuing, joining, hw]
  | delete table condition => cases condition <;> simp [continuing, joining, hw]

end Grammar

namespace Cursor

theorem ofTokens_append (p : List Token) {q : List Token} (hq : q ≠ []) :
    ofTokens (p ++ q) = ⟨p ++ (ofTokens q).rest, 0⟩ := by
  have hl : (p ++ q).getLast? = q.getLast? := List.getLast?_append_of_ne_nil p hq
  unfold ofTokens
  rw [hl]
  split <;> simp

theorem ofTokens_cons (t : Token) (q : List Token) :
    ∃ rest, ofTokens (t :: q) = ⟨t :: rest, 0⟩ := by
  unfold ofTokens
  split
  · exact ⟨q, rfl⟩
  · exact ⟨q ++ [.eof], rfl⟩

theorem peek_ne_of_select {k : Keyword} (hk : k.isUnsupported = true) {tokens : List Token}
    {table : String} {fields : List Field} {clauses : Clauses} {cursor : Cursor}
    (h : (ofTokens tokens).readStatement = (.ok (.select table fields clauses), cursor)) :
    cursor.peek ≠ .keyword k := by
  obtain ⟨p, rest, _, rfl, sentence, _, hs, _, _, ht⟩ := readStatement_eq_ok.mp h
  cases sentence with
  | select fields' table' written =>
    intro hp
    apply ht
    rw [show rest.headD .eof = .keyword k from hp]
    exact List.mem_append_left _ (Reader.start_of_unsupported hk)
  | _ => cases hs

theorem readStatement_before_unsupported {k : Keyword} (hk : k.isUnsupported = true)
    {p : List Token} {sentence : Sentence} (hs : SentenceForm p sentence)
    (hd : ∀ c ∈ sentence.conditions, c.depth ≤ 128) (hn : NestsWithin 128 0 p)
    (rest : List Token) :
    (ofTokens (p ++ .keyword k :: rest)).readStatement =
      (sentence.outcomeBefore k, ofTokens (.keyword k :: rest)) := by
  obtain ⟨rest', hr⟩ := ofTokens_cons (.keyword k) rest
  have ho : ofTokens (p ++ .keyword k :: rest) = ⟨p ++ .keyword k :: rest', 0⟩ := by
    rw [ofTokens_append p (by simp), hr]
  rw [hr]
  cases sentence with
  | select fields table written =>
    cases hs with
    | @select p q r _ _ _ hf ht hc =>
      have hw : ∀ c ∈ written.filterMap WrittenClause.condition?,
          Within (some depthLimit) c.depth :=
        fun c hm bound hb => Option.some.inj hb ▸ hd c hm
      have hq : Nests (some depthLimit) 0 r := (Reader.nests_select hf ht r).mp (nests_some.mpr hn)
      have hread := Reader.select_unsupported hk hf ht hc hw hq rest'
      rw [ho]
      simp only [List.cons_append, List.append_assoc]
      exact hread
  | _ =>
    exact readStatement_eq_ok.mpr ⟨p, .keyword k :: rest', by rw [ho], rfl, _, hs, rfl, hd, hn,
      Sentence.not_continuing_of_unsupported hk (by simp)⟩

/-- A SELECT that is read does not stop at a reserved word: behind its table or one of its clauses
the word is an error. Every other sentence is read as if the word and what follows were not there.
-/
theorem readStatement_at_reserved_word {k : Keyword} (hk : k ∈ [Keyword.JOIN, .ON, .AS]) :
    (∀ tokens table fields clauses cursor,
        (ofTokens tokens).readStatement = (.ok (.select table fields clauses), cursor) →
          cursor.peek ≠ .keyword k) ∧
      ∀ p rest sentence, SentenceForm p sentence →
        (∀ c ∈ sentence.conditions, c.depth ≤ 128) → NestsWithin 128 0 p →
        (ofTokens (p ++ .keyword k :: rest)).readStatement =
          (sentence.outcomeBefore k, ofTokens (.keyword k :: rest)) := by
  have hu : k.isUnsupported = true := by
    simp only [List.mem_cons, List.not_mem_nil, or_false] at hk
    rcases hk with rfl | rfl | rfl <;> rfl
  constructor
  · intro tokens table fields clauses cursor h
    exact peek_ne_of_select hu h
  · intro p rest sentence hs hd hn
    exact readStatement_before_unsupported hu hs hd hn rest

/-- With an alias behind its table a DELETE is read without its condition. -/
theorem readStatement_at_alias :
    Keyword.AS ∈ [Keyword.JOIN, .ON, .AS] ∧
      SentenceForm [.keyword .DELETE, .keyword .FROM, .identifier "t"] (.delete "t" none) ∧
      (ofTokens [.keyword .DELETE, .keyword .FROM, .identifier "t", .keyword .AS, .identifier "x",
          .keyword .WHERE, .identifier "a", .operator .equal, .string "b"]).readStatement =
        (.ok (.delete "t" none), ofTokens [.keyword .AS, .identifier "x", .keyword .WHERE,
          .identifier "a", .operator .equal, .string "b"]) := by
  have hs : SentenceForm [.keyword .DELETE, .keyword .FROM, .identifier "t"] (.delete "t" none) :=
    .delete (.identifier "t") .omitted
  exact ⟨by decide, hs, (readStatement_at_reserved_word (by decide)).2 _ _ _ hs
    (by simp [Sentence.conditions]) trivial⟩

/-- Reserved words do not always stop a statement: with an alias a DELETE of some documents becomes
one of all. -/
theorem delete_alias_deletes_all :
    (convert "DELETE FROM t AS x WHERE a = 'b'").map Conversion.command =
        .ok "db.t.deleteMany(\x7b\x7d);" ∧
      ¬∀ tokens s cursor, (ofTokens tokens).readStatement = (.ok s, cursor) →
        (∀ table columns values, s ≠ .insert table columns values) →
          ∀ k ∈ [Keyword.JOIN, .ON, .AS], cursor.peek ≠ .keyword k := by
  refine ⟨by decide +kernel, fun h => ?_⟩
  have hread : (ofTokens [.keyword .DELETE, .keyword .FROM, .identifier "t",
      .keyword .AS]).readStatement = (.ok (.delete "t" none), ⟨[.keyword .AS, .eof], 0⟩) := by
    decide +kernel
  exact h _ _ _ hread (by simp) .AS (by decide) rfl

end Cursor

end SqlShell
