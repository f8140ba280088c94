import SqlShell.Proofs.Rendering
import SqlShell.Proofs.ReservedWords

/-!
# The order of clauses

The clauses of a SELECT are read wherever they stand, and of each kind the last one counts. So two
lists of clauses are read alike when their last conditions, orders and limits are the same, whatever
else is written between them.
-/

set_option autoImplicit false

namespace SqlShell

open Grammar Condition

namespace Grammar

structure Readable (clause : List Token × WrittenClause) : Prop where
  form : ClauseForm clause.1 clause.2
  depth : ∀ c ∈ clause.2.condition?, c.depth ≤ 128
  nesting : NestsWithin 128 0 clause.1

def selectTokens (fields table : List Token) (clauses : List (List Token × WrittenClause)) :
    List Token :=
  .keyword .SELECT :: (fields ++ .keyword .FROM :: (table ++ clauses.flatMap Prod.fst))

theorem clausesForm_flatMap {clauses : List (List Token × WrittenClause)}
    (h : ∀ clause ∈ clauses, Readable clause) :
    ClausesForm (clauses.flatMap Prod.fst) (clauses.map Prod.snd) := by
  induction clauses with
  | nil => exact .none
  | cons clause clauses ih =>
    obtain ⟨hc, hs⟩ := List.forall_mem_cons.mp h
    exact .more hc.form (ih hs)

/-- Every clause closes its parentheses, so each starts with none open. -/
theorem nestsWithin_flatMap {clauses : List (List Token × WrittenClause)}
    (h : ∀ clause ∈ clauses, Readable clause) : NestsWithin 128 0 (clauses.flatMap Prod.fst) := by
  induction clauses with
  | nil => trivial
  | cons clause clauses ih =>
    obtain ⟨hc, hs⟩ := List.forall_mem_cons.mp h
    rw [List.flatMap_cons, balanced_clause hc.form]
    exact ⟨hc.nesting, ih hs⟩

theorem depth_of_readable {clauses : List (List Token × WrittenClause)}
    (h : ∀ clause ∈ clauses, Readable clause) :
    ∀ c ∈ (clauses.map Prod.snd).filterMap WrittenClause.condition?, c.depth ≤ 128 := by
  intro c hc
  obtain ⟨_, hw, hcond⟩ := List.mem_filterMap.mp hc
  obtain ⟨clause, hm, rfl⟩ := List.mem_map.mp hw
  exact (h clause hm).depth c hcond

/-- The last clauses have comparisons only, so they have a command. -/
theorem toCommand_lastClauses {clauses : List (List Token × WrittenClause)}
    (h : ∀ clause ∈ clauses, Readable clause) (table : String) (fields : List Field) :
    ∃ command, (Statement.select table fields (lastClauses (clauses.map Prod.snd))).toCommand =
      .ok command := by
  have hfilter : ∃ filter,
      filterOf (lastClauses (clauses.map Prod.snd)).condition = .ok filter := by
    cases hl : (lastClauses (clauses.map Prod.snd)).condition with
    | none => exact ⟨_, rfl⟩
    | some c =>
      obtain ⟨_, hw, hcond⟩ := mem_of_getLast?_filterMap (f := WrittenClause.condition?) hl
      obtain ⟨⟨p, written⟩, hm, rfl⟩ := List.mem_map.mp hw
      have hform := (h _ hm).form
      cases hform with
      | condition hc =>
        cases hcond
        exact filter_ok_of_form hc
      | order hc hd => cases hcond
      | limit count => cases hcond
  obtain ⟨filter, hf⟩ := hfilter
  exact ⟨_, by rw [Statement.toCommand, hf]; rfl⟩

end Grammar

namespace Cursor

/-- What follows a sentence is left as a token list of its own. -/
theorem ofTokens_append_of_eof_notMem {p : List Token} (hp : .eof ∉ p) (rest : List Token) :
    ofTokens (p ++ rest) = ⟨p ++ (ofTokens rest).rest, 0⟩ := by
  by_cases hr : rest = []
  · subst hr
    have hl : p.getLast? ≠ some .eof := fun h => hp (List.mem_of_getLast? h)
    simp [ofTokens, hl]
  · exact ofTokens_append p hr

theorem headD_ofTokens (rest : List Token) : (ofTokens rest).rest.headD .eof = rest.headD .eof := by
  unfold ofTokens
  split
  · rfl
  · cases rest <;> rfl

theorem readStatement_select {p q rest : List Token} {fields : List Field} {table : String}
    (hf : ListForm FieldForm p fields) (ht : NameForm q table)
    {clauses : List (List Token × WrittenClause)} (hc : ∀ clause ∈ clauses, Readable clause)
    (hr : rest.headD .eof = .eof ∨ rest.headD .eof = .semicolon) :
    (ofTokens (selectTokens p q clauses ++ rest)).readStatement =
      (.ok (.select table fields (lastClauses (clauses.map Prod.snd))), ofTokens rest) := by
  have hs : SentenceForm (selectTokens p q clauses) (.select fields table (clauses.map Prod.snd)) :=
    .select hf ht (clausesForm_flatMap hc)
  have hn : NestsWithin 128 0 (selectTokens p q clauses) :=
    nests_some.mp ((Reader.nests_select hf ht _).mpr (nests_some.mpr (nestsWithin_flatMap hc)))
  have hend : (ofTokens rest).rest.headD .eof ∉
      (Sentence.select fields table (clauses.map Prod.snd)).continuing := by
    have he : Token.eof ∉ continuations := by decide
    have hsemi : Token.semicolon ∉ continuations := by decide
    rw [headD_ofTokens]
    intro hm
    have hm := Sentence.continuing_subset _ hm
    rcases hr with hr | hr
    · exact he (hr ▸ hm)
    · exact hsemi (hr ▸ hm)
  have ho : ofTokens rest = ⟨(ofTokens rest).rest, 0⟩ := rfl
  rw [ho]
  refine readStatement_eq_ok.mpr ⟨_, _, ?_, rfl, _, hs, rfl, depth_of_readable hc, hn, hend⟩
  rw [ofTokens_append_of_eof_notMem (eof_notMem_sentence hs)]

/-- A SELECT whose clauses end the input or precede a semicolon is read with the last condition,
the last order and the last limit among them. So clauses that agree in these make one statement with
one command, in any order and whatever they override. -/
theorem readStatement_last_clauses {p q : List Token} {fields : List Field} {table : String}
    (hf : ListForm FieldForm p fields) (ht : NameForm q table) :
    (∀ clauses rest, (∀ clause ∈ clauses, Readable clause) →
        rest.headD .eof = .eof ∨ rest.headD .eof = .semicolon →
      (ofTokens (selectTokens p q clauses ++ rest)).readStatement =
        (.ok (.select table fields
          ⟨((clauses.map Prod.snd).filterMap WrittenClause.condition?).getLast?,
            ((clauses.map Prod.snd).filterMap WrittenClause.order?).getLast?,
            ((clauses.map Prod.snd).filterMap WrittenClause.limit?).getLast?⟩), ofTokens rest)) ∧
    ∀ clauses others rest rest', (∀ clause ∈ clauses, Readable clause) →
        (∀ clause ∈ others, Readable clause) →
        rest.headD .eof = .eof ∨ rest.headD .eof = .semicolon →
        rest'.headD .eof = .eof ∨ rest'.headD .eof = .semicolon →
        lastClauses (clauses.map Prod.snd) = lastClauses (others.map Prod.snd) →
      ∃ s command, (ofTokens (selectTokens p q clauses ++ rest)).readStatement.1 = .ok s ∧
        (ofTokens (selectTokens p q others ++ rest')).readStatement.1 = .ok s ∧
        s.toCommand = .ok command := by
  constructor
  · intro clauses rest hc hr
    exact readStatement_select hf ht hc hr
  · intro clauses others rest rest' hc ho hr hr' hl
    obtain ⟨command, hcommand⟩ := toCommand_lastClauses hc table fields
    refine ⟨_, command, ?_, ?_, hcommand⟩
    · rw [readStatement_select hf ht hc hr]
    · rw [readStatement_select hf ht ho hr', ← hl]

/-- A keyword is ordered by, with and without a direction, among clauses that others override. -/
theorem readStatement_two_orders_of_clauses :
    ∃ s command,
      (ofTokens [.keyword .SELECT, .operator .star, .keyword .FROM, .identifier "t",
        .keyword .WHERE, .identifier "a", .operator .equal, .string "x",
        .keyword .ORDER, .keyword .BY, .keyword .LIMIT,
        .keyword .LIMIT, .number (.infinite false),
        .keyword .WHERE, .identifier "b", .operator .lessGreater, .identifier "c",
        .semicolon]).readStatement.1 = .ok s ∧
      (ofTokens [.keyword .SELECT, .operator .star, .keyword .FROM, .identifier "t",
        .keyword .LIMIT, .number (.finite false .zero),
        .keyword .WHERE, .identifier "b", .operator .lessGreater, .identifier "c",
        .keyword .LIMIT, .number (.infinite false),
        .keyword .ORDER, .keyword .BY, .keyword .LIMIT, .keyword .ASC]).readStatement.1 = .ok s ∧
      s.toCommand = .ok command := by
  have hf : ListForm FieldForm [.operator .star] [.wildcard] := .one .wildcard
  have ht : NameForm [.identifier "t"] "t" := .identifier "t"
  have hfirst : Readable ([.keyword .WHERE, .identifier "a", .operator .equal, .string "x"], _) :=
    ⟨.condition (.conjunction (.operand (.comparison "a" .equal rfl (.string "x")))), by decide,
      trivial⟩
  have hlast : Readable ([.keyword .WHERE, .identifier "b", .operator .lessGreater,
      .identifier "c"], _) :=
    ⟨.condition (.conjunction (.operand (.comparison "b" .lessGreater rfl (.identifier "c")))),
      by decide, trivial⟩
  have horder : Readable ([.keyword .ORDER, .keyword .BY, .keyword .LIMIT], _) :=
    ⟨.order (.keyword .LIMIT (by decide)) .omitted, by decide, trivial⟩
  have hascending : Readable ([.keyword .ORDER, .keyword .BY, .keyword .LIMIT, .keyword .ASC], _) :=
    ⟨.order (.keyword .LIMIT (by decide)) .ascending, by decide, trivial⟩
  have hlimit (n : Binary64) : Readable ([.keyword .LIMIT, .number n], .limit n) :=
    ⟨.limit n, by simp [WrittenClause.condition?], trivial⟩
  refine (readStatement_last_clauses hf ht).2 [_, _, _, _] [_, _, _, _] [.semicolon] []
    (List.forall_mem_cons.mpr ⟨hfirst, List.forall_mem_cons.mpr ⟨horder, List.forall_mem_cons.mpr
      ⟨hlimit (.infinite false), List.forall_mem_singleton.mpr hlast⟩⟩⟩)
    (List.forall_mem_cons.mpr ⟨hlimit (.finite false .zero), List.forall_mem_cons.mpr
      ⟨hlast, List.forall_mem_cons.mpr ⟨hlimit (.infinite false),
        List.forall_mem_singleton.mpr hascending⟩⟩⟩) ?_ ?_ ?_
  · exact Or.inr rfl
  · exact Or.inl rfl
  · rfl

end Cursor

end SqlShell
