import SqlShell.Condition.Reader
import SqlShell.Statement.Basic

/-!
# Reading statements

The first statement at a cursor is read; tokens after it are left alone. The clauses of a SELECT
stand in any order, and of clauses of one kind the last counts.
-/

set_option autoImplicit false

namespace SqlShell

inductive Clause where
  | condition (condition : Condition)
  | order (order : Order)
  | limit (count : Binary64)
  deriving DecidableEq, Repr

def Clauses.add (clauses : Clauses) : Clause → Clauses
  | .condition condition => { clauses with condition := some condition }
  | .order order => { clauses with order := some order }
  | .limit count => { clauses with limit := some count }

def Token.asField : Token → Except ParseError Field
  | operator .star => .ok .wildcard
  | identifier name => .ok (.named name)
  | keyword k => (asName (keyword k)).map .named
  | found => .error (.unexpected .field found)

def Token.asCount : Token → Except ParseError Binary64
  | number value => .ok value
  | found => .error (.unexpected .limitNumber found)

namespace Reader

def keyword (k : Keyword) : Reader Unit := expect (.keyword k)

def name : Reader String := one Token.asName

def closedList {α : Type} (item : Token → Except ParseError α) : Reader (List α) := do
  let items ← ofTokens (commaSeparated item)
  match ← peek with
  | .rightParen => do
    advance
    return items
  | found => fail (.unexpected .listEnd found)

def order : Reader Order := do
  let column ← name
  match ← peek with
  | .keyword .ASC => do
    advance
    return ⟨column, .ascending⟩
  | .keyword .DESC => do
    advance
    return ⟨column, .descending⟩
  | _ => return ⟨column, .ascending⟩

def clauseAt (limit : Option Nat) : Token → Reader (Option Clause)
  | .keyword .WHERE => do
    advance
    let condition ← Condition.reader limit
    return some (.condition condition)
  | .keyword .LIMIT => do
    advance
    let count ← one Token.asCount
    return some (.limit count)
  | .keyword .ORDER => do
    advance
    keyword .BY
    let order ← order
    return some (.order order)
  | .keyword k => if k.isUnsupported then fail (.unsupported k) else return none
  | _ => return none

def clause (limit : Option Nat) : Reader (Option Clause) := do
  clauseAt limit (← peek)

theorem name_nonGrowing : name.NonGrowing := one_nonGrowing _

theorem order_nonGrowing : order.NonGrowing := by
  refine bind_nonGrowing name_nonGrowing fun column => bind_nonGrowing peek_nonGrowing fun _ => ?_
  split
  · exact bind_nonGrowing advance_nonGrowing fun _ => pure_nonGrowing _
  · exact bind_nonGrowing advance_nonGrowing fun _ => pure_nonGrowing _
  · exact pure_nonGrowing _

def Takes {α : Type} (r : Reader (Option α)) (c : Cursor) : Prop :=
  ∀ a, (r c).1 = .ok (some a) → (r c).2.rest.length < c.rest.length

theorem takes_of_advance {α : Type} {next : Reader (Option α)} (hn : next.NonGrowing) {c : Cursor}
    (h : c.peek ≠ .eof) : (advance >>= fun _ => next).Takes c :=
  fun _ _ => advance_bind_length hn h

theorem clauseAt_takes (limit : Option Nat) {token : Token} {c : Cursor} (h : c.peek = token) :
    (clauseAt limit token).Takes c := by
  unfold clauseAt
  split
  · refine takes_of_advance (bind_nonGrowing ?_ fun _ => pure_nonGrowing _) (by simp [h])
    exact Condition.reader_nonGrowing limit
  · refine takes_of_advance (bind_nonGrowing ?_ fun _ => pure_nonGrowing _) (by simp [h])
    exact one_nonGrowing _
  · refine takes_of_advance (bind_nonGrowing (expect_nonGrowing _) fun _ => ?_) (by simp [h])
    exact bind_nonGrowing order_nonGrowing fun _ => pure_nonGrowing _
  · split <;> intro _ he <;> cases he
  · intro _ he
    cases he

theorem clause_takes (limit : Option Nat) (c : Cursor) : (clause limit).Takes c :=
  clauseAt_takes limit (c := c) rfl

def clausesAfter (limit : Option Nat) (found : Clauses) (c : Cursor) :
    Except ParseError Clauses × Cursor :=
  match h : clause limit c with
  | (.ok (some x), c') =>
    have : c'.rest.length < c.rest.length := by
      have := clause_takes limit c x (by rw [h])
      rwa [h] at this
    clausesAfter limit (found.add x) c'
  | (.ok none, c') => (.ok found, c')
  | (.error e, c') => (.error e, c')
termination_by c.rest.length

def clauses (limit : Option Nat) : Reader Clauses := clausesAfter limit .none

def assignments : List Token → Except ParseError (List (String × Literal)) × List Token
  | column :: .operator .equal :: value :: rest =>
    match column.asName with
    | .error e => (.error e, column :: .operator .equal :: value :: rest)
    | .ok name =>
      match value.asLiteral with
      | .error e => (.error e, value :: rest)
      | .ok literal =>
        match rest with
        | .comma :: rest =>
          let more := assignments rest
          (more.1.map ((name, literal) :: ·), more.2)
        | rest => (.ok [(name, literal)], rest)
  | rest =>
    match (rest.headD .eof).asName with
    | .error e => (.error e, rest)
    | .ok _ =>
      match rest.tail with
      | .operator .equal :: rest => (.error (.unexpected .literal (rest.headD .eof)), rest)
      | rest => (.error (.unexpected (.token (.operator .equal)) (rest.headD .eof)), rest)

def whereClause (limit : Option Nat) : Reader (Option Condition) := do
  match ← peek with
  | .keyword .WHERE => do
    advance
    let condition ← Condition.reader limit
    return some condition
  | _ => return none

def select (limit : Option Nat) : Reader Statement := do
  keyword .SELECT
  let fields ← ofTokens (commaSeparated Token.asField)
  keyword .FROM
  let table ← name
  let clauses ← clauses limit
  return .select table fields clauses

def columns : Reader (List String) := do
  match ← peek with
  | .leftParen => do
    advance
    closedList Token.asName
  | _ => return []

def insert : Reader Statement := do
  keyword .INSERT
  keyword .INTO
  let table ← name
  let columns ← columns
  keyword .VALUES
  expect .leftParen
  let values ← closedList Token.asLiteral
  return .insert table columns values

def update (limit : Option Nat) : Reader Statement := do
  keyword .UPDATE
  let table ← name
  keyword .SET
  let pairs ← ofTokens assignments
  let condition ← whereClause limit
  return .update table (Entries.ofPairs pairs) condition

def delete (limit : Option Nat) : Reader Statement := do
  keyword .DELETE
  keyword .FROM
  let table ← name
  let condition ← whereClause limit
  return .delete table condition

def statement (limit : Option Nat) : Reader Statement := do
  match ← peek with
  | .keyword .SELECT => select limit
  | .keyword .INSERT => insert
  | .keyword .UPDATE => update limit
  | .keyword .DELETE => delete limit
  | found => fail (.unexpected .statement found)

end Reader

namespace Cursor

def readStatement (c : Cursor) : Except ParseError Statement × Cursor :=
  Reader.statement (some depthLimit) c

def readCondition (c : Cursor) : Except ParseError Condition × Cursor :=
  Condition.reader (some depthLimit) c

end Cursor

end SqlShell
