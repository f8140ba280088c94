import SqlShell.Condition.Basic
import SqlShell.Token.Basic

/-!
# Cursors in token lists

A cursor is a place in a token list and the number of parentheses left open before it. A reader
takes tokens from the cursor and leaves it where it stopped, also when it fails, so a later reader
can go on from there. The end of input is never passed.
-/

set_option autoImplicit false

namespace SqlShell

inductive Expectation where
  | statement
  | name
  | literal
  | field
  | limitNumber
  | listEnd
  | column
  | comparison
  | token (token : Token)
  deriving DecidableEq, Repr

def Expectation.text : Expectation → String
  | statement => "SELECT, INSERT, UPDATE or DELETE"
  | name => "identifier"
  | literal => "string, number or identifier"
  | field => "'*' or column name in select list"
  | limitNumber => "number after LIMIT"
  | listEnd => "',' or ')'"
  | column => "column name in condition"
  | comparison => "comparison operator"
  | token t => t.description

inductive ParseError where
  | unexpected (expected : Expectation) (found : Token)
  | unsupported (keyword : Keyword)
  | tooDeep (limit : Nat)
  deriving DecidableEq, Repr

def ParseError.message : ParseError → String
  | unexpected expected found => "expected " ++ expected.text ++ ", found " ++ found.description
  | unsupported keyword => keyword.name ++ " is reserved but not supported"
  | tooDeep limit => "condition nests deeper than " ++ toString limit ++ " levels"

structure Cursor where
  rest : List Token
  nesting : Nat
  deriving DecidableEq, Repr

namespace Cursor

def ofTokens (tokens : List Token) : Cursor :=
  ⟨if tokens.getLast? = some .eof then tokens else tokens ++ [.eof], 0⟩

def peek (c : Cursor) : Token := c.rest.headD .eof

def advance (c : Cursor) : Cursor :=
  if c.peek = .eof then c else { c with rest := c.rest.tail }

end Cursor

def Reader (α : Type) := Cursor → Except ParseError α × Cursor

namespace Reader

variable {α β : Type}

def fail (e : ParseError) : Reader α := fun c => (.error e, c)

protected def pure (a : α) : Reader α := fun c => (.ok a, c)

protected def bind (r : Reader α) (next : α → Reader β) : Reader β := fun c =>
  match r c with
  | (.ok a, c) => next a c
  | (.error e, c) => (.error e, c)

instance : Monad Reader where
  pure := Reader.pure
  bind := Reader.bind

def peek : Reader Token := fun c => (.ok c.peek, c)

def advance : Reader Unit := fun c => (.ok (), c.advance)

def expect (token : Token) : Reader Unit := do
  let found ← peek
  if found = token then advance else fail (.unexpected (.token token) found)

def one (form : Token → Except ParseError α) : Reader α := do
  match form (← peek) with
  | .ok a => do
    advance
    return a
  | .error e => fail e

def ofTokens (read : List Token → Except ParseError α × List Token) : Reader α := fun c =>
  let taken := read c.rest
  (taken.1, { c with rest := taken.2 })

def NonGrowing (r : Reader α) : Prop := ∀ c : Cursor, (r c).2.rest.length ≤ c.rest.length

theorem bind_nonGrowing {r : Reader α} {next : α → Reader β} (hr : r.NonGrowing)
    (hn : ∀ a, (next a).NonGrowing) : (r >>= next).NonGrowing := by
  intro c
  have h := hr c
  change (Reader.bind r next c).2.rest.length ≤ _
  unfold Reader.bind
  split
  · rename_i a c' hc
    rw [hc] at h
    exact Nat.le_trans (hn a c') h
  · rename_i e c' hc
    rw [hc] at h
    exact h

theorem pure_nonGrowing (a : α) : (pure a : Reader α).NonGrowing := fun _ => Nat.le_refl _

theorem fail_nonGrowing (e : ParseError) : (fail e : Reader α).NonGrowing := fun _ => Nat.le_refl _

theorem peek_nonGrowing : peek.NonGrowing := fun _ => Nat.le_refl _

theorem advance_nonGrowing : advance.NonGrowing := by
  intro c
  simp only [advance, Cursor.advance]
  split
  · exact Nat.le_refl _
  · simp

theorem advance_length {c : Cursor} (h : c.peek ≠ .eof) :
    c.advance.rest.length < c.rest.length := by
  cases hr : c.rest with
  | nil => simp [Cursor.peek, hr] at h
  | cons token rest => simp [Cursor.advance, h, hr]

theorem advance_bind_length {next : Reader α} (hn : next.NonGrowing) {c : Cursor}
    (h : c.peek ≠ .eof) :
    ((advance >>= fun _ => next) c).2.rest.length < c.rest.length :=
  Nat.lt_of_le_of_lt (hn c.advance) (advance_length h)

theorem expect_nonGrowing (token : Token) : (expect token).NonGrowing := by
  refine bind_nonGrowing peek_nonGrowing fun found => ?_
  split
  · exact advance_nonGrowing
  · exact fail_nonGrowing _

theorem one_nonGrowing (form : Token → Except ParseError α) : (one form).NonGrowing := by
  refine bind_nonGrowing peek_nonGrowing fun found => ?_
  split
  · exact bind_nonGrowing advance_nonGrowing fun _ => pure_nonGrowing _
  · exact fail_nonGrowing _

end Reader

namespace Token

def asName : Token → Except ParseError String
  | identifier name => .ok name
  | keyword k => if k.isUnsupported then .error (.unsupported k) else .ok k.asName
  | found => .error (.unexpected .name found)

def asLiteral : Token → Except ParseError Literal
  | number value => .ok (.number value)
  | string text => .ok (.string text)
  | identifier name => .ok (.identifier name)
  | found => .error (.unexpected .literal found)

end Token

def commaSeparated {α : Type} (item : Token → Except ParseError α) :
    List Token → Except ParseError (List α) × List Token
  | [] => ((item .eof).map ([·]), [])
  | token :: rest =>
    match item token with
    | .error e => (.error e, token :: rest)
    | .ok a =>
      match rest with
      | .comma :: rest =>
        let more := commaSeparated item rest
        (more.1.map (a :: ·), more.2)
      | rest => (.ok [a], rest)

end SqlShell
