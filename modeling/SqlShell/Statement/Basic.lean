import SqlShell.Condition.Basic
import SqlShell.Entries

/-!
# Statements

The four statements, each on one table.
-/

set_option autoImplicit false

namespace SqlShell

inductive Field where
  | wildcard
  | named (column : String)
  deriving DecidableEq, Repr

inductive Direction where
  | ascending
  | descending
  deriving DecidableEq, Repr

structure Order where
  column : String
  direction : Direction
  deriving DecidableEq, Repr

structure Clauses where
  condition : Option Condition
  order : Option Order
  limit : Option Binary64
  deriving DecidableEq, Repr

def Clauses.none : Clauses := ⟨.none, .none, .none⟩

inductive Statement where
  | select (table : String) (fields : List Field) (clauses : Clauses)
  | insert (table : String) (columns : List String) (values : List Literal)
  | update (table : String) (assignments : Entries Literal) (condition : Option Condition)
  | delete (table : String) (condition : Option Condition)
  deriving DecidableEq, Repr

end SqlShell
