import SqlShell.Binary64.Basic
import SqlShell.Operator

/-!
# Literals and conditions

A literal remembers how it was written. A condition compares columns with literals, joined by
AND and OR; chains lean to the left.
-/

set_option autoImplicit false

namespace SqlShell

inductive Literal where
  | number (value : Binary64)
  | string (text : String)
  | identifier (name : String)
  deriving DecidableEq, Repr

inductive Condition where
  | comparison (column : String) (operator : Operator) (value : Literal)
  | and (left right : Condition)
  | or (left right : Condition)
  deriving DecidableEq, Repr

def Condition.depth : Condition → Nat
  | comparison _ _ _ => 1
  | and left right => max left.depth right.depth + 1
  | or left right => max left.depth right.depth + 1

end SqlShell
