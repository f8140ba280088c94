import SqlShell.Document.Basic

/-!
# Filters

A condition as a query filter. Equality is the bare value and every other comparison an object with
one operator; AND and OR hold their two sides in an array.
-/

set_option autoImplicit false

namespace SqlShell

structure UnsupportedOperator where
  operator : Operator
  deriving DecidableEq, Repr

def UnsupportedOperator.message (e : UnsupportedOperator) : String :=
  "unsupported operator '" ++ e.operator.symbol ++ "' in condition"

def Operator.criterion (op : Operator) (value : Value) : Except UnsupportedOperator Value :=
  match op with
  | equal => .ok value
  | notEqual | lessGreater => .ok (.object [("$ne", value)])
  | greater => .ok (.object [("$gt", value)])
  | less => .ok (.object [("$lt", value)])
  | greaterEqual => .ok (.object [("$gte", value)])
  | lessEqual => .ok (.object [("$lte", value)])
  | plus | minus | star | slash => .error ⟨op⟩

def Condition.filter : Condition → Except UnsupportedOperator Value
  | comparison column op value => do
    let criterion ← op.criterion value.toValue
    return .object [(column, criterion)]
  | and left right => do
    let left ← left.filter
    let right ← right.filter
    return .object [("$and", .array [left, right])]
  | or left right => do
    let left ← left.filter
    let right ← right.filter
    return .object [("$or", .array [left, right])]

def filterOf : Option Condition → Except UnsupportedOperator Value
  | some condition => condition.filter
  | none => .ok (.object [])

end SqlShell
