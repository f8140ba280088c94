import SqlShell.Decimal.Layout
import SqlShell.Outline
import SqlShell.Statement.Basic
import SqlShell.Text.Quoted

/-!
# Outlines of statements

A statement with all its parts by name.
-/

set_option autoImplicit false

namespace SqlShell
open Outline

def Outline.numberFormat : NumberFormat where
  isPositional point := -4 < point && point ≤ 16
  whole := ['.', '0']
  plus := []

def Binary64.outline : Binary64 → Outline
  | finite negative m =>
    leaf (String.ofList ((if negative then ['-'] else []) ++ Outline.numberFormat.write m))
  | infinite negative => leaf (if negative then "-inf" else "inf")
  | nan => leaf "NaN"

def textOutline (text : String) : Outline := leaf (Text.quoted text)

def Literal.outline : Literal → Outline
  | number n => wrap "Number" n.outline
  | string text => wrap "String" (textOutline text)
  | identifier name => wrap "Identifier" (textOutline name)

def Operator.label : Operator → String
  | equal => "Equal"
  | notEqual => "NotEqual"
  | lessGreater => "LessGreater"
  | greater => "GreaterThan"
  | less => "LessThan"
  | greaterEqual => "GreaterEqual"
  | lessEqual => "LessEqual"
  | plus => "Plus"
  | minus => "Minus"
  | star => "Star"
  | slash => "Slash"

def Condition.outline : Condition → Outline
  | comparison column op value =>
    record "Comparison"
      [("column", textOutline column), ("op", leaf op.label), ("value", value.outline)]
  | and left right => record "And" [("left", left.outline), ("right", right.outline)]
  | or left right => record "Or" [("left", left.outline), ("right", right.outline)]

def Field.outline : Field → Outline
  | wildcard => leaf "Wildcard"
  | named column => wrap "Named" (textOutline column)

def Direction.label : Direction → String
  | ascending => "Asc"
  | descending => "Desc"

def Order.outline (o : Order) : Outline :=
  record "OrderBy" [("column", textOutline o.column), ("direction", leaf o.direction.label)]

def Statement.outline : Statement → Outline
  | select table fields clauses =>
    record "Select"
      [("table", textOutline table),
        ("fields", list (fields.map Field.outline)),
        ("where_clause", optional (clauses.condition.map Condition.outline)),
        ("order_by", optional (clauses.order.map Order.outline)),
        ("limit", optional (clauses.limit.map Binary64.outline))]
  | insert table columns values =>
    record "Insert"
      [("table", textOutline table),
        ("columns", list (columns.map textOutline)),
        ("values", list (values.map Literal.outline))]
  | update table assignments condition =>
    record "Update"
      [("table", textOutline table),
        ("assignments", Outline.table
          (assignments.map fun (column, value) => (Text.quoted column, value.outline))),
        ("where_clause", optional (condition.map Condition.outline))]
  | delete table condition =>
    record "Delete"
      [("table", textOutline table),
        ("where_clause", optional (condition.map Condition.outline))]

end SqlShell
