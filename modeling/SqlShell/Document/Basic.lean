import SqlShell.Binary64.Reader
import SqlShell.Condition.Basic
import SqlShell.Decimal.Layout
import SqlShell.Entries

/-!
# Documents

The JSON values of filters and documents. A number is kept as the text it is written with. A literal
becomes a number whenever its text reads as one, also when it was quoted.
-/

set_option autoImplicit false

namespace SqlShell

inductive Value where
  | null
  | number (text : List Char)
  | string (text : String)
  | array (items : List Value)
  | object (entries : List (String × Value))
  deriving Repr

namespace Value

def numberFormat : NumberFormat where
  isPositional point := -6 < point && point ≤ 21
  whole := []
  plus := ['+']

def ofNumber : Binary64 → Value
  | .finite negative m =>
    .number ((if negative && m.rank != 0 then ['-'] else []) ++ numberFormat.write m)
  | .infinite _ => .null
  | .nan => .null

def ofText (text : String) : Value :=
  match Binary64.ofText? text with
  | some n => ofNumber n
  | none => .string text

end Value

def Literal.toValue : Literal → Value
  | number n => .ofNumber n
  | string text => .ofText text
  | identifier name => .ofText name

end SqlShell
