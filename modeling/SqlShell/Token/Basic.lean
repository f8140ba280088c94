import SqlShell.Decimal.Layout
import SqlShell.Keyword
import SqlShell.Operator

/-!
# Tokens

The words of a statement, and how a message names them.
-/

set_option autoImplicit false

namespace SqlShell

inductive Token where
  | keyword (keyword : Keyword)
  | identifier (name : String)
  | string (text : String)
  | number (value : Binary64)
  | operator (operator : Operator)
  | comma
  | leftParen
  | rightParen
  | semicolon
  | eof
  deriving DecidableEq, Repr

namespace Token

def numberFormat : NumberFormat where
  isPositional _ := true
  whole := []
  plus := []

def numberText : Binary64 → String
  | .finite negative m =>
    String.ofList ((if negative then ['-'] else []) ++ numberFormat.write m)
  | .infinite negative => if negative then "-inf" else "inf"
  | .nan => "NaN"

def description : Token → String
  | keyword k => "keyword " ++ k.name
  | identifier name => "identifier '" ++ name ++ "'"
  | string text => "string \"" ++ text ++ "\""
  | number value => "number " ++ numberText value
  | operator op => "operator '" ++ op.symbol ++ "'"
  | comma => "','"
  | leftParen => "'('"
  | rightParen => "')'"
  | semicolon => "';'"
  | eof => "end of input"

end Token

end SqlShell
