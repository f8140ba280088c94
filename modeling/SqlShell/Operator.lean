/-!
# Operators

The comparisons, with two spellings of "not equal", and the arithmetic signs. Conditions have
comparisons only; the star also stands for all columns.
-/

set_option autoImplicit false

namespace SqlShell

inductive Operator where
  | equal | notEqual | lessGreater | greater | less | greaterEqual | lessEqual
  | plus | minus | star | slash
  deriving DecidableEq, Repr

namespace Operator

def all : List Operator :=
  [equal, notEqual, lessGreater, greater, less, greaterEqual, lessEqual, plus, minus, star, slash]

def symbol : Operator → String
  | equal => "="
  | notEqual => "!="
  | lessGreater => "<>"
  | greater => ">"
  | less => "<"
  | greaterEqual => ">="
  | lessEqual => "<="
  | plus => "+"
  | minus => "-"
  | star => "*"
  | slash => "/"

def isComparison : Operator → Bool
  | plus | minus | star | slash => false
  | _ => true

def ofPair? : Char → Char → Option Operator
  | '>', '=' => some greaterEqual
  | '<', '=' => some lessEqual
  | '!', '=' => some notEqual
  | '<', '>' => some lessGreater
  | _, _ => none

def ofChar? : Char → Option Operator
  | '=' => some equal
  | '<' => some less
  | '>' => some greater
  | '+' => some plus
  | '-' => some minus
  | '*' => some star
  | '/' => some slash
  | _ => none

end Operator

end SqlShell
