import SqlShell.Command
import SqlShell.Statement.Reader
import SqlShell.Token.Scan

/-!
# From text to command

The text is scanned, its first statement read, and the statement turned into a command. The error of
the first stage that fails is reported.
-/

set_option autoImplicit false

namespace SqlShell

inductive ConversionError where
  | scan (error : ScanError)
  | parse (error : ParseError)
  | operator (error : UnsupportedOperator)
  deriving DecidableEq, Repr

def ConversionError.message : ConversionError → String
  | scan e => "lex error: " ++ e.message
  | parse e => "parse error: " ++ e.message
  | operator e => "generate error: " ++ e.message

def Statement.ofText (text : String) : Except ConversionError Statement := do
  let tokens ← (tokenize text).mapError .scan
  (Cursor.ofTokens tokens).readStatement.1.mapError .parse

structure Conversion where
  statement : Statement
  command : String

def convert (text : String) : Except ConversionError Conversion := do
  let statement ← Statement.ofText text
  let command ← statement.toCommand.mapError .operator
  return ⟨statement, command.text⟩

end SqlShell
