import SqlShell.Text.Hidden

/-!
# Quoted text

Text between quotes, with a backslash before what would not show: the quote and the backslash
themselves, four controls by a letter, and every other hidden character by its code point.
-/

set_option autoImplicit false

namespace SqlShell.Text

def escapeHidden (c : Char) : List Char :=
  if c = '\x00' then ['\\', '0']
  else if c = '\t' then ['\\', 't']
  else if c = '\r' then ['\\', 'r']
  else if c = '\n' then ['\\', 'n']
  else if c = '\\' then ['\\', '\\']
  else if c = '"' then ['\\', '"']
  else if isHidden c then "\\u\x7b".toList ++ Nat.toDigits 16 c.toNat ++ "\x7d".toList
  else [c]

def quoted (text : String) : String :=
  String.ofList ('"' :: (text.toList.flatMap escapeHidden ++ ['"']))

end SqlShell.Text
