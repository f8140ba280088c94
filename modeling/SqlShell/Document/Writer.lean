import SqlShell.Document.Basic

/-!
# Document text

Documents are written without blanks. In quoted text the quote, the backslash and the characters
below the space are escaped, and nothing else.
-/

set_option autoImplicit false

namespace SqlShell

def escape (c : Char) : List Char :=
  if c = '"' then ['\\', '"']
  else if c = '\\' then ['\\', '\\']
  else if c = '\x08' then ['\\', 'b']
  else if c = '\x0c' then ['\\', 'f']
  else if c = '\n' then ['\\', 'n']
  else if c = '\r' then ['\\', 'r']
  else if c = '\t' then ['\\', 't']
  else if c.toNat < 0x20 then
    ['\\', 'u', '0', '0', Nat.digitChar (c.toNat / 16), Nat.digitChar (c.toNat % 16)]
  else [c]

def quote (text : List Char) : List Char := '"' :: (text.flatMap escape ++ ['"'])

namespace Value

mutual

def write : Value → List Char
  | null => ['n', 'u', 'l', 'l']
  | number text => text
  | string text => quote text.toList
  | array items => '[' :: (writeItems items ++ [']'])
  | object entries => '{' :: (writeEntries entries ++ ['}'])

def writeItems : List Value → List Char
  | [] => []
  | [item] => item.write
  | item :: items => item.write ++ ',' :: writeItems items

def writeEntries : List (String × Value) → List Char
  | [] => []
  | [(key, value)] => quote key.toList ++ ':' :: value.write
  | (key, value) :: entries =>
    quote key.toList ++ ':' :: (value.write ++ ',' :: writeEntries entries)

end

def text (v : Value) : String := String.ofList v.write

end Value

end SqlShell
