import SqlShell.Text.Ranges

/-!
# Blanks

The characters with the Unicode property `White_Space`. They separate tokens and are trimmed
from text that is read as a number.
-/

set_option autoImplicit false

namespace SqlShell.Text

def blanks : Ranges :=
  [ (0x9, 0xd), (0x20, 0x20), (0x85, 0x85), (0xa0, 0xa0), (0x1680, 0x1680), (0x2000, 0x200a),
    (0x2028, 0x2029), (0x202f, 0x202f), (0x205f, 0x205f), (0x3000, 0x3000)]

def isBlank (c : Char) : Bool := blanks.covers c.toNat

def trim (text : List Char) : List Char :=
  ((text.dropWhile isBlank).reverse.dropWhile isBlank).reverse

end SqlShell.Text
