/-!
# Sets of characters

A set of characters is an ascending list of closed intervals of code points. Looking a
character up stops at the first interval that begins after it.
-/

set_option autoImplicit false

namespace SqlShell.Text

abbrev Ranges := List (Nat × Nat)

def Ranges.covers : Ranges → Nat → Bool
  | [], _ => false
  | (first, last) :: rest, code =>
    if code < first then false else code ≤ last || Ranges.covers rest code

end SqlShell.Text
