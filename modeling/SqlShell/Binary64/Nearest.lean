import SqlShell.Binary64.Basic

/-!
# Rounding to the nearest magnitude

A positive rational lies between two neighbouring magnitudes. It rounds to the nearer one, and
half way between them to the one of even rank. From `2 ^ 1024 - 2 ^ 970` on there is no magnitude.
-/

set_option autoImplicit false

namespace SqlShell

def roundQuotient (num den : Nat) : Nat :=
  let below := num / den
  let left := num % den
  if 2 * left < den ∨ (2 * left = den ∧ below % 2 = 0) then below else below + 1

namespace Magnitude

/-- The magnitude nearest to `num / den`. In units of the last place, which is `2 ^ shift` units of
the least magnitude, the quotient has at most 53 bits; a carry into the next power of two moves to
the next exponent by itself, because ranks are consecutive. -/
def nearest? (num den : Nat) : Option Magnitude :=
  let scaled := num * Nat.pow 2 1074
  let shift := (scaled / den).log2 - 52
  let rank := shift * Nat.pow 2 52 + roundQuotient scaled (den * Nat.pow 2 shift)
  if h : rank < 2047 * Nat.pow 2 52 then some ⟨rank, h⟩ else none

def scale? (m : Magnitude) (factor : Nat) : Option Magnitude :=
  nearest? (m.units * factor) (Nat.pow 2 1074)

def plus? (m : Magnitude) (addend : Nat) : Option Magnitude :=
  nearest? (m.units + addend * Nat.pow 2 1074) (Nat.pow 2 1074)

def ofDigits? (radix : Nat) (digits : List Nat) : Option Magnitude :=
  digits.foldlM (fun m digit => (m.scale? radix).bind (·.plus? digit)) zero

end Magnitude

end SqlShell
