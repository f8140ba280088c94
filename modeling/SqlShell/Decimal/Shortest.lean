import SqlShell.Decimal.Basic

/-!
# Shortest digits

Of the decimals that round to a magnitude, the shortest has the fewest digits. For one digit, two
digits and so on the magnitude's two neighbours on that decimal grid are tried; the first grid with
a neighbour that rounds back wins, of two the nearer one, and half way the upper one.
-/

set_option autoImplicit false

namespace SqlShell

namespace Magnitude

def inPowersOfTen (m : Magnitude) : Int → Nat × Nat
  | .ofNat e => (m.units, Nat.pow 2 1074 * Nat.pow 10 e)
  | .negSucc e => (m.units * Nat.pow 10 (e + 1), Nat.pow 2 1074)

def neighbour? (m : Magnitude) (exponent : Int) : Option Decimal :=
  let (num, den) := m.inPowersOfTen exponent
  let lower : Decimal := ⟨num / den, exponent⟩
  let upper : Decimal := ⟨num / den + 1, exponent⟩
  if lower.magnitude? = some m then
    if upper.magnitude? = some m ∧ den ≤ 2 * (num % den) then some upper else some lower
  else if upper.magnitude? = some m then some upper
  else none

/-- How many digits a positive magnitude has before the decimal point, or for a magnitude below a
tenth minus the zeros after it. The least magnitude is above `10 ^ (-324)`. -/
def wholeDigits (m : Magnitude) : Int :=
  (Nat.toDigits 10 (m.units * Nat.pow 10 324 / Nat.pow 2 1074)).length - 324

/-- The magnitude itself, since `2 ^ (-1074)` is `5 ^ 1074 * 10 ^ (-1074)`. -/
def expansion (m : Magnitude) : Decimal := ⟨m.units * Nat.pow 5 1074, -1074⟩

def shortest (m : Magnitude) : Decimal :=
  let whole := m.wholeDigits
  ((List.range 17).findSome? fun (n : Nat) => m.neighbour? (whole - (n + 1))).getD m.expansion

end Magnitude

end SqlShell
