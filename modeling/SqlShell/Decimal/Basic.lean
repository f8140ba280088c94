import SqlShell.Binary64.Nearest

/-!
# Decimals

A decimal is a natural number times a power of ten. Its exponent may be any integer, so a decimal
far out of range is rounded without writing its power of ten down.
-/

set_option autoImplicit false

namespace SqlShell

structure Decimal where
  coefficient : Nat
  exponent : Int
  deriving DecidableEq, Repr

namespace Decimal

/-- The nearest magnitude. A positive coefficient with an exponent above 400 is too large; one with
at most `b` bits and an exponent below `-(b + 1075) / 3` is less than half the least magnitude,
since ten exceeds `2 ^ 3`. -/
def magnitude? (d : Decimal) : Option Magnitude :=
  match d.exponent with
  | .ofNat e =>
    if d.coefficient = 0 then some .zero
    else if 400 < e then none
    else Magnitude.nearest? (d.coefficient * Nat.pow 10 e) 1
  | .negSucc e =>
    if d.coefficient.log2 + 1076 < 3 * (e + 1) then some .zero
    else Magnitude.nearest? d.coefficient (Nat.pow 10 (e + 1))

end Decimal

def Binary64.ofDecimal (negative : Bool) (d : Decimal) : Binary64 :=
  match d.magnitude? with
  | some m => .finite negative m
  | none => .infinite negative

end SqlShell
