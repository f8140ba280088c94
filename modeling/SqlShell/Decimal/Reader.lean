import SqlShell.Decimal.Basic

/-!
# Reading decimals

A fixed decimal has digits with at most one point before, among or after them. A decimal is a fixed
decimal that a signed power of ten may follow. Digits are the ASCII digits.
-/

set_option autoImplicit false

namespace SqlShell

namespace Decimal

def natural? (text : List Char) : Option Nat :=
  if text ≠ [] ∧ text.all Char.isDigit then some (Nat.ofDigitChars 10 text 0) else none

def integer? : List Char → Option Int
  | '+' :: digits => (natural? digits).map Int.ofNat
  | '-' :: digits => (natural? digits).map fun n => -Int.ofNat n
  | digits => (natural? digits).map Int.ofNat

def ofFixed? (text : List Char) : Option Decimal :=
  let whole := text.takeWhile Char.isDigit
  match text.dropWhile Char.isDigit with
  | [] => (natural? whole).map (⟨·, 0⟩)
  | '.' :: fraction =>
    if fraction.all Char.isDigit then
      (natural? (whole ++ fraction)).map (⟨·, -fraction.length⟩)
    else none
  | _ => none

def isPowerMark (c : Char) : Bool := c == 'e' || c == 'E'

def ofUnsigned? (text : List Char) : Option Decimal :=
  match text.dropWhile (!isPowerMark ·) with
  | [] => ofFixed? text
  | _ :: power => do
    let fixed ← ofFixed? (text.takeWhile (!isPowerMark ·))
    let shift ← integer? power
    return ⟨fixed.coefficient, fixed.exponent + shift⟩

end Decimal

end SqlShell
