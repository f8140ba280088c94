import SqlShell.Decimal.Reader
import SqlShell.Text.Blank

/-!
# Text that reads as a number

Blanks around it aside, such text is a decimal with an optional sign, or `0` and a radix mark with
digits of that radix. A decimal is rounded once; the digits of a radix build the number up from the
left and round at every step. Text whose number would be infinite does not read as one.
-/

set_option autoImplicit false

namespace SqlShell

def digitValue? (radix : Nat) (c : Char) : Option Nat :=
  let value? :=
    if '0' ≤ c ∧ c ≤ '9' then some (c.toNat - '0'.toNat)
    else if 'a' ≤ c ∧ c ≤ 'f' then some (c.toNat - 'a'.toNat + 10)
    else if 'A' ≤ c ∧ c ≤ 'F' then some (c.toNat - 'A'.toNat + 10)
    else none
  value?.filter (· < radix)

def radixOf? : Char → Option Nat
  | 'x' | 'X' => some 16
  | 'o' | 'O' => some 8
  | 'b' | 'B' => some 2
  | _ => none

def radixDigits? : List Char → Option (Nat × List Nat)
  | '0' :: mark :: digits => do
    let radix ← radixOf? mark
    let values ← digits.mapM (digitValue? radix)
    if values.isEmpty then none else some (radix, values)
  | _ => none

def signedDecimal? : List Char → Option (Bool × Decimal)
  | '+' :: text => (Decimal.ofUnsigned? text).map (false, ·)
  | '-' :: text => (Decimal.ofUnsigned? text).map (true, ·)
  | text => (Decimal.ofUnsigned? text).map (false, ·)

namespace Binary64

def ofTrimmed? (text : List Char) : Option Binary64 :=
  match signedDecimal? text with
  | some (negative, decimal) => decimal.magnitude?.map (.finite negative)
  | none =>
    match radixDigits? text with
    | some (radix, digits) => (Magnitude.ofDigits? radix digits).map (.finite false)
    | none => none

def ofText? (text : String) : Option Binary64 := ofTrimmed? (Text.trim text.toList)

end Binary64

end SqlShell
