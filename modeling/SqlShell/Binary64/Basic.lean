/-!
# Binary floating point numbers

Numbers have the 64-bit binary format of IEEE 754. A finite number is a sign and a magnitude, so
zero has two signs. All arithmetic on them is exact arithmetic on natural numbers followed by one
rounding.
-/

set_option autoImplicit false

namespace SqlShell

/-- A finite magnitude, by its rank in ascending order: zero has rank zero and the next larger
magnitude has the next rank. The low 52 bits of the rank are the fraction and the bits above them
the exponent field. -/
structure Magnitude where
  rank : Nat
  rank_lt : rank < 2047 * Nat.pow 2 52
  deriving DecidableEq, Repr

namespace Magnitude

def zero : Magnitude := ⟨0, by decide⟩

def units (m : Magnitude) : Nat :=
  if m.rank < Nat.pow 2 52 then m.rank
  else (Nat.pow 2 52 + m.rank % Nat.pow 2 52) * Nat.pow 2 (m.rank / Nat.pow 2 52 - 1)

end Magnitude

inductive Binary64 where
  | finite (negative : Bool) (magnitude : Magnitude)
  | infinite (negative : Bool)
  | nan
  deriving DecidableEq, Repr

namespace Binary64

def ofBits (bits : UInt64) : Binary64 :=
  let negative := Nat.pow 2 63 ≤ bits.toNat
  let rank := bits.toNat % Nat.pow 2 63
  if h : rank < 2047 * Nat.pow 2 52 then .finite negative ⟨rank, h⟩
  else if rank = 2047 * Nat.pow 2 52 then .infinite negative
  else .nan

def signBit (negative : Bool) : Nat := if negative then Nat.pow 2 63 else 0

def toBits : Binary64 → UInt64
  | .finite negative m => .ofNat (signBit negative + m.rank)
  | .infinite negative => .ofNat (signBit negative + 2047 * Nat.pow 2 52)
  | .nan => .ofNat (2047 * Nat.pow 2 52 + Nat.pow 2 51)

end Binary64

end SqlShell
