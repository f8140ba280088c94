import SqlShell.Decimal.Shortest

/-!
# Layouts of numbers

A spelling is a run of digits and the place of the decimal point in it. It is written positionally,
or with one digit before the point and a power of ten; a format says which, and the small marks
that formats differ in.
-/

set_option autoImplicit false

namespace SqlShell

/-- Digits with the place of the point: before the first digit at zero, after it at one, and so on
to both sides. -/
structure Spelling where
  digits : List Char
  point : Int
  deriving DecidableEq, Repr

namespace Spelling

def zeros (count : Nat) : List Char := List.replicate count '0'

def positional (s : Spelling) : List Char :=
  if s.point ≤ 0 then '0' :: '.' :: (zeros (-s.point).toNat ++ s.digits)
  else
    let whole := s.point.toNat
    if s.digits.length ≤ whole then s.digits ++ zeros (whole - s.digits.length)
    else s.digits.take whole ++ '.' :: s.digits.drop whole

def isWhole (s : Spelling) : Bool := s.digits.length ≤ s.point

def scientific (s : Spelling) (plus : List Char) : List Char :=
  let power := s.point - 1
  let sign := if power < 0 then ['-'] else plus
  let fraction := s.digits.drop 1
  s.digits.take 1 ++ (if fraction.isEmpty then [] else '.' :: fraction) ++
    'e' :: (sign ++ Nat.toDigits 10 power.natAbs)

end Spelling

def Decimal.spelling (d : Decimal) : Spelling :=
  let digits := Nat.toDigits 10 d.coefficient
  ⟨(digits.reverse.dropWhile (· == '0')).reverse, digits.length + d.exponent⟩

def Magnitude.spelling (m : Magnitude) : Spelling :=
  if m.rank = 0 then ⟨['0'], 1⟩ else m.shortest.spelling

/-- How magnitudes are written: for which places of the point positionally, what follows a whole
number there, and the sign of a power of ten that is not negative. -/
structure NumberFormat where
  isPositional : Int → Bool
  whole : List Char
  plus : List Char

def NumberFormat.write (format : NumberFormat) (m : Magnitude) : List Char :=
  let s := m.spelling
  if format.isPositional s.point then
    s.positional ++ (if s.isWhole then format.whole else [])
  else s.scientific format.plus

end SqlShell
