import SqlShell.Proofs.Numerals

/-!
# Spellings of whole numbers

A whole number can be spelled in decimal digits or in digits of a radix. The decimal spelling reads
as the nearest number. The others read as the number nearest to the digits that are kept, which is
another one exactly where these are half way between two numbers and more digits follow.
-/

set_option autoImplicit false

namespace SqlShell

open Magnitude

theorem ofText?_toString (n : ℕ) :
    ∃ result, RoundsTo n result ∧
      Binary64.ofText? (toString n) = result.map (Binary64.finite false) := by
  rw [Nat.toString_eq_ofList_toDigits]
  exact ofText?_of_decimal (decimalForm_toDigits n)

theorem map_finite_inj {result other : Option Magnitude} :
    result.map (Binary64.finite false) = other.map (Binary64.finite false) ↔ result = other :=
  (Option.map_injective fun _ _ h => by cases h; rfl).eq_iff

/-- Digits of a radix read as the number nearest to what is kept of them, and decimal digits as the
nearest number. The two agree unless what is kept is half way from an even number to the next and a
digit other than zero is dropped. -/
theorem ofText?_radix_eq_decimal_iff {text : String} {body : List Char} {radix n : ℕ}
    (ht : Text.Trimmed text.toList body) (hb : RadixForm body radix n) :
    (∃ result, RoundsTo n result ∧
      Binary64.ofText? (toString n) = result.map (Binary64.finite false)) ∧
    (∃ result, RoundsTo (kept radix n) result ∧
      Binary64.ofText? text = result.map (Binary64.finite false)) ∧
    (Binary64.ofText? text = Binary64.ofText? (toString n) ↔ ¬LosesTie radix n) := by
  have hd := ofText?_toString n
  have hr := ofTrimmed?_of_radix hb
  rw [← ofText?_of_trimmed ht] at hr
  refine ⟨hd, hr, ?_⟩
  obtain ⟨once, honce, hdecimal⟩ := hd
  obtain ⟨stepwise, hstepwise, hradix⟩ := hr
  rw [hdecimal, hradix, map_finite_inj, eq_comm]
  cases hb with
  | @mk mark radix digits values hm _ _ =>
    obtain ⟨b, rfl, -, -⟩ := exists_two_pow hm
    exact roundsTo_kept_eq_iff honce hstepwise

/-- The digits of `2 ^ 57 + 17` before the last are half way between two numbers. -/
theorem losesTie_of_hexadecimal :
    RadixForm (Text.trim " 0X200000000000011\n".toList) 16 0x200000000000011 ∧
      LosesTie 16 0x200000000000011 := by
  have hd : radixDigits? (Text.trim " 0X200000000000011\n".toList) =
      some (16, [2, 0, 0, 0, 0, 0, 0, 0, 0, 0, 0, 0, 0, 1, 1]) := by decide +kernel
  have hb : RadixForm (Text.trim " 0X200000000000011\n".toList) 16 0x200000000000011 :=
    radixForm_of_radixDigits? hd
  refine ⟨hb, ?_⟩
  by_contra h
  have he := (ofText?_radix_eq_decimal_iff (Text.trimmed_trim _) hb).2.2.mpr h
  exact absurd he (by decide +kernel)

/-- The hexadecimal spelling of `2 ^ 57 + 17` reads as `2 ^ 57` and the decimal one as the number
after it. -/
theorem hexadecimal_differs_from_decimal :
    RadixForm "0x200000000000011".toList 16 0x200000000000011 ∧
    Binary64.ofText? "0x200000000000011" = some (.finite false ⟨0x4380000000000000, by decide⟩) ∧
    Binary64.ofText? (toString 0x200000000000011) =
      some (.finite false ⟨0x4380000000000001, by decide⟩) := by
  have hd : radixDigits? "0x200000000000011".toList =
      some (16, [2, 0, 0, 0, 0, 0, 0, 0, 0, 0, 0, 0, 0, 1, 1]) := by decide +kernel
  refine ⟨radixForm_of_radixDigits? hd, ?_, ?_⟩
  · decide +kernel
  · decide +kernel

end SqlShell
