import SqlShell.Proofs.Rounding
import SqlShell.Decimal.Shortest

/-!
# Decimals round once

A decimal rounds to the magnitude nearest to its exact value; the short cuts for very large and very
small exponents agree with that. The digits that are chosen for a magnitude round back to it.
-/

set_option autoImplicit false

namespace SqlShell

open Magnitude

namespace Decimal

def value (d : Decimal) : ℚ := d.coefficient * 10 ^ d.exponent

theorem valueOf_one : valueOf 1 = 1 / unitsInOne := by
  rw [valueOf, show unitsOf 1 = 1 from rfl, Nat.cast_one]

/-- Less than half a unit is nothing. -/
theorem roundsTo_zero_of_lt_half_unit {x : ℚ} (hx : 2 * x < valueOf 1) :
    RoundsTo x (some Magnitude.zero) := by
  have hr : NearestRank x Magnitude.zero.rank := by
    constructor
    · left
      change 2 * x < valueOf 0 + valueOf (0 + 1)
      rw [valueOf_zero, zero_add, zero_add]
      exact hx
    · intro below hb
      cases hb
  rw [← ofRank?_rank]
  exact hr.roundsTo

theorem overflow_le {e : ℕ} (he : 400 < e) : overflow ≤ 10 ^ e := by
  calc overflow ≤ 2 ^ 1024 := sub_le_self _ (by positivity)
    _ ≤ 2 ^ (3 * e) := pow_le_pow_right₀ (by norm_num) (by omega)
    _ = 8 ^ e := by rw [pow_mul]; norm_num
    _ ≤ 10 ^ e := by gcongr; norm_num

/-- Ten to the power is larger than eight to it, so the quotient is below half a unit. -/
theorem lt_half_unit {n e : ℕ} (h : n.log2 + 1076 < 3 * e) :
    2 * ((n : ℚ) / 10 ^ e) < valueOf 1 := by
  have hnat : 2 * n * 2 ^ 1074 < 10 ^ e := by
    calc 2 * n * 2 ^ 1074 < 2 * 2 ^ (n.log2 + 1) * 2 ^ 1074 := by
          have := @Nat.lt_log2_self n
          gcongr
      _ = 2 ^ (n.log2 + 1076) := by rw [← pow_succ', ← pow_add]
      _ ≤ 2 ^ (3 * e) := Nat.pow_le_pow_right (by decide) h.le
      _ = (2 ^ 3) ^ e := pow_mul 2 3 e
      _ ≤ 10 ^ e := Nat.pow_le_pow_left (by decide) e
  rw [← unitsInOne_eq] at hnat
  rw [valueOf_one, ← mul_div_assoc, div_lt_div_iff₀ (by positivity) cast_unitsInOne_pos, one_mul]
  exact_mod_cast hnat

theorem magnitude?_roundsTo (d : Decimal) : RoundsTo d.value d.magnitude? := by
  unfold magnitude? value
  split
  · rename_i e he
    rw [he, Int.ofNat_eq_natCast, zpow_natCast]
    split
    · rename_i hz
      rw [hz, Nat.cast_zero, zero_mul]
      apply roundsTo_zero_of_lt_half_unit
      rw [mul_zero, ← valueOf_zero]
      exact valueOf_strictMono Nat.one_pos
    · rename_i hz
      have hc : (1 : ℚ) ≤ d.coefficient := by exact_mod_cast Nat.pos_of_ne_zero hz
      split
      · rename_i hbig
        exact .overflow (le_trans (overflow_le hbig) (le_mul_of_one_le_left (by positivity) hc))
      · have h := nearest?_roundsTo (d.coefficient * 10 ^ e) 1 Nat.one_pos
        push_cast at h
        rwa [div_one] at h
  · rename_i e he
    rw [he, Int.negSucc_eq, ← Nat.cast_succ, zpow_neg, zpow_natCast, ← div_eq_mul_inv]
    split
    · rename_i hsmall
      exact roundsTo_zero_of_lt_half_unit (lt_half_unit hsmall)
    · have h := nearest?_roundsTo d.coefficient (10 ^ (e + 1)) (by positivity)
      push_cast at h
      exact h

end Decimal

namespace Magnitude

theorem neighbour?_magnitude? {m : Magnitude} {exponent : ℤ} {d : Decimal}
    (h : m.neighbour? exponent = some d) : d.magnitude? = some m := by
  unfold neighbour? at h
  dsimp only at h
  split at h
  · rename_i hlower
    split at h
    · rename_i hupper
      cases h
      exact hupper.1
    · cases h
      exact hlower
  · split at h
    · rename_i hupper
      cases h
      exact hupper
    · cases h

theorem value_of_five_pow {d : Decimal} {n e : ℕ} (hc : d.coefficient = n * Nat.pow 5 e)
    (he : d.exponent = -(e : ℤ)) : d.value = n / (Nat.pow 2 e : ℕ) := by
  rw [Decimal.value, hc, he, Nat.pow_eq, Nat.pow_eq, zpow_neg, zpow_natCast,
    show (10 : ℚ) = 5 * 2 by norm_num, mul_pow]
  push_cast
  field_simp

theorem expansion_value (m : Magnitude) : m.expansion.value = m.value := by
  have hc : m.expansion.coefficient = m.units * Nat.pow 5 1074 := by
    unfold expansion
    rfl
  have he : m.expansion.exponent = -((1074 : ℕ) : ℤ) := rfl
  have hv := value_of_five_pow hc he
  unfold value unitsInOne
  exact hv

/-- The digits that are written round back to the magnitude. -/
theorem shortest_magnitude? (m : Magnitude) : m.shortest.magnitude? = some m := by
  unfold shortest
  dsimp only
  cases hf : (List.range 17).findSome? fun (n : ℕ) => m.neighbour? (m.wholeDigits - (n + 1)) with
  | some d =>
    obtain ⟨n, -, hn⟩ := List.exists_of_findSome?_eq_some hf
    exact neighbour?_magnitude? hn
  | none =>
    apply (m.expansion.magnitude?_roundsTo).unique
    rw [expansion_value]
    exact m.roundsTo_value

end Magnitude

end SqlShell
