import Mathlib
import SqlShell.Decimal.Basic

/-!
# Rounding to the nearest magnitude

Magnitudes in the order of their ranks are a grid that goes on beyond the largest of them. A number
rounds to a rank if it lies no further than half way to both neighbours, and half way only if the
rank is even. That is the rank the quotient is rounded to, so the nearest magnitude is found
whenever there is one, and there is none from `2 ^ 1024 - 2 ^ 970` on.
-/

set_option autoImplicit false

namespace SqlShell

theorem roundQuotient_bounds (num den : ℕ) :
    num / den ≤ roundQuotient num den ∧ roundQuotient num den ≤ num / den + 1 := by
  unfold roundQuotient
  dsimp only
  split <;> omega

theorem roundQuotient_upper (num : ℕ) {den : ℕ} (hd : 0 < den) :
    2 * num < (2 * roundQuotient num den + 1) * den ∨
      2 * num = (2 * roundQuotient num den + 1) * den ∧ Even (roundQuotient num den) := by
  have hn := Nat.div_add_mod num den
  have hr := Nat.mod_lt num hd
  rw [Nat.even_iff]
  unfold roundQuotient
  dsimp only
  generalize num / den = below at *
  generalize num % den = left at *
  split
  · rw [show (2 * below + 1) * den = 2 * (den * below) + den by ring]
    omega
  · rw [show (2 * (below + 1) + 1) * den = 2 * (den * below) + 3 * den by ring]
    omega

theorem roundQuotient_lower (num : ℕ) {den : ℕ} (hd : 0 < den) :
    2 * roundQuotient num den * den < 2 * num + den ∨
      2 * roundQuotient num den * den = 2 * num + den ∧ Even (roundQuotient num den) := by
  have hn := Nat.div_add_mod num den
  have hr := Nat.mod_lt num hd
  rw [Nat.even_iff]
  unfold roundQuotient
  dsimp only
  generalize num / den = below at *
  generalize num % den = left at *
  split
  · rw [show 2 * below * den = 2 * (den * below) by ring]
    omega
  · rw [show 2 * (below + 1) * den = 2 * (den * below) + 2 * den by ring]
    omega

namespace Magnitude

def unitsOf (rank : ℕ) : ℕ :=
  if rank < 2 ^ 52 then rank else (2 ^ 52 + rank % 2 ^ 52) * 2 ^ (rank / 2 ^ 52 - 1)

theorem unitsOf_grid {shift k : ℕ} (hk : k ≤ 2 ^ 53) (hs : shift = 0 ∨ 2 ^ 52 ≤ k) :
    unitsOf (shift * 2 ^ 52 + k) = k * 2 ^ shift := by
  unfold unitsOf
  by_cases hl : shift * 2 ^ 52 + k < 2 ^ 52
  · have : shift = 0 := by omega
    simp only [this, Nat.zero_mul, Nat.zero_add, pow_zero, Nat.mul_one, ite_eq_left_iff]
    omega
  · rw [if_neg hl]
    by_cases hc : k = 2 ^ 53
    · have hm : (shift * 2 ^ 52 + k) % 2 ^ 52 = 0 := by omega
      have he : (shift * 2 ^ 52 + k) / 2 ^ 52 - 1 = shift + 1 := by omega
      rw [hm, he, hc]
      ring
    · have hm : (shift * 2 ^ 52 + k) % 2 ^ 52 = k - 2 ^ 52 := by omega
      have he : (shift * 2 ^ 52 + k) / 2 ^ 52 - 1 = shift := by omega
      rw [hm, he, show 2 ^ 52 + (k - 2 ^ 52) = k by omega]

theorem exists_grid (rank : ℕ) :
    ∃ shift k, rank = shift * 2 ^ 52 + k ∧ k < 2 ^ 53 ∧ (shift = 0 ∨ 2 ^ 52 ≤ k) := by
  by_cases hl : rank < 2 ^ 52
  · exact ⟨0, rank, by omega, by omega, Or.inl rfl⟩
  · exact ⟨rank / 2 ^ 52 - 1, 2 ^ 52 + rank % 2 ^ 52, by omega, by omega, Or.inr (by omega)⟩

theorem unitsOf_lt_succ (rank : ℕ) : unitsOf rank < unitsOf (rank + 1) := by
  obtain ⟨shift, k, rfl, hk, hs⟩ := exists_grid rank
  rw [unitsOf_grid hk.le hs, Nat.add_assoc, unitsOf_grid (by omega) (by omega), Nat.add_mul]
  have := Nat.two_pow_pos shift
  omega

theorem unitsOf_scale {rank : ℕ} (h : 2 ^ 52 ≤ rank) (b : ℕ) :
    unitsOf (rank + b * 2 ^ 52) = unitsOf rank * 2 ^ b := by
  obtain ⟨shift, k, rfl, hk, hs⟩ := exists_grid rank
  have hn : 2 ^ 52 ≤ k := by omega
  rw [unitsOf_grid hk.le hs,
    show shift * 2 ^ 52 + k + b * 2 ^ 52 = (shift + b) * 2 ^ 52 + k by ring,
    unitsOf_grid hk.le (Or.inr hn), pow_add]
  ring

@[irreducible]
def unitsInOne : ℕ := Nat.pow 2 1074

theorem unitsInOne_eq : unitsInOne = 2 ^ 1074 := by decide +kernel

theorem unitsInOne_pos : 0 < unitsInOne := by decide +kernel

theorem cast_unitsInOne_pos : (0 : ℚ) < unitsInOne := Nat.cast_pos.mpr unitsInOne_pos

def valueOf (rank : ℕ) : ℚ := unitsOf rank / unitsInOne

theorem valueOf_zero : valueOf 0 = 0 := by
  rw [valueOf, show unitsOf 0 = 0 from rfl, Nat.cast_zero, zero_div]

theorem valueOf_strictMono : StrictMono valueOf := by
  apply strictMono_nat_of_lt_succ
  intro rank
  apply div_lt_div_of_pos_right _ cast_unitsInOne_pos
  exact_mod_cast unitsOf_lt_succ rank

theorem valueOf_scale {rank : ℕ} (h : 2 ^ 52 ≤ rank) (b : ℕ) :
    valueOf (rank + b * 2 ^ 52) = valueOf rank * 2 ^ b := by
  unfold valueOf
  rw [unitsOf_scale h]
  push_cast
  exact mul_div_right_comm _ _ _

theorem valueOf_whole {shift k : ℕ} (hl : 2 ^ 52 ≤ k) (hk : k ≤ 2 ^ 53) :
    valueOf ((shift + 1074) * 2 ^ 52 + k) = k * 2 ^ shift := by
  unfold valueOf
  rw [unitsOf_grid hk (Or.inr hl), div_eq_iff cast_unitsInOne_pos.ne', pow_add, ← unitsInOne_eq]
  push_cast
  ring

/-- The number lies no further than half way to the ranks next to this one, and half way only if
this one is even. -/
structure NearestRank (x : ℚ) (rank : ℕ) : Prop where
  upper : 2 * x < valueOf rank + valueOf (rank + 1) ∨
    2 * x = valueOf rank + valueOf (rank + 1) ∧ Even rank
  lower : ∀ below, rank = below + 1 →
    valueOf below + valueOf rank < 2 * x ∨ valueOf below + valueOf rank = 2 * x ∧ Even rank

theorem NearestRank.le_upper {x : ℚ} {rank : ℕ} (h : NearestRank x rank) :
    2 * x ≤ valueOf rank + valueOf (rank + 1) := by
  rcases h.upper with hu | ⟨hu, -⟩
  · exact hu.le
  · exact hu.le

theorem NearestRank.lower_le {x : ℚ} {rank : ℕ} (h : NearestRank x (rank + 1)) :
    valueOf rank + valueOf (rank + 1) ≤ 2 * x := by
  rcases h.lower rank rfl with hl | ⟨hl, -⟩
  · exact hl.le
  · exact hl.le

theorem NearestRank.above {x : ℚ} {rank other : ℕ} (h : NearestRank x rank)
    (ho : rank < other) :
    2 * x < valueOf rank + valueOf other ∨ 2 * x = valueOf rank + valueOf other ∧ Even rank := by
  have hv : valueOf (rank + 1) ≤ valueOf other := valueOf_strictMono.monotone ho
  rcases hv.lt_or_eq with hv | hv
  · left
    linarith [h.le_upper]
  · rw [← hv]
    exact h.upper

theorem NearestRank.beneath {x : ℚ} {rank other : ℕ} (h : NearestRank x rank)
    (ho : other < rank) :
    valueOf other + valueOf rank < 2 * x ∨ valueOf other + valueOf rank = 2 * x ∧ Even rank := by
  obtain ⟨below, rfl⟩ : ∃ below, rank = below + 1 := ⟨rank - 1, by omega⟩
  have hv : valueOf other ≤ valueOf below := valueOf_strictMono.monotone (by omega)
  rcases hv.lt_or_eq with hv | hv
  · left
    linarith [h.lower_le]
  · rw [hv]
    exact h.lower below rfl

/-- Two numbers in order round to ranks in order. Otherwise they would both be half way between two
neighbouring ranks, which cannot both be even. -/
theorem NearestRank.mono {x y : ℚ} {rank other : ℕ} (hx : NearestRank x rank)
    (hy : NearestRank y other) (h : x ≤ y) : rank ≤ other := by
  by_contra hlt
  obtain ⟨below, rfl⟩ : ∃ below, rank = below + 1 := ⟨rank - 1, by omega⟩
  have hu := hy.le_upper
  have hl := hx.lower_le
  by_cases heq : other = below
  · subst heq
    rcases hy.upper with hy | ⟨-, hy⟩
    · linarith
    rcases hx.lower _ rfl with hx | ⟨-, hx⟩
    · linarith
    · exact (Nat.even_add_one.mp hx) hy
  · have h₁ : valueOf other < valueOf below := valueOf_strictMono (by omega)
    have h₂ : valueOf (other + 1) < valueOf (below + 1) := valueOf_strictMono (by omega)
    linarith

theorem NearestRank.unique {x : ℚ} {rank other : ℕ} (h : NearestRank x rank)
    (ho : NearestRank x other) : rank = other :=
  Nat.le_antisymm (h.mono ho le_rfl) (ho.mono h le_rfl)

theorem nearestRank_valueOf (rank : ℕ) : NearestRank (valueOf rank) rank where
  upper := by
    have : valueOf rank < valueOf (rank + 1) := valueOf_strictMono (by omega)
    exact Or.inl (by linarith)
  lower below h := by
    have : valueOf below < valueOf rank := valueOf_strictMono (by omega)
    exact Or.inl (by linarith)

/-- Among the ranks above the least exponent, doubling moves up by one exponent. -/
theorem NearestRank.scale {x : ℚ} {rank : ℕ} (h : NearestRank x rank) (hr : 2 ^ 52 < rank)
    (b : ℕ) : NearestRank (x * 2 ^ b) (rank + b * 2 ^ 52) := by
  have hp : (0 : ℚ) < 2 ^ b := by positivity
  have he : Even (rank + b * 2 ^ 52) ↔ Even rank := by
    rw [Nat.even_iff, Nat.even_iff]
    omega
  constructor
  · rw [show rank + b * 2 ^ 52 + 1 = rank + 1 + b * 2 ^ 52 by omega, he, valueOf_scale hr.le,
      valueOf_scale (by omega), ← add_mul, ← mul_assoc]
    rcases h.upper with hu | ⟨hu, hv⟩
    · exact Or.inl (by gcongr)
    · exact Or.inr ⟨by rw [hu], hv⟩
  · intro below hb
    obtain ⟨low, rfl⟩ : ∃ low, below = low + b * 2 ^ 52 := ⟨below - b * 2 ^ 52, by omega⟩
    rw [he, valueOf_scale hr.le, valueOf_scale (by omega), ← add_mul, ← mul_assoc]
    rcases h.lower low (by omega) with hl | ⟨hl, hv⟩
    · exact Or.inl (by gcongr)
    · exact Or.inr ⟨by rw [hl], hv⟩

def nearestRank (num den : ℕ) : ℕ :=
  let shift := (num / den).log2 - 52
  shift * Nat.pow 2 52 + roundQuotient num (den * Nat.pow 2 shift)

def ofRank? (rank : ℕ) : Option Magnitude :=
  if h : rank < 2047 * Nat.pow 2 52 then some ⟨rank, h⟩ else none

theorem ofRank?_rank (m : Magnitude) : ofRank? m.rank = some m := dif_pos m.rank_lt

theorem ofRank?_of_lt {rank : ℕ} (h : rank < 2047 * 2 ^ 52) : ofRank? rank = some ⟨rank, h⟩ :=
  dif_pos h

theorem ofRank?_of_ge {rank : ℕ} (h : ¬rank < 2047 * 2 ^ 52) : ofRank? rank = none := dif_neg h

theorem nearest?_eq (num den : ℕ) :
    nearest? num den = ofRank? (nearestRank (num * unitsInOne) den) := by
  unfold nearest? nearestRank unitsInOne
  rfl

/-- In units of the last place the quotient has at most 53 bits, and exactly 53 unless the unit is
the least one. -/
theorem quotient_bounds (num : ℕ) {den shift : ℕ}
    (hs : (num / den).log2 - 52 = shift) :
    num / (den * 2 ^ shift) < 2 ^ 53 ∧ (shift = 0 ∨ 2 ^ 52 ≤ num / (den * 2 ^ shift)) := by
  rw [← Nat.div_div_eq_div_mul]
  have hp := Nat.two_pow_pos shift
  constructor
  · rw [Nat.div_lt_iff_lt_mul hp, ← pow_add]
    apply lt_of_lt_of_le Nat.lt_log2_self
    exact Nat.pow_le_pow_right (by decide) (by omega)
  · by_cases hz : shift = 0
    · exact Or.inl hz
    · right
      have hq : num / den ≠ 0 := by
        intro hq
        rw [hq, Nat.log2_zero] at hs
        omega
      rw [Nat.le_div_iff_mul_le hp, ← pow_add, show 52 + shift = (num / den).log2 by omega]
      exact Nat.log2_self_le hq

/-- The two neighbours of the nearest rank are half way or further off. Where the quotient is
rounded up to a power of two the upper neighbour is further off than on the grid of the quotient,
and at a power of two the lower one is nearer but the quotient is not below it. -/
theorem nearestRank_units (num : ℕ) {den : ℕ} (hd : 0 < den) :
    (2 * num < (unitsOf (nearestRank num den) + unitsOf (nearestRank num den + 1)) * den ∨
      2 * num = (unitsOf (nearestRank num den) + unitsOf (nearestRank num den + 1)) * den ∧
        Even (nearestRank num den)) ∧
    ∀ below, nearestRank num den = below + 1 →
      (unitsOf below + unitsOf (nearestRank num den)) * den < 2 * num ∨
      (unitsOf below + unitsOf (nearestRank num den)) * den = 2 * num ∧
        Even (nearestRank num den) := by
  unfold nearestRank
  simp only [Nat.pow_eq]
  generalize hs : (num / den).log2 - 52 = shift
  have hD : 0 < den * 2 ^ shift := Nat.mul_pos hd (Nat.two_pow_pos _)
  obtain ⟨hlt, hge⟩ := quotient_bounds num hs
  have hb := roundQuotient_bounds num (den * 2 ^ shift)
  have hu := roundQuotient_upper num hD
  have hl := roundQuotient_lower num hD
  have hfloor := Nat.div_mul_le_self num (den * 2 ^ shift)
  have hceil := Nat.lt_mul_of_div_lt (Nat.lt_succ_self (num / (den * 2 ^ shift))) hD
  have heven : Even (shift * 2 ^ 52 + roundQuotient num (den * 2 ^ shift)) ↔
      Even (roundQuotient num (den * 2 ^ shift)) := by
    rw [Nat.even_iff, Nat.even_iff]
    omega
  rw [← heven] at hu hl
  generalize roundQuotient num (den * 2 ^ shift) = k at *
  have hk : unitsOf (shift * 2 ^ 52 + k) = k * 2 ^ shift := unitsOf_grid (by omega) (by omega)
  constructor
  · by_cases hc : k = 2 ^ 53
    · -- Rounded up to a power of two, from below it.
      left
      have hup := Nat.mul_le_mul_right den (unitsOf_lt_succ (shift * 2 ^ 52 + k)).le
      have hnum : num < k * 2 ^ shift * den := by
        apply lt_of_lt_of_le hceil
        rw [show k * 2 ^ shift * den = k * (den * 2 ^ shift) by ring]
        exact Nat.mul_le_mul_right _ (by omega)
      rw [hk] at hup ⊢
      rw [Nat.add_mul]
      omega
    · rw [hk, Nat.add_assoc, unitsOf_grid (by omega) (by omega),
        show (k * 2 ^ shift + (k + 1) * 2 ^ shift) * den = (2 * k + 1) * (den * 2 ^ shift) by ring]
      exact hu
  · intro below hbelow
    by_cases hc : shift ≠ 0 ∧ k = 2 ^ 52
    · -- Rounded down to a power of two, or to itself.
      left
      have hlow := Nat.mul_lt_mul_of_pos_right (unitsOf_lt_succ below) hd
      have hnum : k * 2 ^ shift * den ≤ num := by
        apply le_trans _ hfloor
        rw [show k * 2 ^ shift * den = k * (den * 2 ^ shift) by ring]
        exact Nat.mul_le_mul_right _ (by omega)
      rw [← hbelow, hk] at hlow
      rw [hk, Nat.add_mul]
      omega
    · obtain ⟨j, rfl⟩ : ∃ j, k = j + 1 := ⟨k - 1, by omega⟩
      rw [show below = shift * 2 ^ 52 + j by omega, unitsOf_grid (by omega) (by omega), hk,
        show (j * 2 ^ shift + (j + 1) * 2 ^ shift) * den = (2 * j + 1) * (den * 2 ^ shift) by ring]
      rw [show 2 * (j + 1) * (den * 2 ^ shift) =
        (2 * j + 1) * (den * 2 ^ shift) + den * 2 ^ shift by ring] at hl
      rcases hl with hl | ⟨hl, he⟩
      · exact Or.inl (by omega)
      · exact Or.inr ⟨by omega, he⟩

theorem nearestRank_spec (num den : ℕ) (hd : 0 < den) :
    NearestRank ((num : ℚ) / den) (nearestRank (num * unitsInOne) den) := by
  have hq : (0 : ℚ) < den := Nat.cast_pos.mpr hd
  have hsum : ∀ r s, valueOf r + valueOf s = ((unitsOf r + unitsOf s : ℕ) : ℚ) / unitsInOne := by
    intro r s
    rw [Nat.cast_add, add_div]
    rfl
  have htwice : 2 * ((num : ℚ) / den) = ((2 * num : ℕ) : ℚ) / den := by
    push_cast
    rw [mul_div_assoc]
  obtain ⟨hu, hl⟩ := nearestRank_units (num * unitsInOne) hd
  constructor
  · rw [hsum, htwice, div_lt_div_iff₀ hq cast_unitsInOne_pos,
      div_eq_div_iff hq.ne' cast_unitsInOne_pos.ne', ← Nat.cast_mul, ← Nat.cast_mul,
      Nat.cast_lt, Nat.cast_inj, Nat.mul_assoc]
    exact hu
  · intro below hb
    rw [hsum, htwice, div_lt_div_iff₀ cast_unitsInOne_pos hq,
      div_eq_div_iff cast_unitsInOne_pos.ne' hq.ne', ← Nat.cast_mul, ← Nat.cast_mul,
      Nat.cast_lt, Nat.cast_inj, Nat.mul_assoc]
    exact hl below hb

def value (m : Magnitude) : ℚ := m.units / unitsInOne

theorem value_eq (m : Magnitude) : m.value = valueOf m.rank := rfl

def overflow : ℚ := 2 ^ 1024 - 2 ^ 970

def IsNearest (m : Magnitude) (x : ℚ) : Prop :=
  ∀ other : Magnitude, other ≠ m →
    |x - m.value| < |x - other.value| ∨ |x - m.value| = |x - other.value| ∧ Even m.rank

inductive RoundsTo (x : ℚ) : Option Magnitude → Prop
  | nearest {m : Magnitude} (hx : x < overflow) (hm : m.IsNearest x) : RoundsTo x (some m)
  | overflow (hx : overflow ≤ x) : RoundsTo x none

theorem valueOf_overflow :
    valueOf (2047 * 2 ^ 52 - 1) + valueOf (2047 * 2 ^ 52) = 2 * overflow := by
  have hlast : 2047 * 2 ^ 52 - 1 = (971 + 1074) * 2 ^ 52 + (2 ^ 53 - 1) := by decide
  have hnext : 2047 * 2 ^ 52 = (971 + 1074) * 2 ^ 52 + 2 ^ 53 := by decide
  rw [hlast, hnext, valueOf_whole (by decide) (by decide), valueOf_whole (by decide) le_rfl,
    overflow, pow_succ (2 : ℚ) 970, show 1024 = 54 + 970 by rfl, pow_add]
  generalize (2 : ℚ) ^ 970 = p
  push_cast
  norm_num
  ring

theorem abs_sub_low_lt_iff {x low high : ℚ} (h : low < high) :
    |x - low| < |x - high| ↔ 2 * x < low + high := by
  rw [← sq_lt_sq]
  constructor
  · intro hs
    nlinarith
  · intro hs
    nlinarith

theorem abs_sub_high_lt_iff {x low high : ℚ} (h : low < high) :
    |x - high| < |x - low| ↔ low + high < 2 * x := by
  rw [← sq_lt_sq]
  constructor
  · intro hs
    nlinarith
  · intro hs
    nlinarith

theorem abs_sub_eq_iff {x low high : ℚ} (h : low < high) :
    |x - low| = |x - high| ↔ 2 * x = low + high := by
  rw [eq_iff_le_not_lt, eq_iff_le_not_lt, ← not_lt, abs_sub_high_lt_iff h,
    abs_sub_low_lt_iff h, not_lt]

theorem ext_rank {m other : Magnitude} (h : m.rank = other.rank) : m = other := by
  cases m
  cases other
  congr

theorem NearestRank.isNearest {m : Magnitude} {x : ℚ} (h : NearestRank x m.rank) :
    m.IsNearest x := by
  intro other hne
  rw [value_eq, value_eq]
  rcases Nat.lt_or_gt_of_ne fun he => hne (ext_rank he) with hlt | hlt
  · have hv := valueOf_strictMono hlt
    rw [abs_sub_high_lt_iff hv, eq_comm, abs_sub_eq_iff hv, eq_comm]
    exact h.beneath hlt
  · have hv := valueOf_strictMono hlt
    rw [abs_sub_low_lt_iff hv, abs_sub_eq_iff hv]
    exact h.above hlt

/-- Above the largest magnitude there is no other, so there the number has to be below the
overflow. -/
theorem IsNearest.nearestRank {m : Magnitude} {x : ℚ} (h : m.IsNearest x) (hx : x < overflow) :
    NearestRank x m.rank := by
  have hm := m.rank_lt
  rw [Nat.pow_eq] at hm
  constructor
  · by_cases hlast : m.rank + 1 < 2047 * 2 ^ 52
    · have hv : m.value < value ⟨m.rank + 1, hlast⟩ := valueOf_strictMono (Nat.lt_succ_self _)
      have ho := h ⟨m.rank + 1, hlast⟩ fun he => Nat.succ_ne_self _ (congrArg rank he)
      rw [abs_sub_low_lt_iff hv, abs_sub_eq_iff hv] at ho
      exact ho
    · left
      have hr : m.rank = 2047 * 2 ^ 52 - 1 := by omega
      rw [hr, show 2047 * 2 ^ 52 - 1 + 1 = 2047 * 2 ^ 52 by decide, valueOf_overflow]
      linarith
  · intro below hb
    have hlt : below < m.rank := by omega
    have hv : value ⟨below, hlt.trans hm⟩ < m.value := valueOf_strictMono hlt
    have ho := h ⟨below, hlt.trans hm⟩ fun he => hlt.ne (congrArg rank he)
    rw [abs_sub_high_lt_iff hv, eq_comm, abs_sub_eq_iff hv, eq_comm] at ho
    exact ho

theorem NearestRank.lt_iff {x : ℚ} {rank : ℕ} (h : NearestRank x rank) :
    rank < 2047 * 2 ^ 52 ↔ x < overflow := by
  have ho := valueOf_overflow
  constructor
  · intro hlt
    rcases h.above hlt with hu | ⟨hu, he⟩
    · have : valueOf rank ≤ valueOf (2047 * 2 ^ 52 - 1) := valueOf_strictMono.monotone (by omega)
      linarith
    · -- The last rank is odd, so half way it would not be the nearest one.
      have hr : rank ≠ 2047 * 2 ^ 52 - 1 := by
        intro hr
        rw [hr] at he
        exact absurd he (by decide)
      have : valueOf rank < valueOf (2047 * 2 ^ 52 - 1) := valueOf_strictMono (by omega)
      linarith
  · intro hx
    by_contra hge
    have hlast : 2047 * 2 ^ 52 - 1 < rank := by omega
    have : valueOf (2047 * 2 ^ 52) ≤ valueOf rank := valueOf_strictMono.monotone (by omega)
    rcases h.beneath hlast with hl | ⟨hl, -⟩
    · linarith
    · linarith

theorem NearestRank.roundsTo {x : ℚ} {rank : ℕ} (h : NearestRank x rank) :
    RoundsTo x (ofRank? rank) := by
  by_cases hr : rank < 2047 * 2 ^ 52
  · rw [ofRank?_of_lt hr]
    exact .nearest (h.lt_iff.mp hr) (NearestRank.isNearest h)
  · rw [ofRank?_of_ge hr]
    exact .overflow (not_lt.mp fun hx => hr (h.lt_iff.mpr hx))

theorem nearest?_roundsTo (num den : ℕ) (hd : 0 < den) :
    RoundsTo ((num : ℚ) / den) (nearest? num den) := by
  rw [nearest?_eq]
  exact (nearestRank_spec num den hd).roundsTo

theorem roundsTo_value (m : Magnitude) : RoundsTo m.value (some m) := by
  rw [← ofRank?_rank m]
  exact (nearestRank_valueOf m.rank).roundsTo

theorem roundsTo_zero : RoundsTo 0 (some zero) := by
  have h := roundsTo_value zero
  rwa [value_eq, show zero.rank = 0 from rfl, valueOf_zero] at h

theorem scale?_eq (m : Magnitude) (factor : ℕ) :
    m.scale? factor = nearest? (m.units * factor) unitsInOne := by
  unfold scale? unitsInOne
  rfl

theorem plus?_eq (m : Magnitude) (addend : ℕ) :
    m.plus? addend = nearest? (m.units + addend * unitsInOne) unitsInOne := by
  unfold plus? unitsInOne
  rfl

theorem scale?_roundsTo (m : Magnitude) (factor : ℕ) :
    RoundsTo (m.value * factor) (m.scale? factor) := by
  have h := nearest?_roundsTo (m.units * factor) unitsInOne unitsInOne_pos
  rw [scale?_eq, value, div_mul_eq_mul_div]
  exact_mod_cast h

theorem plus?_roundsTo (m : Magnitude) (addend : ℕ) :
    RoundsTo (m.value + addend) (m.plus? addend) := by
  have h := nearest?_roundsTo (m.units + addend * unitsInOne) unitsInOne unitsInOne_pos
  rw [plus?_eq, value, div_add' _ _ _ cast_unitsInOne_pos.ne']
  exact_mod_cast h

theorem RoundsTo.nearestRank {x : ℚ} {m : Magnitude} (h : RoundsTo x (some m)) :
    NearestRank x m.rank := by
  cases h with
  | nearest hx hm => exact hm.nearestRank hx

theorem RoundsTo.isSome_iff {x : ℚ} {result : Option Magnitude} (h : RoundsTo x result) :
    result.isSome ↔ x < Magnitude.overflow := by
  cases h with
  | nearest hx _ => simp [hx]
  | overflow hx => simp [hx]

theorem RoundsTo.unique {x : ℚ} {result other : Option Magnitude} (h : RoundsTo x result)
    (ho : RoundsTo x other) : result = other := by
  cases h with
  | nearest hx hm =>
    cases ho with
    | nearest _ ho => rw [ext_rank ((hm.nearestRank hx).unique (ho.nearestRank hx))]
    | overflow ho => exact absurd hx (not_lt.mpr ho)
  | overflow hx =>
    cases ho with
    | nearest ho _ => exact absurd ho (not_lt.mpr hx)
    | overflow _ => rfl

end Magnitude

end SqlShell
