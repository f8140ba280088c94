import SqlShell.Proofs.Rounding

/-!
# Digits of a radix

Digits that are added from the left with a rounding after each one give the number that is rounded
once, up to `2 ^ 53`. From there on the digits that follow are too small to be seen. Leaving them
out changes the result only where the digits before them are half way between two magnitudes.
-/

set_option autoImplicit false

namespace SqlShell.Magnitude

/-- A whole number of at most 53 bits times a power of two is on the grid. -/
theorem exists_valueOf {n : ℕ} (hn : n < 2 ^ 53) (b : ℕ) : ∃ rank, valueOf rank = n * 2 ^ b := by
  by_cases hz : n = 0
  · refine ⟨0, ?_⟩
    rw [hz, valueOf_zero, Nat.cast_zero, zero_mul]
  · have hlog : n.log2 < 53 := (Nat.log2_lt hz).mpr hn
    have hlow : 2 ^ 52 ≤ n * 2 ^ (52 - n.log2) := by
      calc 2 ^ 52 = 2 ^ n.log2 * 2 ^ (52 - n.log2) := by rw [← pow_add]; congr 1; omega
        _ ≤ n * 2 ^ (52 - n.log2) := Nat.mul_le_mul_right _ (Nat.log2_self_le hz)
    have hhigh : n * 2 ^ (52 - n.log2) ≤ 2 ^ 53 := by
      calc n * 2 ^ (52 - n.log2) ≤ 2 ^ (n.log2 + 1) * 2 ^ (52 - n.log2) :=
            Nat.mul_le_mul_right _ Nat.lt_log2_self.le
        _ = 2 ^ 53 := by rw [← pow_add]; congr 1; omega
    refine ⟨(1074 + b - (52 - n.log2)) * 2 ^ 52 + n * 2 ^ (52 - n.log2), ?_⟩
    unfold valueOf
    have hunits : n * 2 ^ (52 - n.log2) * 2 ^ (1074 + b - (52 - n.log2)) =
        n * 2 ^ b * unitsInOne := by
      rw [unitsInOne_eq, mul_assoc, ← pow_add, mul_assoc, ← pow_add]
      congr 2
      omega
    rw [unitsOf_grid hhigh (Or.inr hlow), div_eq_iff cast_unitsInOne_pos.ne']
    exact_mod_cast hunits

/-- From `2 ^ 53` on the ranks stand for even whole numbers. -/
theorem exists_even_of_le {rank : ℕ} (h : 2 ^ 53 ≤ valueOf rank) :
    2 ^ 52 < rank ∧ (∃ n : ℕ, valueOf rank = 2 * n) ∧ ∃ n : ℕ, valueOf (rank + 1) = 2 * n := by
  obtain ⟨shift, k, rfl, hk, hs⟩ := exists_grid rank
  have hshift : 1074 < shift := by
    by_contra hle
    have hlt : k * 2 ^ shift < 2 ^ 53 * unitsInOne := by
      have hp : 2 ^ shift ≤ unitsInOne := by
        rw [unitsInOne_eq]
        apply Nat.pow_le_pow_right
        · decide
        · omega
      exact Nat.mul_lt_mul_of_lt_of_le hk hp unitsInOne_pos
    rw [valueOf, unitsOf_grid hk.le hs, le_div_iff₀ cast_unitsInOne_pos] at h
    exact absurd (by exact_mod_cast h) (not_le.mpr hlt)
  obtain ⟨e, rfl⟩ : ∃ e, shift = e + 1 + 1074 := ⟨shift - 1075, by omega⟩
  have hl : 2 ^ 52 ≤ k := by omega
  refine ⟨by omega, ⟨k * 2 ^ e, ?_⟩, ⟨(k + 1) * 2 ^ e, ?_⟩⟩
  · rw [valueOf_whole hl hk.le, pow_succ]
    push_cast
    ring
  · rw [Nat.add_assoc, valueOf_whole (by omega) hk, pow_succ]
    push_cast
    ring

theorem le_valueOf {x : ℚ} {rank : ℕ} (h : NearestRank x rank) (hx : 2 ^ 53 ≤ x) :
    2 ^ 53 ≤ valueOf rank := by
  have hp : valueOf (1 * 2 ^ 52 + 1074 * 2 ^ 52 + 2 ^ 52) = 2 ^ 53 := by
    rw [← Nat.add_mul, valueOf_whole le_rfl (by decide)]
    norm_num
  rw [← hp] at hx ⊢
  exact valueOf_strictMono.monotone ((nearestRank_valueOf _).mono h hx)

theorem valueOf_add_two_le {rank : ℕ} (h : 2 ^ 53 ≤ valueOf rank) :
    valueOf rank + 2 ≤ valueOf (rank + 1) := by
  have hlt : valueOf rank < valueOf (rank + 1) := valueOf_strictMono (Nat.lt_succ_self rank)
  obtain ⟨-, ⟨n, hn⟩, ⟨k, hk⟩⟩ := exists_even_of_le h
  rw [hn, hk] at hlt ⊢
  norm_cast at hlt ⊢
  omega

theorem two_pow_lt_overflow {e : ℕ} (he : e ≤ 1023) : (2 : ℚ) ^ e < overflow := by
  have hle : (2 : ℚ) ^ e ≤ 2 ^ 1023 := pow_le_pow_right₀ (by norm_num) he
  have hlt : (2 : ℚ) ^ 970 < 2 ^ 1023 := pow_lt_pow_right₀ (by norm_num) (by decide)
  apply lt_of_le_of_lt hle
  rw [overflow, pow_succ (2 : ℚ) 1023]
  generalize (2 : ℚ) ^ 1023 = p at *
  generalize (2 : ℚ) ^ 970 = q at *
  linarith

theorem exists_value {n b : ℕ} (hn : n < 2 ^ 53) (hb : b ≤ 4) :
    ∃ m : Magnitude, m.value = n * 2 ^ b := by
  obtain ⟨rank, hr⟩ := exists_valueOf hn b
  have hlt : valueOf rank < overflow := by
    rw [hr]
    calc (n : ℚ) * 2 ^ b ≤ 2 ^ 53 * 2 ^ b := by
          gcongr
          exact_mod_cast hn.le
      _ = 2 ^ (53 + b) := (pow_add 2 53 b).symm
      _ < overflow := two_pow_lt_overflow (by omega)
  exact ⟨⟨rank, (nearestRank_valueOf rank).lt_iff.mpr hlt⟩, hr⟩

theorem RoundsTo.eq_some {x : ℚ} {result : Option Magnitude} {m : Magnitude}
    (h : RoundsTo x result) (hm : m.value = x) : result = some m :=
  h.unique (hm ▸ m.roundsTo_value)

def nextDigit (radix : ℕ) (m : Magnitude) (digit : ℕ) : Option Magnitude :=
  (m.scale? radix).bind (·.plus? digit)

/-- As long as the number has 53 bits, the product is exact and only the sum is rounded. -/
theorem nextDigit_of_lt {n b : ℕ} (hn : n < 2 ^ 53) (hb : b ≤ 4) (digit : ℕ)
    {result : Option Magnitude} (h : RoundsTo n result) :
    RoundsTo (n * 2 ^ b + digit : ℕ) (result.bind fun m => nextDigit (2 ^ b) m digit) := by
  obtain ⟨m, hm⟩ := exists_value hn (Nat.zero_le 4)
  obtain ⟨product, hp⟩ := exists_value hn hb
  rw [pow_zero, mul_one] at hm
  have hs := m.scale?_roundsTo (2 ^ b)
  have ha := product.plus?_roundsTo digit
  rw [hm] at hs
  rw [hp] at ha
  rw [h.eq_some hm, Option.bind_some, nextDigit, hs.eq_some (by exact_mod_cast hp),
    Option.bind_some]
  push_cast
  exact ha

/-- Less than half way to the next rank is lost. -/
theorem nearestRank_add {rank : ℕ} {x : ℚ} (hx : 0 ≤ x)
    (h : 2 * x < valueOf (rank + 1) - valueOf rank) : NearestRank (valueOf rank + x) rank where
  upper := Or.inl (by linarith)
  lower below hb := by
    have : valueOf below < valueOf rank := valueOf_strictMono (by omega)
    exact Or.inl (by linarith)

/-- From `2 ^ 53` on the product is exact, and the digit is less than half the distance to the next
magnitude, so it is lost. -/
theorem nextDigit_of_ge {n b digit : ℕ} (hn : 2 ^ 53 ≤ n) (hd : digit < 2 ^ b)
    {result : Option Magnitude} (h : RoundsTo n result) :
    RoundsTo (n * 2 ^ b : ℕ) (result.bind fun m => nextDigit (2 ^ b) m digit) := by
  push_cast
  cases h with
  | overflow hx =>
    apply RoundsTo.overflow
    exact le_trans hx (le_mul_of_one_le_right (by positivity) (one_le_pow₀ (by norm_num)))
  | @nearest m hx hm =>
    have hr := hm.nearestRank hx
    have hv := le_valueOf hr (by exact_mod_cast hn)
    have hgap := valueOf_add_two_le hv
    have hbig := (exists_even_of_le hv).1
    have hproduct := (hr.scale hbig b).roundsTo
    have hs := m.scale?_roundsTo (2 ^ b)
    push_cast at hs
    rw [value_eq, ← valueOf_scale hbig.le] at hs
    rw [Option.bind_some, nextDigit, hs.unique (nearestRank_valueOf _).roundsTo]
    by_cases hlt : m.rank + b * 2 ^ 52 < 2047 * 2 ^ 52
    · have hsum := plus?_roundsTo ⟨m.rank + b * 2 ^ 52, hlt⟩ digit
      have hnear : NearestRank (valueOf (m.rank + b * 2 ^ 52) + digit) (m.rank + b * 2 ^ 52) := by
        apply nearestRank_add (by positivity)
        have hdigit : (digit : ℚ) < 2 ^ b := by exact_mod_cast hd
        rw [Nat.add_right_comm, valueOf_scale hbig.le, valueOf_scale (by omega), ← sub_mul]
        calc 2 * (digit : ℚ) < 2 * 2 ^ b := by linarith
          _ ≤ (valueOf (m.rank + 1) - valueOf m.rank) * 2 ^ b := by
            gcongr
            linarith
      rw [ofRank?_of_lt hlt] at hproduct ⊢
      rw [Option.bind_some, hsum.unique hnear.roundsTo, ofRank?_of_lt hlt]
      exact hproduct
    · rw [ofRank?_of_ge hlt] at hproduct ⊢
      exact hproduct

end SqlShell.Magnitude

namespace SqlShell

open Magnitude

/-- The number with every digit set to zero that follows digits of `2 ^ 53` or more. -/
def kept (radix n : ℕ) : ℕ :=
  let dropped := Nat.log radix (n / 2 ^ 53)
  n / radix ^ dropped * radix ^ dropped

theorem kept_of_lt {radix n : ℕ} (h : n < 2 ^ 53 * radix) : kept radix n = n := by
  have hlog : Nat.log radix (n / 2 ^ 53) = 0 := by
    apply Nat.log_of_lt
    exact Nat.div_lt_of_lt_mul h
  unfold kept
  dsimp only
  rw [hlog, pow_zero, Nat.div_one, Nat.mul_one]

/-- The digits that are kept make up `2 ^ 53` or more, unless all are kept. -/
theorem exists_kept (radix n : ℕ) :
    ∃ dropped, kept radix n = n / radix ^ dropped * radix ^ dropped ∧
      (dropped = 0 ∨ 2 ^ 53 ≤ n / radix ^ dropped) := by
  refine ⟨Nat.log radix (n / 2 ^ 53), rfl, ?_⟩
  by_cases hn : n / 2 ^ 53 = 0
  · left
    rw [hn, Nat.log_zero_right]
  · by_cases hz : Nat.log radix (n / 2 ^ 53) = 0
    · exact Or.inl hz
    · right
      have hp := Nat.pow_log_le_self radix hn
      have hr := (Nat.log_pos_iff.mp (Nat.pos_of_ne_zero hz)).2
      have hpos : 0 < radix ^ Nat.log radix (n / 2 ^ 53) := Nat.pow_pos (by omega)
      rw [Nat.le_div_iff_mul_le hpos, Nat.mul_comm]
      exact (Nat.le_div_iff_mul_le (by decide)).mp hp

theorem le_kept {radix n : ℕ} (hr : 0 < radix) (hn : 2 ^ 53 ≤ n) : 2 ^ 53 ≤ kept radix n := by
  obtain ⟨dropped, hk, hd⟩ := exists_kept radix n
  rw [hk]
  rcases hd with rfl | hd
  · simpa using hn
  · exact le_trans hd (Nat.le_mul_of_pos_right _ (Nat.pow_pos hr))

theorem kept_next {radix n digit : ℕ} (hn : 2 ^ 53 ≤ n) (hd : digit < radix) (hr : 1 < radix) :
    kept radix (n * radix + digit) = kept radix n * radix := by
  have hdiv : (n * radix + digit) / radix = n := by
    rw [Nat.add_comm, Nat.add_mul_div_right _ _ (by omega), Nat.div_eq_of_lt hd, Nat.zero_add]
  have hlog : Nat.log radix ((n * radix + digit) / 2 ^ 53) = Nat.log radix (n / 2 ^ 53) + 1 := by
    rw [Nat.log_of_one_lt_of_le hr, Nat.div_div_eq_div_mul, Nat.mul_comm (2 ^ 53),
      ← Nat.div_div_eq_div_mul, hdiv]
    rw [Nat.le_div_iff_mul_le (by decide)]
    nlinarith
  unfold kept
  dsimp only
  rw [hlog, pow_succ', ← Nat.div_div_eq_div_mul, hdiv]
  ring

theorem ofDigits?_concat (radix : ℕ) (digits : List ℕ) (digit : ℕ) :
    ofDigits? radix (digits ++ [digit]) =
      (ofDigits? radix digits).bind fun m => nextDigit radix m digit := by
  simp only [ofDigits?, List.foldlM_append, List.foldlM_cons, List.foldlM_nil, bind_pure,
    Option.bind_eq_bind, nextDigit]

/-- The digits build up the number that is kept, rounded once. -/
theorem ofDigits?_roundsTo {b : ℕ} (hb : 0 < b) (hb4 : b ≤ 4) {digits : List ℕ}
    (hd : ∀ digit ∈ digits, digit < 2 ^ b) :
    RoundsTo (kept (2 ^ b) (Nat.ofDigits (2 ^ b) digits.reverse)) (ofDigits? (2 ^ b) digits) := by
  induction digits using List.reverseRecOn with
  | nil =>
    rw [List.reverse_nil, Nat.ofDigits_nil, kept_of_lt (by positivity), Nat.cast_zero]
    exact roundsTo_zero
  | append_singleton digits digit ih =>
    have hlast : digit < 2 ^ b := hd digit (by simp)
    have hr : 1 < 2 ^ b := Nat.one_lt_two_pow (by omega)
    have hih := ih fun d hm => hd d (by simp [hm])
    rw [ofDigits?_concat, List.reverse_append, List.reverse_singleton, List.singleton_append,
      Nat.ofDigits_cons, Nat.add_comm, Nat.mul_comm (2 ^ b)]
    generalize Nat.ofDigits (2 ^ b) digits.reverse = n at *
    -- Up to `2 ^ 53` all digits are kept, and later ones are lost on both sides.
    by_cases hn : n < 2 ^ 53
    · rw [kept_of_lt (by nlinarith)] at hih
      rw [kept_of_lt (by nlinarith)]
      exact nextDigit_of_lt hn hb4 digit hih
    · rw [kept_next (by omega) hlast hr]
      exact nextDigit_of_ge (le_kept (by omega) (by omega)) hlast hih

theorem kept_le (radix n : ℕ) : kept radix n ≤ n := Nat.div_mul_le_self n _

theorem exists_kept_two_pow (b n : ℕ) :
    ∃ e, kept (2 ^ b) n = n / 2 ^ e * 2 ^ e ∧ (e = 0 ∨ 2 ^ 53 ≤ n / 2 ^ e) := by
  obtain ⟨dropped, hk, hd⟩ := exists_kept (2 ^ b) n
  rw [← pow_mul] at hk hd
  refine ⟨b * dropped, hk, ?_⟩
  rcases hd with rfl | hd
  · exact Or.inl (Nat.mul_zero b)
  · exact Or.inr hd

theorem overflow_eq : overflow = ((2 ^ 54 - 1) * 2 ^ 970 : ℕ) := by
  rw [overflow, show 1024 = 54 + 970 by rfl, pow_add, Nat.cast_mul, Nat.cast_pow, Nat.cast_ofNat]
  generalize (2 : ℚ) ^ 970 = p
  norm_num
  ring

/-- The overflow is a multiple of `2 ^ 970`, and more digits are dropped only if the number is
beyond `2 ^ 1024` anyway. -/
theorem overflow_le_kept_iff (b n : ℕ) : overflow ≤ (kept (2 ^ b) n : ℚ) ↔ overflow ≤ (n : ℚ) := by
  rw [overflow_eq, Nat.cast_le, Nat.cast_le]
  constructor
  · intro h
    exact le_trans h (kept_le _ n)
  · intro h
    obtain ⟨e, hk, hd⟩ := exists_kept_two_pow b n
    rw [hk]
    by_cases he : e ≤ 970
    · have hp : 2 ^ 970 = 2 ^ (970 - e) * 2 ^ e := by rw [← pow_add, Nat.sub_add_cancel he]
      rw [hp, ← Nat.mul_assoc] at h ⊢
      exact Nat.mul_le_mul_right _ ((Nat.le_div_iff_mul_le (Nat.two_pow_pos e)).mpr h)
    · rcases hd with rfl | hd
      · omega
      · have hp {p : ℕ} (hlt : p < e) : (2 ^ 54 - 1) * 2 ^ p ≤ n / 2 ^ e * 2 ^ e := by
          calc (2 ^ 54 - 1) * 2 ^ p ≤ 2 ^ 53 * 2 ^ (p + 1) := by
                rw [pow_succ 2 p]
                omega
            _ ≤ n / 2 ^ e * 2 ^ e := Nat.mul_le_mul hd (Nat.pow_le_pow_right (by decide) hlt)
        exact hp (not_le.mp he)

/-- Digits other than zero are dropped, and what is kept is half way from an even magnitude to the
next. -/
def LosesTie (radix n : ℕ) : Prop :=
  kept radix n ≠ n ∧ ∃ low high : Magnitude, Even low.rank ∧ high.rank = low.rank + 1 ∧
    2 * (kept radix n : ℚ) = low.value + high.value

/-- What is kept rounds down at a tie that the number is beyond. -/
theorem LosesTie.ne {radix n : ℕ} (h : LosesTie radix n) {result other : Option Magnitude}
    (hr : RoundsTo n result) (ho : RoundsTo (kept radix n) other) : result ≠ other := by
  obtain ⟨hne, low, high, heven, hhigh, htie⟩ := h
  rw [value_eq, value_eq, hhigh] at htie
  have hlow : NearestRank (kept radix n) low.rank := by
    constructor
    · exact Or.inr ⟨htie, heven⟩
    · intro below hb
      left
      rw [htie, add_comm]
      exact add_lt_add_of_le_of_lt le_rfl (valueOf_strictMono (by omega))
  rw [ho.unique hlow.roundsTo, ofRank?_rank]
  rintro rfl
  have hlt : (kept radix n : ℚ) < n := by exact_mod_cast lt_of_le_of_ne (kept_le radix n) hne
  have := hr.nearestRank.le_upper
  linarith

theorem exists_nearestRank (n : ℕ) : ∃ rank, NearestRank n rank := by
  have h := nearestRank_spec n 1 Nat.one_pos
  rw [Nat.cast_one, div_one] at h
  exact ⟨_, h⟩

/-- Short of half way above, the digits that are dropped do not reach half way. -/
theorem nearestRank_of_kept {n e rank : ℕ} (hbig : 2 ^ 53 ≤ n / 2 ^ e)
    (h : NearestRank (n / 2 ^ e : ℕ) rank)
    (hu : 2 * ((n / 2 ^ e : ℕ) : ℚ) < valueOf rank + valueOf (rank + 1))
    (hlt : n / 2 ^ e * 2 ^ e < n) : NearestRank n (rank + e * 2 ^ 52) := by
  have hv := le_valueOf h (by exact_mod_cast hbig)
  obtain ⟨hrank, ⟨low, hlow⟩, ⟨high, hhigh⟩⟩ := exists_even_of_le hv
  have hn : n < (n / 2 ^ e + 1) * 2 ^ e :=
    Nat.lt_mul_of_div_lt (Nat.lt_succ_self _) (Nat.two_pow_pos e)
  have hscaled := h.scale hrank e
  generalize n / 2 ^ e = head at *
  constructor
  · left
    have hstep : head + 1 ≤ low + high := by
      rw [hlow, hhigh] at hu
      norm_cast at hu
      omega
    rw [Nat.add_right_comm, valueOf_scale hrank.le, valueOf_scale (by omega), hlow, hhigh]
    have : 2 * n < 2 * ((low + high) * 2 ^ e) := by
      have := Nat.mul_le_mul_right (2 ^ e) hstep
      omega
    calc 2 * (n : ℚ) < 2 * ((low + high) * 2 ^ e) := by exact_mod_cast this
      _ = 2 * low * 2 ^ e + 2 * high * 2 ^ e := by ring
  · intro below hb
    left
    have hl : (head : ℚ) * 2 ^ e < n := by exact_mod_cast hlt
    rcases hscaled.lower below hb with hs | ⟨hs, -⟩
    · linarith
    · linarith

theorem eq_of_not_losesTie {b n : ℕ} (h : ¬LosesTie (2 ^ b) n) {result other : Option Magnitude}
    (hr : RoundsTo n result) (ho : RoundsTo (kept (2 ^ b) n) other) : result = other := by
  by_cases hne : kept (2 ^ b) n = n
  · rw [hne] at ho
    exact hr.unique ho
  obtain ⟨e, hk, hd⟩ := exists_kept_two_pow b n
  have hbig : 2 ^ 53 ≤ n / 2 ^ e := by
    rcases hd with rfl | hd
    · simp [hk] at hne
    · exact hd
  have hcast : ((kept (2 ^ b) n : ℕ) : ℚ) = (n / 2 ^ e : ℕ) * 2 ^ e := by
    rw [hk]
    push_cast
    rfl
  obtain ⟨rank, hrank⟩ := exists_nearestRank (n / 2 ^ e)
  have hnormal := (exists_even_of_le (le_valueOf hrank (by exact_mod_cast hbig))).1
  have hscaled := hrank.scale hnormal e
  rw [← hcast] at hscaled
  rw [ho.unique hscaled.roundsTo]
  rcases hrank.upper with hu | ⟨hu, -⟩
  · have hlt : n / 2 ^ e * 2 ^ e < n := hk ▸ lt_of_le_of_ne (kept_le _ n) hne
    exact hr.unique (nearestRank_of_kept hbig hrank hu hlt).roundsTo
  · -- What is kept is half way, so it is beyond the largest magnitude.
    have htie : 2 * (kept (2 ^ b) n : ℚ) =
        valueOf (rank + e * 2 ^ 52) + valueOf (rank + e * 2 ^ 52 + 1) := by
      rw [Nat.add_right_comm, valueOf_scale hnormal.le, valueOf_scale (by omega), ← add_mul, ← hu,
        hcast, mul_assoc]
    have heven : Even (rank + e * 2 ^ 52) := by
      rcases hscaled.upper with hs | ⟨-, hs⟩
      · exact absurd htie hs.ne
      · exact hs
    have hlarge : ¬rank + e * 2 ^ 52 < 2047 * 2 ^ 52 := by
      intro hlt
      have hnext : rank + e * 2 ^ 52 + 1 < 2047 * 2 ^ 52 := by
        rw [Nat.even_iff] at heven
        omega
      exact h ⟨hne, ⟨_, hlt⟩, ⟨_, hnext⟩, heven, rfl, htie⟩
    have hover := not_lt.mp fun hx => hlarge (hscaled.lt_iff.mpr hx)
    rw [ofRank?_of_ge hlarge]
    exact hr.unique (.overflow ((overflow_le_kept_iff b n).mp hover))

theorem roundsTo_kept_eq_iff {b n : ℕ} {result other : Option Magnitude} (h : RoundsTo n result)
    (ho : RoundsTo (kept (2 ^ b) n) other) : result = other ↔ ¬LosesTie (2 ^ b) n := by
  constructor
  · intro he hl
    exact hl.ne h ho he
  · intro hl
    exact eq_of_not_losesTie hl h ho

end SqlShell
