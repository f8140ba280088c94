import SqlShell.Document.Basic
import SqlShell.Proofs.Numerals

/-!
# Texts of numbers

A document writes a number with the digits of a decimal that rounds to it, positionally or with a
power of ten. The text is a JSON number. Its exact value is that of the decimal, and the size of
this value decides between the two forms.
-/

set_option autoImplicit false

namespace SqlShell

open Magnitude

theorem areDigits_append {digits more : List Char} (hd : AreDigits digits) (hm : AreDigits more) :
    AreDigits (digits ++ more) := List.forall_mem_append.mpr ⟨hd, hm⟩

theorem Spelling.areDigits_zeros (count : ℕ) : AreDigits (zeros count) := by
  intro c hc
  rw [List.eq_of_mem_replicate hc]
  rfl

theorem Spelling.length_zeros (count : ℕ) : (zeros count).length = count := List.length_replicate

theorem natural_zeros_append (count : ℕ) (digits : List Char) :
    natural (Spelling.zeros count ++ digits) = natural digits := by
  unfold natural Spelling.zeros
  rw [Nat.ofDigitChars_append, Nat.ofDigitChars_replicate_zero, Nat.mul_zero]

theorem natural_append_zeros (digits : List Char) (count : ℕ) :
    natural (digits ++ Spelling.zeros count) = natural digits * 10 ^ count := by
  unfold natural Spelling.zeros
  rw [Nat.ofDigitChars_append, Nat.ofDigitChars_replicate_zero, Nat.mul_comm]

theorem natural_singleton (c : Char) : natural [c] = c.toNat - 48 := by
  simp [natural, Nat.ofDigitChars_cons]

theorem natural_cons (c : Char) (digits : List Char) :
    natural (c :: digits) = (c.toNat - 48) * 10 ^ digits.length + natural digits := by
  rw [← natural_singleton, ← natural_append]
  rfl

theorem natural_lt {digits : List Char} (h : AreDigits digits) :
    natural digits < 10 ^ digits.length := by
  induction digits with
  | nil => simp [natural]
  | cons c digits ih =>
    have hc := Scan.isDigit_range (h c (by simp))
    have hd := ih fun d hm => h d (by simp [hm])
    have hv : (c.toNat - 48) * 10 ^ digits.length ≤ 9 * 10 ^ digits.length :=
      Nat.mul_le_mul_right _ (by omega)
    rw [natural_cons, List.length_cons, pow_succ]
    omega

theorem le_natural {c : Char} {digits : List Char} (h : AreDigits (c :: digits)) (hc : c ≠ '0') :
    10 ^ digits.length ≤ natural (c :: digits) := by
  have hr := Scan.isDigit_range (h c (by simp))
  have hz : c.toNat ≠ 48 := fun he => hc (Char.toNat_inj.mp he)
  have hv : 1 * 10 ^ digits.length ≤ (c.toNat - 48) * 10 ^ digits.length :=
    Nat.mul_le_mul_right _ (by omega)
  rw [natural_cons]
  omega

theorem getLast?_of_ten_dvd {digits : List Char} (h : AreDigits digits) (hn : digits ≠ [])
    (hd : 10 ∣ natural digits) : digits.getLast? = some '0' := by
  obtain ⟨front, c, rfl⟩ := (List.eq_nil_or_concat' digits).resolve_left hn
  have hr := Scan.isDigit_range (h c (by simp))
  rw [natural_append, natural_singleton, List.length_singleton, pow_one] at hd
  rw [List.getLast?_concat, Option.some.injEq]
  apply Char.toNat_inj.mp
  show c.toNat = 48
  omega

theorem head?_toDigits {n : ℕ} (hn : n ≠ 0) : (Nat.toDigits 10 n).head? ≠ some '0' := by
  intro h
  obtain ⟨rest, hd⟩ := List.head?_eq_some_iff.mp h
  have hv := natural_toDigits n
  have ha := areDigits_toDigits n
  rw [hd] at hv ha
  have hz : natural ('0' :: rest) = natural rest := natural_zeros_append 1 rest
  -- The digits after the zero would be enough for the number.
  have hlt := natural_lt fun c hc => ha c (List.mem_cons_of_mem _ hc)
  rw [← hz, hv] at hlt
  by_cases hr : rest = []
  · rw [hr] at hv
    exact hn hv.symm
  · have hl := (Nat.length_toDigits_le_iff (by decide) (List.length_pos_iff.mpr hr)).mpr hlt
    rw [hd, List.length_cons] at hl
    omega

def signText (negative : Bool) : List Char := if negative then ['-'] else []

/-- A JSON number by its parts: digits that start with a zero only if it stands alone, a fraction
unless it is empty, and a power of ten or none. -/
structure JsonNumber where
  negative : Bool
  whole : List Char
  fraction : List Char
  power : List Char
  shift : ℤ
  whole_ne_nil : whole ≠ []
  whole_digits : AreDigits whole
  whole_zero : whole.head? = some '0' → whole = ['0']
  fraction_digits : AreDigits fraction
  power_form : PowerForm power shift

theorem PowerForm.point_not_mem {text : List Char} {shift : ℤ} (h : PowerForm text shift) :
    '.' ∉ text := by
  intro hc
  rcases h.mem _ hc with hd | ⟨-, hne⟩
  · exact absurd hd (by decide)
  · exact hne rfl

namespace JsonNumber

def pointed (fraction : List Char) : List Char := if fraction = [] then [] else '.' :: fraction

def text (j : JsonNumber) : List Char :=
  signText j.negative ++ (j.whole ++ pointed j.fraction ++ j.power)

def size (j : JsonNumber) : ℚ :=
  (natural j.whole + natural j.fraction / 10 ^ j.fraction.length) * 10 ^ j.shift

theorem signForm_signText (negative : Bool) : SignForm (signText negative) negative := by
  cases negative with
  | false => exact .none
  | true => exact .minus

theorem fixedForm (j : JsonNumber) :
    FixedForm (j.whole ++ pointed j.fraction)
      (natural j.whole + natural j.fraction / 10 ^ j.fraction.length) := by
  unfold pointed
  split
  · rename_i hf
    have h := FixedForm.whole j.whole_ne_nil j.whole_digits
    simpa [hf, natural] using h
  · exact .point (Or.inl j.whole_ne_nil) j.whole_digits j.fraction_digits

theorem decimalForm (j : JsonNumber) : DecimalForm j.text j.negative j.size :=
  .mk (signForm_signText j.negative) j.fixedForm j.power_form

theorem size_eq (j : JsonNumber) :
    j.size = natural (j.whole ++ j.fraction) * 10 ^ (j.shift - j.fraction.length) := by
  rw [size, ← Decimal.value_fixed, Decimal.value, mul_assoc, ← zpow_add₀ (by norm_num),
    neg_add_eq_sub]

theorem mem_text_iff (j : JsonNumber) (c : Char) :
    c ∈ j.text ↔ c ∈ signText j.negative ∨ c ∈ j.whole ++ pointed j.fraction ∨ c ∈ j.power := by
  rw [text, List.mem_append, List.mem_append]

theorem not_mem_signText {negative : Bool} {c : Char} (h : c ≠ '-') : c ∉ signText negative := by
  cases negative with
  | false => simp [signText]
  | true => simpa [signText] using h

theorem mark_not_mem {j : JsonNumber} (h : j.power = []) : 'e' ∉ j.text := by
  rw [mem_text_iff, h]
  rintro (hs | hf | hp)
  · exact not_mem_signText (by decide) hs
  · exact absurd (j.fixedForm.mem _ hf) (by decide)
  · cases hp

theorem point_mem_iff (j : JsonNumber) : '.' ∈ j.text ↔ j.fraction ≠ [] := by
  have hdigit : ∀ {digits}, AreDigits digits → '.' ∉ digits :=
    fun hd hc => absurd (hd _ hc) (by decide)
  rw [mem_text_iff]
  constructor
  · rintro (hs | hf | hp) hn
    · exact not_mem_signText (by decide) hs
    · rw [hn, pointed, if_pos rfl, List.append_nil] at hf
      exact hdigit j.whole_digits hf
    · exact j.power_form.point_not_mem hp
  · intro hn
    apply Or.inr (Or.inl _)
    simp [pointed, hn]

theorem shift_eq_zero {j : JsonNumber} (h : j.power = []) : j.shift = 0 := by
  have hp := j.power_form
  rw [h] at hp
  generalize j.shift = shift at hp
  cases hp
  rfl

/-- Without a power of ten, a fraction that does not end in zero is one of a number that is not
whole. -/
theorem fraction_eq_nil_iff {j : JsonNumber} (hp : j.power = [])
    (hl : j.fraction.getLast? ≠ some '0') : j.fraction = [] ↔ ∃ n : ℕ, j.size = n := by
  rw [size, shift_eq_zero hp, zpow_zero, mul_one]
  constructor
  · intro hf
    exact ⟨natural j.whole, by simp [hf, natural]⟩
  · rintro ⟨n, hn⟩
    by_contra hf
    have hpos : 0 < j.fraction.length := List.length_pos_iff.mpr hf
    have hten : 10 ∣ 10 ^ j.fraction.length := dvd_pow_self 10 hpos.ne'
    have he : natural j.whole * 10 ^ j.fraction.length + natural j.fraction =
        10 ^ j.fraction.length * n := by
      field_simp at hn
      exact_mod_cast hn
    -- So the fraction is a multiple of its power of ten, and its last digit is zero.
    have hd : 10 ∣ natural j.fraction := by
      rw [← Nat.dvd_add_right (hten.mul_left (natural j.whole)), he]
      exact hten.mul_right n
    exact hl (getLast?_of_ten_dvd j.fraction_digits hf hd)

end JsonNumber

namespace Spelling

def size (s : Spelling) : ℚ := natural s.digits * 10 ^ (s.point - s.digits.length)

structure Proper (s : Spelling) : Prop where
  ne_nil : s.digits ≠ []
  digits : AreDigits s.digits
  head : s.digits.head? ≠ some '0'
  last : s.digits.getLast? ≠ some '0'

/-- The place of the point is the order of magnitude. -/
theorem Proper.bounds {s : Spelling} (h : s.Proper) :
    10 ^ (s.point - 1) ≤ s.size ∧ s.size < 10 ^ s.point := by
  rcases s with ⟨digits, point⟩
  cases digits with
  | nil => exact absurd rfl h.ne_nil
  | cons c rest =>
    have hlow : (10 : ℚ) ^ rest.length ≤ natural (c :: rest) := by
      exact_mod_cast le_natural h.digits fun hc => h.head (by rw [hc]; rfl)
    have hhigh : (natural (c :: rest) : ℚ) < 10 ^ (rest.length + 1) := by
      exact_mod_cast natural_lt h.digits
    have hpos : (0 : ℚ) < 10 ^ (point - (rest.length + 1)) := by positivity
    have hfirst : (10 : ℚ) ^ (point - 1) = 10 ^ rest.length * 10 ^ (point - (rest.length + 1)) := by
      rw [← zpow_natCast, ← zpow_add₀ (by norm_num)]
      congr 1
      omega
    have hnext : (10 : ℚ) ^ point = 10 ^ (rest.length + 1) * 10 ^ (point - (rest.length + 1)) := by
      rw [← zpow_natCast, ← zpow_add₀ (by norm_num)]
      congr 1
      push_cast
      omega
    unfold size
    rw [hfirst, hnext]
    push_cast [List.length_cons]
    exact ⟨mul_le_mul_of_nonneg_right hlow hpos.le, mul_lt_mul_of_pos_right hhigh hpos⟩

theorem Proper.between_iff {s : Spelling} (h : s.Proper) (low high : ℤ) :
    (low < s.point ∧ s.point ≤ high) ↔ 10 ^ low ≤ s.size ∧ s.size < 10 ^ high := by
  obtain ⟨hlow, hhigh⟩ := h.bounds
  have hmono : ∀ {a b : ℤ}, a ≤ b → (10 : ℚ) ^ a ≤ 10 ^ b :=
    fun hab => zpow_le_zpow_right₀ (by norm_num) hab
  constructor
  · intro hp
    exact ⟨(hmono (by omega)).trans hlow, hhigh.trans_le (hmono hp.2)⟩
  · intro hs
    constructor
    · by_contra hp
      exact absurd (hhigh.trans_le (hmono (by omega))) (not_lt.mpr hs.1)
    · by_contra hp
      exact absurd ((hmono (by omega)).trans hlow) (not_le.mpr hs.2)

structure Writes (s : Spelling) (negative : Bool) (j : JsonNumber) : Prop where
  sign : j.negative = negative
  size : j.size = s.size
  fraction : j.fraction.getLast? ≠ some '0'

/-- The point stands before the digits. -/
theorem Proper.exists_fraction {s : Spelling} (h : s.Proper) (negative : Bool) (hp : s.point ≤ 0) :
    ∃ j, s.Writes negative j ∧ j.power = [] ∧
      j.text = signText negative ++ '0' :: '.' :: (zeros (-s.point).toNat ++ s.digits) := by
  have hn : zeros (-s.point).toNat ++ s.digits ≠ [] := by simp [h.ne_nil]
  refine ⟨⟨negative, zeros 1, zeros (-s.point).toNat ++ s.digits, [], 0, by simp [zeros],
    areDigits_zeros 1, fun _ => rfl, areDigits_append (areDigits_zeros _) h.digits, .none⟩,
    ⟨rfl, ?_, ?_⟩, rfl, ?_⟩
  · rw [JsonNumber.size_eq, size]
    dsimp only
    rw [natural_zeros_append, natural_zeros_append, List.length_append, length_zeros]
    congr 2
    omega
  · rw [List.getLast?_append_of_ne_nil _ h.ne_nil]
    exact h.last
  · simp [JsonNumber.text, JsonNumber.pointed, zeros, h.ne_nil]

/-- The point stands after the digits. -/
theorem Proper.exists_whole {s : Spelling} (h : s.Proper) (negative : Bool)
    (hp : s.digits.length ≤ s.point) :
    ∃ j, s.Writes negative j ∧ j.power = [] ∧
      j.text = signText negative ++ (s.digits ++ zeros (s.point.toNat - s.digits.length)) := by
  refine ⟨⟨negative, s.digits ++ zeros (s.point.toNat - s.digits.length), [], [], 0,
    by simp [h.ne_nil], areDigits_append h.digits (areDigits_zeros _), ?_, by simp [AreDigits],
    .none⟩, ⟨rfl, ?_, by simp⟩, rfl, ?_⟩
  · rw [List.head?_append_of_ne_nil _ h.ne_nil]
    exact fun hz => absurd hz h.head
  · rw [JsonNumber.size_eq, size]
    dsimp only
    rw [List.append_nil, natural_append_zeros, Nat.cast_mul, Nat.cast_pow, Nat.cast_ofNat,
      mul_assoc, ← zpow_natCast, ← zpow_add₀ (by norm_num), List.length_nil]
    congr 2
    omega
  · simp [JsonNumber.text, JsonNumber.pointed]

/-- Digits before the point, the other digits after it, and a power of ten that moves the point to
its place. -/
theorem Proper.exists_split {s : Spelling} (h : s.Proper) (negative : Bool) (count : ℕ)
    (hc : 0 < count) (hl : count ≤ s.digits.length) {power : List Char} {shift : ℤ}
    (hf : PowerForm power shift) (hs : s.point = count + shift) :
    ∃ j, s.Writes negative j ∧ j.power = power ∧ j.shift = shift ∧
      j.whole = s.digits.take count ∧ j.text = signText negative ++
        (s.digits.take count ++ JsonNumber.pointed (s.digits.drop count) ++ power) := by
  have hhead : (s.digits.take count).head? = s.digits.head? := by
    rw [List.head?_take, if_neg hc.ne']
  refine ⟨⟨negative, s.digits.take count, s.digits.drop count, power, shift, ?_,
    fun c hm => h.digits c (List.mem_of_mem_take hm), ?_,
    fun c hm => h.digits c (List.mem_of_mem_drop hm), hf⟩, ⟨rfl, ?_, ?_⟩, rfl, rfl, rfl, rfl⟩
  · rw [ne_eq, List.take_eq_nil_iff, not_or]
    exact ⟨hc.ne', h.ne_nil⟩
  · rw [hhead]
    exact fun hz => absurd hz h.head
  · rw [JsonNumber.size_eq, size]
    dsimp only
    rw [List.take_append_drop, List.length_drop]
    congr 2
    omega
  · dsimp only
    rw [List.getLast?_drop]
    split
    · simp
    · exact h.last

theorem Proper.exists_positional {s : Spelling} (h : s.Proper) (negative : Bool) :
    ∃ j, s.Writes negative j ∧ j.power = [] ∧ j.text = signText negative ++ s.positional := by
  unfold positional
  split
  · rename_i hp
    exact h.exists_fraction negative hp
  · dsimp only
    split
    · exact h.exists_whole negative (by omega)
    · obtain ⟨j, hw, hp, -, -, ht⟩ := h.exists_split negative s.point.toNat (by omega) (by omega)
        .none (by omega)
      refine ⟨j, hw, hp, ?_⟩
      rw [ht, JsonNumber.pointed, if_neg, List.append_nil]
      rw [List.drop_eq_nil_iff]
      omega

theorem powerForm_signed {plus : List Char} (hs : SignForm plus false) (power : ℤ) :
    PowerForm ('e' :: ((if power < 0 then ['-'] else plus) ++ Nat.toDigits 10 power.natAbs))
      power := by
  have hd := areDigits_toDigits power.natAbs
  by_cases hp : power < 0
  · have h := PowerForm.power (Or.inl rfl) .minus Nat.toDigits_ne_nil hd
    rw [natural_toDigits, if_pos rfl, ← Int.abs_eq_natAbs, abs_of_neg hp, neg_neg] at h
    rwa [if_pos hp]
  · have h := PowerForm.power (Or.inl rfl) hs Nat.toDigits_ne_nil hd
    rw [natural_toDigits, if_neg Bool.false_ne_true, ← Int.abs_eq_natAbs,
      abs_of_nonneg (by omega)] at h
    rwa [if_neg hp]

def powerText (power : ℤ) : List Char :=
  'e' :: (if power < 0 then '-' else '+') :: Nat.toDigits 10 power.natAbs

theorem powerForm_powerText (power : ℤ) : PowerForm (powerText power) power := by
  have h := powerForm_signed .plus power
  unfold powerText
  split at h
  · rename_i hp
    rwa [if_pos hp]
  · rename_i hp
    rwa [if_neg hp]

theorem scientific_eq (s : Spelling) :
    s.scientific ['+'] = s.digits.take 1 ++ JsonNumber.pointed (s.digits.drop 1) ++
      powerText (s.point - 1) := by
  by_cases hp : s.point - 1 < 0
  · simp [scientific, JsonNumber.pointed, powerText, hp]
  · simp [scientific, JsonNumber.pointed, powerText, hp]

theorem Proper.exists_scientific {s : Spelling} (h : s.Proper) (negative : Bool) :
    ∃ j, s.Writes negative j ∧ j.power = powerText (s.point - 1) ∧
      j.text = signText negative ++ s.scientific ['+'] := by
  rw [scientific_eq]
  obtain ⟨j, hw, hp, -, -, ht⟩ := h.exists_split negative 1 Nat.one_pos
    (List.length_pos_iff.mpr h.ne_nil) (powerForm_powerText (s.point - 1)) (by omega)
  exact ⟨j, hw, hp, ht⟩

end Spelling

namespace Decimal

theorem exists_zeros (d : Decimal) :
    ∃ count, Nat.toDigits 10 d.coefficient = d.spelling.digits ++ Spelling.zeros count := by
  have hsplit := List.takeWhile_append_dropWhile (p := (· == '0'))
    (l := (Nat.toDigits 10 d.coefficient).reverse)
  have hzero : ∀ c ∈ (Nat.toDigits 10 d.coefficient).reverse.takeWhile (· == '0'), c = '0' := by
    intro c hc
    have hz := Scan.mem_takeWhile hc
    exact beq_iff_eq.mp hz
  refine ⟨((Nat.toDigits 10 d.coefficient).reverse.takeWhile (· == '0')).length, ?_⟩
  rw [← List.reverse_inj, List.reverse_append, spelling, List.reverse_reverse, Spelling.zeros,
    List.reverse_replicate, ← List.eq_replicate_of_mem hzero, hsplit]

theorem spelling_proper {d : Decimal} (h : d.coefficient ≠ 0) : d.spelling.Proper := by
  obtain ⟨count, hd⟩ := d.exists_zeros
  have hv := natural_toDigits d.coefficient
  have hn : d.spelling.digits ≠ [] := by
    intro hn
    rw [hd, hn, natural_append_zeros] at hv
    exact h (by rw [← hv]; simp [natural])
  constructor
  · exact hn
  · intro c hc
    exact areDigits_toDigits d.coefficient c (by rw [hd]; exact List.mem_append_left _ hc)
  · have hh := head?_toDigits h
    rwa [hd, List.head?_append_of_ne_nil _ hn] at hh
  · intro hl
    rw [spelling, List.getLast?_reverse] at hl
    exact absurd (Scan.head?_dropWhile _ _ hl) (by decide)

/-- Zeros at the end of the coefficient do not change the value. -/
theorem size_spelling (d : Decimal) : d.spelling.size = d.value := by
  obtain ⟨count, hd⟩ := d.exists_zeros
  have hv := natural_toDigits d.coefficient
  have hp : d.spelling.point = d.spelling.digits.length + count + d.exponent := by
    rw [show d.spelling.point = (Nat.toDigits 10 d.coefficient).length + d.exponent from rfl, hd,
      List.length_append, Spelling.length_zeros, Nat.cast_add]
  rw [hd, natural_append_zeros] at hv
  rw [Spelling.size, value, ← hv, hp, Nat.cast_mul, Nat.cast_pow, Nat.cast_ofNat, mul_assoc,
    ← zpow_natCast, ← zpow_add₀ (by norm_num)]
  congr 2
  omega

end Decimal

namespace Magnitude

theorem spelling_eq {m : Magnitude} (hm : m.rank ≠ 0) : m.spelling = m.shortest.spelling :=
  if_neg hm

theorem roundsTo_size {m : Magnitude} (hm : m.rank ≠ 0) : RoundsTo m.spelling.size (some m) := by
  rw [spelling_eq hm, Decimal.size_spelling, ← m.shortest_magnitude?]
  exact m.shortest.magnitude?_roundsTo

theorem spelling_proper {m : Magnitude} (hm : m.rank ≠ 0) : m.spelling.Proper := by
  rw [spelling_eq hm]
  apply Decimal.spelling_proper
  intro hz
  -- The digits round back to the magnitude, and zero rounds to zero.
  have hr := roundsTo_size hm
  rw [spelling_eq hm, Decimal.size_spelling, Decimal.value, hz, Nat.cast_zero, zero_mul] at hr
  have he := hr.unique roundsTo_zero
  cases he
  exact hm rfl

end Magnitude

namespace Value

theorem numberFormat_write (m : Magnitude) :
    numberFormat.write m =
      if -6 < m.spelling.point ∧ m.spelling.point ≤ 21 then m.spelling.positional
      else m.spelling.scientific ['+'] := by
  unfold NumberFormat.write
  simp [numberFormat]

theorem ofNumber_of_ne_zero (negative : Bool) {m : Magnitude} (hm : m.rank ≠ 0) :
    ofNumber (.finite negative m) = .number (signText negative ++ numberFormat.write m) := by
  simp [ofNumber, signText, hm]

/-- The number that is written, with a power of ten or without. -/
theorem exists_ofNumber (negative : Bool) {m : Magnitude} (hm : m.rank ≠ 0) :
    ∃ j : JsonNumber, m.spelling.Writes negative j ∧
      ofNumber (.finite negative m) = .number j.text ∧
      if -6 < m.spelling.point ∧ m.spelling.point ≤ 21 then j.power = []
      else j.power = Spelling.powerText (m.spelling.point - 1) ∧
        j.text = signText negative ++ m.spelling.scientific ['+'] := by
  have hs := spelling_proper hm
  rw [ofNumber_of_ne_zero negative hm, numberFormat_write]
  split
  · obtain ⟨j, hw, hp, ht⟩ := hs.exists_positional negative
    exact ⟨j, hw, by rw [ht], hp⟩
  · obtain ⟨j, hw, hp, ht⟩ := hs.exists_scientific negative
    exact ⟨j, hw, by rw [ht], hp, ht⟩

end Value

/-- The text of a number other than zero is a JSON number with the value of its digits, which round
to it. It has a power of ten unless this value is at least a millionth and less than `10 ^ 21`, its
fraction does not end in zero, and without a power of ten only numbers that are not whole have a
point. -/
theorem ofNumber_eq_jsonNumber (negative : Bool) {m : Magnitude} (hm : m.rank ≠ 0) :
    m.spelling.Proper ∧ m.IsNearest m.spelling.size ∧
    ∃ j : JsonNumber, Value.ofNumber (.finite negative m) = .number j.text ∧
      j.negative = negative ∧ j.size = m.spelling.size ∧
      ('e' ∉ j.text ↔ 10 ^ (-6 : ℤ) ≤ m.spelling.size ∧ m.spelling.size < 10 ^ (21 : ℤ)) ∧
      ('e' ∈ j.text → j.text = signText negative ++ (m.spelling.digits.take 1 ++
        JsonNumber.pointed (m.spelling.digits.drop 1) ++
        Spelling.powerText (m.spelling.point - 1))) ∧
      j.fraction.getLast? ≠ some '0' ∧
      ('e' ∉ j.text → ('.' ∈ j.text ↔ ¬∃ n : ℕ, m.spelling.size = n)) := by
  have hs := spelling_proper hm
  refine ⟨hs, (roundsTo_size hm).nearestRank.isNearest, ?_⟩
  obtain ⟨j, hw, ht, hform⟩ := Value.exists_ofNumber negative hm
  refine ⟨j, ht, hw.sign, hw.size, ?_⟩
  rw [← hs.between_iff]
  split at hform
  · rename_i hp
    have he := JsonNumber.mark_not_mem hform
    refine ⟨iff_of_true he hp, fun h => absurd h he, hw.fraction, fun _ => ?_⟩
    rw [j.point_mem_iff, ne_eq, JsonNumber.fraction_eq_nil_iff hform hw.fraction, hw.size]
  · rename_i hp
    have he : 'e' ∈ j.text := by
      rw [j.mem_text_iff, hform.1]
      exact Or.inr (Or.inr List.mem_cons_self)
    rw [← Spelling.scientific_eq]
    exact ⟨iff_of_false (not_not.mpr he) hp, fun _ => hform.2, hw.fraction, fun h => absurd he h⟩

/-- The least positive number. -/
theorem ofNumber_least :
    ∃ j : JsonNumber, Value.ofNumber (.finite true ⟨1, by decide⟩) = .number j.text ∧
      j.text = "-5e-324".toList ∧ j.size = 5 * 10 ^ (-324 : ℤ) := by
  have hspelling : (⟨1, by decide⟩ : Magnitude).spelling = ⟨['5'], -323⟩ := by decide +kernel
  obtain ⟨-, -, j, ht, -, hs, -⟩ := ofNumber_eq_jsonNumber true (m := ⟨1, by decide⟩) (by decide)
  refine ⟨j, ht, ?_, ?_⟩
  · have hw := Value.ofNumber_of_ne_zero true (m := ⟨1, by decide⟩) (by decide)
    rw [Value.numberFormat_write, hspelling, ht, Value.number.injEq] at hw
    rw [hw]
    decide
  · rw [hs, hspelling]
    simp [Spelling.size, natural, Nat.ofDigitChars_cons]

end SqlShell
