import SqlShell.Binary64.Reader
import SqlShell.Proofs.DecimalRounding
import SqlShell.Proofs.Lexemes
import SqlShell.Proofs.RadixRounding

/-!
# Texts that read as numbers

A numeral is a signed decimal with an optional fraction and power of ten, or a zero, a radix mark
and digits of that radix. Each has an exact value. A text reads as a number exactly if it is a
numeral with blanks around it and its value does not overflow, and a decimal is rounded once.
-/

set_option autoImplicit false

namespace SqlShell

open Magnitude

def AreDigits (text : List Char) : Prop := ∀ c ∈ text, c.isDigit = true

def natural (digits : List Char) : ℕ := Nat.ofDigitChars 10 digits 0

inductive SignForm : List Char → Bool → Prop
  | none : SignForm [] false
  | plus : SignForm ['+'] false
  | minus : SignForm ['-'] true

inductive FixedForm : List Char → ℚ → Prop
  | whole {digits : List Char} (hn : digits ≠ []) (hd : AreDigits digits) :
      FixedForm digits (natural digits)
  | point {digits fraction : List Char} (hn : digits ≠ [] ∨ fraction ≠ []) (hd : AreDigits digits)
      (hf : AreDigits fraction) :
      FixedForm (digits ++ '.' :: fraction)
        (natural digits + natural fraction / 10 ^ fraction.length)

inductive PowerForm : List Char → ℤ → Prop
  | none : PowerForm [] 0
  | power {mark : Char} {sign digits : List Char} {negative : Bool}
      (hm : mark = 'e' ∨ mark = 'E') (hs : SignForm sign negative) (hn : digits ≠ [])
      (hd : AreDigits digits) :
      PowerForm (mark :: (sign ++ digits))
        (if negative then -(natural digits : ℤ) else natural digits)

inductive DecimalForm : List Char → Bool → ℚ → Prop
  | mk {sign fixed power : List Char} {negative : Bool} {x : ℚ} {shift : ℤ}
      (hs : SignForm sign negative) (hf : FixedForm fixed x) (hp : PowerForm power shift) :
      DecimalForm (sign ++ (fixed ++ power)) negative (x * 10 ^ shift)

def radixMarks : List (Char × ℕ) :=
  [('x', 16), ('X', 16), ('o', 8), ('O', 8), ('b', 2), ('B', 2)]

def IsDigitOf (radix : ℕ) (c : Char) (value : ℕ) : Prop :=
  value < radix ∧ (c = Nat.digitChar value ∨ c = (Nat.digitChar value).toUpper)

inductive RadixForm : List Char → ℕ → ℕ → Prop
  | mk {mark : Char} {radix : ℕ} {digits : List Char} {values : List ℕ}
      (hm : (mark, radix) ∈ radixMarks) (hn : digits ≠ [])
      (hd : List.Forall₂ (IsDigitOf radix) digits values) :
      RadixForm ('0' :: mark :: digits) radix (Nat.ofDigits radix values.reverse)

theorem natural_append (digits fraction : List Char) :
    natural (digits ++ fraction) = natural digits * 10 ^ fraction.length + natural fraction := by
  unfold natural
  rw [Nat.ofDigitChars_append, Nat.ofDigitChars_eq_ofDigitChars_zero, Nat.mul_comm]

theorem areDigits_toDigits (n : ℕ) : AreDigits (Nat.toDigits 10 n) :=
  fun _ => Nat.isDigit_of_mem_toDigits (by decide) (by decide)

theorem natural_toDigits (n : ℕ) : natural (Nat.toDigits 10 n) = n := Nat.ofDigitChars_ten_toDigits

theorem decimalForm_toDigits (n : ℕ) : DecimalForm (Nat.toDigits 10 n) false n := by
  have h := DecimalForm.mk .none (.whole Nat.toDigits_ne_nil (areDigits_toDigits n)) .none
  rwa [List.nil_append, List.append_nil, natural_toDigits, zpow_zero, mul_one] at h

theorem FixedForm.ne_nil {text : List Char} {x : ℚ} (h : FixedForm text x) : text ≠ [] := by
  cases h with
  | whole hn hd => exact hn
  | point hn hd hf => simp

/-- The characters of a fixed decimal. -/
def numeralMarks : List Char := ['+', '-', '.', 'e', 'E']

theorem SignForm.mem {text : List Char} {negative : Bool} (h : SignForm text negative) :
    ∀ c ∈ text, c = '+' ∨ c = '-' := by
  cases h <;> simp

theorem FixedForm.mem {text : List Char} {x : ℚ} (h : FixedForm text x) :
    ∀ c ∈ text, c.isDigit = true ∨ c = '.' := by
  intro c hc
  cases h with
  | whole hn hd => exact Or.inl (hd c hc)
  | point hn hd hf =>
    rcases List.mem_append.mp hc with hc | hc
    · exact Or.inl (hd c hc)
    · rcases List.mem_cons.mp hc with hc | hc
      · exact Or.inr hc
      · exact Or.inl (hf c hc)

theorem PowerForm.mem {text : List Char} {shift : ℤ} (h : PowerForm text shift) :
    ∀ c ∈ text, c.isDigit = true ∨ c ∈ numeralMarks ∧ c ≠ '.' := by
  cases h with
  | none => simp
  | power hm hs _ hd =>
    intro c hc
    rw [List.mem_cons, List.mem_append] at hc
    rcases hc with rfl | hc | hc
    · rcases hm with rfl | rfl
      · decide
      · decide
    · rcases hs.mem c hc with rfl | rfl
      · decide
      · decide
    · exact Or.inl (hd c hc)

theorem DecimalForm.mem {text : List Char} {negative : Bool} {x : ℚ}
    (h : DecimalForm text negative x) : ∀ c ∈ text, c.isDigit = true ∨ c ∈ numeralMarks := by
  cases h with
  | mk hs hf hp =>
    intro c hc
    rw [List.mem_append, List.mem_append] at hc
    rcases hc with hc | hc | hc
    · rcases hs.mem c hc with rfl | rfl
      · decide
      · decide
    · rcases hf.mem c hc with hd | rfl
      · exact Or.inl hd
      · decide
    · exact (hp.mem c hc).imp_right And.left

namespace Decimal

theorem natural?_eq_some {text : List Char} {n : ℕ} (h : natural? text = some n) :
    text ≠ [] ∧ AreDigits text ∧ n = natural text := by
  unfold natural? at h
  split at h
  · rename_i ht
    cases h
    exact ⟨ht.1, List.all_eq_true.mp ht.2, rfl⟩
  · cases h

theorem natural?_of_digits {text : List Char} (hn : text ≠ []) (hd : AreDigits text) :
    natural? text = some (natural text) := Scan.natural?_digits hn hd

theorem value_fixed {digits fraction : List Char} :
    (⟨natural (digits ++ fraction), -fraction.length⟩ : Decimal).value =
      natural digits + natural fraction / 10 ^ fraction.length := by
  unfold value
  rw [natural_append, zpow_neg, zpow_natCast]
  push_cast
  field_simp

theorem fixedForm_of_ofFixed? {text : List Char} {d : Decimal} (h : ofFixed? text = some d) :
    FixedForm text d.value := by
  have hs := List.takeWhile_append_dropWhile (p := Char.isDigit) (l := text)
  have hw : AreDigits (text.takeWhile Char.isDigit) := fun c => Scan.mem_takeWhile
  unfold ofFixed? at h
  dsimp only at h
  generalize text.takeWhile Char.isDigit = whole at *
  split at h
  · rename_i hr
    rw [hr, List.append_nil] at hs
    obtain ⟨n, hn, rfl⟩ := Option.map_eq_some_iff.mp h
    obtain ⟨hne, hd, rfl⟩ := natural?_eq_some hn
    rw [← hs]
    have := FixedForm.whole hne hd
    simpa [value] using this
  · rename_i fraction hr
    rw [hr] at hs
    split at h
    · rename_i hf
      obtain ⟨n, hn, rfl⟩ := Option.map_eq_some_iff.mp h
      obtain ⟨hne, hd, rfl⟩ := natural?_eq_some hn
      rw [← hs, value_fixed]
      apply FixedForm.point _ hw (List.all_eq_true.mp hf)
      by_contra hempty
      rw [not_or, not_not, not_not] at hempty
      exact hne (by rw [hempty.1, hempty.2]; rfl)
    · cases h
  · cases h

theorem ofFixed?_of_fixedForm {text : List Char} {x : ℚ} (h : FixedForm text x) :
    ∃ d, ofFixed? text = some d ∧ d.value = x := by
  cases h with
  | whole hn hd =>
    have ht : (text ++ []).takeWhile Char.isDigit = text := Scan.takeWhile_append_stop hd (by simp)
    have hr : (text ++ []).dropWhile Char.isDigit = [] := Scan.dropWhile_append_stop hd (by simp)
    rw [List.append_nil] at ht hr
    refine ⟨⟨natural text, 0⟩, ?_, by simp [value]⟩
    unfold ofFixed?
    simp only [ht, hr, natural?_of_digits hn hd, Option.map_some]
  | @point digits fraction hn hd hf =>
    have hp : ∀ c ∈ ('.' :: fraction).head?, c.isDigit = false := by simp
    have hall : AreDigits (digits ++ fraction) := by
      intro c hc
      rcases List.mem_append.mp hc with hc | hc
      · exact hd c hc
      · exact hf c hc
    have hne : digits ++ fraction ≠ [] := by
      intro he
      rw [List.append_eq_nil_iff] at he
      rcases hn with hn | hn
      · exact hn he.1
      · exact hn he.2
    refine ⟨_, ?_, value_fixed⟩
    unfold ofFixed?
    simp only [Scan.takeWhile_append_stop hd hp, Scan.dropWhile_append_stop hd hp,
      if_pos (List.all_eq_true.mpr hf), natural?_of_digits hne hall, Option.map_some]

theorem integer?_eq_some {text : List Char} {n : ℤ} (h : integer? text = some n) :
    ∃ sign digits negative, SignForm sign negative ∧ digits ≠ [] ∧ AreDigits digits ∧
      text = sign ++ digits ∧ n = if negative then -(natural digits : ℤ) else natural digits := by
  unfold integer? at h
  split at h
  · rename_i digits
    obtain ⟨k, hk, rfl⟩ := Option.map_eq_some_iff.mp h
    obtain ⟨hn, hd, rfl⟩ := natural?_eq_some hk
    exact ⟨['+'], digits, false, .plus, hn, hd, rfl, rfl⟩
  · rename_i digits
    obtain ⟨k, hk, rfl⟩ := Option.map_eq_some_iff.mp h
    obtain ⟨hn, hd, rfl⟩ := natural?_eq_some hk
    exact ⟨['-'], digits, true, .minus, hn, hd, rfl, rfl⟩
  · obtain ⟨k, hk, rfl⟩ := Option.map_eq_some_iff.mp h
    obtain ⟨hn, hd, rfl⟩ := natural?_eq_some hk
    exact ⟨[], text, false, .none, hn, hd, rfl, rfl⟩

theorem integer?_of_form {sign digits : List Char} {negative : Bool} (hs : SignForm sign negative)
    (hn : digits ≠ []) (hd : AreDigits digits) :
    integer? (sign ++ digits) =
      some (if negative then -(natural digits : ℤ) else natural digits) := by
  cases hs with
  | plus => simp [integer?, natural?_of_digits hn hd]
  | minus => simp [integer?, natural?_of_digits hn hd]
  | none =>
    rw [List.nil_append]
    unfold integer?
    split
    · have := hd '+' (by simp)
      exact absurd this (by decide)
    · have := hd '-' (by simp)
      exact absurd this (by decide)
    · simp [natural?_of_digits hn hd]

theorem isPowerMark_iff {c : Char} : isPowerMark c = true ↔ c = 'e' ∨ c = 'E' := by
  simp [isPowerMark]

theorem not_isPowerMark {c : Char} (h : c.isDigit = true ∨ c = '.') : isPowerMark c = false := by
  rcases h with h | rfl
  · by_contra hm
    rw [Bool.not_eq_false, isPowerMark_iff] at hm
    rcases hm with rfl | rfl
    · exact absurd h (by decide)
    · exact absurd h (by decide)
  · rfl

theorem value_shift (d : Decimal) (shift : ℤ) :
    (⟨d.coefficient, d.exponent + shift⟩ : Decimal).value = d.value * 10 ^ shift := by
  unfold value
  rw [zpow_add₀ (by norm_num), mul_assoc]

theorem form_of_ofUnsigned? {text : List Char} {d : Decimal} (h : ofUnsigned? text = some d) :
    ∃ fixed power x shift, FixedForm fixed x ∧ PowerForm power shift ∧ text = fixed ++ power ∧
      d.value = x * 10 ^ shift := by
  have hs := List.takeWhile_append_dropWhile (p := (!isPowerMark ·)) (l := text)
  have hm := Scan.head?_dropWhile (p := (!isPowerMark ·)) text
  unfold ofUnsigned? at h
  split at h
  · exact ⟨text, [], d.value, 0, fixedForm_of_ofFixed? h, .none, by simp, by simp⟩
  · rename_i mark power hr
    rw [hr] at hs hm
    simp only [Option.bind_eq_bind, Option.bind_eq_some_iff, Option.pure_def,
      Option.some.injEq] at h
    obtain ⟨fixed, hf, shift, hi, rfl⟩ := h
    obtain ⟨sign, digits, negative, hsign, hn, hd, rfl, rfl⟩ := integer?_eq_some hi
    have hmark := hm mark rfl
    rw [Bool.not_eq_false', isPowerMark_iff] at hmark
    exact ⟨_, _, _, _, fixedForm_of_ofFixed? hf, .power hmark hsign hn hd, hs.symm, value_shift _ _⟩

theorem ofUnsigned?_of_form {fixed power : List Char} {x : ℚ} {shift : ℤ} (hf : FixedForm fixed x)
    (hp : PowerForm power shift) :
    ∃ d, ofUnsigned? (fixed ++ power) = some d ∧ d.value = x * 10 ^ shift := by
  obtain ⟨d, hd, rfl⟩ := ofFixed?_of_fixedForm hf
  have hplain : ∀ c ∈ fixed, (!isPowerMark c) = true := by
    intro c hc
    rw [not_isPowerMark (hf.mem c hc)]
    rfl
  cases hp with
  | none =>
    have hr : (fixed ++ []).dropWhile (!isPowerMark ·) = [] :=
      Scan.dropWhile_append_stop hplain (by simp)
    refine ⟨d, ?_, by simp⟩
    unfold ofUnsigned?
    rw [hr, List.append_nil]
    exact hd
  | @power mark sign digits negative hm hs hn hdigits =>
    have hstop : ∀ c ∈ (mark :: (sign ++ digits)).head?, (!isPowerMark c) = false := by
      intro c hc
      cases hc
      rw [isPowerMark_iff.mpr hm]
      rfl
    refine ⟨⟨d.coefficient, d.exponent + _⟩, ?_, value_shift d _⟩
    unfold ofUnsigned?
    rw [Scan.dropWhile_append_stop hplain hstop, Scan.takeWhile_append_stop hplain hstop]
    simp [hd, integer?_of_form hs hn hdigits]

end Decimal

theorem signedDecimal?_eq_some {text : List Char} {negative : Bool} {d : Decimal}
    (h : signedDecimal? text = some (negative, d)) : DecimalForm text negative d.value := by
  have hform : ∀ {sign rest : List Char}, SignForm sign negative →
      Decimal.ofUnsigned? rest = some d → DecimalForm (sign ++ rest) negative d.value := by
    intro sign rest hs hr
    obtain ⟨fixed, power, x, shift, hf, hp, rfl, hv⟩ := Decimal.form_of_ofUnsigned? hr
    rw [hv]
    exact .mk hs hf hp
  unfold signedDecimal? at h
  split at h
  · obtain ⟨_, hd, he⟩ := Option.map_eq_some_iff.mp h
    cases he
    exact hform .plus hd
  · obtain ⟨_, hd, he⟩ := Option.map_eq_some_iff.mp h
    cases he
    exact hform .minus hd
  · obtain ⟨_, hd, he⟩ := Option.map_eq_some_iff.mp h
    cases he
    exact hform .none hd

theorem signedDecimal?_of_form {text : List Char} {negative : Bool} {x : ℚ}
    (h : DecimalForm text negative x) :
    ∃ d, signedDecimal? text = some (negative, d) ∧ d.value = x := by
  cases h with
  | @mk sign fixed power _ y shift hs hf hp =>
    obtain ⟨d, hd, hv⟩ := Decimal.ofUnsigned?_of_form hf hp
    refine ⟨d, ?_, hv⟩
    cases hs with
    | plus => simp [signedDecimal?, hd]
    | minus => simp [signedDecimal?, hd]
    | none =>
      have hfirst : ∀ c rest, fixed ++ power = c :: rest → c.isDigit = true ∨ c = '.' := by
        intro c rest he
        cases fixed with
        | nil => exact absurd rfl hf.ne_nil
        | cons d fixed =>
          cases he
          exact hf.mem c (by simp)
      rw [List.nil_append]
      unfold signedDecimal?
      split
      · rename_i rest he
        exact absurd (hfirst '+' rest he) (by decide)
      · rename_i rest he
        exact absurd (hfirst '-' rest he) (by decide)
      · rw [hd]
        rfl

theorem digitValue?_digitChar_of_lt {radix value : ℕ} (hr : radix ≤ 16) (hv : value < radix) :
    digitValue? radix (Nat.digitChar value) = some value ∧
      digitValue? radix (Nat.digitChar value).toUpper = some value := by
  have h : ∀ radix ≤ 16, ∀ value < radix, digitValue? radix (Nat.digitChar value) = some value ∧
      digitValue? radix (Nat.digitChar value).toUpper = some value := by decide
  exact h radix hr value hv

theorem toNat_range {c low high : Char} (h : low ≤ c ∧ c ≤ high) :
    low.toNat ≤ c.toNat ∧ c.toNat ≤ high.toNat := by
  rw [Char.le_def, Char.le_def, UInt32.le_iff_toNat_le, UInt32.le_iff_toNat_le] at h
  exact h

theorem isDigitOf_of_digitValue? {radix value : ℕ} {c : Char}
    (h : digitValue? radix c = some value) : IsDigitOf radix c value := by
  have hdigit : ∀ v < 10, (Nat.digitChar v).toNat = v + 48 := by decide
  have hletter : ∀ v < 16, 10 ≤ v →
      (Nat.digitChar v).toNat = v + 87 ∧ (Nat.digitChar v).toUpper.toNat = v + 55 := by decide
  have hzero : '0'.toNat = 48 ∧ '9'.toNat = 57 := by decide
  have hlower : 'a'.toNat = 97 ∧ 'f'.toNat = 102 := by decide
  have hupper : 'A'.toNat = 65 ∧ 'F'.toNat = 70 := by decide
  unfold digitValue? at h
  obtain ⟨hv, hlt⟩ := Option.filter_eq_some_iff.mp h
  refine ⟨of_decide_eq_true hlt, ?_⟩
  split at hv
  · rename_i hc
    have hc := toNat_range hc
    cases hv
    exact Or.inl (Char.toNat_inj.mp (by rw [hdigit _ (by omega)]; omega))
  split at hv
  · rename_i hc
    have hc := toNat_range hc
    cases hv
    exact Or.inl (Char.toNat_inj.mp (by rw [(hletter _ (by omega) (by omega)).1]; omega))
  split at hv
  · rename_i hc
    have hc := toNat_range hc
    cases hv
    exact Or.inr (Char.toNat_inj.mp (by rw [(hletter _ (by omega) (by omega)).2]; omega))
  · cases hv

theorem digitValue?_eq_some_iff {radix value : ℕ} {c : Char} (hr : radix ≤ 16) :
    digitValue? radix c = some value ↔ IsDigitOf radix c value := by
  constructor
  · exact isDigitOf_of_digitValue?
  · intro h
    obtain ⟨hl, hu⟩ := digitValue?_digitChar_of_lt hr h.1
    rcases h.2 with rfl | rfl
    · exact hl
    · exact hu

theorem mapM_digitValue?_eq_some_iff {radix : ℕ} (hr : radix ≤ 16) {digits : List Char}
    {values : List ℕ} :
    digits.mapM (digitValue? radix) = some values ↔
      List.Forall₂ (IsDigitOf radix) digits values := by
  induction digits generalizing values with
  | nil =>
    rw [List.forall₂_nil_left_iff]
    simp [eq_comm]
  | cons c digits ih =>
    rw [List.forall₂_cons_left_iff]
    simp only [List.mapM_cons, Option.bind_eq_bind, Option.bind_eq_some_iff, Option.pure_def,
      Option.some.injEq, digitValue?_eq_some_iff hr, ih]
    constructor
    · rintro ⟨v, hv, vs, hvs, rfl⟩
      exact ⟨v, vs, hv, hvs, rfl⟩
    · rintro ⟨v, vs, hv, hvs, rfl⟩
      exact ⟨v, hv, vs, hvs, rfl⟩

theorem radixOf?_eq_some_iff {mark : Char} {radix : ℕ} :
    radixOf? mark = some radix ↔ (mark, radix) ∈ radixMarks := by
  constructor
  · intro h
    unfold radixOf? at h
    split at h <;> cases h <;> decide
  · intro h
    have hall : ∀ entry ∈ radixMarks, radixOf? entry.1 = some entry.2 := by decide
    exact hall _ h

/-- The radixes are powers of two. -/
theorem exists_two_pow {mark : Char} {radix : ℕ} (h : (mark, radix) ∈ radixMarks) :
    ∃ b, radix = 2 ^ b ∧ 0 < b ∧ b ≤ 4 := by
  have hall : ∀ entry ∈ radixMarks, ∃ b ≤ 4, entry.2 = 2 ^ b ∧ 0 < b := by decide
  obtain ⟨b, hb, he, hp⟩ := hall _ h
  exact ⟨b, he, hp, hb⟩

theorem radix_le {mark : Char} {radix : ℕ} (h : (mark, radix) ∈ radixMarks) : radix ≤ 16 := by
  have hall : ∀ entry ∈ radixMarks, entry.2 ≤ 16 := by decide
  exact hall _ h

theorem radixForm_of_radixDigits? {text : List Char} {radix : ℕ} {values : List ℕ}
    (h : radixDigits? text = some (radix, values)) :
    RadixForm text radix (Nat.ofDigits radix values.reverse) := by
  unfold radixDigits? at h
  split at h
  · rename_i mark digits
    simp only [Option.bind_eq_bind, Option.bind_eq_some_iff] at h
    obtain ⟨r, hr, vs, hv, he⟩ := h
    split at he
    · cases he
    · rename_i hn
      cases he
      rw [radixOf?_eq_some_iff] at hr
      rw [mapM_digitValue?_eq_some_iff (radix_le hr)] at hv
      apply RadixForm.mk hr _ hv
      rintro rfl
      cases hv
      exact hn rfl
  · cases h

theorem radixDigits?_of_form {mark : Char} {radix : ℕ} {digits : List Char} {values : List ℕ}
    (hm : (mark, radix) ∈ radixMarks) (hn : digits ≠ [])
    (hd : List.Forall₂ (IsDigitOf radix) digits values) :
    radixDigits? ('0' :: mark :: digits) = some (radix, values) := by
  have hv : values ≠ [] := by
    rintro rfl
    cases hd
    exact hn rfl
  simp [radixDigits?, radixOf?_eq_some_iff.mpr hm,
    (mapM_digitValue?_eq_some_iff (radix_le hm)).mpr hd, hv]

/-- A radix mark is no part of a decimal. -/
theorem DecimalForm.not_radixForm {text : List Char} {negative : Bool} {x : ℚ}
    (h : DecimalForm text negative x) {radix n : ℕ} : ¬RadixForm text radix n := by
  have hall : ∀ entry ∈ radixMarks, ¬(entry.1.isDigit = true ∨ entry.1 = '.') ∧
      ¬(entry.1 = 'e' ∨ entry.1 = 'E') := by decide
  intro hr
  cases hr with
  | @mk mark radix digits values hm hn hd =>
    obtain ⟨hfixed, hpower⟩ := hall _ hm
    generalize ht : '0' :: mark :: digits = text at h
    cases h with
    | @mk sign fixed power _ y shift hs hf hp =>
      cases hs with
      | plus => cases ht
      | minus => cases ht
      | none =>
        cases fixed with
        | nil => exact hf.ne_nil rfl
        | cons c fixed =>
          cases fixed with
          | nil =>
            cases ht
            cases hp with
            | power hmark _ _ _ => exact hpower hmark
          | cons d fixed =>
            cases ht
            exact hfixed (hf.mem mark (by simp))

/-- What a decimal reads as: the nearest number with its sign. -/
theorem ofTrimmed?_of_decimal {text : List Char} {negative : Bool} {x : ℚ}
    (h : DecimalForm text negative x) :
    ∃ result, RoundsTo x result ∧
      Binary64.ofTrimmed? text = result.map (Binary64.finite negative) := by
  obtain ⟨d, hd, rfl⟩ := signedDecimal?_of_form h
  refine ⟨d.magnitude?, d.magnitude?_roundsTo, ?_⟩
  unfold Binary64.ofTrimmed?
  rw [hd]

theorem forall_lt_of_forall₂ {radix : ℕ} {digits : List Char} {values : List ℕ}
    (h : List.Forall₂ (IsDigitOf radix) digits values) : ∀ value ∈ values, value < radix := by
  induction h with
  | nil => simp
  | cons hc _ ih => exact List.forall_mem_cons.mpr ⟨hc.1, ih⟩

/-- What digits of a radix read as: the number nearest to what is kept of them. -/
theorem ofTrimmed?_of_radix {text : List Char} {radix n : ℕ} (h : RadixForm text radix n) :
    ∃ result, RoundsTo (kept radix n) result ∧
      Binary64.ofTrimmed? text = result.map (Binary64.finite false) := by
  have hnone : signedDecimal? text = none := by
    rw [Option.eq_none_iff_forall_ne_some]
    rintro ⟨negative, d⟩ hd
    exact (signedDecimal?_eq_some hd).not_radixForm h
  cases h with
  | @mk mark radix digits values hm hn hd =>
    obtain ⟨b, rfl, hb, hb4⟩ := exists_two_pow hm
    refine ⟨ofDigits? (2 ^ b) values, ofDigits?_roundsTo hb hb4 (forall_lt_of_forall₂ hd), ?_⟩
    unfold Binary64.ofTrimmed?
    rw [hnone, radixDigits?_of_form hm hn hd]

theorem form_of_ofTrimmed? {text : List Char} {v : Binary64}
    (h : Binary64.ofTrimmed? text = some v) :
    (∃ negative x, DecimalForm text negative x) ∨ ∃ radix n, RadixForm text radix n := by
  unfold Binary64.ofTrimmed? at h
  split at h
  · rename_i negative d hd
    exact Or.inl ⟨negative, _, signedDecimal?_eq_some hd⟩
  · split at h
    · rename_i radix values hr
      exact Or.inr ⟨radix, _, radixForm_of_radixDigits? hr⟩
    · cases h

namespace Text

structure Trimmed (text body : List Char) : Prop where
  around : ∃ before after, text = before ++ body ++ after ∧
    (∀ c ∈ before, isBlank c = true) ∧ ∀ c ∈ after, isBlank c = true
  head : ∀ c ∈ body.head?, isBlank c = false
  last : ∀ c ∈ body.getLast?, isBlank c = false

theorem trimmed_trim (text : List Char) : Trimmed text (trim text) := by
  have hfront := List.takeWhile_append_dropWhile (p := isBlank) (l := text)
  have hback :=
    List.takeWhile_append_dropWhile (p := isBlank) (l := (text.dropWhile isBlank).reverse)
  have hrest : text.dropWhile isBlank =
      trim text ++ ((text.dropWhile isBlank).reverse.takeWhile isBlank).reverse := by
    rw [trim, ← List.reverse_append, hback, List.reverse_reverse]
  constructor
  · refine ⟨text.takeWhile isBlank, ((text.dropWhile isBlank).reverse.takeWhile isBlank).reverse,
      ?_, fun c => Scan.mem_takeWhile, ?_⟩
    · rw [List.append_assoc, ← hrest, hfront]
    · intro c hc
      exact Scan.mem_takeWhile (List.mem_reverse.mp hc)
  · intro c hc
    apply Scan.head?_dropWhile text
    rw [hrest, List.head?_append, Option.mem_def.mp hc]
    rfl
  · intro c hc
    rw [trim, List.getLast?_reverse] at hc
    exact Scan.head?_dropWhile _ c hc

theorem trimmed_self {text : List Char} (h : ∀ c ∈ text, isBlank c = false) :
    Trimmed text text where
  around := ⟨[], [], by simp, by simp, by simp⟩
  head c hc := h c (List.mem_of_mem_head? hc)
  last c hc := h c (List.mem_of_mem_getLast? hc)

theorem Trimmed.trim_eq {text body : List Char} (h : Trimmed text body) : trim text = body := by
  obtain ⟨before, after, rfl, hb, ha⟩ := h.around
  have hrev : ∀ c ∈ after.reverse, isBlank c = true := fun c hc => ha c (List.mem_reverse.mp hc)
  unfold trim
  by_cases hn : body = []
  · subst hn
    have hall : ∀ c ∈ before ++ [] ++ after, isBlank c = true := by
      intro c hc
      rw [List.append_nil] at hc
      rcases List.mem_append.mp hc with hc | hc
      · exact hb c hc
      · exact ha c hc
    rw [List.dropWhile_eq_nil_iff.mpr hall]
    rfl
  · have hfirst : ∀ c ∈ (body ++ after).head?, isBlank c = false := by
      intro c hc
      rw [List.head?_append_of_ne_nil _ hn] at hc
      exact h.head c hc
    have hlast : ∀ c ∈ body.reverse.head?, isBlank c = false := by
      rw [List.head?_reverse]
      exact h.last
    rw [List.append_assoc, Scan.dropWhile_append_stop hb hfirst, List.reverse_append,
      Scan.dropWhile_append_stop hrev hlast, List.reverse_reverse]

end Text

theorem ofText?_of_trimmed {text : String} {body : List Char} (h : Text.Trimmed text.toList body) :
    Binary64.ofText? text = Binary64.ofTrimmed? body := by
  rw [Binary64.ofText?, h.trim_eq]

theorem DecimalForm.not_blank {text : List Char} {negative : Bool} {x : ℚ}
    (h : DecimalForm text negative x) : ∀ c ∈ text, Text.isBlank c = false := by
  intro c hc
  have hm : (numeralMarks.all fun c => !Text.isBlank c) = true := by decide
  rcases h.mem c hc with hd | hc
  · exact Scan.not_blank_of_isDigit hd
  · simpa using List.all_eq_true.mp hm c hc

/-- A decimal alone reads as the nearest number with its sign. -/
theorem ofText?_of_decimal {text : List Char} {negative : Bool} {x : ℚ}
    (h : DecimalForm text negative x) :
    ∃ result, RoundsTo x result ∧
      Binary64.ofText? (String.ofList text) = result.map (Binary64.finite negative) := by
  have ht : Text.Trimmed (String.ofList text).toList text := by
    rw [String.toList_ofList]
    exact Text.trimmed_self h.not_blank
  rw [ofText?_of_trimmed ht]
  exact ofTrimmed?_of_decimal h

theorem isSome_iff_of_decimal {text : List Char} {negative : Bool} {x : ℚ}
    (h : DecimalForm text negative x) : (Binary64.ofTrimmed? text).isSome ↔ x < overflow := by
  obtain ⟨result, hr, he⟩ := ofTrimmed?_of_decimal h
  rw [he, Option.isSome_map, hr.isSome_iff]

theorem isSome_iff_of_radix {text : List Char} {radix n : ℕ} (h : RadixForm text radix n) :
    (Binary64.ofTrimmed? text).isSome ↔ (n : ℚ) < overflow := by
  obtain ⟨result, hr, he⟩ := ofTrimmed?_of_radix h
  cases h with
  | @mk mark radix digits values hm hn hd =>
    obtain ⟨b, rfl, -, -⟩ := exists_two_pow hm
    rw [he, Option.isSome_map, hr.isSome_iff, ← not_le, ← not_le, overflow_le_kept_iff]

/-- A text reads as a number exactly if, blanks around it aside, it is a decimal or digits of a
radix and denotes less than the overflow. A decimal reads as the nearest number with its sign. -/
theorem ofText?_isSome_iff_numeral (text : String) :
    ((Binary64.ofText? text).isSome ↔
      ∃ body, Text.Trimmed text.toList body ∧
        ((∃ negative x, DecimalForm body negative x ∧ x < overflow) ∨
          ∃ radix n, RadixForm body radix n ∧ (n : ℚ) < overflow)) ∧
    ∀ body negative x, Text.Trimmed text.toList body → DecimalForm body negative x →
      x < overflow → ∃ m : Magnitude, m.IsNearest x ∧
        Binary64.ofText? text = some (.finite negative m) := by
  constructor
  · constructor
    · intro h
      have ht := Text.trimmed_trim text.toList
      rw [ofText?_of_trimmed ht] at h
      obtain ⟨v, hv⟩ := Option.isSome_iff_exists.mp h
      refine ⟨_, ht, ?_⟩
      rcases form_of_ofTrimmed? hv with ⟨negative, x, hf⟩ | ⟨radix, n, hf⟩
      · exact Or.inl ⟨negative, x, hf, (isSome_iff_of_decimal hf).mp h⟩
      · exact Or.inr ⟨radix, n, hf, (isSome_iff_of_radix hf).mp h⟩
    · rintro ⟨body, ht, ⟨negative, x, hf, hx⟩ | ⟨radix, n, hf, hx⟩⟩
      · rw [ofText?_of_trimmed ht, isSome_iff_of_decimal hf]
        exact hx
      · rw [ofText?_of_trimmed ht, isSome_iff_of_radix hf]
        exact hx
  · intro body negative x ht hf hx
    obtain ⟨result, hr, he⟩ := ofTrimmed?_of_decimal hf
    rw [ofText?_of_trimmed ht, he]
    cases hr with
    | nearest _ hm => exact ⟨_, hm, rfl⟩
    | overflow ho => exact absurd hx (not_lt.mpr ho)

end SqlShell
