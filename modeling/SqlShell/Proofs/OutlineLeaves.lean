import SqlShell.Proofs.CommandText
import SqlShell.Proofs.NumberText
import SqlShell.Proofs.OutlineText
import SqlShell.Statement.Outline

/-!
# Quoted texts and numbers in outlines

A quoted text shows every character by itself, by a letter behind a backslash or by its code point.
A number has the digits of a decimal that rounds to it, with a point from a ten thousandth up to
`10 ^ 16` and with a power of ten elsewhere. Both tell what they stand for.
-/

set_option autoImplicit false

namespace SqlShell

namespace Text

/-- In an ascending list no interval behind the first one that begins too late has the code. -/
theorem Ranges.covers_iff {ranges : Ranges} (h : (ranges.map Prod.fst).Pairwise (· ≤ ·))
    {code : ℕ} : ranges.covers code = true ↔ ∃ range ∈ ranges, range.1 ≤ code ∧ code ≤ range.2 := by
  induction ranges with
  | nil => simp [covers]
  | cons range ranges ih =>
    obtain ⟨first, last⟩ := range
    rw [List.map_cons, List.pairwise_cons, List.forall_mem_map] at h
    obtain ⟨hfirst, hrest⟩ := h
    rw [covers]
    split
    · rename_i hlt
      refine iff_of_false Bool.false_ne_true ?_
      rintro ⟨range, hr, hlow, -⟩
      rcases List.mem_cons.mp hr with rfl | hr
      · omega
      · have := hfirst range hr
        omega
    · rename_i hle
      rw [Bool.or_eq_true, decide_eq_true_eq, ih hrest, List.exists_mem_cons_iff]
      simp only [Nat.not_lt.mp hle, true_and]

def Invisible (c : Char) : Prop :=
  c ≠ ' ' ∧ ∃ range ∈ hidden, range.1 ≤ c.toNat ∧ c.toNat ≤ range.2

theorem isHidden_iff {c : Char} : isHidden c = true ↔ Invisible c := by
  have hs : (hidden.map Prod.fst).IsChain (· ≤ ·) := by decide +kernel
  have hp : (hidden.map Prod.fst).Pairwise (· ≤ ·) := List.isChain_iff_pairwise.mp hs
  rw [isHidden, Bool.and_eq_true, bne_iff_ne, Ranges.covers_iff hp, Invisible]

def escapeLetters : List (Char × Char) :=
  [('\x00', '0'), ('\t', 't'), ('\r', 'r'), ('\n', 'n'), ('\\', '\\'), ('"', '"')]

inductive CharacterForm (c : Char) : List Char → Prop
  | letter {letter : Char} (h : (c, letter) ∈ escapeLetters) : CharacterForm c ['\\', letter]
  | code (hl : ∀ letter, (c, letter) ∉ escapeLetters) (hi : Invisible c) :
      CharacterForm c ('\\' :: 'u' :: '{' :: (Nat.toDigits 16 c.toNat ++ ['}']))
  | shown (hl : ∀ letter, (c, letter) ∉ escapeLetters) (hi : ¬Invisible c) : CharacterForm c [c]

inductive QuotedForm (text : String) : List Char → Prop
  | mk {pieces : List (List Char)} (h : List.Forall₂ CharacterForm text.toList pieces) :
      QuotedForm text ('"' :: (pieces.flatten ++ ['"']))

theorem escapeHidden_form (c : Char) : CharacterForm c (escapeHidden c) := by
  by_cases hl : ∃ letter, (c, letter) ∈ escapeLetters
  · obtain ⟨letter, hl⟩ := hl
    have he : ∀ pair ∈ escapeLetters, escapeHidden pair.1 = ['\\', pair.2] := by decide
    rw [he _ hl]
    exact .letter hl
  · have hn : ∀ pair ∈ escapeLetters, c ≠ pair.1 := by
      rintro ⟨d, letter⟩ hd rfl
      exact hl ⟨letter, hd⟩
    simp only [escapeLetters, List.forall_mem_cons, List.not_mem_nil, false_imp_iff, implies_true,
      and_true] at hn
    have he : escapeHidden c =
        if isHidden c then '\\' :: 'u' :: '{' :: (Nat.toDigits 16 c.toNat ++ ['}']) else [c] := by
      simp [escapeHidden, hn]
    rw [he]
    split
    · rename_i hh
      exact .code (not_exists.mp hl) (isHidden_iff.mp hh)
    · rename_i hh
      exact .shown (not_exists.mp hl) fun hi => hh (isHidden_iff.mpr hi)

theorem quoted_form (text : String) : QuotedForm text (quoted text).toList := by
  have hp : List.Forall₂ CharacterForm text.toList (text.toList.map escapeHidden) := by
    rw [List.forall₂_map_right_iff]
    exact List.forall₂_same.mpr fun c _ => escapeHidden_form c
  rw [quoted, String.toList_ofList, List.flatMap_def]
  exact .mk hp

theorem hexadecimal?_toDigits (n : ℕ) : hexadecimal? (Nat.toDigits 16 n) = some n := by
  induction n using Nat.strong_induction_on with
  | _ n ih =>
    rw [Nat.toDigits_eq_if (by decide)]
    split
    · rename_i hn
      simp [hexadecimal?, digitValue?_digitChar hn]
    · have hd := digitValue?_digitChar (Nat.mod_lt n (by decide : 0 < 16))
      have hq := ih (n / 16) (by omega)
      rw [hexadecimal?] at hq ⊢
      rw [List.foldlM_append, hq]
      simp only [Option.bind_eq_bind, Option.bind_some, List.foldlM_cons, List.foldlM_nil, hd,
        Option.map_some, Option.pure_def]
      congr 1
      omega

theorem digit_of_mem_toDigits {c : Char} {n : ℕ} (h : c ∈ Nat.toDigits 16 n) :
    ∃ d < 16, c = Nat.digitChar d := by
  induction n using Nat.strong_induction_on with
  | _ n ih =>
    rw [Nat.toDigits_eq_if (by decide)] at h
    split at h
    · rename_i hn
      exact ⟨n, hn, List.mem_singleton.mp h⟩
    · rcases List.mem_append.mp h with h | h
      · exact ih (n / 16) (by omega) h
      · exact ⟨n % 16, Nat.mod_lt n (by decide), List.mem_singleton.mp h⟩

theorem brace_notMem_toDigits (n : ℕ) : '}' ∉ Nat.toDigits 16 n := by
  intro h
  obtain ⟨d, hd, he⟩ := digit_of_mem_toDigits h
  have hb : ∀ d < 16, '}' ≠ Nat.digitChar d := by decide
  exact hb d hd he

def unescapeHidden? : List Char → Option (Char × List Char)
  | [] => none
  | c :: rest =>
    if c = '\\' then
      match rest with
      | 'u' :: '{' :: rest =>
        (hexadecimal? (rest.takeWhile (· != '}'))).map fun code =>
          (Char.ofNat code, (rest.dropWhile (· != '}')).drop 1)
      | letter :: rest => (escapeLetters.find? (·.2 == letter)).map fun pair => (pair.1, rest)
      | [] => none
    else some (c, rest)

theorem CharacterForm.unescapeHidden? {c : Char} {text : List Char} (h : CharacterForm c text)
    (rest : List Char) : unescapeHidden? (text ++ rest) = some (c, rest) := by
  cases h with
  | letter hl =>
    simp only [escapeLetters, List.mem_cons, Prod.mk.injEq, List.not_mem_nil, or_false] at hl
    rcases hl with ⟨rfl, rfl⟩ | ⟨rfl, rfl⟩ | ⟨rfl, rfl⟩ | ⟨rfl, rfl⟩ | ⟨rfl, rfl⟩ | ⟨rfl, rfl⟩ <;>
      rfl
  | code hl hi =>
    have hd : ∀ d ∈ Nat.toDigits 16 c.toNat, (d != '}') = true := by
      intro d hd
      rw [bne_iff_ne]
      rintro rfl
      exact brace_notMem_toDigits _ hd
    have hs : ∀ d ∈ ('}' :: rest).head?, (d != '}') = false := by simp
    simp [Text.unescapeHidden?, Scan.takeWhile_append_stop hd hs, Scan.dropWhile_append_stop hd hs,
      hexadecimal?_toDigits]
  | shown hl hi =>
    have hb : c ≠ '\\' := by
      rintro rfl
      exact hl '\\' (by decide)
    simp [Text.unescapeHidden?, hb]

theorem CharacterForm.ne_quote {c : Char} {text : List Char} (h : CharacterForm c text) :
    ∃ d rest, text = d :: rest ∧ d ≠ '"' := by
  cases h with
  | letter hl => exact ⟨_, _, rfl, by decide⟩
  | code hl hi => exact ⟨_, _, rfl, by decide⟩
  | shown hl hi =>
    refine ⟨_, _, rfl, ?_⟩
    rintro rfl
    exact hl '"' (by decide)

theorem pieces_inj {text other : List Char} {pieces others : List (List Char)}
    {rest after : List Char} (ht : List.Forall₂ CharacterForm text pieces)
    (ho : List.Forall₂ CharacterForm other others)
    (h : pieces.flatten ++ '"' :: rest = others.flatten ++ '"' :: after) :
    text = other ∧ rest = after := by
  induction ht generalizing other others with
  | nil =>
    cases ho with
    | nil => exact ⟨rfl, (List.cons.inj h).2⟩
    | cons hd ho =>
      obtain ⟨e, tail, rfl, he⟩ := hd.ne_quote
      exact absurd (List.cons.inj h).1.symm he
  | cons hc ht ih =>
    cases ho with
    | nil =>
      obtain ⟨e, tail, rfl, he⟩ := hc.ne_quote
      exact absurd (List.cons.inj h).1 he
    | cons hd ho =>
      rw [List.flatten_cons, List.flatten_cons, List.append_assoc, List.append_assoc] at h
      have hu := congrArg Text.unescapeHidden? h
      rw [hc.unescapeHidden?, hd.unescapeHidden?] at hu
      obtain ⟨rfl, hrest⟩ := Prod.mk.inj (Option.some.inj hu)
      obtain ⟨rfl, ha⟩ := ih ho hrest
      exact ⟨rfl, ha⟩

theorem QuotedForm.inj {text other : String} {written quoted rest after : List Char}
    (ht : QuotedForm text written) (ho : QuotedForm other quoted)
    (h : written ++ rest = quoted ++ after) : text = other ∧ rest = after := by
  cases ht with
  | mk ht =>
    cases ho with
    | mk ho =>
      simp only [List.cons_append, List.append_assoc, List.nil_append, List.cons.injEq,
        true_and] at h
      obtain ⟨he, ha⟩ := pieces_inj ht ho h
      exact ⟨String.toList_inj.mp he, ha⟩

end Text

namespace Outline

open Text Magnitude

theorem legible_quoted : Legible QuotedForm := by
  intro a b text other ha hb rest after h
  obtain ⟨rfl, hr⟩ := ha.inj hb h
  exact ⟨rfl, (List.cons.inj hr).2⟩

def plainPower (power : ℤ) : List Char :=
  'e' :: ((if power < 0 then ['-'] else []) ++ Nat.toDigits 10 power.natAbs)

inductive NumberForm : Binary64 → List Char → Prop
  | positional {j : JsonNumber} {m : Magnitude} (hr : RoundsTo j.size (some m))
      (hs : j.size = 0 ∨ 10 ^ (-4 : ℤ) ≤ j.size ∧ j.size < 10 ^ (16 : ℤ)) (hp : j.power = [])
      (hf : j.fraction = ['0'] ∨ j.fraction ≠ [] ∧ j.fraction.getLast? ≠ some '0') :
      NumberForm (.finite j.negative m) j.text
  | scientific {j : JsonNumber} {m : Magnitude} (hr : RoundsTo j.size (some m))
      (hs : ¬(10 ^ (-4 : ℤ) ≤ j.size ∧ j.size < 10 ^ (16 : ℤ)))
      (hw : ∃ digit, j.whole = [digit] ∧ digit ≠ '0') (hf : j.fraction.getLast? ≠ some '0')
      (hp : j.power = plainPower j.shift) : NumberForm (.finite j.negative m) j.text
  | infinite (negative : Bool) :
      NumberForm (.infinite negative) (signText negative ++ "inf".toList)
  | nan : NumberForm .nan "NaN".toList

theorem powerForm_plainPower (power : ℤ) : PowerForm (plainPower power) power :=
  Spelling.powerForm_signed .none power

theorem scientific_eq (s : Spelling) :
    s.scientific [] = s.digits.take 1 ++ JsonNumber.pointed (s.digits.drop 1) ++
      plainPower (s.point - 1) := by
  simp [Spelling.scientific, JsonNumber.pointed, plainPower]

theorem point_mem_positional {s : Spelling} (h : s.Proper) :
    '.' ∈ s.positional ↔ s.isWhole = false := by
  have hpos : 0 < s.digits.length := List.length_pos_iff.mpr h.ne_nil
  have hd : '.' ∉ s.digits := fun hc => absurd (h.digits _ hc) (by decide)
  have hz (count : ℕ) : '.' ∉ Spelling.zeros count := by
    intro hc
    exact absurd (Spelling.areDigits_zeros count _ hc) (by decide)
  unfold Spelling.positional Spelling.isWhole
  split
  · simp
    omega
  · dsimp only
    split
    · simp [hd, hz]
      omega
    · simp
      omega

/-- A zero behind the point changes nothing. -/
theorem exists_pointZero {j : JsonNumber} (hf : j.fraction = []) (hp : j.power = []) :
    ∃ k : JsonNumber, k.negative = j.negative ∧ k.size = j.size ∧ k.power = [] ∧
      k.fraction = ['0'] ∧ k.text = j.text ++ ['.', '0'] := by
  refine ⟨⟨j.negative, j.whole, ['0'], [], 0, j.whole_ne_nil, j.whole_digits, j.whole_zero,
    Spelling.areDigits_zeros 1, .none⟩, rfl, ?_, rfl, rfl, ?_⟩
  · have hs := JsonNumber.shift_eq_zero hp
    simp [JsonNumber.size, hf, hs, natural, Nat.ofDigitChars_cons]
  · simp [JsonNumber.text, JsonNumber.pointed, hf, hp]

theorem exists_positional {s : Spelling} (h : s.Proper) (negative : Bool) :
    ∃ j : JsonNumber, j.negative = negative ∧ j.size = s.size ∧ j.power = [] ∧
      (j.fraction = ['0'] ∨ j.fraction ≠ [] ∧ j.fraction.getLast? ≠ some '0') ∧
      j.text = signText negative ++ (s.positional ++ if s.isWhole then ['.', '0'] else []) := by
  obtain ⟨j, hw, hp, ht⟩ := h.exists_positional negative
  have hpoint : j.fraction ≠ [] ↔ s.isWhole = false := by
    rw [← j.point_mem_iff, ht, List.mem_append, ← point_mem_positional h]
    exact or_iff_right (JsonNumber.not_mem_signText (by decide))
  cases hwhole : s.isWhole with
  | false =>
    refine ⟨j, hw.sign, hw.size, hp, Or.inr ⟨hpoint.mpr hwhole, hw.fraction⟩, ?_⟩
    rw [ht]
    simp
  | true =>
    have hf : j.fraction = [] := by
      by_contra hne
      exact absurd (hpoint.mp hne) (by simp [hwhole])
    obtain ⟨k, hn, hs, hk, hz, hkt⟩ := exists_pointZero hf hp
    refine ⟨k, hn.trans hw.sign, hs.trans hw.size, hk, Or.inl hz, ?_⟩
    rw [hkt, ht]
    simp

theorem zero_form (negative : Bool) :
    NumberForm (.finite negative zero) (signText negative ++ numberFormat.write zero) := by
  have hw : numberFormat.write zero = ['0', '.', '0'] := by decide
  let j : JsonNumber := ⟨negative, ['0'], ['0'], [], 0, by decide, Spelling.areDigits_zeros 1,
    fun _ => rfl, Spelling.areDigits_zeros 1, .none⟩
  have hs : j.size = 0 := by simp [j, JsonNumber.size, natural, Nat.ofDigitChars_cons]
  have ht : j.text = signText negative ++ numberFormat.write zero := by
    rw [hw]
    simp [j, JsonNumber.text, JsonNumber.pointed]
  rw [← ht]
  exact .positional (hs ▸ roundsTo_zero) (Or.inl hs) rfl (Or.inl rfl)

section Finite

variable {m : Magnitude} (hm : m.rank ≠ 0) (negative : Bool)
include hm

theorem positional_form (hp : -4 < m.spelling.point ∧ m.spelling.point ≤ 16) :
    NumberForm (.finite negative m) (signText negative ++
      (m.spelling.positional ++ if m.spelling.isWhole then ['.', '0'] else [])) := by
  have hs := spelling_proper hm
  have hr := roundsTo_size hm
  have hb := (hs.between_iff (-4) 16).mp hp
  obtain ⟨j, rfl, hsize, hpower, hf, ht⟩ := exists_positional hs negative
  rw [← hsize] at hr hb
  rw [← ht]
  exact .positional hr (Or.inr hb) hpower hf

theorem scientific_form (hp : ¬(-4 < m.spelling.point ∧ m.spelling.point ≤ 16)) :
    NumberForm (.finite negative m) (signText negative ++ m.spelling.scientific []) := by
  have hs := spelling_proper hm
  have hr := roundsTo_size hm
  have hb := mt (hs.between_iff (-4) 16).mpr hp
  obtain ⟨j, hw, hpower, hshift, hwhole, ht⟩ := hs.exists_split negative 1 Nat.one_pos
    (List.length_pos_iff.mpr hs.ne_nil) (powerForm_plainPower (m.spelling.point - 1)) (by omega)
  have hdigit : ∃ digit, j.whole = [digit] ∧ digit ≠ '0' := by
    cases hd : m.spelling.digits with
    | nil => exact absurd hd hs.ne_nil
    | cons digit digits =>
      refine ⟨digit, by rw [hwhole, hd]; rfl, ?_⟩
      rintro rfl
      exact hs.head (by rw [hd]; rfl)
  rw [← hw.size] at hr hb
  rw [scientific_eq, ← ht, ← hw.sign]
  exact .scientific hr hb hdigit hw.fraction (by rw [hpower, hshift])

end Finite

theorem finite_form (negative : Bool) (m : Magnitude) :
    NumberForm (.finite negative m) (signText negative ++ numberFormat.write m) := by
  by_cases hm : m.rank = 0
  · obtain rfl : m = zero := ext_rank hm
    exact zero_form negative
  · unfold NumberFormat.write
    dsimp only
    split
    · rename_i hp
      exact positional_form hm negative (by simpa [numberFormat] using hp)
    · rename_i hp
      exact scientific_form hm negative (by simpa [numberFormat] using hp)

theorem textAt_number (depth : ℕ) (n : Binary64) : NumberForm n (n.outline.textAt depth) := by
  cases n with
  | finite negative m =>
    rw [Binary64.outline, textAt_leaf, String.toList_ofList]
    exact finite_form negative m
  | infinite negative =>
    have ht : (Binary64.infinite negative).outline.textAt depth =
        signText negative ++ "inf".toList := by
      rw [Binary64.outline, textAt_leaf]
      cases negative <;> decide
    rw [ht]
    exact .infinite negative
  | nan =>
    rw [Binary64.outline, textAt_leaf]
    exact .nan

def numberOf? (text : List Char) : Option Binary64 :=
  if 'N' ∈ text then some .nan
  else if 'i' ∈ text then some (.infinite (text.head? == some '-'))
  else Binary64.ofText? (String.ofList text)

theorem numberOf?_jsonNumber {j : JsonNumber} {m : Magnitude} (hr : RoundsTo j.size (some m)) :
    numberOf? j.text = some (.finite j.negative m) := by
  have hm {c : Char} (hd : c.isDigit = false) (hc : c ∉ numeralMarks) : c ∉ j.text := by
    intro h
    rcases j.decimalForm.mem c h with hd' | hc'
    · exact absurd hd' (by simp [hd])
    · exact hc hc'
  obtain ⟨result, hresult, hread⟩ := ofText?_of_decimal j.decimalForm
  rw [numberOf?, if_neg (hm (by decide) (by decide)), if_neg (hm (by decide) (by decide)), hread,
    hresult.unique hr]
  rfl

theorem NumberForm.numberOf? {n : Binary64} {text : List Char} (h : NumberForm n text) :
    numberOf? text = some n := by
  cases h with
  | positional hr hs hp hf => exact numberOf?_jsonNumber hr
  | scientific hr hs hw hf hp => exact numberOf?_jsonNumber hr
  | infinite negative => cases negative <;> decide
  | nan => decide

theorem NumberForm.comma_notMem {n : Binary64} {text : List Char} (h : NumberForm n text) :
    ',' ∉ text := by
  have hj (j : JsonNumber) : ',' ∉ j.text := by
    intro hc
    exact absurd (j.decimalForm.mem _ hc) (by decide)
  cases h with
  | positional hr hs hp hf => exact hj _
  | scientific hr hs hw hf hp => exact hj _
  | infinite negative => cases negative <;> decide
  | nan => decide

theorem legible_number : Legible NumberForm := by
  intro a b text other ha hb rest after h
  obtain ⟨rfl, hr⟩ := append_cons_inj_first ha.comma_notMem hb.comma_notMem h
  have he := ha.numberOf?
  rw [hb.numberOf?] at he
  exact ⟨(Option.some.inj he).symm, hr⟩

end Outline

end SqlShell
