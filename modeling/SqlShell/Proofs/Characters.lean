import SqlShell.Token.Scan

/-!
# Character classes and keywords

The classes of characters that start tokens do not meet, and blanks start none. A word spells at
most one keyword.
-/

set_option autoImplicit false

namespace SqlShell

namespace Text

def Ranges.codes (ranges : Ranges) : List Nat :=
  ranges.flatMap fun (first, last) => List.range' first (last + 1 - first)

theorem Ranges.mem_codes_of_covers {ranges : Ranges} {code : Nat}
    (h : ranges.covers code = true) : code ∈ ranges.codes := by
  induction ranges with
  | nil => cases h
  | cons range ranges ih =>
    obtain ⟨first, last⟩ := range
    simp only [covers] at h
    split at h
    · cases h
    · rename_i hf
      simp only [codes, List.flatMap_cons, List.mem_append, List.mem_range'_1]
      rcases Bool.or_eq_true_iff.mp h with hl | hr
      · have := of_decide_eq_true hl
        exact Or.inl ⟨by omega, by omega⟩
      · exact Or.inr (ih hr)

theorem Ranges.covers_of_lt {first last code : Nat} {ranges : Ranges} (h : code < first) :
    Ranges.covers ((first, last) :: ranges) code = false := if_pos h

theorem letter_ge {c : Char} (h : isLetter c = true) : 0x41 ≤ c.toNat := by
  rcases Nat.lt_or_ge c.toNat 0x41 with hc | hc
  · have hf : letters.covers c.toNat = false := Ranges.covers_of_lt hc
    rw [isLetter, hf] at h
    cases h
  · exact hc

theorem not_letter_of_blank {c : Char} (h : isBlank c = true) : isLetter c = false := by
  have hb : ∀ code ∈ blanks.codes, letters.covers code = false := by decide +kernel
  exact hb _ (Ranges.mem_codes_of_covers h)

end Text

namespace Scan

open Text

theorem isNameStart_ge {c : Char} (h : isNameStart c = true) : 0x41 ≤ c.toNat := by
  rcases Bool.or_eq_true_iff.mp h with hl | hu
  · exact letter_ge hl
  · rw [eq_of_beq hu]
    decide

theorem isNameChar_of_isNameStart {c : Char} (h : isNameStart c = true) : isNameChar c = true := by
  rcases Bool.or_eq_true_iff.mp h with hl | hu
  · simp [isNameChar, hl]
  · simp [isNameChar, eq_of_beq hu]

theorem not_blank_of_isNameStart {c : Char} (h : isNameStart c = true) : isBlank c = false := by
  rcases Bool.or_eq_true_iff.mp h with hl | hu
  · cases hb : isBlank c with
    | false => rfl
    | true =>
      rw [not_letter_of_blank hb] at hl
      cases hl
  · rw [eq_of_beq hu]
    decide

theorem isDigit_range {c : Char} (h : c.isDigit = true) : 0x30 ≤ c.toNat ∧ c.toNat ≤ 0x39 := by
  simpa [Char.isDigit, UInt32.le_iff_toNat_le] using h

theorem not_blank_of_isDigit {c : Char} (h : c.isDigit = true) : isBlank c = false := by
  have hb : ∀ code ∈ blanks.codes, ¬(0x30 ≤ code ∧ code ≤ 0x39) := by decide
  cases hc : isBlank c with
  | false => rfl
  | true => exact absurd (isDigit_range h) (hb _ (Ranges.mem_codes_of_covers hc))

end Scan

namespace Keyword

theorem toUpper_name (k : Keyword) : k.name.toList.map Char.toUpper = k.name.toList := by
  cases k <;> decide

theorem ofWord?_name (k : Keyword) : ofWord? k.name.toList = some k := by
  cases k <;> decide

theorem ofWord?_asName (k : Keyword) : ofWord? k.asName.toList = some k := by
  cases k <;> decide

def Spelled (k : Keyword) (word : List Char) : Prop := word.map Char.toUpper = k.name.toList

theorem ofWord?_eq_some_iff {word : List Char} {k : Keyword} :
    ofWord? word = some k ↔ k.Spelled word := by
  constructor
  · intro h
    have hk := List.find?_some h
    exact (eq_of_beq hk).symm
  · intro h
    have he : ofWord? word = ofWord? k.name.toList := by
      simp only [ofWord?, toUpper_name]
      rw [show word.map Char.toUpper = k.name.toList from h]
    rw [he, ofWord?_name]

theorem ofWord?_eq_none_iff {word : List Char} :
    ofWord? word = none ↔ ∀ k : Keyword, ¬k.Spelled word := by
  simp only [← ofWord?_eq_some_iff]
  cases ofWord? word with
  | none => simp
  | some k => simp

end Keyword

end SqlShell
