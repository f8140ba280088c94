import SqlShell.Document.Writer
import SqlShell.Proofs.NumberText

/-!
# Reading written numbers

The text of a finite number reads as that number, with the sign of zero lost. So a text that is
itself a written number becomes that number again, quoted or not, and only the two zeros share one.
-/

set_option autoImplicit false

namespace SqlShell

open Magnitude

def Binary64.unsignedZero : Binary64 → Binary64
  | finite negative m => finite (negative && m.rank != 0) m
  | infinite negative => infinite negative
  | nan => nan

namespace Value

/-- A number's text does not depend on the sign of zero. -/
theorem ofNumber_unsignedZero (n : Binary64) : ofNumber n.unsignedZero = ofNumber n := by
  cases n with
  | finite negative m => simp [Binary64.unsignedZero, ofNumber]
  | infinite negative => rfl
  | nan => rfl

theorem ofNumber_zero (negative : Bool) : ofNumber (.finite negative zero) = .number ['0'] := by
  cases negative with
  | false => rfl
  | true => rfl

/-- The text of a finite number is a decimal that rounds to it. -/
theorem exists_decimalForm (negative : Bool) (m : Magnitude) :
    ∃ text x, ofNumber (.finite negative m) = .number text ∧
      DecimalForm text (negative && m.rank != 0) x ∧ RoundsTo x (some m) := by
  by_cases hm : m.rank = 0
  · obtain rfl : m = zero := ext_rank hm
    refine ⟨['0'], 0, ofNumber_zero negative, ?_, roundsTo_zero⟩
    have hb : (negative && zero.rank != 0) = false := Bool.and_false negative
    rw [hb]
    exact_mod_cast decimalForm_toDigits 0
  · obtain ⟨j, hw, ht, -⟩ := exists_ofNumber negative hm
    refine ⟨j.text, j.size, ht, ?_, ?_⟩
    · have hf := j.decimalForm
      rwa [hw.sign, ← Bool.and_true negative, ← bne_iff_ne.mpr hm] at hf
    · rw [hw.size]
      exact roundsTo_size hm

theorem ofText?_text (negative : Bool) (m : Magnitude) :
    Binary64.ofText? (ofNumber (.finite negative m)).text =
      some (Binary64.finite negative m).unsignedZero := by
  obtain ⟨written, x, ht, hf, hr⟩ := exists_decimalForm negative m
  obtain ⟨result, hresult, hread⟩ := ofText?_of_decimal hf
  rw [ht, text, write, hread, hresult.unique hr]
  rfl

theorem ofText_text (negative : Bool) (m : Magnitude) :
    ofText (ofNumber (.finite negative m)).text = ofNumber (.finite negative m) := by
  unfold ofText
  rw [ofText?_text]
  exact ofNumber_unsignedZero _

end Value

/-- The text of a number reads as the number, up to the sign of zero. As a string or a name it
stands for the number again, and other numbers have other texts. -/
theorem ofText?_text_ofNumber (negative : Bool) (m : Magnitude) :
    Binary64.ofText? (Value.ofNumber (.finite negative m)).text =
      some (Binary64.finite negative m).unsignedZero ∧
    (Literal.string (Value.ofNumber (.finite negative m)).text).toValue =
      Value.ofNumber (.finite negative m) ∧
    (Literal.identifier (Value.ofNumber (.finite negative m)).text).toValue =
      Value.ofNumber (.finite negative m) ∧
    ∀ negative' m', (Value.ofNumber (.finite negative' m')).text =
        (Value.ofNumber (.finite negative m)).text ↔
      (Binary64.finite negative' m').unsignedZero = (Binary64.finite negative m).unsignedZero := by
  refine ⟨Value.ofText?_text negative m, Value.ofText_text negative m,
    Value.ofText_text negative m, ?_⟩
  intro negative' m'
  constructor
  · intro h
    have hread := Value.ofText?_text negative' m'
    rw [h, Value.ofText?_text] at hread
    exact (Option.some.inj hread).symm
  · intro h
    rw [← Value.ofNumber_unsignedZero, h, Value.ofNumber_unsignedZero]

end SqlShell
