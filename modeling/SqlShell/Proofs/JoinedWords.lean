import SqlShell.CommandLine.Source
import SqlShell.Proofs.JoinedTexts

/-!
# Texts joined at blanks

A blank ends every token and stands for none, so a text cut at a blank has the tokens of its two
parts. The words of a command line are joined by blanks: where a statement was cut into words does
not matter as long as no token was cut.
-/

set_option autoImplicit false

namespace SqlShell

namespace Text

theorem not_numeral_of_blank {c : Char} (h : isBlank c = true) : isNumeral c = false := by
  have hb : ∀ code ∈ blanks.codes, numerals.covers code = false := by decide +kernel
  exact hb _ (Ranges.mem_codes_of_covers h)

theorem ne_of_blank {c d : Char} (h : isBlank c = true) (hd : isBlank d = false) : c ≠ d := by
  rintro rfl
  rw [h] at hd
  cases hd

end Text

namespace Scan

open Text

theorem not_nameChar_of_blank {c : Char} (h : isBlank c = true) : isNameChar c = false := by
  have hu : c ≠ '_' := ne_of_blank h (by decide)
  have hp : c ≠ '.' := ne_of_blank h (by decide)
  have hd : c ≠ '$' := ne_of_blank h (by decide)
  simp [isNameChar, not_letter_of_blank h, not_numeral_of_blank h, hu, hp, hd]

theorem not_numberChar_of_blank {c : Char} (h : isBlank c = true) : isNumberChar c = false := by
  have hp : c ≠ '.' := ne_of_blank h (by decide)
  have hd : c.isDigit = false := by
    cases hd : c.isDigit with
    | false => rfl
    | true => exact absurd rfl (ne_of_blank h (not_blank_of_isDigit hd))
  simp [isNumberChar, hd, hp]

theorem separates_blank {c : Char} (h : isBlank c = true) : Separates c := by
  have he : c ≠ '=' := ne_of_blank h (by decide)
  have hg : c ≠ '>' := ne_of_blank h (by decide)
  intro token
  cases token with
  | keyword k => exact not_nameChar_of_blank h
  | identifier name => exact not_nameChar_of_blank h
  | number value => exact not_numberChar_of_blank h
  | operator op => cases op <;> simp [extends?, he, hg]
  | _ => rfl

theorem separator_blank {c : Char} (h : isBlank c = true) : Separator c [] where
  separates := separates_blank h
  tokens_cons text := by
    have hg : ∀ d ∈ [c], isBlank d = true := List.forall_mem_singleton.mpr h
    rw [← List.singleton_append, tokens_gap hg]
    cases tokens text <;> rfl

theorem tokenize_append_blank {a : String} {ta : List Token}
    (ha : tokenize a = .ok (ta ++ [.eof])) {c : Char} (hc : isBlank c = true) (b : String) :
    tokenize (a ++ String.singleton c ++ b) =
      ((tokenize b).map (ta ++ ·)).mapError fun e =>
        { e with position := e.position + (a.length + 1) } := by
  obtain ⟨front, hf, hj⟩ := tokenize_join (tokenize_eq_ok_iff.mp ha) (separator_blank hc) b
  obtain rfl : ta = front := List.append_cancel_right hf
  rw [hj]
  simp only [List.append_nil]

end Scan

namespace CommandLine

open Scan Text

def TokensOf (words : List String) (parts : List (List Token)) : Prop :=
  List.Forall₂ (fun word ts => tokenize word = .ok (ts ++ [.eof])) words parts

theorem tokenize_intercalate {words : List String} {parts : List (List Token)}
    (h : TokensOf words parts) (hw : words ≠ []) :
    tokenize (" ".intercalate words) = .ok (parts.flatten ++ [.eof]) := by
  induction h with
  | nil => exact absurd rfl hw
  | @cons word ts words parts hword hwords ih =>
    cases hwords with
    | nil => simpa using hword
    | @cons next us words parts hnext hwords =>
      have hjoin := tokenize_append_blank hword (c := ' ') rfl (" ".intercalate (next :: words))
      rw [ih (by simp)] at hjoin
      rw [String.intercalate_cons_cons]
      exact hjoin.trans (by simp [Except.map, Except.mapError])

theorem text_of_words {words : List String} (hw : words ≠ []) (input : Option String) :
    Sources.text ⟨words, none, input⟩ = .ok (" ".intercalate words) := by
  simp [Sources.text, hw]

/-- What a text is converted to depends on its tokens alone. -/
theorem convert_congr {a b : String} (h : tokenize a = tokenize b) : convert a = convert b := by
  have hs : Statement.ofText a = Statement.ofText b := by rw [Statement.ofText, Statement.ofText, h]
  rw [convert, convert, hs]

theorem conversion_of_words {words : List String} (hw : words ≠ []) (input : Option String) :
    Sources.conversion ⟨words, none, input⟩ =
      (convert (" ".intercalate words)).mapError .conversion := by
  rw [Sources.conversion, text_of_words hw]
  rfl

/-- When the part in front of a blank has no fault, the text has its tokens and then those of the
part behind, or the fault of that part further on. So words of a command line without a fault have
their tokens one after another, and only these matter. -/
theorem tokenize_at_blanks :
    (∀ a ta c b, tokenize a = .ok (ta ++ [.eof]) → isBlank c = true →
      (∀ tb, tokenize b = .ok tb → tokenize (a ++ String.singleton c ++ b) = .ok (ta ++ tb)) ∧
        ∀ e, tokenize b = .error e → tokenize (a ++ String.singleton c ++ b) =
          .error { e with position := e.position + (a.length + 1) }) ∧
      ∀ words parts, words ≠ [] → TokensOf words parts → ∀ input,
        (∃ text, Sources.text ⟨words, none, input⟩ = .ok text ∧
          tokenize text = .ok (parts.flatten ++ [.eof])) ∧
        ∀ words' parts' input', words' ≠ [] → TokensOf words' parts' →
          parts'.flatten = parts.flatten →
            Sources.conversion ⟨words', none, input'⟩ =
              Sources.conversion ⟨words, none, input⟩ := by
  constructor
  · intro a ta c b ha hc
    have hj := tokenize_append_blank ha hc b
    constructor
    · intro tb hb
      rw [hj, hb]
      rfl
    · intro e he
      rw [hj, he]
      rfl
  · intro words parts hw ht input
    have hwords := tokenize_intercalate ht hw
    refine ⟨⟨_, text_of_words hw input, hwords⟩, ?_⟩
    intro words' parts' input' hw' ht' hp
    have hwords' := tokenize_intercalate ht' hw'
    rw [conversion_of_words hw, conversion_of_words hw']
    rw [convert_congr (hwords'.trans (by rw [hp, hwords]))]

/-- Behind an em space a fault is found further on, and a statement may be cut into words at any of
its blanks outside quotes. -/
theorem conversion_of_split_words :
    tokenize "DELETE" = .ok ([.keyword .DELETE] ++ [.eof]) ∧ isBlank '\u2003' = true ∧
      tokenize ("DELETE" ++ String.singleton '\u2003' ++ "x#") =
        .error ⟨.unexpectedChar '#', 8⟩ ∧
      Sources.conversion ⟨["DELETE", "FROM t", "WHERE x='a b'"], none, none⟩ =
        Sources.conversion ⟨["DELETE FROM", "t WHERE x", "= 'a b'"], none, some "y"⟩ := by
  have hd : tokenize "DELETE" = .ok ([.keyword .DELETE] ++ [.eof]) := by decide +kernel
  have hb : isBlank '\u2003' = true := by decide
  have he : tokenize "x#" = .error ⟨.unexpectedChar '#', 1⟩ := by decide +kernel
  have hw : TokensOf ["DELETE", "FROM t", "WHERE x='a b'"]
      [[.keyword .DELETE], [.keyword .FROM, .identifier "t"],
        [.keyword .WHERE, .identifier "x", .operator .equal, .string "a b"]] :=
    .cons hd (.cons (by decide +kernel) (.cons (by decide +kernel) .nil))
  have hv : TokensOf ["DELETE FROM", "t WHERE x", "= 'a b'"]
      [[.keyword .DELETE, .keyword .FROM], [.identifier "t", .keyword .WHERE, .identifier "x"],
        [.operator .equal, .string "a b"]] :=
    .cons (by decide +kernel) (.cons (by decide +kernel) (.cons (by decide +kernel) .nil))
  have hjoin := tokenize_at_blanks.1 _ _ _ "x#" hd hb
  have hsplit := tokenize_at_blanks.2 _ _ (by simp) hv (some "y")
  exact ⟨hd, hb, hjoin.2 _ he, hsplit.2 _ _ none (by simp) hw rfl⟩

end CommandLine

end SqlShell
