import SqlShell.Proofs.QuotedNumbers

/-!
# Faults

Which texts have which fault in front, and what reading leaves behind it. Like the lexemes, the
faults are described by the characters alone, and the scanner finds one exactly where a text of its
form stands.
-/

set_option autoImplicit false

namespace SqlShell

namespace Scan

open Text

/-- The text goes on to its end without a closing quote. A backslash takes the next character with
it, and at the end it has none to take. -/
inductive Unclosed (quote : Char) : List Char → Prop
  | nil : Unclosed quote []
  | backslash : Unclosed quote ['\\']
  | plain {c : Char} {text : List Char} (hq : c ≠ quote) (hb : c ≠ '\\')
      (h : Unclosed quote text) : Unclosed quote (c :: text)
  | escaped (c : Char) {text : List Char} (h : Unclosed quote text) :
      Unclosed quote ('\\' :: c :: text)

/-- The character is neither blank nor the first one of a token. An exclamation mark is such a
character unless an equals sign follows. -/
structure StartsNothing (c : Char) (rest : List Char) : Prop where
  blank : isBlank c = false
  symbol : c ∉ symbols
  quote : isQuote c = false
  digit : c.isDigit = false
  name : isNameStart c = false
  pair : c = '!' → rest.head? ≠ some '='

inductive FaultForm : List Char → Fault → List Char → Prop
  | unexpectedChar {c : Char} {rest : List Char} (h : StartsNothing c rest) :
      FaultForm (c :: rest) (.unexpectedChar c) (c :: rest)
  | unterminatedString {quote : Char} {rest : List Char} (hq : isQuote quote = true)
      (hu : Unclosed quote rest) : FaultForm (quote :: rest) .unterminatedString []
  | invalidNumber {run after : List Char} (hr : IsRun run) (hp : 2 ≤ run.count '.')
      (ha : ∀ c ∈ after.head?, isNumberChar c = false) :
      FaultForm (run ++ after) (.invalidNumber (String.ofList run)) after

theorem unclosed_of_quoted? {quote : Char} {text : List Char} (h : quoted? quote text = none) :
    Unclosed quote text := by
  fun_induction quoted? quote text with
  | case1 => exact .nil
  | case2 => cases h
  | case3 => exact .backslash
  | case4 c rest _ ih => exact .escaped c (ih (Option.map_eq_none_iff.mp h))
  | case5 c rest hq hb ih => exact .plain hq hb (ih (Option.map_eq_none_iff.mp h))

theorem quoted?_of_unclosed {quote : Char} (hq : quote ≠ '\\') {text : List Char}
    (h : Unclosed quote text) : quoted? quote text = none := by
  induction h with
  | nil => rfl
  | backslash => simp [quoted?, Ne.symm hq]
  | plain hc hb _ ih => rw [quoted?_plain hc hb, ih, Option.map_none]
  | escaped c _ ih => rw [quoted?_escaped hq, ih, Option.map_none]

theorem pairOperator?_of_exclamation {rest : List Char} :
    pairOperator? '!' rest = none ↔ rest.head? ≠ some '=' := by
  cases rest with
  | nil => simp [pairOperator?]
  | cons d rest =>
    by_cases hd : d = '='
    · subst hd
      simp [pairOperator?, Operator.ofPair?]
    · simp [pairOperator?, Operator.ofPair?, hd]

theorem StartsNothing.lexeme_eq {c : Char} {rest : List Char} (h : StartsNothing c rest) :
    lexeme c rest = (.error (.unexpectedChar c), c :: rest) := by
  have hp : pairOperator? c rest = none := by
    by_cases hc : c = '!'
    · subst hc
      exact pairOperator?_of_exclamation.mpr (h.pair rfl)
    · have hs := h.symbol
      simp only [symbols, List.mem_cons, not_or] at hs
      exact pairOperator?_eq_none ⟨hs.2.2.2.2.2.1, hs.2.2.2.2.2.2.1, hc⟩ rest
  simp [lexeme, hp, symbol?_eq_none h.symbol, h.quote, h.digit, h.name]

theorem symbol?_isSome {c : Char} (h : c ∈ symbols) : ∃ token, symbol? c = some token := by
  simp only [symbols, List.mem_cons, List.not_mem_nil, or_false] at h
  rcases h with rfl | rfl | rfl | rfl | rfl | rfl | rfl | rfl | rfl | rfl | rfl <;>
    exact ⟨_, rfl⟩

/-- The scanner finds a fault only where a text of its form stands. -/
theorem lexeme_fault {c : Char} {rest left : List Char} {fault : Fault}
    (hb : isBlank c = false) (h : lexeme c rest = (.error fault, left)) :
    FaultForm (c :: rest) fault left := by
  unfold lexeme at h
  split at h
  · cases h
  rename_i hp
  split at h
  · cases h
  rename_i hs
  split at h
  · rename_i hq
    split at h
    · cases h
    · rename_i hn
      cases h
      exact .unterminatedString hq (unclosed_of_quoted? hn)
  rename_i hq
  split at h
  · rename_i hd
    have hrun : IsRun (c :: rest.takeWhile isNumberChar) :=
      isRun_cons hd List.all_takeWhile
    unfold number at h
    split at h
    · cases h
    · rename_i hf
      cases h
      have hsplit : c :: rest =
          (c :: rest.takeWhile isNumberChar) ++ rest.dropWhile isNumberChar := by
        rw [List.cons_append, List.takeWhile_append_dropWhile]
      rw [hsplit]
      exact .invalidNumber hrun (hrun.ofFixed?_eq_none_iff.mp hf) (head?_dropWhile rest)
  rename_i hd
  split at h
  · cases h
  · rename_i hn
    cases h
    refine .unexpectedChar ⟨hb, ?_, by simpa using hq, by simpa using hd, by simpa using hn, ?_⟩
    · intro hm
      obtain ⟨token, ht⟩ := symbol?_isSome hm
      rw [ht] at hs
      cases hs
    · rintro rfl
      exact pairOperator?_of_exclamation.mp hp

/-- Where a text of a fault's form stands, the scanner finds the fault. -/
theorem FaultForm.lexeme_eq {start left : List Char} {fault : Fault}
    (h : FaultForm start fault left) :
    ∃ c rest, start = c :: rest ∧ isBlank c = false ∧ lexeme c rest = (.error fault, left) := by
  cases h with
  | @unexpectedChar c rest h => exact ⟨c, rest, rfl, h.blank, h.lexeme_eq⟩
  | @unterminatedString quote rest hq hu =>
    have hb : isBlank quote = false := by
      have hq : quote = '\'' ∨ quote = '"' := by simpa [isQuote] using hq
      rcases hq with rfl | rfl <;> decide
    refine ⟨quote, rest, rfl, hb, ?_⟩
    rw [lexeme_of_quote hq, quoted?_of_unclosed (quote_ne_backslash hq) hu]
  | @invalidNumber run _ hr hp ha =>
    have hf := hr.ofFixed?_eq_none_iff.mpr hp
    have hmem := hr.isNumberChar_of_mem
    obtain ⟨c, rest, rfl, hd⟩ := hr.head
    have hrest : ∀ d ∈ rest, isNumberChar d = true :=
      fun d hm => hmem d (List.mem_cons_of_mem c hm)
    refine ⟨c, rest ++ left, rfl, not_blank_of_isDigit hd, ?_⟩
    rw [lexeme_of_digit hd, takeWhile_append_stop hrest ha, dropWhile_append_stop hrest ha,
      number, hf]

theorem read_fault_iff {text start left : List Char} {fault : Fault} :
    read text = ⟨start, .error fault, left⟩ ↔
      text.dropWhile isBlank = start ∧ FaultForm start fault left := by
  constructor
  · intro h
    unfold read at h
    split at h
    · cases h
    · rename_i c rest hd
      have hb : isBlank c = false := head?_dropWhile text c (by rw [hd]; rfl)
      simp only [Reading.mk.injEq] at h
      obtain ⟨rfl, ho, hl⟩ := h
      exact ⟨hd, lexeme_fault hb (Prod.ext ho hl)⟩
  · rintro ⟨hd, hf⟩
    obtain ⟨c, rest, rfl, _, hl⟩ := hf.lexeme_eq
    rw [read, hd]
    simp only [hl]

end Scan

end SqlShell
