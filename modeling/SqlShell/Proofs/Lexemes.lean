import SqlShell.Proofs.Characters
import SqlShell.Proofs.DecimalRounding

/-!
# Lexemes

Which texts spell which tokens, and which characters extend a token. The scanner takes a lexeme
exactly when the character after it does not extend it.
-/

set_option autoImplicit false

namespace SqlShell

namespace Scan

open Text

def IsWord : List Char → Prop
  | [] => False
  | c :: rest => isNameStart c = true ∧ ∀ d ∈ rest, isNameChar d = true

theorem isWord_name (k : Keyword) : IsWord k.name.toList := by
  cases k <;> exact ⟨by decide, List.all_eq_true.mp (by decide)⟩

theorem isWord_asName (k : Keyword) : IsWord k.asName.toList := by
  cases k <;> exact ⟨by decide, List.all_eq_true.mp (by decide)⟩

inductive NumeralForm : List Char → Decimal → Prop
  | whole {digits : List Char} (hn : digits ≠ []) (hd : ∀ c ∈ digits, c.isDigit = true) :
      NumeralForm digits ⟨Nat.ofDigitChars 10 digits 0, 0⟩
  | fraction {digits fraction : List Char} (hn : digits ≠ []) (hd : ∀ c ∈ digits, c.isDigit = true)
      (hf : ∀ c ∈ fraction, c.isDigit = true) :
      NumeralForm (digits ++ '.' :: fraction)
        ⟨Nat.ofDigitChars 10 (digits ++ fraction) 0, -fraction.length⟩

inductive Denotes (run : List Char) : Binary64 → Prop
  | nearest {decimal : Decimal} {m : Magnitude} (h : NumeralForm run decimal)
      (hr : Magnitude.RoundsTo decimal.value (some m)) : Denotes run (.finite false m)
  | tooLarge {decimal : Decimal} (h : NumeralForm run decimal)
      (hr : Magnitude.RoundsTo decimal.value none) : Denotes run (.infinite false)

inductive BodyForm (quote : Char) : List Char → List Char → Prop
  | nil : BodyForm quote [] []
  | plain {c : Char} {body text : List Char} (hq : c ≠ quote) (hb : c ≠ '\\')
      (h : BodyForm quote body text) : BodyForm quote (c :: body) (c :: text)
  | escaped (c : Char) {body text : List Char} (h : BodyForm quote body text) :
      BodyForm quote ('\\' :: c :: body) (c :: text)

inductive LexemeForm : List Char → Token → Prop
  | keyword {word : List Char} {k : Keyword} (hw : IsWord word) (hk : k.Spelled word) :
      LexemeForm word (.keyword k)
  | identifier {word : List Char} (hw : IsWord word) (hk : ∀ k : Keyword, ¬k.Spelled word) :
      LexemeForm word (.identifier (String.ofList word))
  | string {quote : Char} {body text : List Char} (hq : isQuote quote = true)
      (hb : BodyForm quote body text) :
      LexemeForm (quote :: (body ++ [quote])) (.string (String.ofList text))
  | number {run : List Char} {value : Binary64} (h : Denotes run value) :
      LexemeForm run (.number value)
  | operator (op : Operator) : LexemeForm op.symbol.toList (.operator op)
  | comma : LexemeForm [','] .comma
  | leftParen : LexemeForm ['('] .leftParen
  | rightParen : LexemeForm [')'] .rightParen
  | semicolon : LexemeForm [';'] .semicolon

def extends? : Token → Char → Bool
  | .keyword _, c => isNameChar c
  | .identifier _, c => isNameChar c
  | .number _, c => isNumberChar c
  | .operator .less, c => c == '=' || c == '>'
  | .operator .greater, c => c == '='
  | _, _ => false

def EndsAt (token : Token) (after : List Char) : Prop :=
  ∀ c ∈ after.head?, extends? token c = false

theorem takeWhile_append_stop {p : Char → Bool} {run after : List Char}
    (hr : ∀ c ∈ run, p c = true) (ha : ∀ c ∈ after.head?, p c = false) :
    (run ++ after).takeWhile p = run := by
  rw [List.takeWhile_append_of_pos hr]
  cases after with
  | nil => simp
  | cons c after => simp [ha c rfl]

theorem dropWhile_append_stop {p : Char → Bool} {run after : List Char}
    (hr : ∀ c ∈ run, p c = true) (ha : ∀ c ∈ after.head?, p c = false) :
    (run ++ after).dropWhile p = after := by
  rw [List.dropWhile_append_of_pos hr]
  cases after with
  | nil => simp
  | cons c after => simp [ha c rfl]

theorem mem_takeWhile {p : Char → Bool} {text : List Char} {c : Char}
    (h : c ∈ text.takeWhile p) : p c = true :=
  List.all_eq_true.mp List.all_takeWhile c h

theorem intercalate_cons {α : Type} (separator part : List α) (parts : List (List α)) :
    separator.intercalate (part :: parts) = part ++ parts.flatMap (separator ++ ·) := by
  induction parts generalizing part with
  | nil => simp
  | cons next parts ih => simp [List.intercalate_cons_cons, ih]

theorem head?_dropWhile {p : Char → Bool} (text : List Char) :
    ∀ c ∈ (text.dropWhile p).head?, p c = false := by
  intro c hc
  have h := List.head?_dropWhile_not p text
  rw [Option.mem_def.mp hc] at h
  exact h

theorem natural?_digits {digits : List Char} (hn : digits ≠ [])
    (hd : ∀ c ∈ digits, c.isDigit = true) :
    Decimal.natural? digits = some (Nat.ofDigitChars 10 digits 0) :=
  if_pos ⟨hn, List.all_eq_true.mpr hd⟩

theorem ofFixed?_numeral {run : List Char} {decimal : Decimal} (h : NumeralForm run decimal) :
    Decimal.ofFixed? run = some decimal := by
  cases h with
  | whole hn hd =>
    have ht : (run ++ []).takeWhile Char.isDigit = run := takeWhile_append_stop hd (by simp)
    have hr : (run ++ []).dropWhile Char.isDigit = [] := dropWhile_append_stop hd (by simp)
    rw [List.append_nil] at ht hr
    simp [Decimal.ofFixed?, ht, hr, natural?_digits hn hd]
  | @fraction digits fraction hn hd hf =>
    have hp : ∀ c ∈ ('.' :: fraction).head?, c.isDigit = false := by simp
    have hall : ∀ c ∈ digits ++ fraction, c.isDigit = true := by
      intro c hc
      rcases List.mem_append.mp hc with hc | hc
      · exact hd c hc
      · exact hf c hc
    simp only [Decimal.ofFixed?, takeWhile_append_stop hd hp, dropWhile_append_stop hd hp]
    rw [if_pos (List.all_eq_true.mpr hf), natural?_digits (by simp [hn]) hall]
    rfl

theorem numeral_of_ofFixed? {c : Char} {run : List Char} {decimal : Decimal}
    (hc : c.isDigit = true) (h : Decimal.ofFixed? (c :: run) = some decimal) :
    NumeralForm (c :: run) decimal := by
  have hs := List.takeWhile_append_dropWhile (p := Char.isDigit) (l := c :: run)
  have hd : ∀ d ∈ (c :: run).takeWhile Char.isDigit, d.isDigit = true := fun d => mem_takeWhile
  have hn : (c :: run).takeWhile Char.isDigit ≠ [] := by simp [hc]
  rw [← hs]
  unfold Decimal.ofFixed? at h
  split at h
  · rename_i hr
    simp only [natural?_digits hn hd] at h
    cases h
    rw [hr, List.append_nil]
    exact .whole hn hd
  · rename_i fraction hr
    split at h
    · rename_i hf
      have hf := List.all_eq_true.mp hf
      have hall : ∀ d ∈ (c :: run).takeWhile Char.isDigit ++ fraction, d.isDigit = true := by
        intro d hm
        rcases List.mem_append.mp hm with hm | hm
        · exact hd d hm
        · exact hf d hm
      simp only [natural?_digits (by simp [hn]) hall] at h
      cases h
      rw [hr]
      exact .fraction hn hd hf
    · cases h
  · cases h

theorem denotes_iff {run : List Char} {value : Binary64} :
    Denotes run value ↔ ∃ decimal, NumeralForm run decimal ∧ value = .ofDecimal false decimal := by
  constructor
  · intro h
    cases h with
    | @nearest decimal m h hr =>
      refine ⟨decimal, h, ?_⟩
      rw [Binary64.ofDecimal, decimal.magnitude?_roundsTo.unique hr]
    | @tooLarge decimal h hr =>
      refine ⟨decimal, h, ?_⟩
      rw [Binary64.ofDecimal, decimal.magnitude?_roundsTo.unique hr]
  · rintro ⟨decimal, h, rfl⟩
    have hr := decimal.magnitude?_roundsTo
    unfold Binary64.ofDecimal
    cases hm : decimal.magnitude? with
    | some m => exact .nearest h (hm ▸ hr)
    | none => exact .tooLarge h (hm ▸ hr)

theorem quoted?_quote (quote : Char) (rest : List Char) :
    quoted? quote (quote :: rest) = some ([], rest) := by
  unfold quoted?
  rw [if_pos rfl]

theorem quoted?_plain {quote c : Char} (hc : c ≠ quote) (hb : c ≠ '\\') (rest : List Char) :
    quoted? quote (c :: rest) =
      (quoted? quote rest).map fun (text, after) => (c :: text, after) := by
  conv => lhs; unfold quoted?
  rw [if_neg hc, if_neg hb]

theorem quoted?_escaped {quote : Char} (hq : quote ≠ '\\') (c : Char) (rest : List Char) :
    quoted? quote ('\\' :: c :: rest) =
      (quoted? quote rest).map fun (text, after) => (c :: text, after) := by
  conv => lhs; unfold quoted?
  rw [if_neg (Ne.symm hq), if_pos rfl]

theorem quoted?_eq_some_iff {quote : Char} (hq : quote ≠ '\\') {input text after : List Char} :
    quoted? quote input = some (text, after) ↔
      ∃ body, input = body ++ quote :: after ∧ BodyForm quote body text := by
  constructor
  · intro h
    fun_induction quoted? quote input generalizing text with
    | case1 => cases h
    | case2 rest =>
      cases h
      exact ⟨[], rfl, .nil⟩
    | case3 => cases h
    | case4 c rest _ ih =>
      obtain ⟨⟨inner, tail⟩, hi, he⟩ := Option.map_eq_some_iff.mp h
      cases he
      obtain ⟨body, rfl, hb⟩ := ih hi
      exact ⟨'\\' :: c :: body, rfl, .escaped c hb⟩
    | case5 c rest hc hb ih =>
      obtain ⟨⟨inner, tail⟩, hi, he⟩ := Option.map_eq_some_iff.mp h
      cases he
      obtain ⟨body, rfl, hf⟩ := ih hi
      exact ⟨c :: body, rfl, .plain hc hb hf⟩
  · rintro ⟨body, rfl, hb⟩
    induction hb with
    | nil => exact quoted?_quote quote after
    | plain hc hs _ ih => rw [List.cons_append, quoted?_plain hc hs, ih, Option.map_some]
    | escaped c _ ih =>
      rw [List.cons_append, List.cons_append, quoted?_escaped hq, ih, Option.map_some]

def symbols : List Char := [',', '(', ')', ';', '=', '<', '>', '+', '-', '*', '/']

theorem symbol?_eq_none {c : Char} (h : c ∉ symbols) : symbol? c = none := by
  simp only [symbols, List.mem_cons, List.not_mem_nil, or_false, not_or] at h
  unfold symbol? Operator.ofChar?
  split <;> simp_all

theorem pairOperator?_eq_none {c : Char} (h : c ≠ '<' ∧ c ≠ '>' ∧ c ≠ '!') (rest : List Char) :
    pairOperator? c rest = none := by
  cases rest with
  | nil => rfl
  | cons d rest =>
    have hp : Operator.ofPair? c d = none := by
      unfold Operator.ofPair?
      split <;> simp_all
    rw [pairOperator?, hp]
    rfl

def marks : List Char := symbols ++ ['!', '\'', '"']

theorem lexeme_of_notMem_marks {c : Char} (h : c ∉ marks) (rest : List Char) :
    lexeme c rest =
      if c.isDigit then
        (number (c :: rest.takeWhile isNumberChar), rest.dropWhile isNumberChar)
      else if isNameStart c then
        (.ok (word (c :: rest.takeWhile isNameChar)), rest.dropWhile isNameChar)
      else (.error (.unexpectedChar c), c :: rest) := by
  have hs : c ∉ symbols := fun hc => h (List.mem_append_left _ hc)
  simp only [marks, symbols, List.mem_append, List.mem_cons, List.not_mem_nil, or_false,
    not_or] at h
  have hq : isQuote c = false := by simp [isQuote, h]
  have hp : c ≠ '<' ∧ c ≠ '>' ∧ c ≠ '!' := by simp [h]
  simp [lexeme, pairOperator?_eq_none hp, symbol?_eq_none hs, hq]

theorem lexeme_of_digit {c : Char} (hc : c.isDigit = true) (rest : List Char) :
    lexeme c rest = (number (c :: rest.takeWhile isNumberChar), rest.dropWhile isNumberChar) := by
  have hm : ∀ code ∈ marks.map Char.toNat, ¬(0x30 ≤ code ∧ code ≤ 0x39) := by decide
  rw [lexeme_of_notMem_marks fun h => hm _ (List.mem_map_of_mem h) (isDigit_range hc), if_pos hc]

theorem lexeme_of_nameStart {c : Char} (hc : isNameStart c = true) (rest : List Char) :
    lexeme c rest =
      (.ok (word (c :: rest.takeWhile isNameChar)), rest.dropWhile isNameChar) := by
  have hr := isNameStart_ge hc
  have hm : ∀ code ∈ marks.map Char.toNat, ¬0x41 ≤ code := by decide
  have hd : ¬c.isDigit = true := by
    intro hd
    have := isDigit_range hd
    omega
  rw [lexeme_of_notMem_marks fun h => hm _ (List.mem_map_of_mem h) hr, if_neg hd, if_pos hc]

theorem lexeme_of_quote {c : Char} (hc : isQuote c = true) (rest : List Char) :
    lexeme c rest = match quoted? c rest with
      | some (text, after) => (.ok (.string (String.ofList text)), after)
      | none => (.error .unterminatedString, []) := by
  have hq : c = '\'' ∨ c = '"' := by simpa [isQuote] using hc
  rcases hq with rfl | rfl
  all_goals
    rw [lexeme, pairOperator?_eq_none (by decide), symbol?_eq_none (by decide)]
    rfl

theorem word_form {text : List Char} (hw : IsWord text) : LexemeForm text (word text) := by
  unfold word
  split
  · rename_i k hk
    exact .keyword hw (Keyword.ofWord?_eq_some_iff.mp hk)
  · rename_i hk
    exact .identifier hw (Keyword.ofWord?_eq_none_iff.mp hk)

theorem extends?_word (text : List Char) (c : Char) : extends? (word text) c = isNameChar c := by
  unfold word
  split <;> rfl

theorem symbol_of_pair {c d : Char} {op : Operator} (h : Operator.ofPair? c d = some op) :
    op.symbol.toList = [c, d] ∧ op ≠ .less ∧ op ≠ .greater := by
  unfold Operator.ofPair? at h
  split at h <;> cases h <;> decide

theorem symbol_of_char {c : Char} {op : Operator} (h : Operator.ofChar? c = some op) :
    op.symbol.toList = [c] := by
  unfold Operator.ofChar? at h
  split at h <;> cases h <;> decide

theorem symbol?_form {c : Char} {token : Token} (h : symbol? c = some token) :
    LexemeForm [c] token := by
  unfold symbol? at h
  split at h
  · cases h
    exact .comma
  · cases h
    exact .leftParen
  · cases h
    exact .rightParen
  · cases h
    exact .semicolon
  · obtain ⟨op, ho, rfl⟩ := Option.map_eq_some_iff.mp h
    exact symbol_of_char ho ▸ .operator op

theorem extends?_symbol {c d : Char} {token : Token} (hp : Operator.ofPair? c d = none)
    (h : symbol? c = some token) : extends? token d = false := by
  have hc : c ∈ symbols := by
    by_cases hc : c ∈ symbols
    · exact hc
    · rw [symbol?_eq_none hc] at h
      cases h
  simp only [symbols, List.mem_cons, List.not_mem_nil, or_false] at hc
  rcases hc with rfl | rfl | rfl | rfl | rfl | rfl | rfl | rfl | rfl | rfl | rfl <;> cases h
  case inr.inr.inr.inr.inr.inl =>
    -- only `<` and `>` start longer operators
    have he : d ≠ '=' := fun he => by subst he; cases hp
    have hg : d ≠ '>' := fun hg => by subst hg; cases hp
    simp [extends?, he, hg]
  case inr.inr.inr.inr.inr.inr.inl =>
    have he : d ≠ '=' := fun he => by subst he; cases hp
    simp [extends?, he]
  all_goals rfl

theorem endsAt_symbol {c : Char} {rest : List Char} {token : Token}
    (hp : pairOperator? c rest = none) (h : symbol? c = some token) : EndsAt token rest := by
  intro d hd
  cases rest with
  | nil => cases hd
  | cons e rest =>
    cases hd
    exact extends?_symbol (Option.map_eq_none_iff.mp hp) h

theorem quote_ne_backslash {c : Char} (h : isQuote c = true) : c ≠ '\\' := by
  rintro rfl
  cases h

/-- A token is taken from a text only if a lexeme of it stands in front and what follows does not
extend it. -/
theorem lexeme_sound {c : Char} {rest after : List Char} {token : Token}
    (h : lexeme c rest = (.ok token, after)) :
    ∃ text, c :: rest = text ++ after ∧ LexemeForm text token ∧ EndsAt token after := by
  unfold lexeme at h
  split at h
  · rename_i op tail hp
    cases h
    cases rest with
    | nil => cases hp
    | cons d rest =>
      obtain ⟨_, ho, he⟩ := Option.map_eq_some_iff.mp hp
      cases he
      obtain ⟨hs, hl, hg⟩ := symbol_of_pair ho
      refine ⟨[c, d], rfl, hs ▸ .operator op, fun e _ => ?_⟩
      cases op <;> first | rfl | contradiction
  rename_i hp
  split at h
  · rename_i hs
    cases h
    exact ⟨[c], rfl, symbol?_form hs, endsAt_symbol hp hs⟩
  split at h
  · rename_i hq
    split at h
    · rename_i text tail ht
      cases h
      obtain ⟨body, rfl, hb⟩ := (quoted?_eq_some_iff (quote_ne_backslash hq)).mp ht
      exact ⟨c :: (body ++ [c]), by simp, .string hq hb, fun _ _ => rfl⟩
    · cases h
  split at h
  · rename_i hd
    unfold number at h
    split at h
    · rename_i decimal hf
      cases h
      exact ⟨c :: rest.takeWhile isNumberChar, by simp,
        .number (denotes_iff.mpr ⟨_, numeral_of_ofFixed? hd hf, rfl⟩), head?_dropWhile rest⟩
    · cases h
  split at h
  · rename_i hn
    cases h
    refine ⟨c :: rest.takeWhile isNameChar, by simp, word_form ⟨hn, fun d => mem_takeWhile⟩, ?_⟩
    intro d hd
    rw [extends?_word]
    exact head?_dropWhile rest d hd
  · cases h

theorem NumeralForm.ne_nil {run : List Char} {decimal : Decimal} (h : NumeralForm run decimal) :
    ∃ c rest, run = c :: rest ∧ c.isDigit = true ∧ ∀ d ∈ rest, isNumberChar d = true := by
  cases h with
  | whole hn hd =>
    cases run with
    | nil => exact absurd rfl hn
    | cons c rest =>
      refine ⟨c, rest, rfl, hd c List.mem_cons_self, fun d hm => ?_⟩
      simp [isNumberChar, hd d (List.mem_cons_of_mem c hm)]
  | @fraction digits fraction hn hd hf =>
    cases digits with
    | nil => exact absurd rfl hn
    | cons c rest =>
      refine ⟨c, rest ++ '.' :: fraction, rfl, hd c List.mem_cons_self, fun d hm => ?_⟩
      rcases List.mem_append.mp hm with hm | hm
      · simp [isNumberChar, hd d (List.mem_cons_of_mem c hm)]
      · rcases List.mem_cons.mp hm with rfl | hm
        · rfl
        · simp [isNumberChar, hf d hm]

theorem lexeme_of_symbol {c : Char} {after : List Char} {token : Token}
    (hs : symbol? c = some token) (ha : EndsAt token after) :
    lexeme c after = (.ok token, after) := by
  have hp : pairOperator? c after = none := by
    by_cases hc : c ≠ '<' ∧ c ≠ '>' ∧ c ≠ '!'
    · exact pairOperator?_eq_none hc after
    cases after with
    | nil => rfl
    | cons d after =>
      have hd := ha d rfl
      cases ho : Operator.ofPair? c d with
      | none => rw [pairOperator?, ho, Option.map_none]
      | some op =>
        unfold Operator.ofPair? at ho
        split at ho <;> cases ho <;> cases hs <;> cases hd
  simp [lexeme, hp, hs]

theorem lexeme_word {c : Char} {rest after : List Char} (hw : IsWord (c :: rest))
    (ha : ∀ d ∈ after.head?, isNameChar d = false) :
    lexeme c (rest ++ after) = (.ok (word (c :: rest)), after) := by
  rw [lexeme_of_nameStart hw.1, takeWhile_append_stop hw.2 ha, dropWhile_append_stop hw.2 ha]

theorem lexeme_operator {op : Operator} {after : List Char} (ha : EndsAt (.operator op) after) :
    ∃ c rest, op.symbol.toList = c :: rest ∧
      lexeme c (rest ++ after) = (.ok (.operator op), after) := by
  cases op with
  | notEqual => exact ⟨'!', ['='], rfl, rfl⟩
  | lessGreater => exact ⟨'<', ['>'], rfl, rfl⟩
  | greaterEqual => exact ⟨'>', ['='], rfl, rfl⟩
  | lessEqual => exact ⟨'<', ['='], rfl, rfl⟩
  | less => exact ⟨'<', [], rfl, lexeme_of_symbol rfl ha⟩
  | greater => exact ⟨'>', [], rfl, lexeme_of_symbol rfl ha⟩
  | equal => exact ⟨'=', [], rfl, lexeme_of_symbol rfl ha⟩
  | plus => exact ⟨'+', [], rfl, lexeme_of_symbol rfl ha⟩
  | minus => exact ⟨'-', [], rfl, lexeme_of_symbol rfl ha⟩
  | star => exact ⟨'*', [], rfl, lexeme_of_symbol rfl ha⟩
  | slash => exact ⟨'/', [], rfl, lexeme_of_symbol rfl ha⟩

theorem lexeme_complete {text after : List Char} {token : Token} (h : LexemeForm text token)
    (ha : EndsAt token after) :
    ∃ c rest, text = c :: rest ∧ lexeme c (rest ++ after) = (.ok token, after) := by
  cases h with
  | keyword hw hk =>
    cases text with
    | nil => exact hw.elim
    | cons c rest =>
      refine ⟨c, rest, rfl, ?_⟩
      rw [lexeme_word hw ha, word, Keyword.ofWord?_eq_some_iff.mpr hk]
  | identifier hw hk =>
    cases text with
    | nil => exact hw.elim
    | cons c rest =>
      refine ⟨c, rest, rfl, ?_⟩
      rw [lexeme_word hw ha, word, Keyword.ofWord?_eq_none_iff.mpr hk]
  | @string quote body text hq hb =>
    refine ⟨quote, body ++ [quote], rfl, ?_⟩
    have ht : quoted? quote (body ++ [quote] ++ after) = some (text, after) :=
      (quoted?_eq_some_iff (quote_ne_backslash hq)).mpr ⟨body, by simp, hb⟩
    rw [lexeme_of_quote hq, ht]
  | number hv =>
    obtain ⟨decimal, hn, rfl⟩ := denotes_iff.mp hv
    obtain ⟨c, rest, rfl, hc, hr⟩ := hn.ne_nil
    refine ⟨c, rest, rfl, ?_⟩
    rw [lexeme_of_digit hc, takeWhile_append_stop hr ha, dropWhile_append_stop hr ha, number,
      ofFixed?_numeral hn]
  | operator op => exact lexeme_operator ha
  | comma => exact ⟨',', [], rfl, lexeme_of_symbol rfl ha⟩
  | leftParen => exact ⟨'(', [], rfl, lexeme_of_symbol rfl ha⟩
  | rightParen => exact ⟨')', [], rfl, lexeme_of_symbol rfl ha⟩
  | semicolon => exact ⟨';', [], rfl, lexeme_of_symbol rfl ha⟩

end Scan

end SqlShell
