import SqlShell.Proofs.Numerals
import SqlShell.Proofs.QuotedText

/-!
# Numbers in quotes

A run of digits and points is read by two readers: bare, by the scanner, and quoted, as a text that
may read as a number. Both fail at a second point and otherwise find the same decimal, so quotes
around a number change nothing, unless it is too large: then it has no text on its own and is a text
in quotes.
-/

set_option autoImplicit false

namespace SqlShell

open Grammar Scan

structure IsRun (run : List Char) : Prop where
  head : ∃ c rest, run = c :: rest ∧ c.isDigit = true
  mem : ∀ c ∈ run, c.isDigit = true ∨ c = '.'

theorem isRun_cons {c : Char} {rest : List Char} (hc : c.isDigit = true)
    (hr : rest.all isNumberChar = true) : IsRun (c :: rest) where
  head := ⟨c, rest, rfl, hc⟩
  mem := by
    refine List.forall_mem_cons.mpr ⟨Or.inl hc, fun d hd => ?_⟩
    have hn := List.all_eq_true.mp hr d hd
    simpa [isNumberChar] using hn

theorem isDigit_ne_point {c : Char} (h : c.isDigit = true) : c ≠ '.' := by
  rintro rfl
  exact absurd h (by decide)

theorem count_point_of_digits {text : List Char} (h : ∀ c ∈ text, c.isDigit = true) :
    text.count '.' = 0 :=
  List.count_eq_zero.mpr fun hm => isDigit_ne_point (h _ hm) rfl

namespace IsRun

variable {run : List Char}

/-- A run is a numeral unless it has a second point. -/
theorem exists_numeral_iff (h : IsRun run) : (∃ d, NumeralForm run d) ↔ run.count '.' < 2 := by
  constructor
  · rintro ⟨d, hd⟩
    cases hd with
    | whole hn hd => rw [count_point_of_digits hd]; decide
    | fraction hn hd hf =>
      rw [List.count_append, List.count_cons_self, count_point_of_digits hd,
        count_point_of_digits hf]
      decide
  · intro hc
    obtain ⟨c, rest, he, hdigit⟩ := h.head
    have hs := List.takeWhile_append_dropWhile (p := Char.isDigit) (l := run)
    have hd : ∀ c ∈ run.takeWhile Char.isDigit, c.isDigit = true := fun c => mem_takeWhile
    have hn : run.takeWhile Char.isDigit ≠ [] := by simp [he, hdigit]
    have hstop := head?_dropWhile (p := Char.isDigit) run
    rw [← hs] at hc h ⊢
    generalize run.takeWhile Char.isDigit = digits at *
    generalize run.dropWhile Char.isDigit = fraction at *
    cases fraction with
    | nil =>
      rw [List.append_nil]
      exact ⟨_, .whole hn hd⟩
    | cons p fraction =>
      have hp : p = '.' := by
        rcases h.mem p (by simp) with hp | hp
        · rw [hstop p rfl] at hp
          cases hp
        · exact hp
      subst hp
      rw [List.count_append, List.count_cons_self] at hc
      have hf : fraction.count '.' = 0 := by omega
      refine ⟨_, .fraction hn hd fun c hm => ?_⟩
      rcases h.mem c (by simp [hm]) with hc | rfl
      · exact hc
      · exact absurd hm (List.count_eq_zero.mp hf)

theorem ofFixed?_eq_none_iff (h : IsRun run) :
    Decimal.ofFixed? run = none ↔ 2 ≤ run.count '.' := by
  obtain ⟨c, rest, rfl, hdigit⟩ := h.head
  rw [← Nat.not_lt, ← h.exists_numeral_iff, Option.eq_none_iff_forall_ne_some, not_exists]
  constructor
  · exact fun hnone d hd => hnone d (ofFixed?_numeral hd)
  · exact fun hnone d hd => hnone d (numeral_of_ofFixed? hdigit hd)

/-- Without a sign and a power a decimal is read as a fixed one. -/
theorem signedDecimal?_eq (h : IsRun run) :
    signedDecimal? run = (Decimal.ofFixed? run).map (false, ·) := by
  have hpower : (run ++ []).dropWhile (!Decimal.isPowerMark ·) = [] := by
    refine dropWhile_append_stop (fun c hc => ?_) (by simp)
    rw [Decimal.not_isPowerMark (h.mem c hc)]
    rfl
  rw [List.append_nil] at hpower
  unfold signedDecimal?
  split
  · exact absurd (h.mem '+' (by simp)) (by decide)
  · exact absurd (h.mem '-' (by simp)) (by decide)
  · unfold Decimal.ofUnsigned?
    rw [hpower]

theorem not_blank (h : IsRun run) : ∀ c ∈ run, Text.isBlank c = false := by
  intro c hc
  rcases h.mem c hc with hc | rfl
  · exact not_blank_of_isDigit hc
  · decide

theorem isNumberChar_of_mem (h : IsRun run) : ∀ c ∈ run, isNumberChar c = true := by
  intro c hc
  rcases h.mem c hc with hc | rfl
  · simp [isNumberChar, hc]
  · rfl

/-- The scanner takes the whole run, as a number or as a fault. -/
theorem read_eq (h : IsRun run) : Scan.read run = ⟨run, number run, []⟩ := by
  obtain ⟨c, rest, rfl, hdigit⟩ := h.head
  have hrest : ∀ d ∈ rest, isNumberChar d = true :=
    fun d hd => h.isNumberChar_of_mem d (List.mem_cons_of_mem c hd)
  have ht : (rest ++ []).takeWhile isNumberChar = rest := takeWhile_append_stop hrest (by simp)
  have hd : (rest ++ []).dropWhile isNumberChar = [] := dropWhile_append_stop hrest (by simp)
  rw [List.append_nil] at ht hd
  have hb : (c :: rest).dropWhile Text.isBlank = c :: rest := by
    simp [h.not_blank c List.mem_cons_self]
  rw [Scan.read, hb]
  simp only [lexeme_of_digit hdigit, ht, hd]

theorem tokenize_of_ofFixed? {w : String} (h : IsRun w.toList) {d : Decimal}
    (hd : Decimal.ofFixed? w.toList = some d) :
    tokenize w = .ok [.number (.ofDecimal false d), .eof] := by
  have ho : (Scan.read w.toList).outcome = .ok (.number (.ofDecimal false d)) := by
    rw [h.read_eq, number, hd]
  rw [tokenize_eq_ok_iff, tokens_of_token ho (by simp), h.read_eq]
  rw [tokens_of_eof (by rfl)]
  rfl

theorem tokenize_of_none {w : String} (h : IsRun w.toList)
    (hd : Decimal.ofFixed? w.toList = none) : tokenize w = .error ⟨.invalidNumber w, 0⟩ := by
  have ho : (Scan.read w.toList).outcome = .error (.invalidNumber w) := by
    rw [h.read_eq, number, hd, String.ofList_toList]
  unfold tokenize
  rw [tokens_of_error ho, h.read_eq]
  change Except.error (ScanError.mk (.invalidNumber w) (w.toList.length - w.toList.length)) = _
  rw [Nat.sub_self]

/-- What a run reads as in quotes. -/
theorem ofText?_eq {w : String} (h : IsRun w.toList) {d : Decimal}
    (hd : Decimal.ofFixed? w.toList = some d) :
    Binary64.ofText? w = d.magnitude?.map (.finite false) := by
  rw [ofText?_of_trimmed (Text.trimmed_self h.not_blank), Binary64.ofTrimmed?]
  rw [h.signedDecimal?_eq, hd]
  rfl

/-- Neither in a statement nor in a document a run has anything to escape. -/
theorem plain (h : IsRun run) {c : Char} (hc : c ∈ run) :
    c ≠ '\'' ∧ c ∉ lettered ∧ ¬c.toNat < 0x20 := by
  have hm : ∀ code ∈ ('\'' :: lettered).map Char.toNat, ¬(0x30 ≤ code ∧ code ≤ 0x39) := by decide
  rcases h.mem c hc with hc | rfl
  · have hr := isDigit_range hc
    have hn : c ∉ '\'' :: lettered := fun hl => hm _ (List.mem_map_of_mem hl) hr
    rw [List.mem_cons, not_or] at hn
    exact ⟨hn.1, hn.2, by omega⟩
  · decide

theorem bodyForm (h : IsRun run) {quote : Char} (hq : isQuote quote = true) :
    BodyForm quote run run := by
  have hquote : quote = '\'' ∨ quote ∈ lettered := by
    have hq : quote = '\'' ∨ quote = '"' := by simpa [isQuote] using hq
    rcases hq with rfl | rfl
    · exact Or.inl rfl
    · exact Or.inr (by decide)
  have hplain : ∀ c ∈ run, c ≠ quote ∧ c ≠ '\\' := by
    intro c hc
    obtain ⟨hs, hl, -⟩ := h.plain hc
    refine ⟨?_, fun hb => hl (hb ▸ by decide)⟩
    rintro rfl
    rcases hquote with hquote | hquote
    · exact hs hquote
    · exact hl hquote
  clear h
  induction run with
  | nil => exact .nil
  | cons c run ih =>
    obtain ⟨hc, hrun⟩ := List.forall_mem_cons.mp hplain
    exact .plain hc.1 hc.2 (ih hrun)

theorem text_string {w : String} (h : IsRun w.toList) :
    (Value.string w).text = "\"" ++ w ++ "\"" := by
  have hplain : ∀ c ∈ w.toList, escape c = [c] := by
    intro c hc
    obtain ⟨-, hl, hn⟩ := h.plain hc
    rw [escape_of_notMem hl, if_neg hn]
  have he : w.toList.flatMap escape = w.toList := by
    rw [List.flatMap_congr hplain]
    simp
  apply String.toList_inj.mp
  rw [Value.text, Value.write, quote, he, String.toList_ofList]
  simp

theorem exists_decimal {w : String} (h : IsRun w.toList) {n : Binary64}
    (ht : tokenize w = .ok [.number n, .eof]) :
    ∃ d, n = .ofDecimal false d ∧ Binary64.ofText? w = d.magnitude?.map (.finite false) := by
  cases hd : Decimal.ofFixed? w.toList with
  | none =>
    rw [h.tokenize_of_none hd] at ht
    cases ht
  | some d =>
    rw [h.tokenize_of_ofFixed? hd] at ht
    cases ht
    exact ⟨d, rfl, h.ofText?_eq hd⟩

theorem ofText?_of_finite {w : String} (h : IsRun w.toList) {negative : Bool} {m : Magnitude}
    (ht : tokenize w = .ok [.number (.finite negative m), .eof]) :
    Binary64.ofText? w = some (.finite negative m) := by
  obtain ⟨d, hd, hr⟩ := h.exists_decimal ht
  unfold Binary64.ofDecimal at hd
  split at hd
  · rename_i hm
    rw [hr, hm, hd]
    rfl
  · cases hd

theorem ofText?_of_infinite {w : String} (h : IsRun w.toList) {negative : Bool}
    (ht : tokenize w = .ok [.number (.infinite negative), .eof]) : Binary64.ofText? w = none := by
  obtain ⟨d, hd, hr⟩ := h.exists_decimal ht
  unfold Binary64.ofDecimal at hd
  split at hd
  · cases hd
  · rename_i hm
    rw [hr, hm]
    rfl

theorem tokenize_eq_error_iff {w : String} (h : IsRun w.toList) :
    tokenize w = .error ⟨.invalidNumber w, 0⟩ ↔ 2 ≤ w.toList.count '.' := by
  rw [← h.ofFixed?_eq_none_iff]
  constructor
  · intro ht
    cases hd : Decimal.ofFixed? w.toList with
    | none => rfl
    | some d =>
      rw [h.tokenize_of_ofFixed? hd] at ht
      cases ht
  · exact h.tokenize_of_none

theorem signedDecimal?_eq_none_iff (h : IsRun run) :
    signedDecimal? run = none ↔ 2 ≤ run.count '.' := by
  rw [h.signedDecimal?_eq, Option.map_eq_none_iff, h.ofFixed?_eq_none_iff]

end IsRun

theorem signedDecimal?_eq_none {text : List Char} :
    signedDecimal? text = none ↔ ¬∃ negative x, DecimalForm text negative x := by
  constructor
  · rintro hn ⟨negative, x, hf⟩
    obtain ⟨d, hd, -⟩ := signedDecimal?_of_form hf
    rw [hn] at hd
    cases hd
  · intro hn
    rw [Option.eq_none_iff_forall_ne_some]
    rintro ⟨negative, d⟩ hd
    exact hn ⟨negative, d.value, signedDecimal?_eq_some hd⟩

/-- Of the runs the scanner refuses those with two points or more, which are no decimals. A finite
number is the same in quotes, in every place of a literal. An infinite one is written as null, and
in quotes as a text. -/
theorem quoting_keeps_number {w : String} (hw : IsRun w.toList) :
    (tokenize w = .error ⟨.invalidNumber w, 0⟩ ↔ 2 ≤ w.toList.count '.') ∧
    (2 ≤ w.toList.count '.' ↔ signedDecimal? w.toList = none) ∧
    (2 ≤ w.toList.count '.' ↔ ¬∃ negative x, DecimalForm w.toList negative x) ∧
    ∀ n, tokenize w = .ok [.number n, .eof] →
      ((∃ negative m, n = .finite negative m) → Binary64.ofText? w = some n) ∧
      ((∃ negative, n = .infinite negative) → Binary64.ofText? w = none) ∧
      ∀ (before after : String) (front back rest : List Token) (quote : Char)
        (statement : Statement), isQuote quote = true →
        tokenize before = .ok (front ++ [.eof]) → tokenize after = .ok (back ++ rest) →
        tokenize (before ++ w ++ after) = .ok (front ++ .number n :: (back ++ rest)) →
        ¬IsLimitCount front (.number n) →
        (Cursor.ofTokens (front ++ .number n :: (back ++ rest))).readStatement =
          (.ok statement, ⟨rest, 0⟩) →
        (∃ o : OpenSentence, o.Written front back) ∧
        ∀ o : OpenSentence, o.Written front back →
          statement = (o.fill (.number n)).statement ∧
          ((∃ negative m, n = .finite negative m) → ∃ command,
            statement.toCommand = .ok command ∧
            (o.fill (.string w)).statement.toCommand = .ok command ∧
            convert (before ++ w ++ after) = .ok ⟨statement, command.text⟩ ∧
            convert (before ++ quotedLexeme quote w.toList ++ after) =
              .ok ⟨(o.fill (.string w)).statement, command.text⟩) ∧
          ((∃ negative, n = .infinite negative) → o.Counts →
            ∃ (c : OpenCommand) (pre post : String), o.Yields c ∧
            (∀ v, (c.fill v).text = pre ++ v.text ++ post) ∧
            convert (before ++ w ++ after) = .ok ⟨statement, pre ++ "null" ++ post⟩ ∧
            convert (before ++ quotedLexeme quote w.toList ++ after) =
              .ok ⟨(o.fill (.string w)).statement, pre ++ ("\"" ++ w ++ "\"") ++ post⟩) := by
  refine ⟨hw.tokenize_eq_error_iff, hw.signedDecimal?_eq_none_iff.symm, ?_, fun n hn => ?_⟩
  · rw [← hw.signedDecimal?_eq_none_iff, signedDecimal?_eq_none]
  refine ⟨?_, ?_, ?_⟩
  · rintro ⟨negative, m, rfl⟩
    exact hw.ofText?_of_finite hn
  · rintro ⟨negative, rfl⟩
    exact hw.ofText?_of_infinite hn
  intro before after front back rest quote statement hq hf ha ht hk hr
  obtain ⟨hopen, hfill⟩ := Cursor.readStatement_fill (.number n) hk (getLast?_tokenize ha) hr
  refine ⟨hopen, fun o ho => ?_⟩
  obtain ⟨hs, hother⟩ := hfill o ho
  have hquoted := tokenize_quoted hq (hw.bodyForm hq) hf ha
  obtain ⟨command, hc, hconvert⟩ := convert_of_readStatement ht hr
  obtain ⟨command', hc', hconvert'⟩ :=
    convert_of_readStatement hquoted (hother _ _ (.string w))
  refine ⟨hs, ?_, ?_⟩
  · rintro ⟨negative, m, rfl⟩
    have hv : (Literal.string w).toValue = (Literal.number (.finite negative m)).toValue :=
      toValue_of_number (hw.ofText?_of_finite hn)
    have he : (o.fill (.string w)).statement.toCommand = .ok command := by
      rw [o.toCommand_congr hv, ← hs, hc]
    cases he.symm.trans hc'
    exact ⟨command, hc, he, hconvert, hconvert'⟩
  · rintro ⟨negative, rfl⟩ hcounts
    have hv := toValue_of_none (hw.ofText?_of_infinite hn)
    obtain ⟨c, hy⟩ := OpenSentence.exists_yields hcounts hc'
    obtain ⟨pre, post, htext⟩ := c.exists_text
    rw [hs, hy.toCommand_fill] at hc
    rw [hy.toCommand_fill, hv] at hc'
    cases hc
    cases hc'
    refine ⟨c, pre, post, hy, htext, ?_, ?_⟩
    · rw [hconvert, htext]
      rfl
    · rw [hconvert', htext, hw.text_string]

/-- One and a half with a zero to spare, in double quotes, and in single quotes ten to the power of
309, which is too large for a number. -/
theorem quoted_numbers_in_conditions :
    (∃ quoted command,
      convert ("SELECT * FROM t WHERE a >= " ++ "1.50" ++ ";") =
        .ok ⟨.select "t" [.wildcard] ⟨some (.comparison "a" .greaterEqual
          (.number (.finite false ⟨4609434218613702656, by decide⟩))), none, none⟩, command⟩ ∧
      convert ("SELECT * FROM t WHERE a >= " ++ quotedLexeme '"' "1.50".toList ++ ";") =
        .ok ⟨quoted, command⟩) ∧
    ∃ quoted pre post,
      convert ("DELETE FROM t WHERE a = " ++ String.ofList ('1' :: List.replicate 309 '0') ++ "") =
        .ok ⟨.delete "t" (some (.comparison "a" .equal (.number (.infinite false)))),
          pre ++ "null" ++ post⟩ ∧
      convert ("DELETE FROM t WHERE a = " ++
          quotedLexeme '\'' ('1' :: List.replicate 309 '0') ++ "") =
        .ok ⟨quoted, pre ++
          ("\"" ++ String.ofList ('1' :: List.replicate 309 '0') ++ "\"") ++ post⟩ := by
  constructor
  · have hw : IsRun "1.50".toList := @isRun_cons '1' ['.', '5', '0'] rfl rfl
    obtain ⟨-, -, -, h⟩ := quoting_keeps_number hw
    obtain ⟨-, -, h⟩ := h (.finite false ⟨4609434218613702656, by decide⟩) (by decide +kernel)
    obtain ⟨-, h⟩ := h "SELECT * FROM t WHERE a >= " ";"
      [.keyword .SELECT, .operator .star, .keyword .FROM, .identifier "t", .keyword .WHERE,
        .identifier "a", .operator .greaterEqual] [] [.semicolon, .eof] '"'
      (.select "t" [.wildcard] ⟨some (.comparison "a" .greaterEqual
        (.number (.finite false ⟨4609434218613702656, by decide⟩))), none, none⟩) (by decide)
      (by decide +kernel) (by decide +kernel) (by decide +kernel) (by simp [IsLimitCount])
      (by decide +kernel)
    obtain ⟨-, h, -⟩ := h (.select [.wildcard] "t" [] (.comparison "a" .greaterEqual) []) (by
      intro token literal hl
      have hc : ClauseForm _ _ :=
        .condition (.conjunction (.operand (.comparison "a" .greaterEqual rfl hl)))
      have hs := SentenceForm.select (.one .wildcard) (.identifier "t") (.more hc .none)
      exact hs)
    obtain ⟨command, -, -, hbare, hquoted⟩ := h ⟨false, _, rfl⟩
    exact ⟨_, _, hbare, hquoted⟩
  · have hw : IsRun (String.ofList ('1' :: List.replicate 309 '0')).toList := by
      rw [String.toList_ofList]
      exact isRun_cons rfl (by decide +kernel)
    obtain ⟨-, -, -, h⟩ := quoting_keeps_number hw
    obtain ⟨-, -, h⟩ := h (.infinite false) (by
      rw [tokenize_eq_ok_iff, String.toList_ofList]
      decide +kernel)
    obtain ⟨-, h⟩ := h "DELETE FROM t WHERE a = " ""
      [.keyword .DELETE, .keyword .FROM, .identifier "t", .keyword .WHERE, .identifier "a",
        .operator .equal] [] [.eof] '\''
      (.delete "t" (some (.comparison "a" .equal (.number (.infinite false))))) (by decide)
      (by decide +kernel) (by decide +kernel)
      (by
        rw [tokenize_eq_ok_iff, String.toList_append, String.toList_append,
          @String.toList_ofList ('1' :: List.replicate 309 '0')]
        decide +kernel)
      (by simp [IsLimitCount]) (by decide +kernel)
    obtain ⟨-, -, h⟩ := h (.delete "t" (.comparison "a" .equal)) (by
      intro token literal hl
      have hc : WhereForm _ _ := .written (.conjunction (.operand (.comparison "a" .equal rfl hl)))
      have hs := SentenceForm.delete (.identifier "t") hc
      exact hs)
    obtain ⟨c, pre, post, -, -, hbare, hquoted⟩ := h ⟨false, rfl⟩ trivial
    rw [String.toList_ofList] at hquoted
    exact ⟨_, pre, post, hbare, hquoted⟩

end SqlShell
