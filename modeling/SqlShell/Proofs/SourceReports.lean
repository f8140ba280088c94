import SqlShell.CommandLine.Report
import SqlShell.Proofs.JoinedWords
import SqlShell.Proofs.StatementOutlines

/-!
# Reports on statements

A statement comes from one source, and the report depends on nothing but that source. It is a
success exactly when the source holds a text with a statement: every statement that is read has a
command, so the last stage cannot fail. Otherwise it is the failure of the first stage that fails.
-/

set_option autoImplicit false

namespace SqlShell.CommandLine

open Text

inductive Source where
  | file (contents : Contents)
  | words (words : List String)
  | input (bytes : ByteArray)

namespace Source

def chosen (words : List String) (file : Option Contents) (input : ByteArray) : Source :=
  match file with
  | some contents => .file contents
  | none => if words = [] then .input input else .words words

/-- The source can be read and has the text. Words are joined by blanks, and blank input has no
text. -/
inductive Holds : Source → String → Prop
  | file (text : String) : Holds (.file (.ok text.toUTF8)) text
  | words (words : List String) : Holds (.words words) (" ".intercalate words)
  | input {text : String} (h : ∃ c ∈ text.toList, isBlank c = false) :
      Holds (.input text.toUTF8) text

def Accepts (source : Source) (s : Statement) : Prop :=
  ∃ text ts, source.Holds text ∧ tokenize text = .ok ts ∧
    (Cursor.ofTokens ts).readStatement.1 = .ok s

inductive Fails : Source → Failure → Prop
  | unreadable (e : ReadError) : Fails (.file (.error e)) (.read e)
  | undecodedFile {bytes : ByteArray} (h : ∀ text : String, bytes ≠ text.toUTF8) :
      Fails (.file (.ok bytes)) (.read .notText)
  | undecodedInput {bytes : ByteArray} (h : ∀ text : String, bytes ≠ text.toUTF8) :
      Fails (.input bytes) (.read .notText)
  | blank {text : String} (h : ∀ c ∈ text.toList, isBlank c = true) :
      Fails (.input text.toUTF8) .noInput
  | scan {source : Source} {text : String} {e : ScanError} (h : source.Holds text)
      (he : tokenize text = .error e) : Fails source (.conversion (.scan e))
  | parse {source : Source} {text : String} {ts : List Token} {e : ParseError}
      (h : source.Holds text) (ht : tokenize text = .ok ts)
      (he : (Cursor.ofTokens ts).readStatement.1 = .error e) :
      Fails source (.conversion (.parse e))

def text : Source → Except Failure String
  | .file contents => (contents.bind decode).mapError .read
  | .words parts => .ok (" ".intercalate parts)
  | .input bytes => ((decode bytes).mapError .read).bind fun text =>
    if text.toList.all isBlank then .error .noInput else .ok text

def conversion (source : Source) : Except Failure Conversion :=
  source.text.bind fun text => (convert text).mapError .conversion

end Source

theorem decode_toUTF8 (text : String) : decode text.toUTF8 = .ok text := by
  have h : String.fromUTF8? text.toUTF8 = some text := dif_pos text.isValidUTF8
  rw [decode, h]

theorem decode_of_not_text {bytes : ByteArray} (h : ∀ text : String, bytes ≠ text.toUTF8) :
    decode bytes = .error .notText := by
  have hv : ¬bytes.IsValidUTF8 := fun hv => h (String.fromUTF8 bytes hv) rfl
  have hn : String.fromUTF8? bytes = none := dif_neg hv
  rw [decode, hn]

namespace Source

theorem Holds.text_eq {source : Source} {text : String} (h : source.Holds text) :
    source.text = .ok text := by
  cases h with
  | file =>
    change (decode text.toUTF8).mapError _ = _
    rw [decode_toUTF8]
    rfl
  | words => rfl
  | input hc =>
    have hb : ¬text.toList.all isBlank = true := by simpa [List.all_eq_false] using hc
    rw [Source.text, decode_toUTF8]
    exact if_neg hb

theorem Holds.conversion_eq {source : Source} {text : String} (h : source.Holds text) :
    source.conversion = (convert text).mapError .conversion := by
  rw [conversion, h.text_eq]
  rfl

/-- Every statement that is read has a command. -/
theorem Accepts.conversion_eq {source : Source} {s : Statement} (h : source.Accepts s) :
    ∃ command, s.toCommand = .ok command ∧ source.conversion = .ok ⟨s, command.text⟩ := by
  obtain ⟨text, ts, ht, hts, hs⟩ := h
  have hread : Statement.ofText text = .ok s :=
    Statement.ofText_eq_ok.mpr ⟨ts, Scan.tokenize_eq_ok_iff.mp hts, hs⟩
  obtain ⟨command, hc⟩ := Statement.toCommand_ok (Statement.wellFormed_of_ofText hread).parts
  refine ⟨command, hc, ?_⟩
  rw [ht.conversion_eq, convert_of_ok hread hc]
  rfl

theorem Fails.conversion_eq {source : Source} {e : Failure} (h : source.Fails e) :
    source.conversion = .error e := by
  cases h with
  | unreadable e => rfl
  | @undecodedFile bytes hb =>
    change ((decode bytes).mapError _).bind _ = _
    rw [decode_of_not_text hb]
    rfl
  | undecodedInput hb =>
    rw [conversion, Source.text, decode_of_not_text hb]
    rfl
  | blank hb =>
    rw [conversion, Source.text, decode_toUTF8]
    change (if _ then _ else _ : Except Failure String).bind _ = _
    rw [if_pos (List.all_eq_true.mpr hb)]
    rfl
  | @scan _ text e ht he =>
    have hread : Statement.ofText text = .error (.scan e) := by
      rw [Statement.ofText, he]
      rfl
    rw [ht.conversion_eq, convert_of_error hread]
    rfl
  | @parse _ text ts e ht hts he =>
    have hread : Statement.ofText text = .error (.parse e) := by
      rw [Statement.ofText, hts]
      change (Cursor.ofTokens ts).readStatement.1.mapError _ = _
      rw [he]
      rfl
    rw [ht.conversion_eq, convert_of_error hread]
    rfl

/-- A source holds a text, or fails before there is one. -/
theorem holds_or_fails (source : Source) : (∃ text, source.Holds text) ∨ ∃ e, source.Fails e := by
  cases source with
  | file contents =>
    cases contents with
    | error e => exact Or.inr ⟨_, .unreadable e⟩
    | ok bytes =>
      by_cases hb : ∃ text : String, bytes = text.toUTF8
      · obtain ⟨text, rfl⟩ := hb
        exact Or.inl ⟨text, .file text⟩
      · exact Or.inr ⟨_, .undecodedFile (not_exists.mp hb)⟩
  | words parts => exact Or.inl ⟨_, .words parts⟩
  | input bytes =>
    by_cases hb : ∃ text : String, bytes = text.toUTF8
    · obtain ⟨text, rfl⟩ := hb
      by_cases hc : ∃ c ∈ text.toList, isBlank c = false
      · exact Or.inl ⟨text, .input hc⟩
      · exact Or.inr ⟨_, .blank (by simpa using hc)⟩
    · exact Or.inr ⟨_, .undecodedInput (not_exists.mp hb)⟩

theorem accepts_or_fails (source : Source) : (∃ s, source.Accepts s) ∨ ∃ e, source.Fails e := by
  rcases source.holds_or_fails with ⟨text, ht⟩ | hfails
  · cases hts : tokenize text with
    | error e => exact Or.inr ⟨_, .scan ht hts⟩
    | ok ts =>
      cases hs : (Cursor.ofTokens ts).readStatement.1 with
      | error e => exact Or.inr ⟨_, .parse ht hts hs⟩
      | ok s => exact Or.inl ⟨s, text, ts, ht, hts, hs⟩
  · exact Or.inr hfails

theorem conversion_eq_ok_iff {source : Source} :
    (∃ conversion, source.conversion = .ok conversion) ↔ ∃ s, source.Accepts s := by
  constructor
  · rintro ⟨conversion, hc⟩
    rcases source.accepts_or_fails with hs | ⟨e, he⟩
    · exact hs
    · rw [he.conversion_eq] at hc
      cases hc
  · rintro ⟨s, hs⟩
    obtain ⟨command, _, hc⟩ := hs.conversion_eq
    exact ⟨_, hc⟩

theorem not_accepts_iff_fails {source : Source} :
    (¬∃ s, source.Accepts s) ↔ ∃ e, source.Fails e := by
  constructor
  · exact source.accepts_or_fails.resolve_left
  · rintro ⟨e, he⟩ hs
    obtain ⟨conversion, hc⟩ := conversion_eq_ok_iff.mpr hs
    rw [he.conversion_eq] at hc
    cases hc

end Source

def Report.ofConversion (outline : Bool) : Except Failure Conversion → Report
  | .ok conversion => .success (display outline conversion ++ "\n")
  | .error e => .failure e

theorem Report.code_ofConversion {outline : Bool} {result : Except Failure Conversion} :
    (Report.ofConversion outline result).code = 0 ↔ ∃ conversion, result = .ok conversion := by
  cases result with
  | ok conversion => exact ⟨fun _ => ⟨conversion, rfl⟩, fun _ => rfl⟩
  | error e =>
    have hne : (1 : UInt8) ≠ 0 := by decide
    exact ⟨fun h => absurd h hne, fun ⟨_, h⟩ => by cases h⟩

/-- Unless the input is wanted and cannot be decoded, the report is that of the sources. -/
theorem translateReport_of_sources {words : List String} {file : Option Contents}
    {input : Option ByteArray} {decoded : Option String}
    (hd : (if words.isEmpty && file.isNone then input else none).mapM decode = .ok decoded)
    (he : Sources.isEmpty ⟨words, file, decoded⟩ = false) (outline : Bool) :
    translateReport words file input outline =
      .ofConversion outline (Sources.conversion ⟨words, file, decoded⟩) := by
  simp only [translateReport, hd, he]
  cases Sources.conversion ⟨words, file, decoded⟩ <;> rfl

/-- A file is read whatever the words and the input are. -/
theorem translateReport_file (words : List String) (contents : Contents)
    (input : Option ByteArray) (outline : Bool) :
    translateReport words (some contents) input outline =
      .ofConversion outline (Source.file contents).conversion := by
  apply translateReport_of_sources
  · rw [Option.isNone_some, Bool.and_false]
    rfl
  · simp [Sources.isEmpty]

/-- Words without a file are taken whatever the input is. -/
theorem translateReport_words {words : List String} (h : words ≠ []) (input : Option ByteArray)
    (outline : Bool) : translateReport words none input outline =
      .ofConversion outline (Source.words words).conversion := by
  have hw : words.isEmpty = false := by simp [h]
  have hs : Sources.conversion ⟨words, none, none⟩ = (Source.words words).conversion :=
    conversion_of_words h none
  rw [← hs]
  apply translateReport_of_sources
  · rw [hw, Bool.false_and]
    rfl
  · simp [Sources.isEmpty, h]

theorem translateReport_input (input : ByteArray) (outline : Bool) :
    translateReport [] none (some input) outline =
      .ofConversion outline (Source.input input).conversion := by
  cases hd : decode input with
  | error e =>
    have hs : (Source.input input).conversion = .error (.read e) := by
      rw [Source.conversion, Source.text, hd]
      rfl
    have hm : (some input).mapM decode = .error e := by
      rw [Option.mapM_some, hd]
      rfl
    rw [hs]
    simp only [translateReport, List.isEmpty_nil, Option.isNone_none, Bool.and_self, if_true, hm]
    rfl
  | ok text =>
    have hs : (Source.input input).conversion = Sources.conversion ⟨[], none, some text⟩ := by
      rw [Source.conversion, Source.text, hd]
      rfl
    have hm : (some input).mapM decode = .ok (some text) := by
      rw [Option.mapM_some, hd]
      rfl
    rw [hs]
    apply translateReport_of_sources
    · exact hm
    · rfl

theorem translateReport_chosen (words : List String) (file : Option Contents) (input : ByteArray)
    (outline : Bool) : translateReport words file (some input) outline =
      .ofConversion outline (Source.chosen words file input).conversion := by
  cases file with
  | some contents => exact translateReport_file words contents (some input) outline
  | none =>
    by_cases hw : words = []
    · subst hw
      exact translateReport_input input outline
    · rw [Source.chosen, if_neg hw]
      exact translateReport_words hw (some input) outline

/-- The exit code is zero exactly when the chosen source can be read and its text has tokens that
begin with a statement. Then the command is written, and where the outline is wanted the same
command stands behind it. The outline lists the parts of the statement and is that of no other. In
all other cases a stage fails, the code is one, nothing is written to the output, and the errors are
the message of the first stage that fails. What is not chosen has no influence. -/
theorem translateReport_success_iff (words : List String) (file : Option Contents)
    (input : ByteArray) :
    let source := Source.chosen words file input
    let report := translateReport words file (some input)
    (∀ outline, (report outline).code = 0 ↔ ∃ s, source.Accepts s) ∧
    (∀ s, source.Accepts s → ∃ command, s.toCommand = .ok command ∧
      report false = ⟨0, command.text ++ "\n", ""⟩ ∧
      report true = ⟨0, s.outline.text ++ "\n" ++ (command.text ++ "\n"), ""⟩ ∧
      Outline.StatementForm s s.outline.text.toList ∧
      ∀ s', Outline.StatementForm s' s.outline.text.toList → s' = s) ∧
    ((¬∃ s, source.Accepts s) ↔ ∃ e, source.Fails e) ∧
    (∀ e, source.Fails e → ∀ outline,
      report outline = ⟨1, "", "ERROR: " ++ e.message ++ "\n"⟩) ∧
    (file.isSome → ∀ words' input', translateReport words' file input' = report) ∧
    (words ≠ [] → ∀ input', translateReport words file input' = report) := by
  intro source report
  have hreport : ∀ outline, report outline = .ofConversion outline source.conversion :=
    translateReport_chosen words file input
  refine ⟨fun outline => ?_, fun s hs => ?_, Source.not_accepts_iff_fails, fun e he outline => ?_,
    fun hf words' input' => ?_, fun hw input' => ?_⟩
  · rw [hreport, Report.code_ofConversion, Source.conversion_eq_ok_iff]
  · obtain ⟨command, hs, hc⟩ := hs.conversion_eq
    refine ⟨command, hs, ?_, ?_, Outline.outline_form s,
      fun s' h => h.unique (Outline.outline_form s)⟩
    · rw [hreport, hc]
      rfl
    · rw [hreport, hc, ← String.append_assoc]
      rfl
  · rw [hreport, he.conversion_eq]
    rfl
  · obtain ⟨contents, rfl⟩ := Option.isSome_iff_exists.mp hf
    funext outline
    rw [translateReport_file]
    exact (hreport outline).symm
  · funext outline
    cases file with
    | some contents =>
      rw [translateReport_file]
      exact (hreport outline).symm
    | none =>
      rw [translateReport_words hw, ← translateReport_words hw (some input)]

/-- A file is read beside words and input that have no statement. Without it the words are taken and
fail, and blank input alone fails too. -/
theorem translateReport_of_each_source :
    let s : Statement := .delete "t" (some (.and (.comparison "x" .equal (.string "a\u200b\"b"))
      (.comparison "y" .greater (.number (.ofDecimal false ⟨20, 0⟩)))))
    let text := "DELETE FROM t WHERE x = 'a\u200b\"b' AND y > 20"
    let outline := "\n".intercalate [
      "Delete \x7b",
      "    table: \"t\",",
      "    where_clause: Some(",
      "        And \x7b",
      "            left: Comparison \x7b",
      "                column: \"x\",",
      "                op: Equal,",
      "                value: String(",
      "                    \"a\\u\x7b200b\x7d\\\"b\",",
      "                ),",
      "            \x7d,",
      "            right: Comparison \x7b",
      "                column: \"y\",",
      "                op: GreaterThan,",
      "                value: Number(",
      "                    20.0,",
      "                ),",
      "            \x7d,",
      "        \x7d,",
      "    ),",
      "\x7d"]
    let command := "db.t.deleteMany(\x7b\"$and\":[\x7b\"x\":\"a\u200b\\\"b\"\x7d," ++
      "\x7b\"y\":\x7b\"$gt\":20\x7d\x7d]\x7d);"
    let file : Option Contents := some (.ok text.toUTF8)
    let blank := " ".toUTF8
    (Source.chosen ["#"] file blank).Accepts s ∧
      translateReport ["#"] file (some blank) true =
        ⟨0, outline ++ "\n" ++ (command ++ "\n"), ""⟩ ∧
      (Source.chosen ["#"] none blank).Fails (.conversion (.scan ⟨.unexpectedChar '#', 0⟩)) ∧
      translateReport ["#"] none (some blank) true =
        ⟨1, "", "ERROR: " ++ "lex error: unexpected character '#' at position 0" ++ "\n"⟩ ∧
      (Source.chosen [] none blank).Fails .noInput ∧
      (translateReport [] none (some blank) true).code ≠ 0 := by
  intro s text outline command file blank
  have hs : (Source.chosen ["#"] file blank).Accepts s :=
    ⟨_, _, .file _, (by decide +kernel : tokenize text = .ok
      [.keyword .DELETE, .keyword .FROM, .identifier "t", .keyword .WHERE, .identifier "x",
        .operator .equal, .string "a\u200b\"b", .keyword .AND, .identifier "y",
        .operator .greater, .number (.ofDecimal false ⟨20, 0⟩), .eof]), by decide +kernel⟩
  have hw : (Source.chosen ["#"] none blank).Fails (.conversion (.scan ⟨.unexpectedChar '#', 0⟩)) :=
    .scan (.words ["#"]) (by decide +kernel)
  have hb : (Source.chosen [] none blank).Fails .noInput :=
    .blank (List.all_eq_true.mp (by decide))
  obtain ⟨c, hc, _, hreport, _⟩ := (translateReport_success_iff ["#"] file blank).2.1 s hs
  refine ⟨hs, ?_, hw, ?_, hb, fun h => ?_⟩
  · have ht : s.toCommand.map Command.text = .ok command := by decide +kernel
    have ho : s.outline.text = outline := by decide +kernel
    rw [hc] at ht
    rw [hreport, ho, Except.ok.inj ht]
  · exact (translateReport_success_iff ["#"] none blank).2.2.2.1 _ hw true
  · have hnone := translateReport_success_iff [] none blank
    exact hnone.2.2.1.mpr ⟨_, hb⟩ ((hnone.1 true).mp h)

end SqlShell.CommandLine
