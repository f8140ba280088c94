import SqlShell.Proofs.OpenCommands

/-!
# Quoted text reaches the command

In a statement a backslash takes the next character as it is, and in a document it starts one of the
escapes of JSON. A quoted text goes through both and is not changed: it is written as the number it
reads as, or else as a JSON string that stands for the same characters.
-/

set_option autoImplicit false

namespace SqlShell

open Grammar Scan

namespace Json

def codeUnit? : List Char → Option (Nat × List Char)
  | d₁ :: d₂ :: d₃ :: d₄ :: rest => (hexadecimal? [d₁, d₂, d₃, d₄]).map (·, rest)
  | _ => none

def pair? (high : Nat) : List Char → Option (Char × List Char)
  | '\\' :: 'u' :: text => (codeUnit? text).bind fun (low, rest) =>
    if high < 0xDC00 ∧ 0xDC00 ≤ low ∧ low < 0xE000 then
      some (Char.ofNat (0x10000 + (high - 0xD800) * 0x400 + (low - 0xDC00)), rest)
    else none
  | _ => none

def unicode? (text : List Char) : Option (Char × List Char) :=
  (codeUnit? text).bind fun (unit, rest) =>
    if unit < 0xD800 ∨ 0xE000 ≤ unit then some (Char.ofNat unit, rest) else pair? unit rest

def character? : List Char → Option (Char × List Char)
  | [] => none
  | c :: rest =>
    if c = '\\' then
      match rest with
      | [] => none
      | letter :: rest =>
        if letter = 'u' then unicode? rest
        else if letter = '/' then some ('/', rest)
        else (letterEscape? letter).map (·, rest)
    else if c = '"' ∨ c.toNat < 0x20 then none
    else some (c, rest)

theorem codeUnit?_length {text rest : List Char} {unit : Nat}
    (h : codeUnit? text = some (unit, rest)) : rest.length < text.length := by
  unfold codeUnit? at h
  split at h
  · obtain ⟨_, _, he⟩ := Option.map_eq_some_iff.mp h
    cases he
    simp only [List.length_cons]
    omega
  · cases h

theorem pair?_length {text rest : List Char} {high : Nat} {c : Char}
    (h : pair? high text = some (c, rest)) : rest.length < text.length := by
  unfold pair? at h
  split at h
  · obtain ⟨⟨low, rest'⟩, hu, hc⟩ := Option.bind_eq_some_iff.mp h
    have hl := codeUnit?_length hu
    dsimp only at hc
    split at hc
    · obtain ⟨-, rfl⟩ := Prod.mk.inj (Option.some.inj hc)
      simp only [List.length_cons]
      omega
    · cases hc
  · cases h

theorem unicode?_length {text rest : List Char} {c : Char}
    (h : unicode? text = some (c, rest)) : rest.length < text.length := by
  obtain ⟨⟨unit, rest'⟩, hu, hc⟩ := Option.bind_eq_some_iff.mp h
  have hl := codeUnit?_length hu
  dsimp only at hc
  split at hc
  · obtain ⟨-, rfl⟩ := Prod.mk.inj (Option.some.inj hc)
    exact hl
  · exact Nat.lt_trans (pair?_length hc) hl

theorem character?_length {text rest : List Char} {c : Char}
    (h : character? text = some (c, rest)) : rest.length < text.length := by
  unfold character? at h
  split at h
  · cases h
  · split at h
    · split at h
      · cases h
      · split at h
        · have hl := unicode?_length h
          simp only [List.length_cons]
          omega
        · split at h
          · cases h
            simp only [List.length_cons]
            omega
          · obtain ⟨_, _, he⟩ := Option.map_eq_some_iff.mp h
            cases he
            simp only [List.length_cons]
            omega
    · split at h
      · cases h
      · cases h
        exact Nat.lt_succ_self _

def characters? (text : List Char) : Option (List Char) :=
  if text = ['"'] then some []
  else
    match _h : character? text with
    | none => none
    | some (c, rest) => (characters? rest).map (c :: ·)
  termination_by text.length
  decreasing_by exact character?_length _h

def string? (text : String) : Option String :=
  match text.toList with
  | '"' :: rest => (characters? rest).map String.ofList
  | _ => none

theorem character?_escape (c : Char) (rest : List Char) :
    character? (escape c ++ rest) = some (c, rest) := by
  by_cases hc : c ∈ lettered
  · simp only [lettered, List.mem_cons, List.not_mem_nil, or_false] at hc
    rcases hc with rfl | rfl | rfl | rfl | rfl | rfl | rfl <;> rfl
  · rw [escape_of_notMem hc]
    split
    · rename_i hn
      have hu : c.toNat < 0xD800 := by omega
      simp [character?, unicode?, codeUnit?, hexadecimal?_code hn, hu, Char.ofNat_toNat]
    · rename_i hn
      have hb : c ≠ '\\' := fun hb => hc (hb ▸ by decide)
      have hq : c ≠ '"' := fun hq => hc (hq ▸ by decide)
      simp [character?, hb, hq, hn]

theorem characters?_escaped (text : List Char) :
    characters? (text.flatMap escape ++ ['"']) = some text := by
  induction text with
  | nil => simp [characters?]
  | cons c text ih =>
    have hc := character?_escape c (text.flatMap escape ++ ['"'])
    have hq : escape c ++ (text.flatMap escape ++ ['"']) ≠ ['"'] := by
      intro hq
      rw [hq] at hc
      cases hc
    rw [List.flatMap_cons, List.append_assoc, characters?, if_neg hq]
    split
    · rename_i hn
      rw [hc] at hn
      cases hn
    · rename_i d rest hs
      rw [hc] at hs
      cases hs
      rw [ih]
      rfl

theorem string?_text (text : String) : string? (Value.string text).text = some text := by
  have ht : (Value.string text).text.toList = '"' :: (text.toList.flatMap escape ++ ['"']) :=
    String.toList_ofList
  rw [string?, ht]
  simp only [characters?_escaped, Option.map_some, String.ofList_toList]

example : character? "\\ud83d\\ude00\\/".toList = some ('😀', ['\\', '/']) ∧
    character? "\\ude00".toList = none := by
  decide +kernel

end Json

namespace Scan

def quotedLexeme (quote : Char) (body : List Char) : String :=
  String.ofList (quote :: (body ++ [quote]))

theorem separates_quote {quote : Char} (h : isQuote quote = true) : Separates quote := by
  have hq : quote = '\'' ∨ quote = '"' := by simpa [isQuote] using h
  intro token
  rcases hq with rfl | rfl
  · cases token with
    | operator op => cases op <;> rfl
    | _ => rfl
  · cases token with
    | operator op => cases op <;> rfl
    | _ => rfl

/-- A quote ends every token before it, and the closing one its own token. So a quoted text is a
token between any others. -/
theorem tokenize_quoted {quote : Char} (hq : isQuote quote = true) {body : List Char} {s : String}
    (hb : BodyForm quote body s.toList) {before after : String} {front rest : List Token}
    (hf : tokenize before = .ok (front ++ [.eof])) (ha : tokenize after = .ok rest) :
    tokenize (before ++ quotedLexeme quote body ++ after) = .ok (front ++ .string s :: rest) := by
  rw [tokenize_eq_ok_iff] at hf ha ⊢
  have hl : LexemeForm (quote :: (body ++ [quote])) (.string s) := by
    have hl := LexemeForm.string hq hb
    rwa [String.ofList_toList] at hl
  have he : EndsAt (.string s) after.toList := fun c _ => rfl
  have hs : ∀ c ∈ (quote :: (body ++ [quote]) ++ after.toList).head?, Separates c := by
    intro c hc
    cases hc
    exact separates_quote hq
  obtain ⟨front', hfront, ht⟩ := tokens_append hf hs
  obtain rfl := List.append_cancel_right hfront
  rw [String.toList_append, String.toList_append, quotedLexeme, String.toList_ofList,
    List.append_assoc, ht, tokens_lexeme hl he, ha]
  rfl

end Scan

/-- The first statement of a text has a command. -/
theorem convert_of_readStatement {text : String} {ts : List Token} {statement : Statement}
    {cursor : Cursor} (ht : tokenize text = .ok ts)
    (hr : (Cursor.ofTokens ts).readStatement = (.ok statement, cursor)) :
    ∃ command, statement.toCommand = .ok command ∧
      convert text = .ok ⟨statement, command.text⟩ := by
  have hs : Statement.ofText text = .ok statement :=
    Statement.ofText_eq_ok.mpr ⟨ts, tokenize_eq_ok_iff.mp ht, by rw [hr]⟩
  obtain ⟨command, hc⟩ := Statement.toCommand_ok (Statement.wellFormed_of_ofText hs).parts
  exact ⟨command, hc, convert_of_ok hs hc⟩

theorem getLast?_tokenize {text : String} {ts : List Token} (h : tokenize text = .ok ts) :
    ts.getLast? = some .eof := by
  obtain ⟨pieces, last, -, -, -, rfl⟩ :=
    Piece.exists_join_of_textForm (tokens_eq_ok_iff.mp (tokenize_eq_ok_iff.mp h))
  simp

theorem toValue_of_number {s : String} {n : Binary64} (h : Binary64.ofText? s = some n) :
    (Literal.string s).toValue = .ofNumber n := by
  have hv : (Literal.string s).toValue = Value.ofText s := rfl
  rw [hv, Value.ofText, h]

theorem toValue_of_none {s : String} (h : Binary64.ofText? s = none) :
    (Literal.string s).toValue = .string s := by
  have hv : (Literal.string s).toValue = Value.ofText s := rfl
  rw [hv, Value.ofText, h]

/-- A quoted text is one token whatever is escaped in it. In a statement that is read it is the
literal of an open sentence, and where it counts, the command has its value under its column: the
number that the text reads as, or else a JSON string that stands for the text. -/
theorem quoted_text_reaches_command {quote : Char} (hq : isQuote quote = true) {body : List Char}
    {s : String} (hb : BodyForm quote body s.toList) :
    tokenize (quotedLexeme quote body) = .ok [.string s, .eof] ∧
    ∀ (before after : String) (front back rest : List Token),
      tokenize before = .ok (front ++ [.eof]) → tokenize after = .ok (back ++ rest) →
      tokenize (before ++ quotedLexeme quote body ++ after) =
        .ok (front ++ .string s :: (back ++ rest)) ∧
      ∀ statement, (Cursor.ofTokens (front ++ .string s :: (back ++ rest))).readStatement =
          (.ok statement, ⟨rest, 0⟩) →
        (∃ o : OpenSentence, o.Written front back) ∧
        ∀ o : OpenSentence, o.Written front back →
          statement = (o.fill (.string s)).statement ∧ (o.Counts →
          ∃ (c : OpenCommand) (value : Value) (pre post : String), o.Yields c ∧
            (∀ v, (c.fill v).text = pre ++ v.text ++ post) ∧
            convert (before ++ quotedLexeme quote body ++ after) =
              .ok ⟨statement, pre ++ value.text ++ post⟩ ∧
            (∀ n, Binary64.ofText? s = some n → value = .ofNumber n) ∧
            (Binary64.ofText? s = none → Json.string? value.text = some s)) := by
  have hempty : tokenize "" = .ok ([] ++ [.eof]) :=
    tokenize_eq_ok_iff.mpr (tokens_eq_ok_iff.mpr (.done (by simp)))
  refine ⟨?_, ?_⟩
  · have h := tokenize_quoted hq hb hempty hempty
    simpa using h
  · intro before after front back rest hf ha
    have ht := tokenize_quoted hq hb hf ha
    refine ⟨ht, fun statement hr => ?_⟩
    obtain ⟨hopen, hfill⟩ :=
      Cursor.readStatement_fill (.string s) (by simp [IsLimitCount]) (getLast?_tokenize ha) hr
    refine ⟨hopen, fun o ho => ?_⟩
    obtain ⟨hs, -⟩ := hfill o ho
    refine ⟨hs, fun hcounts => ?_⟩
    obtain ⟨command, hc, hconvert⟩ := convert_of_readStatement ht hr
    obtain ⟨c, hy⟩ := OpenSentence.exists_yields hcounts (hs ▸ hc)
    obtain ⟨pre, post, htext⟩ := c.exists_text
    refine ⟨c, (Literal.string s).toValue, pre, post, hy, htext, ?_, ?_, ?_⟩
    · rw [hs, hy.toCommand_fill] at hc
      cases hc
      rw [hconvert, htext]
    · exact fun n hn => toValue_of_number hn
    · intro hn
      rw [toValue_of_none hn]
      exact Json.string?_text s

/-- The second of three inserted values has both quotes, a backslash, a newline and a letter that is
escaped without need. -/
theorem inserted_text_reaches_command :
    tokenize (quotedLexeme '\'' ['\\', 'i', '\\', '\'', '\\', '\\', '"', '\n']) =
      .ok [.string "i'\\\"\n", .eof] ∧
    ∃ (c : OpenCommand) (value : Value) (pre post : String),
      (OpenSentence.insert "t" ["a", "b", "c"] [.identifier "w"] [.identifier "x"]).Yields c ∧
      convert ("INSERT INTO t (a, b, c) VALUES (w, " ++
          quotedLexeme '\'' ['\\', 'i', '\\', '\'', '\\', '\\', '"', '\n'] ++ ", x);") =
        .ok ⟨.insert "t" ["a", "b", "c"] [.identifier "w", .string "i'\\\"\n", .identifier "x"],
          pre ++ value.text ++ post⟩ ∧
      Json.string? value.text = some "i'\\\"\n" := by
  have hb : BodyForm '\'' ['\\', 'i', '\\', '\'', '\\', '\\', '"', '\n'] "i'\\\"\n".toList :=
    .escaped 'i' (.escaped '\'' (.escaped '\\' (.plain (by decide) (by decide)
      (.plain (by decide) (by decide) .nil))))
  obtain ⟨hlexeme, h⟩ := quoted_text_reaches_command (by decide) hb
  obtain ⟨-, h⟩ := h "INSERT INTO t (a, b, c) VALUES (w, " ", x);"
    [.keyword .INSERT, .keyword .INTO, .identifier "t", .leftParen, .identifier "a", .comma,
      .identifier "b", .comma, .identifier "c", .rightParen, .keyword .VALUES, .leftParen,
      .identifier "w", .comma]
    [.comma, .identifier "x", .rightParen] [.semicolon, .eof] (by decide +kernel)
    (by decide +kernel)
  obtain ⟨-, h⟩ := h (.insert "t" ["a", "b", "c"]
    [.identifier "w", .string "i'\\\"\n", .identifier "x"]) (by decide +kernel)
  obtain ⟨-, h⟩ := h (.insert "t" ["a", "b", "c"] [.identifier "w"] [.identifier "x"]) (by
    intro token literal hl
    have hv : ListForm LiteralForm _ _ :=
      .more (.identifier "w") (.more hl (.one (.identifier "x")))
    have hc : ListForm NameForm _ _ :=
      .more (.identifier "a") (.more (.identifier "b") (.one (.identifier "c")))
    exact SentenceForm.insert (.identifier "t") (.listed hc) hv)
  obtain ⟨c, value, pre, post, hy, -, hc, -, hs⟩ := h (Or.inr ⟨"b", rfl, by decide⟩)
  exact ⟨hlexeme, c, value, pre, post, hy, hc, hs (by decide +kernel)⟩

end SqlShell
