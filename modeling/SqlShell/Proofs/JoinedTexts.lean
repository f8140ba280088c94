import SqlShell.Proofs.Rendering

/-!
# Texts joined at a separator

No token reaches across a separator. So the tokens in front of it are those of the text that ends
there, and behind it reading starts afresh; a fault behind it is the same fault, further on.
-/

set_option autoImplicit false

namespace SqlShell

open Grammar

namespace Scan

open Text

def Separates (c : Char) : Prop := ∀ token, extends? token c = false

theorem separates_semicolon : Separates ';' := by
  intro token
  cases token with
  | operator op => cases op <;> rfl
  | _ => rfl

theorem read_gap {gap : List Char} (hg : ∀ c ∈ gap, isBlank c = true) (text : List Char) :
    read (gap ++ text) = read text := by
  rw [read, read, List.dropWhile_append_of_pos hg]

theorem tokens_gap {gap : List Char} (hg : ∀ c ∈ gap, isBlank c = true) (text : List Char) :
    tokens (gap ++ text) = tokens text := by
  have hr := read_gap hg text
  cases ho : (read text).outcome with
  | error fault => rw [tokens_of_error ho, tokens_of_error (by rw [hr, ho]), hr]
  | ok token =>
    by_cases ht : token = .eof
    · subst ht
      rw [tokens_of_eof ho, tokens_of_eof (by rw [hr, ho])]
    · rw [tokens_of_token ho ht, tokens_of_token (by rw [hr, ho]) ht, hr]

theorem tokens_lexeme {text after : List Char} {token : Token} (h : LexemeForm text token)
    (he : EndsAt token after) : tokens (text ++ after) = (tokens after).map (token :: ·) := by
  have hg : ∀ c ∈ ([] : List Char), isBlank c = true := by simp
  have hr : read (text ++ after) = ⟨text ++ after, .ok token, after⟩ := read_lexeme hg h he
  rw [tokens_of_token (by rw [hr]) h.ne_eof, hr]

theorem EndsAt.append {token : Token} {text after : List Char} (h : EndsAt token text)
    (ha : ∀ c ∈ after.head?, Separates c) : EndsAt token (text ++ after) := by
  intro c hc
  cases text with
  | nil => exact ha c hc token
  | cons d text => exact h c hc

theorem Piece.tokens_join_append {pieces : List Piece} {last after : List Char}
    (hl : ∀ c ∈ last, isBlank c = true) (hg : Greedy pieces last)
    (ha : ∀ c ∈ after.head?, Separates c) :
    tokens (join pieces last ++ after) = (tokens after).map (pieces.map token ++ ·) := by
  induction pieces with
  | nil =>
    rw [join, tokens_gap hl]
    cases tokens after <;> rfl
  | cons piece pieces ih =>
    rw [join, List.append_assoc, List.append_assoc, tokens_gap piece.blank,
      tokens_lexeme piece.spells (hg.1.append ha), ih hg.2]
    cases tokens after <;> rfl

/-- The tokens of a text with a separator behind it, up to the separator, are those of the text. -/
theorem tokens_append {text after : List Char} {ts : List Token} (h : tokens text = .ok ts)
    (ha : ∀ c ∈ after.head?, Separates c) :
    ∃ front, ts = front ++ [.eof] ∧ tokens (text ++ after) = (tokens after).map (front ++ ·) := by
  obtain ⟨pieces, last, hl, rfl, hg, rfl⟩ :=
    Piece.exists_join_of_textForm (tokens_eq_ok_iff.mp h)
  exact ⟨pieces.map Piece.token, rfl, Piece.tokens_join_append hl hg ha⟩

theorem read_start (text : List Char) : (read text).start = text.dropWhile isBlank := by
  unfold read
  split
  · rename_i hd
    exact hd.symm
  · rename_i hd
    exact hd.symm

/-- The place of a fault lies in the text. -/
theorem tokens_error_length {text rest : List Char} {fault : Fault}
    (h : tokens text = .error (fault, rest)) : rest.length ≤ text.length := by
  fun_induction tokens text with
  | case1 text reading e ho =>
    cases h
    rw [read_start]
    exact dropWhile_length_le isBlank text
  | case2 text reading ho => cases h
  | case3 text reading token ho ht hlt ih =>
    cases hr : tokens reading.rest with
    | ok ts =>
      rw [hr] at h
      cases h
    | error e =>
      rw [hr] at h
      cases h
      exact Nat.le_of_lt (Nat.lt_of_le_of_lt (ih hr) hlt)

structure Separator (c : Char) (ts : List Token) : Prop where
  separates : Separates c
  tokens_cons : ∀ text, tokens (c :: text) = (tokens text).map (ts ++ ·)

theorem separator_semicolon : Separator ';' [.semicolon] where
  separates := separates_semicolon
  tokens_cons _ := tokens_lexeme .semicolon fun _ _ => rfl

/-- Where the first text has tokens, a fault of the joined text is one of the second. -/
theorem tokenize_join {a : String} {ts : List Token} (ha : tokens a.toList = .ok ts) {c : Char}
    {middle : List Token} (hc : Separator c middle) (b : String) :
    ∃ front, ts = front ++ [.eof] ∧
      tokenize (a ++ String.singleton c ++ b) =
        ((tokenize b).map (front ++ middle ++ ·)).mapError fun e =>
          { e with position := e.position + (a.length + 1) } := by
  have hs : ∀ d ∈ (c :: b.toList).head?, Separates d := by
    rintro d ⟨rfl⟩
    exact hc.separates
  obtain ⟨front, hts, hj⟩ := tokens_append ha hs
  refine ⟨front, hts, ?_⟩
  have ht : (a ++ String.singleton c ++ b).toList = a.toList ++ c :: b.toList := by simp
  rw [tokenize, tokenize, ht, hj, hc.tokens_cons]
  cases hb : tokens b.toList with
  | ok tb => simp [Except.map, Except.mapError]
  | error e =>
    have hl := tokens_error_length hb
    simp only [Except.map, Except.mapError, List.length_append, List.length_cons,
      String.length_toList] at hl ⊢
    congr 2
    omega

end Scan

namespace Cursor

theorem readStatement_fst_eq_ok {tokens : List Token} {s : Statement} :
    (ofTokens tokens).readStatement.1 = .ok s ↔
      ∃ p rest sentence, tokens = p ++ rest ∧ SentenceForm p sentence ∧ sentence.statement = s ∧
        (∀ c ∈ sentence.conditions, c.depth ≤ 128) ∧ NestsWithin 128 0 p ∧
        rest.headD .eof ∉ sentence.continuing := by
  constructor
  · intro h
    obtain ⟨p, rest, hp, _, sentence, hs, hm, hd, hn, ht⟩ :=
      readStatement_eq_ok.mp (Prod.ext h rfl)
    obtain ⟨rest', hp', hr⟩ :=
      (ofTokens_rest_eq (eof_notMem_sentence hs) _).mp ⟨rest, hp, rfl⟩
    exact ⟨p, rest', sentence, hp', hs, hm, hd, hn, hr ▸ ht⟩
  · rintro ⟨p, rest, sentence, hp, hs, hm, hd, hn, ht⟩
    obtain ⟨rest', hp', hr⟩ :=
      (ofTokens_rest_eq (eof_notMem_sentence hs) _).mpr ⟨rest, hp, rfl⟩
    rw [readStatement_eq_ok.mpr ⟨p, rest', hp', rfl, sentence, hs, hm, hd, hn, hr ▸ ht⟩]

/-- A semicolon ends whatever the end of input ends. -/
theorem readStatement_before_semicolon {front : List Token} {s : Statement}
    (h : (ofTokens (front ++ [.eof])).readStatement.1 = .ok s) (after : List Token) :
    (ofTokens (front ++ .semicolon :: after)).readStatement.1 = .ok s := by
  obtain ⟨p, rest, sentence, hp, hs, hm, hd, hn, ht⟩ := readStatement_fst_eq_ok.mp h
  obtain ⟨r, rfl, rfl⟩ := append_eof_eq (eof_notMem_sentence hs) hp
  have hc : Token.semicolon ∉ continuations := by decide
  refine readStatement_fst_eq_ok.mpr
    ⟨p, r ++ .semicolon :: after, sentence, by simp, hs, hm, hd, hn, ?_⟩
  cases r with
  | nil => exact fun hm => hc (sentence.continuing_subset hm)
  | cons t r => exact ht

end Cursor

/-- Only the first statement of a text counts. What stands behind its semicolon must have tokens,
and its first fault is the fault of the whole. -/
theorem Statement.ofText_before_semicolon {a : String} {s : Statement} (h : ofText a = .ok s)
    (b : String) :
    (∀ ts, tokenize b = .ok ts → ofText (a ++ ";" ++ b) = .ok s ∧
        ∃ command, convert a = .ok ⟨s, command⟩ ∧ convert (a ++ ";" ++ b) = .ok ⟨s, command⟩) ∧
      ∀ e, tokenize b = .error e → ofText (a ++ ";" ++ b) =
        .error (.scan { e with position := e.position + (a.length + 1) }) := by
  obtain ⟨ta, hta, hread⟩ := ofText_eq_ok.mp h
  obtain ⟨front, rfl, hj⟩ := Scan.tokenize_join hta Scan.separator_semicolon b
  have hj : tokenize (a ++ ";" ++ b) = _ := hj
  constructor
  · intro ts hts
    rw [hts] at hj
    have hs : ofText (a ++ ";" ++ b) = .ok s := by
      refine ofText_eq_ok.mpr ⟨_, Scan.tokenize_eq_ok_iff.mp hj, ?_⟩
      simpa using Cursor.readStatement_before_semicolon hread ts
    obtain ⟨command, hc⟩ := toCommand_ok (wellFormed_of_ofText h).parts
    exact ⟨hs, command.text, convert_of_ok h hc, convert_of_ok hs hc⟩
  · intro e he
    rw [he] at hj
    rw [ofText, hj]
    rfl

/-- Behind a semicolon a second statement is not read, but its faults are found. -/
theorem Statement.ofText_two_statements :
    ofText "DELETE FROM a WHERE x = 'y'" =
        .ok (.delete "a" (some (.comparison "x" .equal (.string "y")))) ∧
      ofText ("DELETE FROM a WHERE x = 'y'" ++ ";" ++ " DROP;b") =
        .ok (.delete "a" (some (.comparison "x" .equal (.string "y")))) ∧
      ofText ("DELETE FROM a WHERE x = 'y'" ++ ";" ++ " #") =
        .error (.scan ⟨.unexpectedChar '#', 29⟩) := by
  have hs : ofText "DELETE FROM a WHERE x = 'y'" =
      .ok (.delete "a" (some (.comparison "x" .equal (.string "y")))) := by decide +kernel
  have hb : tokenize " DROP;b" = .ok [.identifier "DROP", .semicolon, .identifier "b", .eof] := by
    decide +kernel
  have he : tokenize " #" = .error ⟨.unexpectedChar '#', 1⟩ := by decide +kernel
  exact ⟨hs, ((ofText_before_semicolon hs _).1 _ hb).1, (ofText_before_semicolon hs _).2 _ he⟩

end SqlShell
