import SqlShell.Proofs.Lexemes

/-!
# Texts and their tokens

A text has tokens exactly when it splits into lexemes with blanks before, between and after them,
where no lexeme is extended by what follows it. No character is lost and every lexeme is as long as
it can be.
-/

set_option autoImplicit false

namespace SqlShell

theorem mapError_ok_iff {ε δ α : Type} {f : ε → δ} {x : Except ε α} {a : α} :
    x.mapError f = .ok a ↔ x = .ok a := by
  cases x with
  | error e => constructor <;> intro h <;> cases h
  | ok b => constructor <;> intro h <;> cases h <;> rfl

namespace Scan

open Text

inductive TextForm : List Char → List Token → Prop
  | done {gap : List Char} (hg : ∀ c ∈ gap, isBlank c = true) : TextForm gap [.eof]
  | more {gap text after : List Char} {token : Token} {tokens : List Token}
      (hg : ∀ c ∈ gap, isBlank c = true) (h : LexemeForm text token) (he : EndsAt token after)
      (rest : TextForm after tokens) : TextForm (gap ++ (text ++ after)) (token :: tokens)

theorem LexemeForm.ne_eof {text : List Char} {token : Token} (h : LexemeForm text token) :
    token ≠ .eof := by
  cases h <;> simp

theorem LexemeForm.not_blank {c : Char} {rest : List Char} {token : Token}
    (h : LexemeForm (c :: rest) token) : isBlank c = false := by
  generalize ht : c :: rest = text at h
  cases h with
  | keyword hw hk =>
    subst ht
    exact not_blank_of_isNameStart hw.1
  | identifier hw hk =>
    subst ht
    exact not_blank_of_isNameStart hw.1
  | string hq hb =>
    cases ht
    have hq : c = '\'' ∨ c = '"' := by simpa [isQuote] using hq
    rcases hq with rfl | rfl <;> decide
  | number hv =>
    obtain ⟨_, hn, _⟩ := denotes_iff.mp hv
    obtain ⟨_, _, rfl, hd, _⟩ := hn.ne_nil
    cases ht
    exact not_blank_of_isDigit hd
  | operator op => cases op <;> cases ht <;> decide
  | _ =>
    cases ht
    decide

theorem read_blank {gap : List Char} (hg : ∀ c ∈ gap, isBlank c = true) :
    read gap = ⟨[], .ok .eof, []⟩ := by
  have hd : (gap ++ []).dropWhile isBlank = [] := dropWhile_append_stop hg (by simp)
  rw [List.append_nil] at hd
  rw [read, hd]

theorem read_lexeme {gap text after : List Char} {token : Token}
    (hg : ∀ c ∈ gap, isBlank c = true) (h : LexemeForm text token) (he : EndsAt token after) :
    read (gap ++ (text ++ after)) = ⟨text ++ after, .ok token, after⟩ := by
  obtain ⟨c, rest, rfl, hl⟩ := lexeme_complete h he
  have hb : ∀ d ∈ (c :: rest ++ after).head?, isBlank d = false := by
    intro d hd
    cases hd
    exact h.not_blank
  rw [read, dropWhile_append_stop hg hb]
  simp only [List.cons_append, hl]

theorem read_sound {text : List Char} {token : Token} (h : (read text).outcome = .ok token)
    (ht : token ≠ .eof) :
    ∃ gap lexeme, text = gap ++ (lexeme ++ (read text).rest) ∧ (∀ c ∈ gap, isBlank c = true) ∧
      LexemeForm lexeme token ∧ EndsAt token (read text).rest := by
  unfold read at h ⊢
  split at h
  · cases h
    exact absurd rfl ht
  · rename_i c rest hd
    obtain ⟨form, hf, hl, he⟩ := lexeme_sound (Prod.ext h rfl)
    refine ⟨text.takeWhile isBlank, form, ?_, fun c => mem_takeWhile, hl, he⟩
    rw [← hf, ← hd, List.takeWhile_append_dropWhile]

theorem blank_of_read_eof {text : List Char} (h : (read text).outcome = .ok .eof) :
    ∀ c ∈ text, isBlank c = true := by
  unfold read at h
  split at h
  · rename_i hd
    have ht := List.takeWhile_append_dropWhile (p := isBlank) (l := text)
    rw [hd, List.append_nil] at ht
    rw [← ht]
    exact fun c => mem_takeWhile
  · obtain ⟨_, _, hl, _⟩ := lexeme_sound (Prod.ext h rfl)
    exact absurd rfl hl.ne_eof

theorem tokens_of_eof {text : List Char} (h : (read text).outcome = .ok .eof) :
    tokens text = .ok [.eof] := by
  rw [tokens]
  split
  · simp_all
  · simp_all

theorem tokens_of_token {text : List Char} {token : Token} (h : (read text).outcome = .ok token)
    (ht : token ≠ .eof) : tokens text = (tokens (read text).rest).map (token :: ·) := by
  rw [tokens]
  split
  · simp_all
  · simp_all

theorem tokens_of_error {text : List Char} {fault : Fault}
    (h : (read text).outcome = .error fault) :
    tokens text = .error (fault, (read text).start) := by
  rw [tokens]
  split
  · simp_all
  · simp_all

theorem tokens_eq_ok_iff {text : List Char} {ts : List Token} :
    tokens text = .ok ts ↔ TextForm text ts := by
  constructor
  · intro h
    fun_induction tokens text generalizing ts with
    | case1 => cases h
    | case2 text reading =>
      rename_i ho
      cases h
      exact .done (blank_of_read_eof ho)
    | case3 text reading token ho ht =>
      rename_i ih
      obtain ⟨gap, form, hs, hg, hl, he⟩ := read_sound ho ht
      cases hr : tokens reading.rest with
      | error e =>
        rw [hr] at h
        cases h
      | ok rest =>
        rw [hr] at h
        cases h
        rw [hs]
        exact .more hg hl he (ih hr)
  · intro h
    induction h with
    | done hg => exact tokens_of_eof (by rw [read_blank hg])
    | more hg hl he _ ih =>
      have hr := read_lexeme hg hl he
      rw [tokens_of_token (by rw [hr]) hl.ne_eof, hr, ih]
      rfl

theorem tokenize_eq_ok_iff {text : String} {ts : List Token} :
    tokenize text = .ok ts ↔ tokens text.toList = .ok ts := mapError_ok_iff

structure Piece where
  gap : List Char
  lexeme : List Char
  token : Token
  blank : ∀ c ∈ gap, isBlank c = true
  spells : LexemeForm lexeme token

namespace Piece

def join : List Piece → List Char → List Char
  | [], last => last
  | piece :: pieces, last => piece.gap ++ (piece.lexeme ++ join pieces last)

def Greedy : List Piece → List Char → Prop
  | [], _ => True
  | piece :: pieces, last => EndsAt piece.token (join pieces last) ∧ Greedy pieces last

theorem eof_notMem_tokens (pieces : List Piece) : .eof ∉ pieces.map token := by
  intro h
  obtain ⟨piece, _, ht⟩ := List.mem_map.mp h
  exact piece.spells.ne_eof ht

theorem textForm_join {pieces : List Piece} {last : List Char}
    (hl : ∀ c ∈ last, isBlank c = true) (hg : Greedy pieces last) :
    TextForm (join pieces last) (pieces.map token ++ [.eof]) := by
  induction pieces with
  | nil => exact .done hl
  | cons piece pieces ih => exact .more piece.blank piece.spells hg.1 (ih hg.2)

theorem exists_join_of_textForm {text : List Char} {ts : List Token} (h : TextForm text ts) :
    ∃ pieces last, (∀ c ∈ last, isBlank c = true) ∧ text = join pieces last ∧
      Greedy pieces last ∧ ts = pieces.map token ++ [.eof] := by
  induction h with
  | @done gap hg => exact ⟨[], gap, hg, rfl, trivial, rfl⟩
  | @more gap lexeme after token ts hg hl he _ ih =>
    obtain ⟨pieces, last, hb, rfl, hp, rfl⟩ := ih
    exact ⟨⟨gap, lexeme, token, hg, hl⟩ :: pieces, last, hb, rfl, ⟨he, hp⟩, rfl⟩

/-- A text has tokens exactly when it is cut without a rest into lexemes of them, with blanks
before, between and after, where no lexeme could have been longer. -/
theorem tokenize_eq_ok_iff_join (text : String) (ts : List Token) :
    tokenize text = .ok (ts ++ [.eof]) ∧ .eof ∉ ts ↔
      ∃ pieces last, (∀ c ∈ last, isBlank c = true) ∧ text.toList = join pieces last ∧
        Greedy pieces last ∧ pieces.map token = ts := by
  rw [tokenize_eq_ok_iff, tokens_eq_ok_iff]
  constructor
  · rintro ⟨h, _⟩
    obtain ⟨pieces, last, hb, ht, hg, he⟩ := exists_join_of_textForm h
    exact ⟨pieces, last, hb, ht, hg, (List.append_cancel_right he).symm⟩
  · rintro ⟨pieces, last, hb, ht, hg, rfl⟩
    rw [ht]
    exact ⟨textForm_join hb hg, eof_notMem_tokens pieces⟩

example : (tokenize ">==<>='x'y").toOption = some [.operator .greaterEqual, .operator .equal,
    .operator .lessGreater, .operator .equal, .string "x", .identifier "y", .eof] := by
  decide +kernel

end Piece

end Scan

end SqlShell
