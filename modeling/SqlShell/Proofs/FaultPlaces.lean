import SqlShell.Proofs.ScannerRuns

/-!
# The places of faults

A fault of a text is reported with the number of characters before it. These characters are a text
of their own, with the tokens that were read before the fault: cutting the text there changes none
of them, although each token was ended by looking at what follows. At the place itself stands what
the fault says.
-/

set_option autoImplicit false

namespace SqlShell

open Text

namespace Scan

/-- A token that ends in front of a text ends in front of every beginning of it. -/
theorem EndsAt.of_append {token : Token} {text after : List Char}
    (h : EndsAt token (text ++ after)) : EndsAt token text := by
  intro c hc
  cases text with
  | nil => cases hc
  | cons d text => exact h c hc

theorem StartsNothing.of_append {c : Char} {rest after : List Char}
    (h : StartsNothing c (rest ++ after)) : StartsNothing c rest := by
  refine { h with pair := fun hc => ?_ }
  cases rest with
  | nil => simp
  | cons d rest => exact h.pair hc

/-- No lexeme begins with a character that starts nothing. -/
theorem StartsNothing.not_lexeme {c : Char} {rest lexeme : List Char} {token : Token}
    (h : StartsNothing c rest) (hl : LexemeForm lexeme token) : ¬lexeme <+: c :: rest := by
  rintro ⟨after, ht⟩
  -- on its own the lexeme is read as the token, and a text that starts so is not read at all
  have hend : EndsAt token [] := by simp [EndsAt]
  obtain ⟨d, more, rfl, hread⟩ := lexeme_complete hl hend
  obtain ⟨rfl, rfl⟩ := List.cons.inj ht
  rw [List.append_nil, h.of_append.lexeme_eq] at hread
  cases hread

end Scan

namespace Scanner

open Scan

/-- The calls that found the tokens took the beginning of the text. On its own, with or without the
blanks behind it, it has these tokens. -/
theorem Reads.tokens_front {s s' : Scanner} {ts : List Token} (h : s.Reads ts s')
    (he : .eof ∉ ts) :
    ∃ front, s.rest = front ++ s'.rest ∧ ∀ gap after, s'.rest = gap ++ after →
      (∀ c ∈ gap, isBlank c = true) → tokens (front ++ gap) = .ok (ts ++ [.eof]) := by
  induction ts generalizing s with
  | nil =>
    cases h
    refine ⟨[], rfl, fun gap after _ hg => ?_⟩
    exact tokens_of_eof (by rw [List.nil_append, read_blank hg])
  | cons token ts ih =>
    simp only [List.mem_cons, not_or] at he
    obtain ⟨hnext, hr⟩ := reads_cons.mp h
    obtain ⟨front, hfront, htokens⟩ := ih hr he.2
    obtain ⟨blanks, lexeme, after, hs, hblanks, hl, hends, hafter⟩ :=
      next_of_token (Ne.symm he.1) hnext
    rw [hafter] at hfront
    change after = front ++ s'.rest at hfront
    refine ⟨blanks ++ (lexeme ++ front), by rw [hs, hfront]; simp, fun gap later hgap hg => ?_⟩
    -- the token was ended by what follows it in the whole text, and the cut text begins the same
    have hend : EndsAt token (front ++ gap) := by
      rw [hfront, hgap, ← List.append_assoc] at hends
      exact hends.of_append
    rw [List.append_assoc, List.append_assoc, tokens_gap hblanks, tokens_lexeme hl hend,
      htokens gap later hgap hg]
    rfl

theorem exists_reads_of_error {text : String} {e : ScanError} (h : tokenize text = .error e) :
    ∃ ts s, (ofText text).Reads ts s ∧ .eof ∉ ts ∧ s.next.1 = .error e := by
  obtain ⟨ts, s, hr, he, _, ⟨_, ht⟩ | ⟨fault, start, hn, ht⟩⟩ :=
    exists_reads text.toList.length text.toList
  · rw [tokenize_eq_ok_iff.mpr ht] at h
    cases h
  · rw [tokenize, ht] at h
    cases h
    exact ⟨ts, s, hr, he, hn⟩

/-- A fault is found where it is reported. The text before its place has the tokens that the calls
before the fault found, and the text from there on has the form of the fault; a character that is
not expected begins no lexeme. -/
theorem tokenize_error_located {text : String} {fault : Fault} {p : Nat}
    (h : tokenize text = .error ⟨fault, p⟩) :
    ∃ (before behind : String) (ts : List Token) (left : List Char),
      text = before ++ behind ∧ before.length = p ∧
      .eof ∉ ts ∧ ((ofText text).calls (ts.length + 1)).1 = ts.map .ok ++ [.error ⟨fault, p⟩] ∧
      tokenize before = .ok (ts ++ [.eof]) ∧
      FaultForm behind.toList fault left ∧
      ∀ c, fault = .unexpectedChar c → ∀ lexeme token, LexemeForm lexeme token →
        ¬lexeme <+: behind.toList := by
  obtain ⟨ts, s, hr, he, hnext⟩ := exists_reads_of_error h
  have hcalls := hr.calls_succ
  rw [hnext] at hcalls
  have hsize : s.size = text.length := (hr.standsIn (standsIn_ofText text)).size
  obtain ⟨front, hfront, htokens⟩ := hr.tokens_front he
  obtain ⟨gap, start, left, hs, hg, hf, rfl, _⟩ := next_of_error hnext
  have htext : text.toList = (front ++ gap) ++ start := by
    rw [List.append_assoc, ← hs]
    exact hfront
  refine ⟨String.ofList (front ++ gap), String.ofList start, ts, left, ?_, ?_, he, hcalls, ?_,
    ?_, ?_⟩
  · rw [← String.ofList_append, ← htext, String.ofList_toList]
  · have hlength := congrArg List.length htext
    rw [String.length_toList, List.length_append] at hlength
    rw [hsize, hlength, String.length_ofList, Nat.add_sub_cancel]
  · rw [tokenize_eq_ok_iff, String.toList_ofList]
    exact htokens gap start hs hg
  · rwa [String.toList_ofList]
  · rintro c rfl lexeme token hl
    rw [String.toList_ofList]
    cases hf with
    | unexpectedChar hnothing => exact hnothing.not_lexeme hl

/-- An escaped quote closes nothing, and the sign in front of the open quote is a token of its own
when the text is cut there. -/
theorem open_quote_behind_less :
    tokenize "x <'it\\'s" = .error ⟨.unterminatedString, 3⟩ ∧
      ∃ (before behind : String) (ts : List Token) (left : List Char),
        "x <'it\\'s" = before ++ behind ∧ before.length = 3 ∧
        .eof ∉ ts ∧ ((ofText "x <'it\\'s").calls (ts.length + 1)).1 =
          ts.map .ok ++ [.error ⟨.unterminatedString, 3⟩] ∧
        tokenize before = .ok (ts ++ [.eof]) ∧
        FaultForm behind.toList .unterminatedString left := by
  have h : tokenize "x <'it\\'s" = .error ⟨.unterminatedString, 3⟩ := by decide +kernel
  obtain ⟨before, behind, ts, left, htext, hp, he, hcalls, hbefore, hf, _⟩ :=
    tokenize_error_located h
  exact ⟨h, before, behind, ts, left, htext, hp, he, hcalls, hbefore, hf⟩

end Scanner

end SqlShell
