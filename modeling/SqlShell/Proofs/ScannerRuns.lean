import SqlShell.Proofs.Faults

/-!
# Calling a scanner again and again

A scanner can be asked for one token after another, also after faults. Each call moves it on, or it
has settled: at the end of the text, where every call finds the end of input, or at a character that
starts nothing, where every call finds the same fault. So the tokens of a text are found in no more
calls than it has characters, and one more for the end.
-/

set_option autoImplicit false

namespace SqlShell

open Scan Text

namespace Scan

theorem FaultForm.left_suffix {start left : List Char} {fault : Fault}
    (h : FaultForm start fault left) : left <:+ start := by
  cases h with
  | unexpectedChar h => exact List.suffix_rfl
  | unterminatedString hq hu => exact List.nil_suffix
  | invalidNumber hr hp ha => exact List.suffix_append _ _

end Scan

namespace Scanner

inductive Call (s : Scanner) : Except ScanError Token × Scanner → Prop
  | finish (hb : ∀ c ∈ s.rest, isBlank c = true) : Call s (.ok .eof, ⟨s.size, []⟩)
  | take {gap lexeme after : List Char} {token : Token} (hr : s.rest = gap ++ (lexeme ++ after))
      (hg : ∀ c ∈ gap, isBlank c = true) (hl : LexemeForm lexeme token)
      (he : EndsAt token after) : Call s (.ok token, ⟨s.size, after⟩)
  | fail {gap start left : List Char} {fault : Fault} (hr : s.rest = gap ++ start)
      (hg : ∀ c ∈ gap, isBlank c = true) (hf : FaultForm start fault left) :
      Call s (.error ⟨fault, s.size - start.length⟩, ⟨s.size, left⟩)

theorem call_next (s : Scanner) : Call s s.next := by
  obtain ⟨size, text⟩ := s
  cases ho : (read text).outcome with
  | error fault =>
    have hread : read text = ⟨(read text).start, .error fault, (read text).rest⟩ := by rw [← ho]
    obtain ⟨hd, hf⟩ := read_fault_iff.mp hread
    have hr : text = text.takeWhile isBlank ++ (read text).start := by
      rw [← hd, List.takeWhile_append_dropWhile]
    simp only [next, ho]
    exact .fail hr (fun c => mem_takeWhile) hf
  | ok token =>
    simp only [next, ho]
    by_cases ht : token = .eof
    · subst ht
      have hb := blank_of_read_eof ho
      rw [read_blank hb]
      exact .finish hb
    · obtain ⟨gap, lexeme, hr, hg, hl, he⟩ := read_sound ho ht
      exact .take hr hg hl he

section Inversion

variable {s : Scanner}

theorem next_of_token {token : Token} (ht : token ≠ .eof) (hn : s.next.1 = .ok token) :
    ∃ gap lexeme after, s.rest = gap ++ (lexeme ++ after) ∧ (∀ c ∈ gap, isBlank c = true) ∧
      LexemeForm lexeme token ∧ EndsAt token after ∧ s.next.2 = ⟨s.size, after⟩ := by
  have hcall := call_next s
  generalize s.next = r at hcall hn
  cases hcall with
  | finish hb =>
    cases hn
    exact absurd rfl ht
  | @take gap lexeme after _ hr hg hl he =>
    cases hn
    exact ⟨gap, lexeme, after, hr, hg, hl, he, rfl⟩
  | fail hr hg hf => cases hn

theorem next_of_eof (hn : s.next.1 = .ok .eof) : s.next.2 = ⟨s.size, []⟩ := by
  have hcall := call_next s
  generalize s.next = r at hcall hn
  cases hcall with
  | finish hb => rfl
  | take hr hg hl he =>
    cases hn
    exact absurd rfl hl.ne_eof
  | fail hr hg hf => cases hn

theorem next_of_error {fault : Fault} {p : Nat} (hn : s.next.1 = .error ⟨fault, p⟩) :
    ∃ gap start left, s.rest = gap ++ start ∧ (∀ c ∈ gap, isBlank c = true) ∧
      FaultForm start fault left ∧ p = s.size - start.length ∧ s.next.2 = ⟨s.size, left⟩ := by
  have hcall := call_next s
  generalize s.next = r at hcall hn
  cases hcall with
  | finish hb => cases hn
  | take hr hg hl he => cases hn
  | @fail gap start left _ hr hg hf =>
    cases hn
    exact ⟨gap, start, left, hr, hg, hf, rfl, rfl⟩

end Inversion

structure StandsIn (text : String) (s : Scanner) : Prop where
  size : s.size = text.length
  rest : s.rest <:+ text.toList

namespace StandsIn

variable {text : String} {s : Scanner}

theorem length_le (h : StandsIn text s) : s.rest.length ≤ s.size := by
  rw [h.size, ← String.length_toList]
  exact h.rest.length_le

theorem position_le (h : StandsIn text s) : s.position ≤ text.length := by
  rw [← h.size]
  exact Nat.sub_le _ _

theorem rest_eq (h : StandsIn text s) : s.rest = text.toList.drop s.position := by
  have hd := List.suffix_iff_eq_drop.mp h.rest
  rwa [String.length_toList, ← h.size] at hd

theorem next (h : StandsIn text s) : StandsIn text s.next.2 := by
  have hcall := call_next s
  generalize s.next = r at hcall
  cases hcall with
  | finish hb => exact ⟨h.size, List.nil_suffix⟩
  | @take gap lexeme after token hr hg hl he =>
    have hs : after <:+ s.rest := ⟨gap ++ lexeme, by rw [hr, List.append_assoc]⟩
    exact ⟨h.size, hs.trans h.rest⟩
  | @fail gap start left fault hr hg hf =>
    have hs : start <:+ s.rest := ⟨gap, hr.symm⟩
    exact ⟨h.size, hf.left_suffix.trans (hs.trans h.rest)⟩

end StandsIn

theorem standsIn_ofText (text : String) : StandsIn text (ofText text) :=
  ⟨String.length_toList, List.suffix_rfl⟩

section Progress

variable {text : String} {s : Scanner}

theorem position_lt {after : List Char} (h : StandsIn text s)
    (ha : after.length < s.rest.length) : s.position < (⟨s.size, after⟩ : Scanner).position := by
  have hl := h.length_le
  unfold position
  dsimp only
  omega

theorem position_lt_of_token (h : StandsIn text s) {token : Token} (ht : token ≠ .eof)
    (hn : s.next.1 = .ok token) : s.position < s.next.2.position := by
  obtain ⟨gap, lexeme, after, hr, _, hl, he, hs⟩ := next_of_token ht hn
  obtain ⟨c, rest, rfl, _⟩ := lexeme_complete hl he
  rw [hs]
  apply position_lt h
  rw [hr, List.length_append, List.length_append, List.length_cons]
  omega

theorem position_lt_of_invalidNumber (h : StandsIn text s) {run : String} {p : Nat}
    (hn : s.next.1 = .error ⟨.invalidNumber run, p⟩) : s.position < s.next.2.position := by
  obtain ⟨gap, start, left, hr, _, hf, _, hs⟩ := next_of_error hn
  cases hf with
  | @invalidNumber run _ hrun hp ha =>
    obtain ⟨c, rest, rfl, _⟩ := hrun.head
    rw [hs]
    apply position_lt h
    rw [hr, List.length_append, List.length_append, List.length_cons]
    omega

end Progress

section Settled

variable {s : Scanner}

theorem next_at_end (size : Nat) : (⟨size, []⟩ : Scanner).next = (.ok .eof, ⟨size, []⟩) := rfl

theorem next_of_unterminatedString {p : Nat}
    (hn : s.next.1 = .error ⟨.unterminatedString, p⟩) : s.next.2 = ⟨s.size, []⟩ := by
  obtain ⟨gap, start, left, _, _, hf, _, hs⟩ := next_of_error hn
  cases hf
  exact hs

/-- A character that starts nothing is not passed. -/
theorem next_of_unexpectedChar {c : Char} {p : Nat}
    (hn : s.next.1 = .error ⟨.unexpectedChar c, p⟩) :
    s.next.2.next = (.error ⟨.unexpectedChar c, p⟩, s.next.2) := by
  obtain ⟨gap, start, left, _, _, hf, rfl, hs⟩ := next_of_error hn
  cases hf with
  | @unexpectedChar _ rest h =>
    have hd : (c :: rest).dropWhile isBlank = c :: rest := by simp [h.blank]
    have hread := read_fault_iff.mpr ⟨hd, .unexpectedChar h⟩
    rw [hs]
    simp only [Scanner.next, hread]
    rfl

end Settled

def calls (s : Scanner) : Nat → List (Except ScanError Token) × Scanner
  | 0 => ([], s)
  | n + 1 =>
    let first := s.next
    let more := first.2.calls n
    (first.1 :: more.1, more.2)

theorem StandsIn.calls {text : String} {s : Scanner} (h : StandsIn text s) (n : Nat) :
    StandsIn text (s.calls n).2 := by
  induction n generalizing s with
  | zero => exact h
  | succ n ih => exact ih h.next

/-- The last of some calls is made from where the others led. -/
theorem calls_succ (s : Scanner) (n : Nat) :
    s.calls (n + 1) =
      ((s.calls n).1 ++ [(s.calls n).2.next.1], (s.calls n).2.next.2) := by
  induction n generalizing s with
  | zero => rfl
  | succ n ih =>
    rw [calls, ih]
    rfl

/-- A call that changes nothing is repeated by all that follow. -/
theorem calls_of_settled {s : Scanner} {result : Except ScanError Token}
    (h : s.next = (result, s)) (n : Nat) : s.calls n = (List.replicate n result, s) := by
  induction n with
  | zero => rfl
  | succ n ih => simp only [calls, h, ih, List.replicate_succ]

def Reads (s : Scanner) (ts : List Token) (s' : Scanner) : Prop :=
  s.calls ts.length = (ts.map .ok, s')

theorem reads_cons {s s' : Scanner} {token : Token} {ts : List Token} :
    s.Reads (token :: ts) s' ↔ s.next.1 = .ok token ∧ s.next.2.Reads ts s' := by
  simp only [Reads, List.length_cons, calls, List.map_cons, List.cons.injEq, Prod.ext_iff,
    and_assoc]

theorem Reads.standsIn {text : String} {s s' : Scanner} {ts : List Token} (h : s.Reads ts s')
    (hs : StandsIn text s) : StandsIn text s' := by
  have hcalls := hs.calls ts.length
  rwa [show s.calls ts.length = (ts.map .ok, s') from h] at hcalls

theorem Reads.calls_succ {s s' : Scanner} {ts : List Token} (h : s.Reads ts s') :
    (s.calls (ts.length + 1)).1 = ts.map .ok ++ [s'.next.1] := by
  rw [Scanner.calls_succ, show s.calls ts.length = (ts.map .ok, s') from h]

/-- Calls until one finds the end of input or a fault give the tokens of the text, or its fault. -/
theorem exists_reads (size : Nat) (text : List Char) :
    ∃ (ts : List Token) (s : Scanner), (⟨size, text⟩ : Scanner).Reads ts s ∧ .eof ∉ ts ∧
      ts.length ≤ text.length ∧
      ((s.next.1 = .ok .eof ∧ tokens text = .ok (ts ++ [.eof])) ∨
        ∃ fault start, s.next.1 = .error ⟨fault, size - start.length⟩ ∧
          tokens text = .error (fault, start)) := by
  induction hn : text.length using Nat.strong_induction_on generalizing text with
  | _ n ih =>
    subst hn
    cases ho : (read text).outcome with
    | error fault =>
      refine ⟨[], ⟨size, text⟩, rfl, by simp, by simp, Or.inr ⟨fault, (read text).start, ?_, ?_⟩⟩
      · simp only [next, ho]
        rfl
      · exact tokens_of_error ho
    | ok token =>
      by_cases ht : token = .eof
      · subst ht
        refine ⟨[], ⟨size, text⟩, rfl, by simp, by simp, Or.inl ⟨?_, tokens_of_eof ho⟩⟩
        simp only [next, ho]
        rfl
      · have hlt := read_length ho ht
        obtain ⟨ts, s, hr, he, hl, hlast⟩ := ih _ hlt _ rfl
        have hnext : (⟨size, text⟩ : Scanner).next = (.ok token, ⟨size, (read text).rest⟩) := by
          simp only [next, ho]
          rfl
        refine ⟨token :: ts, s, reads_cons.mpr (by rw [hnext]; exact ⟨rfl, hr⟩), ?_, ?_, ?_⟩
        · simp [he, Ne.symm ht]
        · rw [List.length_cons]
          omega
        · rw [tokens_of_token ho ht]
          rcases hlast with ⟨hs, htok⟩ | ⟨fault, start, hs, htok⟩
          · exact Or.inl ⟨hs, by rw [htok]; rfl⟩
          · exact Or.inr ⟨fault, start, hs, by rw [htok]; rfl⟩

/-- After any number of calls the scanner stands in its text. The next call moves it on when it
finds a token or a malformed number. Once a call finds the end of input or an open quote, the
scanner is at the end and all later calls find the end of input; once it finds a character that
starts nothing, all later calls find that. So the calls up to the first end or fault, at most one
for each character and one more, give the tokens of the text with its only end of input behind them,
or its fault. -/
theorem calls_move_or_settle (text : String) :
    (∀ n, let s := ((ofText text).calls n).2
      (s.position ≤ text.length ∧ s.rest = text.toList.drop s.position) ∧
      (∀ token, token ≠ .eof → s.next.1 = .ok token → s.position < s.next.2.position) ∧
      (∀ run p, s.next.1 = .error ⟨.invalidNumber run, p⟩ → s.position < s.next.2.position) ∧
      (s.next.1 = .ok .eof ∨ (∃ p, s.next.1 = .error ⟨.unterminatedString, p⟩) →
        s.next.2.position = text.length ∧
          ∀ m, (s.next.2.calls m).1 = List.replicate m (.ok .eof)) ∧
      ∀ c p, s.next.1 = .error ⟨.unexpectedChar c, p⟩ →
        ∀ m, (s.next.2.calls m).1 = List.replicate m (.error ⟨.unexpectedChar c, p⟩)) ∧
    ∃ (ts : List Token) (last : Except ScanError Token), .eof ∉ ts ∧
      ts.length + 1 ≤ text.length + 1 ∧
      ((ofText text).calls (ts.length + 1)).1 = ts.map .ok ++ [last] ∧
      ((last = .ok .eof ∧ tokenize text = .ok (ts ++ [.eof])) ∨
        ∃ e, last = .error e ∧ tokenize text = .error e) := by
  constructor
  · intro n s
    have hs : StandsIn text s := (standsIn_ofText text).calls n
    refine ⟨⟨hs.position_le, hs.rest_eq⟩, fun token => position_lt_of_token hs,
      fun run p => position_lt_of_invalidNumber hs, fun hn => ?_, fun c p hn m => ?_⟩
    · have hend : s.next.2 = ⟨s.size, []⟩ := by
        rcases hn with hn | ⟨p, hn⟩
        · exact next_of_eof hn
        · exact next_of_unterminatedString hn
      rw [hend]
      exact ⟨hs.size, fun m => by rw [calls_of_settled (next_at_end s.size)]⟩
    · rw [calls_of_settled (next_of_unexpectedChar hn)]
  · obtain ⟨ts, s, hr, he, hl, hlast⟩ := exists_reads text.toList.length text.toList
    refine ⟨ts, s.next.1, he, ?_, hr.calls_succ, ?_⟩
    · rw [← String.length_toList]
      omega
    · rcases hlast with ⟨hs, ht⟩ | ⟨fault, start, hs, ht⟩
      · exact Or.inl ⟨hs, tokenize_eq_ok_iff.mpr ht⟩
      · exact Or.inr ⟨_, hs, by rw [tokenize, ht]; rfl⟩

/-- A malformed number is passed, and the exclamation mark behind it is found again and again. -/
theorem calls_stay_at_exclamation_mark :
    let s := ((ofText "x 1.2.3!").calls 1).2
    s.next.1 = .error ⟨.invalidNumber "1.2.3", 2⟩ ∧ s.position < s.next.2.position ∧
      s.next.2.next.1 = .error ⟨.unexpectedChar '!', 7⟩ ∧
      ∀ m, (s.next.2.next.2.calls m).1 = List.replicate m (.error ⟨.unexpectedChar '!', 7⟩) := by
  intro s
  have hnumber : s.next.1 = .error ⟨.invalidNumber "1.2.3", 2⟩ := by decide +kernel
  have hmark : s.next.2.next.1 = .error ⟨.unexpectedChar '!', 7⟩ := by decide +kernel
  have hmove := ((calls_move_or_settle "x 1.2.3!").1 1).2.2.1
  have hsettle := ((calls_move_or_settle "x 1.2.3!").1 2).2.2.2.2
  exact ⟨hnumber, hmove _ _ hnumber, hmark, hsettle _ _ hmark⟩

end Scanner

end SqlShell
