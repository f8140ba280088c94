import SqlShell.Binary64.Reader
import SqlShell.Text.Letter
import SqlShell.Text.Numeral
import SqlShell.Token.Basic

/-!
# Scanning text into tokens

A text is read from the left. Blanks are skipped, then the longest token that starts there is taken.
A text without a token in front has a fault, and the place of the fault is where that token would
have started. Reading may go on after a fault.
-/

set_option autoImplicit false

namespace SqlShell

inductive Fault where
  | unexpectedChar (char : Char)
  | unterminatedString
  | invalidNumber (text : String)
  deriving DecidableEq, Repr

structure ScanError where
  fault : Fault
  position : Nat
  deriving DecidableEq, Repr

def ScanError.message (e : ScanError) : String :=
  match e.fault with
  | .unexpectedChar c =>
    "unexpected character '" ++ c.toString ++ "' at position " ++ toString e.position
  | .unterminatedString => "unterminated string starting at position " ++ toString e.position
  | .invalidNumber text =>
    "invalid number '" ++ text ++ "' at position " ++ toString e.position

namespace Scan
open Text

def isNameStart (c : Char) : Bool := isLetter c || c == '_'

def isNameChar (c : Char) : Bool :=
  isLetter c || isNumeral c || c == '_' || c == '.' || c == '$'

def isNumberChar (c : Char) : Bool := c.isDigit || c == '.'

def isQuote (c : Char) : Bool := c == '\'' || c == '"'

def word (name : List Char) : Token :=
  match Keyword.ofWord? name with
  | some keyword => .keyword keyword
  | none => .identifier (String.ofList name)

def number (run : List Char) : Except Fault Token :=
  match Decimal.ofFixed? run with
  | some decimal => .ok (.number (.ofDecimal false decimal))
  | none => .error (.invalidNumber (String.ofList run))

def quoted? (quote : Char) : List Char → Option (List Char × List Char)
  | [] => none
  | c :: rest =>
    if c = quote then some ([], rest)
    else if c = '\\' then
      match rest with
      | [] => none
      | escaped :: rest => (quoted? quote rest).map fun (text, after) => (escaped :: text, after)
    else (quoted? quote rest).map fun (text, after) => (c :: text, after)

def pairOperator? (c : Char) : List Char → Option (Operator × List Char)
  | [] => none
  | d :: rest => (Operator.ofPair? c d).map (·, rest)

def symbol? : Char → Option Token
  | ',' => some .comma
  | '(' => some .leftParen
  | ')' => some .rightParen
  | ';' => some .semicolon
  | c => (Operator.ofChar? c).map .operator

structure Reading where
  start : List Char
  outcome : Except Fault Token
  rest : List Char

def lexeme (c : Char) (rest : List Char) : Except Fault Token × List Char :=
  match pairOperator? c rest with
  | some (op, after) => (.ok (.operator op), after)
  | none =>
    match symbol? c with
    | some token => (.ok token, rest)
    | none =>
      if isQuote c then
        match quoted? c rest with
        | some (text, after) => (.ok (.string (String.ofList text)), after)
        | none => (.error .unterminatedString, [])
      else if c.isDigit then
        (number (c :: rest.takeWhile isNumberChar), rest.dropWhile isNumberChar)
      else if isNameStart c then
        (.ok (word (c :: rest.takeWhile isNameChar)), rest.dropWhile isNameChar)
      else (.error (.unexpectedChar c), c :: rest)

def read (text : List Char) : Reading :=
  match text.dropWhile isBlank with
  | [] => ⟨[], .ok .eof, []⟩
  | c :: rest =>
    let taken := lexeme c rest
    ⟨c :: rest, taken.1, taken.2⟩

theorem quoted?_length {quote : Char} {text content after : List Char}
    (h : quoted? quote text = some (content, after)) : after.length < text.length := by
  fun_induction quoted? quote text generalizing content after with
  | case1 => simp at h
  | case2 rest =>
    simp only [Option.some.injEq, Prod.mk.injEq] at h
    simp [h.2]
  | case3 => simp at h
  | case4 _ escaped rest ih =>
    obtain ⟨⟨text, tail⟩, hq, he⟩ := Option.map_eq_some_iff.1 h
    simp only [Prod.mk.injEq] at he
    have := ih hq
    simp only [List.length_cons, ← he.2]
    omega
  | case5 c rest _ _ ih =>
    obtain ⟨⟨text, tail⟩, hq, he⟩ := Option.map_eq_some_iff.1 h
    simp only [Prod.mk.injEq] at he
    have := ih hq
    simp only [List.length_cons, ← he.2]
    omega

theorem dropWhile_length_le (p : Char → Bool) (text : List Char) :
    (text.dropWhile p).length ≤ text.length :=
  (List.dropWhile_sublist p).length_le

/-- A token takes at least its first character. -/
theorem lexeme_length {c : Char} {rest : List Char} {token : Token}
    (h : (lexeme c rest).1 = .ok token) : (lexeme c rest).2.length ≤ rest.length := by
  unfold lexeme at h ⊢
  split
  · rename_i op after hp
    cases rest with
    | nil => simp [pairOperator?] at hp
    | cons d rest =>
      obtain ⟨_, _, he⟩ := Option.map_eq_some_iff.1 hp
      simp only [Prod.mk.injEq] at he
      simp [he.2]
  split
  · exact Nat.le_refl _
  split
  · split
    · rename_i hq
      exact Nat.le_of_lt (quoted?_length hq)
    · simp
  split
  · exact dropWhile_length_le _ _
  split
  · exact dropWhile_length_le _ _
  · simp_all

theorem read_length {text : List Char} {token : Token} (h : (read text).outcome = .ok token)
    (ht : token ≠ .eof) : (read text).rest.length < text.length := by
  have hs := dropWhile_length_le isBlank text
  unfold read at h ⊢
  split
  · rename_i hn
    simp only [hn, Except.ok.injEq] at h
    exact absurd h.symm ht
  · rename_i c rest hc
    simp only [hc, List.length_cons] at h hs ⊢
    have := lexeme_length h
    omega

def tokens (text : List Char) : Except (Fault × List Char) (List Token) :=
  let reading := read text
  match h : reading.outcome with
  | .error fault => .error (fault, reading.start)
  | .ok token =>
    if he : token = .eof then .ok [.eof]
    else
      have := read_length h he
      (tokens reading.rest).map (token :: ·)
termination_by text.length

end Scan

def tokenize (text : String) : Except ScanError (List Token) :=
  (Scan.tokens text.toList).mapError fun (fault, rest) =>
    ⟨fault, text.toList.length - rest.length⟩

structure Scanner where
  size : Nat
  rest : List Char
  deriving DecidableEq, Repr

namespace Scanner

def ofText (text : String) : Scanner := ⟨text.toList.length, text.toList⟩

def position (s : Scanner) : Nat := s.size - s.rest.length

def next (s : Scanner) : Except ScanError Token × Scanner :=
  let reading := Scan.read s.rest
  (reading.outcome.mapError (⟨·, s.size - reading.start.length⟩), { s with rest := reading.rest })

end Scanner

end SqlShell
