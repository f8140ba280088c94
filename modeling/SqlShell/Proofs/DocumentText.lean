import SqlShell.Document.Writer
import SqlShell.Proofs.Lexemes

/-!
# Document text is uniquely readable

A written document ends where it ends: if two documents with something after them are the same text,
the documents are equal and so is what follows. Only a number could be taken to be longer than it
is, so what follows must not go on with one.
-/

set_option autoImplicit false

namespace SqlShell

def letterEscape? : Char → Option Char
  | '"' => some '"'
  | '\\' => some '\\'
  | 'b' => some '\x08'
  | 'f' => some '\x0c'
  | 'n' => some '\n'
  | 'r' => some '\r'
  | 't' => some '\t'
  | _ => none

def hexadecimal? (digits : List Char) : Option Nat :=
  digits.foldlM (fun n digit => (digitValue? 16 digit).map (16 * n + ·)) 0

def unescape? : List Char → Option (Char × List Char)
  | [] => none
  | c :: rest =>
    if c = '\\' then
      match rest with
      | 'u' :: d₁ :: d₂ :: d₃ :: d₄ :: rest =>
        (hexadecimal? [d₁, d₂, d₃, d₄]).map fun code => (Char.ofNat code, rest)
      | letter :: rest => (letterEscape? letter).map (·, rest)
      | [] => none
    else some (c, rest)

theorem digitValue?_digitChar {n : Nat} (h : n < 16) :
    digitValue? 16 (Nat.digitChar n) = some n := by
  have hd : ∀ n < 16, digitValue? 16 (Nat.digitChar n) = some n := by decide
  exact hd n h

theorem hexadecimal?_code {n : Nat} (h : n < 0x20) :
    hexadecimal? ['0', '0', Nat.digitChar (n / 16), Nat.digitChar (n % 16)] = some n := by
  have hz : digitValue? 16 '0' = some 0 := by decide
  have hh : digitValue? 16 (Nat.digitChar (n / 16)) = some (n / 16) :=
    digitValue?_digitChar (by omega)
  have hl : digitValue? 16 (Nat.digitChar (n % 16)) = some (n % 16) :=
    digitValue?_digitChar (by omega)
  simp only [hexadecimal?, List.foldlM_cons, List.foldlM_nil, hz, hh, hl, Option.map_some,
    Option.bind_eq_bind, Option.bind_some, Option.pure_def]
  congr 1
  omega

def lettered : List Char := ['"', '\\', '\x08', '\x0c', '\n', '\r', '\t']

theorem escape_of_notMem {c : Char} (h : c ∉ lettered) :
    escape c =
      if c.toNat < 0x20 then
        ['\\', 'u', '0', '0', Nat.digitChar (c.toNat / 16), Nat.digitChar (c.toNat % 16)]
      else [c] := by
  simp only [lettered, List.mem_cons, List.not_mem_nil, or_false, not_or] at h
  simp [escape, h]

theorem unescape?_escape (c : Char) (rest : List Char) :
    unescape? (escape c ++ rest) = some (c, rest) := by
  by_cases hc : c ∈ lettered
  · simp only [lettered, List.mem_cons, List.not_mem_nil, or_false] at hc
    rcases hc with rfl | rfl | rfl | rfl | rfl | rfl | rfl <;> rfl
  · rw [escape_of_notMem hc]
    split
    · rename_i hn
      simp [unescape?, hexadecimal?_code hn, Char.ofNat_toNat]
    · have hb : c ≠ '\\' := fun hb => hc (hb ▸ by decide)
      simp [unescape?, hb]

theorem escape_cons (c : Char) : ∃ d rest, escape c = d :: rest ∧ d ≠ '"' := by
  have hu := unescape?_escape c []
  cases he : escape c with
  | nil =>
    rw [he] at hu
    cases hu
  | cons d rest =>
    refine ⟨d, rest, rfl, ?_⟩
    rintro rfl
    rw [he] at hu
    obtain rfl : '"' = c := congrArg Prod.fst (Option.some.inj hu)
    cases he

theorem escaped_inj {text other rest after : List Char}
    (h : text.flatMap escape ++ '"' :: rest = other.flatMap escape ++ '"' :: after) :
    text = other ∧ rest = after := by
  induction text generalizing other with
  | nil =>
    cases other with
    | nil => simpa using h
    | cons d other =>
      obtain ⟨e, tail, he, hq⟩ := escape_cons d
      simp [he, Ne.symm hq] at h
  | cons c text ih =>
    cases other with
    | nil =>
      obtain ⟨e, tail, he, hq⟩ := escape_cons c
      simp [he, hq] at h
    | cons d other =>
      simp only [List.flatMap_cons, List.append_assoc] at h
      have hu := congrArg unescape? h
      rw [unescape?_escape, unescape?_escape] at hu
      obtain ⟨rfl, ht⟩ := Prod.mk.inj (Option.some.inj hu)
      obtain ⟨rfl, ha⟩ := ih ht
      exact ⟨rfl, ha⟩

theorem quote_inj {text other rest after : List Char}
    (h : quote text ++ rest = quote other ++ after) : text = other ∧ rest = after := by
  simp only [quote, List.cons_append, List.append_assoc, List.nil_append, List.cons.injEq,
    true_and] at h
  exact escaped_inj h

def isNumberPart (c : Char) : Bool := c.isDigit || c == '.' || c == 'e' || c == '+' || c == '-'

def IsNumberText (text : List Char) : Prop := text ≠ [] ∧ ∀ c ∈ text, isNumberPart c = true

def Delimited (rest : List Char) : Prop := ∀ c ∈ rest.head?, isNumberPart c = false

theorem numberText_inj {text other rest after : List Char} (ht : IsNumberText text)
    (ho : IsNumberText other) (hr : Delimited rest) (ha : Delimited after)
    (h : text ++ rest = other ++ after) : text = other ∧ rest = after := by
  have hs : text = other := by
    rw [← Scan.takeWhile_append_stop ht.2 hr, h, Scan.takeWhile_append_stop ho.2 ha]
  subst hs
  exact ⟨rfl, List.append_cancel_left h⟩

theorem isNumberPart_of_isDigit {c : Char} (h : c.isDigit = true) : isNumberPart c = true := by
  simp [isNumberPart, h]

theorem mem_zeros {c : Char} {count : Nat} (h : c ∈ Spelling.zeros count) :
    isNumberPart c = true := by
  rw [List.eq_of_mem_replicate h]
  rfl

theorem digits_of_spelling (m : Magnitude) : ∀ c ∈ m.spelling.digits, isNumberPart c = true := by
  intro c hc
  unfold Magnitude.spelling at hc
  split at hc
  · rw [List.mem_singleton.mp hc]
    rfl
  · have hd := (List.dropWhile_sublist _).subset (List.mem_reverse.mp hc)
    exact isNumberPart_of_isDigit (Nat.isDigit_of_mem_toDigits (by decide) (by decide)
      (List.mem_reverse.mp hd))

theorem isNumberText_positional {s : Spelling} (hd : ∀ c ∈ s.digits, isNumberPart c = true) :
    IsNumberText s.positional := by
  unfold Spelling.positional
  split
  · refine ⟨by simp, ?_⟩
    refine List.forall_mem_cons.mpr ⟨rfl, List.forall_mem_cons.mpr ⟨rfl, ?_⟩⟩
    exact List.forall_mem_append.mpr ⟨fun c => mem_zeros, hd⟩
  · rename_i hp
    dsimp only
    split
    · refine ⟨?_, List.forall_mem_append.mpr ⟨hd, fun c => mem_zeros⟩⟩
      have hl : (s.digits ++ Spelling.zeros (s.point.toNat - s.digits.length)).length ≠ 0 := by
        simp only [Spelling.zeros, List.length_append, List.length_replicate]
        omega
      exact fun hn => hl (by rw [hn, List.length_nil])
    · refine ⟨by simp, List.forall_mem_append.mpr ⟨?_, List.forall_mem_cons.mpr ⟨rfl, ?_⟩⟩⟩
      · exact fun c hc => hd c (List.mem_of_mem_take hc)
      · exact fun c hc => hd c (List.mem_of_mem_drop hc)

theorem isNumberText_scientific {s : Spelling} {plus : List Char}
    (hd : ∀ c ∈ s.digits, isNumberPart c = true) (hp : ∀ c ∈ plus, isNumberPart c = true) :
    IsNumberText (s.scientific plus) := by
  refine ⟨by simp [Spelling.scientific], List.forall_mem_append.mpr
    ⟨List.forall_mem_append.mpr ⟨?_, ?_⟩, List.forall_mem_cons.mpr ⟨rfl, ?_⟩⟩⟩
  · exact fun c hc => hd c (List.mem_of_mem_take hc)
  · split
    · simp
    · exact List.forall_mem_cons.mpr ⟨rfl, fun c hc => hd c (List.mem_of_mem_drop hc)⟩
  · refine List.forall_mem_append.mpr ⟨?_, fun c hc => ?_⟩
    · split
      · exact List.forall_mem_singleton.mpr rfl
      · exact hp
    · exact isNumberPart_of_isDigit (Nat.isDigit_of_mem_toDigits (by decide) (by decide) hc)

theorem isNumberText_write (m : Magnitude) : IsNumberText (Value.numberFormat.write m) := by
  have hd := digits_of_spelling m
  unfold NumberFormat.write
  dsimp only
  split
  · have hw : (if m.spelling.isWhole = true then Value.numberFormat.whole else []) = [] := by
      split <;> rfl
    rw [hw, List.append_nil]
    exact isNumberText_positional hd
  · exact isNumberText_scientific hd (List.forall_mem_singleton.mpr rfl)

namespace Value

mutual

def Plain : Value → Prop
  | null => True
  | number text => IsNumberText text
  | string _ => True
  | array items => PlainItems items
  | object entries => PlainEntries entries

def PlainItems : List Value → Prop
  | [] => True
  | item :: items => item.Plain ∧ PlainItems items

def PlainEntries : List (String × Value) → Prop
  | [] => True
  | (_, value) :: entries => value.Plain ∧ PlainEntries entries

end

def mark? : Value → Option Char
  | null => some 'n'
  | number _ => none
  | string _ => some '"'
  | array _ => some '['
  | object _ => some '{'

def marked? (c : Char) : Option Char := if isNumberPart c then none else some c

theorem write_cons {v : Value} (h : v.Plain) :
    ∃ c rest, v.write = c :: rest ∧ v.mark? = marked? c := by
  cases v with
  | number text =>
    obtain ⟨hn, hc⟩ := h
    cases text with
    | nil => exact absurd rfl hn
    | cons c rest =>
      refine ⟨c, rest, rfl, ?_⟩
      simp [mark?, marked?, hc]
  | _ => exact ⟨_, _, rfl, rfl⟩

theorem mark?_eq {v w : Value} (hv : v.Plain) (hw : w.Plain) {rest after : List Char}
    (h : v.write ++ rest = w.write ++ after) : v.mark? = w.mark? := by
  obtain ⟨c, _, hc, hm⟩ := write_cons hv
  obtain ⟨d, _, hd, hn⟩ := write_cons hw
  rw [hc, hd] at h
  obtain ⟨rfl, _⟩ := List.cons.inj h
  rw [hm, hn]

def commaThen {α : Type} (writeAll : List α → List Char) : List α → List Char
  | [] => []
  | items => ',' :: writeAll items

theorem writeItems_cons (item : Value) (items : List Value) :
    writeItems (item :: items) = item.write ++ commaThen writeItems items := by
  cases items <;> simp [writeItems, commaThen]

theorem writeEntries_cons (key : String) (value : Value) (entries : List (String × Value)) :
    writeEntries ((key, value) :: entries) =
      quote key.toList ++ ':' :: (value.write ++ commaThen writeEntries entries) := by
  cases entries <;> simp [writeEntries, commaThen]

theorem delimited_commaThen {α : Type} (writeAll : List α → List Char) (items : List α) {c : Char}
    (hc : isNumberPart c = false) (rest : List Char) :
    Delimited (commaThen writeAll items ++ c :: rest) := by
  intro d hd
  cases items with
  | nil =>
    cases hd
    exact hc
  | cons item items =>
    cases hd
    rfl

theorem commaThen_inj {α : Type} {writeAll : List α → List Char} {items others : List α}
    {c : Char} (hc : c ≠ ',') {rest after : List Char}
    (h : commaThen writeAll items ++ c :: rest = commaThen writeAll others ++ c :: after) :
    writeAll items ++ c :: rest = writeAll others ++ c :: after := by
  cases items with
  | nil =>
    cases others with
    | nil => rw [(List.cons.inj h).2]
    | cons other others => exact absurd (List.cons.inj h).1 hc
  | cons item items =>
    cases others with
    | nil => exact absurd (List.cons.inj h).1.symm hc
    | cons other others => exact (List.cons.inj h).2

theorem writeItems_head {items : List Value} (h : PlainItems items) (hn : items ≠ [])
    (rest : List Char) : ∃ c tail, writeItems items ++ rest = c :: tail ∧ c ≠ ']' := by
  cases items with
  | nil => exact absurd rfl hn
  | cons item items =>
    obtain ⟨c, tail, hc, hm⟩ := write_cons h.1
    refine ⟨c, tail ++ commaThen writeItems items ++ rest, by simp [writeItems_cons, hc], ?_⟩
    rintro rfl
    cases item <;> cases hm

mutual

/-- A document can be cut off the text that it starts in one way only. -/
theorem write_inj {v w : Value} (hv : v.Plain) (hw : w.Plain) {rest after : List Char}
    (hr : Delimited rest) (ha : Delimited after) (h : v.write ++ rest = w.write ++ after) :
    v = w ∧ rest = after := by
  have hm := mark?_eq hv hw h
  cases v with
  | null =>
    cases w <;> cases hm
    exact ⟨rfl, List.append_cancel_left h⟩
  | number text =>
    cases w <;> cases hm
    obtain ⟨rfl, ht⟩ := numberText_inj hv hw hr ha h
    exact ⟨rfl, ht⟩
  | string text =>
    cases w <;> cases hm
    obtain ⟨hs, ht⟩ := quote_inj h
    exact ⟨by rw [String.toList_inj.mp hs], ht⟩
  | array items =>
    cases w <;> cases hm
    rename_i others
    simp only [write, List.cons_append, List.append_assoc, List.nil_append, List.cons.injEq,
      true_and] at h
    obtain ⟨rfl, ht⟩ := writeItems_inj hv hw h
    exact ⟨rfl, ht⟩
  | object entries =>
    cases w <;> cases hm
    rename_i others
    simp only [write, List.cons_append, List.append_assoc, List.nil_append, List.cons.injEq,
      true_and] at h
    obtain ⟨rfl, ht⟩ := writeEntries_inj hv hw h
    exact ⟨rfl, ht⟩

theorem writeItems_inj {items others : List Value} (hi : PlainItems items) (ho : PlainItems others)
    {rest after : List Char}
    (h : writeItems items ++ ']' :: rest = writeItems others ++ ']' :: after) :
    items = others ∧ rest = after := by
  cases items with
  | nil =>
    cases others with
    | nil => simpa [writeItems] using h
    | cons other others =>
      obtain ⟨c, tail, hc, hn⟩ := writeItems_head ho (by simp) (']' :: after)
      rw [hc] at h
      exact absurd (List.cons.inj h).1.symm hn
  | cons item items =>
    cases others with
    | nil =>
      obtain ⟨c, tail, hc, hn⟩ := writeItems_head hi (by simp) (']' :: rest)
      rw [hc] at h
      exact absurd (List.cons.inj h).1 hn
    | cons other others =>
      rw [writeItems_cons, writeItems_cons, List.append_assoc, List.append_assoc] at h
      obtain ⟨rfl, ht⟩ := write_inj hi.1 ho.1 (delimited_commaThen _ _ rfl _)
        (delimited_commaThen _ _ rfl _) h
      obtain ⟨rfl, he⟩ := writeItems_inj hi.2 ho.2 (commaThen_inj (by decide) ht)
      exact ⟨rfl, he⟩

theorem writeEntries_inj {entries others : List (String × Value)} (hi : PlainEntries entries)
    (ho : PlainEntries others) {rest after : List Char}
    (h : writeEntries entries ++ '}' :: rest = writeEntries others ++ '}' :: after) :
    entries = others ∧ rest = after := by
  cases entries with
  | nil =>
    cases others with
    | nil => simpa [writeEntries] using h
    | cons other others =>
      rw [writeEntries_cons] at h
      cases h
  | cons entry entries =>
    cases others with
    | nil =>
      rw [writeEntries_cons] at h
      cases h
    | cons other others =>
      obtain ⟨key, value⟩ := entry
      obtain ⟨key', value'⟩ := other
      rw [writeEntries_cons, writeEntries_cons, List.append_assoc, List.append_assoc] at h
      obtain ⟨hk, hv⟩ := quote_inj h
      rw [List.cons_append, List.cons_append, List.append_assoc, List.append_assoc] at hv
      obtain ⟨rfl, ht⟩ := write_inj hi.1 ho.1 (delimited_commaThen _ _ rfl _)
        (delimited_commaThen _ _ rfl _) (List.cons.inj hv).2
      obtain ⟨rfl, he⟩ := writeEntries_inj hi.2 ho.2 (commaThen_inj (by decide) ht)
      exact ⟨by rw [String.toList_inj.mp hk], he⟩

end

theorem plainEntries_iff {entries : List (String × Value)} :
    PlainEntries entries ↔ ∀ entry ∈ entries, entry.2.Plain := by
  induction entries with
  | nil => simp [PlainEntries]
  | cons entry entries ih => rw [List.forall_mem_cons, ← ih, PlainEntries]

theorem plain_ofNumber (n : Binary64) : (ofNumber n).Plain := by
  cases n with
  | finite negative m =>
    obtain ⟨hn, hc⟩ := isNumberText_write m
    refine ⟨by simp [hn], List.forall_mem_append.mpr ⟨?_, hc⟩⟩
    split
    · exact List.forall_mem_singleton.mpr rfl
    · simp
  | infinite negative => trivial
  | nan => trivial

theorem plain_ofText (text : String) : (ofText text).Plain := by
  unfold ofText
  split
  · exact plain_ofNumber _
  · trivial

theorem plain_toValue (value : Literal) : value.toValue.Plain := by
  cases value with
  | number n => exact plain_ofNumber n
  | string text => exact plain_ofText text
  | identifier name => exact plain_ofText name

end Value

end SqlShell
