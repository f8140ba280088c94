import SqlShell.Proofs.Grammar

/-!
# Readers and the phrases they accept

What a reader accepts is a relation between the tokens it takes, the value it returns and the token
it stops at. The relation of a sequence of readers is the composition of theirs: each one stops at
the first token of what the next one takes.
-/

set_option autoImplicit false

namespace SqlShell

open Grammar

namespace Reader

variable {α β : Type}

/-- With `n` parentheses open the reader succeeds exactly on the phrases, takes them whole and
leaves the parentheses as they were. -/
def Accepts (n : Nat) (r : Reader α) (Phrase : List Token → α → Token → Prop) : Prop :=
  ∀ tokens a cursor, r ⟨tokens, n⟩ = (.ok a, cursor) ↔
    ∃ p rest, tokens = p ++ rest ∧ cursor = ⟨rest, n⟩ ∧ Phrase p a (rest.headD .eof)

def AcceptsAt (n : Nat) (token : Token) (r : Reader α) (Phrase : List Token → α → Token → Prop) :
    Prop :=
  ∀ tokens a cursor, tokens.headD .eof = token → (r ⟨tokens, n⟩ = (.ok a, cursor) ↔
    ∃ p rest, tokens = p ++ rest ∧ cursor = ⟨rest, n⟩ ∧ Phrase p a (rest.headD .eof))

theorem headD_append (p rest : List Token) (t : Token) :
    (p ++ rest).headD t = p.headD (rest.headD t) := by
  cases p <;> rfl

theorem bind_of_ok {r : Reader α} {next : α → Reader β} {c middle : Cursor} {a : α}
    (h : r c = (.ok a, middle)) : (r >>= next) c = next a middle := by
  change Reader.bind r next c = next a middle
  rw [Reader.bind, h]

theorem bind_of_error {r : Reader α} {next : α → Reader β} {c middle : Cursor} {e : ParseError}
    (h : r c = (.error e, middle)) : (r >>= next) c = (.error e, middle) := by
  change Reader.bind r next c = (.error e, middle)
  rw [Reader.bind, h]

theorem bind_eq_ok {r : Reader α} {next : α → Reader β} {c cursor : Cursor} {b : β} :
    (r >>= next) c = (.ok b, cursor) ↔
      ∃ a middle, r c = (.ok a, middle) ∧ next a middle = (.ok b, cursor) := by
  constructor
  · intro h
    cases hr : r c with
    | mk outcome middle =>
      cases outcome with
      | ok a => exact ⟨a, middle, rfl, (bind_of_ok hr).symm.trans h⟩
      | error e => cases (bind_of_error hr).symm.trans h
  · rintro ⟨a, middle, hr, hn⟩
    rw [bind_of_ok hr, hn]

theorem Accepts.bind {n : Nat} {r : Reader α} {next : α → Reader β}
    {Phrase : List Token → α → Token → Prop} {Next : α → List Token → β → Token → Prop}
    (hr : r.Accepts n Phrase) (hn : ∀ a, (next a).Accepts n (Next a)) :
    (r >>= next).Accepts n fun p b t =>
      ∃ q a s, p = q ++ s ∧ Phrase q a (s.headD t) ∧ Next a s b t := by
  intro tokens b cursor
  rw [bind_eq_ok]
  constructor
  · rintro ⟨a, middle, h, h'⟩
    obtain ⟨q, rest, rfl, rfl, hq⟩ := (hr _ _ _).mp h
    obtain ⟨s, rest, rfl, rfl, hs⟩ := (hn a _ _ _).mp h'
    rw [headD_append] at hq
    exact ⟨q ++ s, rest, by simp, rfl, q, a, s, rfl, hq, hs⟩
  · rintro ⟨p, rest, rfl, rfl, q, a, s, rfl, hq, hs⟩
    rw [← headD_append] at hq
    exact ⟨a, ⟨s ++ rest, n⟩, (hr _ _ _).mpr ⟨q, s ++ rest, by simp, rfl, hq⟩,
      (hn a _ _ _).mpr ⟨s, rest, rfl, rfl, hs⟩⟩

theorem Accepts.congr {n : Nat} {r : Reader α} {Phrase Phrase' : List Token → α → Token → Prop}
    (hr : r.Accepts n Phrase) (h : ∀ p a t, Phrase p a t ↔ Phrase' p a t) :
    r.Accepts n Phrase' := by
  intro tokens a cursor
  rw [hr]
  simp only [h]

theorem accepts_pure (n : Nat) (a : α) :
    (pure a : Reader α).Accepts n fun p b _ => p = [] ∧ b = a := by
  intro tokens b cursor
  change (Except.ok a, (⟨tokens, n⟩ : Cursor)) = _ ↔ _
  constructor
  · intro h
    cases h
    exact ⟨[], tokens, rfl, rfl, rfl, rfl⟩
  · rintro ⟨p, rest, rfl, rfl, rfl, rfl⟩
    rfl

theorem accepts_fail (n : Nat) (e : ParseError) :
    (fail e : Reader α).Accepts n fun _ _ _ => False := by
  intro tokens b cursor
  constructor
  · intro h
    cases h
  · rintro ⟨p, rest, rfl, rfl, h⟩
    cases h

theorem accepts_peek_bind {n : Nat} {next : Token → Reader α}
    {Phrase : List Token → α → Token → Prop} (h : ∀ token, (next token).AcceptsAt n token Phrase) :
    (peek >>= next).Accepts n Phrase :=
  fun tokens a cursor => h (tokens.headD .eof) tokens a cursor rfl

/-- Where one token decides what is read, only phrases that start with it, or that are empty before
it, matter. -/
theorem AcceptsAt.congr {n : Nat} {token : Token} {r : Reader α}
    {Phrase Phrase' : List Token → α → Token → Prop} (hr : r.AcceptsAt n token Phrase)
    (h : ∀ p a t, p.headD t = token → (Phrase p a t ↔ Phrase' p a t)) :
    r.AcceptsAt n token Phrase' := by
  intro tokens a cursor ht
  rw [hr tokens a cursor ht]
  constructor
  · rintro ⟨p, rest, rfl, rfl, hp⟩
    rw [headD_append] at ht
    exact ⟨p, rest, rfl, rfl, (h _ _ _ ht).mp hp⟩
  · rintro ⟨p, rest, rfl, rfl, hp⟩
    rw [headD_append] at ht
    exact ⟨p, rest, rfl, rfl, (h _ _ _ ht).mpr hp⟩

theorem Accepts.at {n : Nat} {token : Token} {r : Reader α}
    {Phrase Phrase' : List Token → α → Token → Prop} (hr : r.Accepts n Phrase)
    (h : ∀ p a t, p.headD t = token → (Phrase p a t ↔ Phrase' p a t)) :
    r.AcceptsAt n token Phrase' :=
  AcceptsAt.congr (fun tokens a cursor _ => hr tokens a cursor) h

theorem Accepts.advance {n : Nat} {token : Token} {r : Reader α}
    {Phrase : List Token → α → Token → Prop} (hr : r.Accepts n Phrase) (ht : token ≠ .eof) :
    (Reader.advance >>= fun _ => r).AcceptsAt n token fun p a t =>
      ∃ q, p = token :: q ∧ Phrase q a t := by
  intro tokens a cursor h
  cases tokens with
  | nil => exact absurd h.symm ht
  | cons first tokens =>
    obtain rfl : first = token := h
    have ha : (⟨first :: tokens, n⟩ : Cursor).advance = ⟨tokens, n⟩ := by
      simp [Cursor.advance, Cursor.peek, ht]
    change r (Cursor.advance ⟨first :: tokens, n⟩) = _ ↔ _
    rw [ha, hr]
    constructor
    · rintro ⟨q, rest, rfl, rfl, hq⟩
      exact ⟨first :: q, rest, rfl, rfl, q, rfl, hq⟩
    · rintro ⟨p, rest, he, rfl, q, rfl, hq⟩
      cases he
      exact ⟨q, rest, rfl, rfl, hq⟩

structure Forms (form : Token → Except ParseError α) (Phrase : List Token → α → Prop) : Prop where
  iff : ∀ p a, Phrase p a ↔ ∃ token, p = [token] ∧ form token = .ok a
  eof : ∀ a, form .eof ≠ .ok a

theorem accepts_one (n : Nat) {form : Token → Except ParseError α}
    {Phrase : List Token → α → Prop} (hf : Forms form Phrase) :
    (one form).Accepts n fun p a _ => Phrase p a := by
  refine accepts_peek_bind fun token => ?_
  simp only [hf.iff]
  cases ht : form token with
  | ok b =>
    have he : token ≠ .eof := fun h => hf.eof b (h ▸ ht)
    refine ((accepts_pure n b).advance he).congr fun p a t hp => ?_
    constructor
    · rintro ⟨q, rfl, rfl, rfl⟩
      exact ⟨token, rfl, ht⟩
    · rintro ⟨first, rfl, ha⟩
      obtain rfl : first = token := hp
      cases ht.symm.trans ha
      exact ⟨[], rfl, rfl, rfl⟩
  | error e =>
    refine (accepts_fail n e).at fun p a t hp => ?_
    constructor
    · exact False.elim
    · rintro ⟨first, rfl, ha⟩
      obtain rfl : first = token := hp
      cases ht.symm.trans ha

theorem accepts_expect (n : Nat) (token : Token) (ht : token ≠ .eof) :
    (expect token).Accepts n fun p _ _ => p = [token] := by
  refine accepts_peek_bind fun found => ?_
  by_cases hf : found = token
  · subst hf
    simp only [if_true]
    refine ((accepts_pure n ()).advance ht).congr fun p a t hp => ?_
    constructor
    · rintro ⟨q, rfl, rfl, -⟩
      rfl
    · rintro rfl
      exact ⟨[], rfl, rfl, rfl⟩
  · simp only [hf, if_false]
    refine (accepts_fail n _).at fun p a t hp => ?_
    constructor
    · exact False.elim
    · rintro rfl
      exact hf hp.symm

theorem accepts_ofTokens {n : Nat} {read : List Token → Except ParseError α × List Token}
    {Phrase : List Token → α → Token → Prop}
    (h : ∀ tokens a rest, read tokens = (.ok a, rest) ↔
      ∃ p, tokens = p ++ rest ∧ Phrase p a (rest.headD .eof)) :
    (ofTokens read).Accepts n Phrase := by
  intro tokens a cursor
  constructor
  · intro ho
    cases hr : read tokens with
    | mk outcome rest =>
      simp only [ofTokens, hr, Prod.mk.injEq] at ho
      obtain ⟨rfl, rfl⟩ := ho
      obtain ⟨p, hp, hP⟩ := (h _ _ _).mp hr
      exact ⟨p, rest, hp, rfl, hP⟩
  · rintro ⟨p, rest, rfl, rfl, hP⟩
    simp [ofTokens, (h _ _ _).mpr ⟨p, rfl, hP⟩]

theorem headD_ne_comma {rest : List Token} (h : ∀ tail, rest = .comma :: tail → False) :
    rest.headD .eof ≠ .comma := by
  cases rest with
  | nil => simp
  | cons next tail => exact fun he => h tail (by rw [← he]; rfl)

theorem map_cons_eq_ok {a : α} {more : Except ParseError (List α) × List Token} {items : List α}
    {rest : List Token} (h : (more.1.map (a :: ·), more.2) = (.ok items, rest)) :
    ∃ others, more = (.ok others, rest) ∧ items = a :: others := by
  obtain ⟨outcome, left⟩ := more
  cases outcome with
  | error e => cases h
  | ok others =>
    cases h
    exact ⟨others, rfl, rfl⟩

theorem commaSeparated_sound {item : Token → Except ParseError α} {Item : List Token → α → Prop}
    (hi : Forms item Item) {tokens rest : List Token} {items : List α}
    (h : commaSeparated item tokens = (.ok items, rest)) :
    ∃ p, tokens = p ++ rest ∧ ListForm Item p items ∧ rest.headD .eof ≠ .comma := by
  fun_induction commaSeparated item tokens generalizing items rest with
  | case1 =>
    cases hf : item .eof with
    | ok a => exact absurd hf (hi.eof a)
    | error e => simp [hf, Except.map] at h
  | case2 token tail e ht => cases h
  | case3 token a ht tail more =>
    rename_i ih
    obtain ⟨others, hm, rfl⟩ := map_cons_eq_ok h
    obtain ⟨p, rfl, hp, hr⟩ := ih hm
    exact ⟨token :: .comma :: p, rfl, .more ((hi.iff _ _).mpr ⟨token, rfl, ht⟩) hp, hr⟩
  | case4 token a ht tail hc =>
    cases h
    exact ⟨[token], rfl, .one ((hi.iff _ _).mpr ⟨token, rfl, ht⟩), headD_ne_comma hc⟩

theorem commaSeparated_complete {item : Token → Except ParseError α}
    {Item : List Token → α → Prop} (hi : Forms item Item) {p rest : List Token} {items : List α}
    (h : ListForm Item p items) (hr : rest.headD .eof ≠ .comma) :
    commaSeparated item (p ++ rest) = (.ok items, rest) := by
  induction h with
  | one h =>
    obtain ⟨token, rfl, ht⟩ := (hi.iff _ _).mp h
    simp only [List.singleton_append, commaSeparated, ht]
    split
    · simp at hr
    · rfl
  | more h _ ih =>
    obtain ⟨token, rfl, ht⟩ := (hi.iff _ _).mp h
    simp [commaSeparated, ht, ih, Except.map]

theorem accepts_commaSeparated (n : Nat) {item : Token → Except ParseError α}
    {Item : List Token → α → Prop} (hi : Forms item Item) :
    (ofTokens (commaSeparated item)).Accepts n fun p items t =>
      ListForm Item p items ∧ t ≠ .comma := by
  refine accepts_ofTokens fun tokens items rest => ?_
  constructor
  · exact commaSeparated_sound hi
  · rintro ⟨p, rfl, hp, hr⟩
    exact commaSeparated_complete hi hp hr

theorem accepts_closedList (n : Nat) {item : Token → Except ParseError α}
    {Item : List Token → α → Prop} (hi : Forms item Item) :
    (closedList item).Accepts n fun p items _ =>
      ∃ q, p = q ++ [.rightParen] ∧ ListForm Item q items := by
  refine (@Accepts.bind _ _ n _ _ _ (fun items p found _ => p = [.rightParen] ∧ found = items)
    (accepts_commaSeparated n hi) fun items => ?_).congr fun p items t => ?_
  · refine accepts_peek_bind fun token => ?_
    split
    · refine ((accepts_pure n items).advance (by simp)).congr fun p a t hp => ?_
      constructor
      · rintro ⟨q, rfl, rfl, rfl⟩
        exact ⟨rfl, rfl⟩
      · rintro ⟨rfl, rfl⟩
        exact ⟨[], rfl, rfl, rfl⟩
    · rename_i hc
      refine (accepts_fail n _).at fun p a t hp => ?_
      constructor
      · exact False.elim
      · rintro ⟨rfl, rfl⟩
        exact hc hp.symm
  · constructor
    · rintro ⟨q, found, s, rfl, ⟨hq, -⟩, rfl, rfl⟩
      exact ⟨q, rfl, hq⟩
    · rintro ⟨q, rfl, hq⟩
      exact ⟨q, items, [.rightParen], rfl, ⟨hq, by simp⟩, rfl, rfl⟩

end Reader

end SqlShell
