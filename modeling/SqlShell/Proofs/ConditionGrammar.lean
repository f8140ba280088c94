import SqlShell.Proofs.Nesting

/-!
# Conditions are read by their grammar

The reader keeps a frame for every open parenthesis. On the tokens of a form it moves from frame to
frame as the form is built, which gives completeness. For soundness every frame stands for the
tokens it was built from, and an accepting run returns through the frames it opened.
-/

set_option autoImplicit false

namespace SqlShell

open Grammar

namespace Condition

theorem bounded_eq_ok {limit : Option Nat} {c d : Condition} :
    bounded limit c = .ok d ↔ d = c ∧ Within limit c.depth := by
  rw [← overrun?_eq_none, bounded]
  cases overrun? limit c.depth with
  | none => simp [eq_comm]
  | some e => simp

namespace Frame

theorem extend_eq_ok {limit : Option Nat} {f : Frame} {last d : Condition} :
    f.extend limit last = .ok d ↔ d = f.conjoin last ∧ Within limit (f.conjoin last).depth :=
  bounded_eq_ok

theorem disjoin_depth_le (f : Frame) (last : Condition) :
    last.depth ≤ (f.disjoin last).depth := by
  unfold disjoin
  split
  · simp only [depth]
    omega
  · exact Nat.le_refl _

theorem complete_eq_ok {limit : Option Nat} {f : Frame} {last d : Condition} :
    f.complete limit last = .ok d ↔
      d = f.disjoin (f.conjoin last) ∧ Within limit (f.disjoin (f.conjoin last)).depth := by
  unfold complete
  constructor
  · intro h
    split at h
    · rename_i conjunction he
      rw [extend_eq_ok] at he
      rw [bounded_eq_ok, he.1] at h
      exact h
    · cases h
  · rintro ⟨rfl, hd⟩
    have he : f.extend limit last = .ok (f.conjoin last) :=
      extend_eq_ok.mpr ⟨rfl, hd.mono (f.disjoin_depth_le _)⟩
    rw [he]
    exact bounded_eq_ok.mpr ⟨rfl, hd⟩

end Frame

def conclude (limit : Option Nat) (base : Nat) (outer : List Frame) (c : Condition)
    (rest : List Token) : Except ParseError Condition × Cursor :=
  match outer with
  | [] => (.ok c, ⟨rest, base⟩)
  | enclosing :: others =>
    match rest with
    | .rightParen :: rest => after limit base enclosing others c rest
    | rest => stop base outer (.unexpected (.token .rightParen) (rest.headD .eof)) rest

theorem after_and {limit : Option Nat} {base : Nat} {f : Frame} {outer : List Frame}
    {last : Condition} (hd : Within limit (f.conjoin last).depth) (rest : List Token) :
    after limit base f outer last (.keyword .AND :: rest) =
      operand limit base ⟨f.disjunction, some (f.conjoin last)⟩ outer rest := by
  rw [after, Frame.extend_eq_ok.mpr ⟨rfl, hd⟩]

theorem after_or {limit : Option Nat} {base : Nat} {f : Frame} {outer : List Frame}
    {last : Condition} (hd : Within limit (f.disjoin (f.conjoin last)).depth)
    (rest : List Token) :
    after limit base f outer last (.keyword .OR :: rest) =
      operand limit base ⟨some (f.disjoin (f.conjoin last)), none⟩ outer rest := by
  rw [after, Frame.complete_eq_ok.mpr ⟨rfl, hd⟩]

theorem after_other {limit : Option Nat} {base : Nat} {f : Frame} {outer : List Frame}
    {last : Condition} {rest : List Token} (hr : rest.headD .eof ∉ joining) :
    after limit base f outer last rest =
      match f.complete limit last with
      | .ok c => conclude limit base outer c rest
      | .error e => stop base outer e rest := by
  unfold after
  split
  · simp [joining] at hr
  · simp [joining] at hr
  · cases f.complete limit last <;> cases outer <;> rfl
  · cases f.complete limit last <;> cases outer <;> simp [conclude]

theorem joining_cases (tokens : List Token) :
    (∃ rest, tokens = .keyword .AND :: rest) ∨ (∃ rest, tokens = .keyword .OR :: rest) ∨
      tokens.headD .eof ∉ joining := by
  cases tokens with
  | nil => simp [joining]
  | cons token rest =>
    by_cases ha : token = .keyword .AND
    · simp [ha]
    · by_cases ho : token = .keyword .OR <;> simp [joining, ha, ho]

/-- How far the reader gets on the tokens of a form: through a whole operand, or into the last
operand of a chain whose finished left parts the frame holds. -/
def Reads (limit : Option Nat) (base : Nat) : Level → List Token → Condition → Prop
  | .operand, p, c => ∀ f outer rest, Nests limit (base + outer.length) p →
    operand limit base f outer (p ++ rest) = after limit base f outer c rest
  | .conjunction, p, c => ∀ d outer rest, Nests limit (base + outer.length) p →
    ∃ f last, f.disjunction = d ∧ f.conjoin last = c ∧
      operand limit base ⟨d, none⟩ outer (p ++ rest) = after limit base f outer last rest
  | .disjunction, p, c => ∀ outer rest, Nests limit (base + outer.length) p →
    ∃ f last, f.disjoin (f.conjoin last) = c ∧
      operand limit base .empty outer (p ++ rest) = after limit base f outer last rest

theorem operand_comparison (limit : Option Nat) (base : Nat) (f : Frame) (outer : List Frame)
    (column : String) {op : Operator} (hop : op.isComparison) {p : List Token} {value : Literal}
    (hv : LiteralForm p value) (rest : List Token) :
    operand limit base f outer (.identifier column :: .operator op :: (p ++ rest)) =
      after limit base f outer (.comparison column op value) rest := by
  cases hv <;> simp [operand, hop, Token.asLiteral]

theorem form_reads {limit : Option Nat} {base : Nat} {level : Level} {p : List Token}
    {c : Condition} (h : ConditionForm level p c) (hd : Within limit c.depth) :
    Reads limit base level p c := by
  induction h with
  | comparison column op hop hv =>
    intro f outer rest _
    exact operand_comparison limit base f outer column hop hv rest
  | @parenthesized p c h ih =>
    intro f outer rest hn
    obtain ⟨hl, hn⟩ := (nests_parenthesized (balanced_condition h)).mp hn
    obtain ⟨g, last, rfl, hr⟩ := ih hd (f :: outer) (.rightParen :: rest) hn
    have hp : (.leftParen :: (p ++ [.rightParen]) ++ rest : List Token) =
        .leftParen :: (p ++ .rightParen :: rest) := by simp
    rw [hp, operand, overrun?_eq_none.mpr hl]
    rw [hr, after_other (by simp [joining]), Frame.complete_eq_ok.mpr ⟨rfl, hd⟩]
    rfl
  | operand h ih =>
    intro d outer rest hn
    exact ⟨⟨d, none⟩, _, rfl, rfl, ih hd _ outer rest hn⟩
  | @and p q left right hl hr ihl ihr =>
    intro d outer rest hn
    have hdl : Within limit left.depth := hd.mono (by simp only [depth]; omega)
    have hdr : Within limit right.depth := hd.mono (by simp only [depth]; omega)
    obtain ⟨hnl, hnr⟩ := ((balanced_condition hl).nests_append _).mp hn
    obtain ⟨f, last, rfl, rfl, hf⟩ := ihl hdl d outer (.keyword .AND :: (q ++ rest)) hnl
    refine ⟨⟨f.disjunction, some (f.conjoin last)⟩, right, rfl, rfl, ?_⟩
    rw [List.append_assoc, List.cons_append, hf, after_and hdl]
    exact ihr hdr _ outer rest hnr
  | conjunction h ih =>
    intro outer rest hn
    obtain ⟨f, last, hf, hc, he⟩ := ih hd none outer rest hn
    exact ⟨f, last, by simp [Frame.disjoin, hf, hc], he⟩
  | @or p q left right hl hr ihl ihr =>
    intro outer rest hn
    have hdl : Within limit left.depth := hd.mono (by simp only [depth]; omega)
    have hdr : Within limit right.depth := hd.mono (by simp only [depth]; omega)
    obtain ⟨hnl, hnr⟩ := ((balanced_condition hl).nests_append _).mp hn
    obtain ⟨f, last, rfl, hf⟩ := ihl hdl outer (.keyword .OR :: (q ++ rest)) hnl
    obtain ⟨g, next, hg, hc, he⟩ := ihr hdr (some (f.disjoin (f.conjoin last))) outer rest hnr
    refine ⟨g, next, by simp [Frame.disjoin, hg, hc], ?_⟩
    rw [List.append_assoc, List.cons_append, hf, after_or hdl]
    exact he

inductive FrameForm : Frame → List Token → Prop
  | empty : FrameForm .empty []
  | conjunction {p : List Token} {c : Condition} (h : ConditionForm .conjunction p c) :
      FrameForm ⟨none, some c⟩ (p ++ [.keyword .AND])
  | disjunction {p : List Token} {d : Condition} (h : ConditionForm .disjunction p d) :
      FrameForm ⟨some d, none⟩ (p ++ [.keyword .OR])
  | both {p q : List Token} {d c : Condition} (hd : ConditionForm .disjunction p d)
      (hc : ConditionForm .conjunction q c) :
      FrameForm ⟨some d, some c⟩ (p ++ .keyword .OR :: (q ++ [.keyword .AND]))

theorem FrameForm.complete {f : Frame} {p q : List Token} {c : Condition} (hf : FrameForm f p)
    (hc : ConditionForm .operand q c) :
    ConditionForm .disjunction (p ++ q) (f.disjoin (f.conjoin c)) := by
  cases hf with
  | empty => exact .conjunction (.operand hc)
  | conjunction h =>
    rw [List.append_assoc]
    exact .conjunction (.and h hc)
  | disjunction h =>
    rw [List.append_assoc]
    exact .or h (.operand hc)
  | @both p r d e hd he =>
    have ha : p ++ .keyword .OR :: (r ++ [.keyword .AND]) ++ q =
        p ++ .keyword .OR :: (r ++ .keyword .AND :: q) := by simp
    rw [ha]
    exact .or hd (.and he hc)

theorem FrameForm.extend {f : Frame} {p q : List Token} {c : Condition} (hf : FrameForm f p)
    (hc : ConditionForm .operand q c) :
    FrameForm ⟨f.disjunction, some (f.conjoin c)⟩ (p ++ q ++ [.keyword .AND]) := by
  cases hf with
  | empty => exact .conjunction (.operand hc)
  | @conjunction p e h =>
    have ha : p ++ [.keyword .AND] ++ q ++ [.keyword .AND] =
        p ++ .keyword .AND :: q ++ [.keyword .AND] := by simp
    rw [ha]
    exact .conjunction (.and h hc)
  | @disjunction p d h =>
    have ha : p ++ [.keyword .OR] ++ q ++ [.keyword .AND] =
        p ++ .keyword .OR :: (q ++ [.keyword .AND]) := by simp
    rw [ha]
    exact .both h (.operand hc)
  | @both p r d e hd he =>
    have ha : p ++ .keyword .OR :: (r ++ [.keyword .AND]) ++ q ++ [.keyword .AND] =
        p ++ .keyword .OR :: (r ++ .keyword .AND :: q ++ [.keyword .AND]) := by simp
    rw [ha]
    exact .both hd (.and he hc)

/-- The tokens start with what completes the innermost disjunction, of which the tokens in front
are already taken, and the frames outside it give the result. -/
def Completes (limit : Option Nat) (base : Nat) (outer : List Frame) (front tokens : List Token)
    (result : Except ParseError Condition × Cursor) : Prop :=
  ∃ p c rest, tokens = p ++ rest ∧ ConditionForm .disjunction (front ++ p) c ∧
    Within limit c.depth ∧ Nests limit (base + outer.length) p ∧ rest.headD .eof ∉ joining ∧
    conclude limit base outer c rest = result

theorem Completes.of_operand {limit : Option Nat} {base : Nat} {outer : List Frame}
    {front p tokens : List Token} {c : Condition}
    {result : Except ParseError Condition × Cursor} (hp : ConditionForm .operand p c)
    (hn : Nests limit (base + outer.length) p)
    (h : Completes limit base outer (front ++ p) tokens result) :
    Completes limit base outer front (p ++ tokens) result := by
  obtain ⟨q, d, rest, rfl, hf, hd, hq, hr, hc⟩ := h
  refine ⟨p ++ q, d, rest, by simp, by simpa using hf, hd, ?_, hr, hc⟩
  exact ((balanced_condition hp).nests_append q).mpr ⟨hn, hq⟩

theorem Completes.of_keyword {limit : Option Nat} {base : Nat} {outer : List Frame}
    {front tokens : List Token} {k : Keyword} {result : Except ParseError Condition × Cursor}
    (h : Completes limit base outer (front ++ [.keyword k]) tokens result) :
    Completes limit base outer front (.keyword k :: tokens) result := by
  obtain ⟨q, d, rest, rfl, hf, hd, hq, hr, hc⟩ := h
  exact ⟨.keyword k :: q, d, rest, by simp, by simpa using hf, hd, hq, hr, hc⟩

theorem literalForm_of_asLiteral {token : Token} {value : Literal}
    (h : token.asLiteral = .ok value) : LiteralForm [token] value := by
  cases token with
  | number n => cases h; exact .number n
  | string text => cases h; exact .string text
  | identifier name => cases h; exact .identifier name
  | _ => cases h

/-- Behind an open parenthesis a result comes only through the closing one. -/
theorem conclude_closes {limit : Option Nat} {base : Nat} {f : Frame} {outer : List Frame}
    {c d : Condition} {rest : List Token} {cursor : Cursor}
    (h : conclude limit base (f :: outer) c rest = (.ok d, cursor)) :
    ∃ tail, rest = .rightParen :: tail ∧ after limit base f outer c tail = (.ok d, cursor) := by
  simp only [conclude] at h
  split at h
  · rename_i tail
    exact ⟨tail, rfl, h⟩
  · cases h

mutual

theorem operand_completes {limit : Option Nat} {base : Nat} {f : Frame} {outer : List Frame}
    {front : List Token} (hf : FrameForm f front) (tokens : List Token) {c : Condition}
    {cursor : Cursor} (h : operand limit base f outer tokens = (.ok c, cursor)) :
    Completes limit base outer front tokens (.ok c, cursor) := by
  unfold operand at h
  split at h
  · rename_i rest
    split at h
    · cases h
    · rename_i hl
      obtain ⟨p, d, tail, rfl, hp, hd, hn, -, hc⟩ := operand_completes .empty rest h
      obtain ⟨tail, rfl, hc⟩ := conclude_closes hc
      have hop := ConditionForm.parenthesized hp
      have hnp := (nests_parenthesized (balanced_condition hp)).mpr ⟨overrun?_eq_none.mp hl, hn⟩
      have ha : (.leftParen :: (p ++ .rightParen :: tail) : List Token) =
          .leftParen :: (p ++ [.rightParen]) ++ tail := by simp
      rw [ha]
      exact .of_operand hop hnp (after_completes hf hop tail hc)
  · rename_i column op value rest
    split at h
    · rename_i hop
      split at h
      · rename_i literal hv
        have hc := ConditionForm.comparison column op hop (literalForm_of_asLiteral hv)
        refine .of_operand hc ?_ (after_completes hf hc rest h)
        exact (flat_cons (by simp) (by simp) (flat_cons (by simp) (by simp)
          (flat_literal (literalForm_of_asLiteral hv)))).nests limit _
      · cases h
    · cases h
  · split at h <;> cases h
  · cases h
  · cases h
termination_by tokens.length

theorem after_completes {limit : Option Nat} {base : Nat} {f : Frame} {outer : List Frame}
    {front p : List Token} {last : Condition} (hf : FrameForm f front)
    (hp : ConditionForm .operand p last) (tokens : List Token) {c : Condition} {cursor : Cursor}
    (h : after limit base f outer last tokens = (.ok c, cursor)) :
    Completes limit base outer (front ++ p) tokens (.ok c, cursor) := by
  rcases joining_cases tokens with ⟨rest, rfl⟩ | ⟨rest, rfl⟩ | hr
  · rw [after] at h
    split at h
    · rename_i conjunction he
      obtain ⟨rfl, hd⟩ := Frame.extend_eq_ok.mp he
      exact .of_keyword (operand_completes (hf.extend hp) rest h)
    · cases h
  · rw [after] at h
    split at h
    · rename_i disjunction he
      obtain ⟨rfl, hd⟩ := Frame.complete_eq_ok.mp he
      exact .of_keyword (operand_completes (.disjunction (hf.complete hp)) rest h)
    · cases h
  · rw [after_other hr] at h
    split at h
    · rename_i disjunction he
      obtain ⟨rfl, hd⟩ := Frame.complete_eq_ok.mp he
      refine ⟨[], _, tokens, rfl, ?_, hd, fun _ _ => trivial, hr, h⟩
      rw [List.append_nil]
      exact hf.complete hp
    · cases h
termination_by tokens.length

end

/-- The reader accepts exactly the forms within the limit that do not go on, and leaves the
parentheses in front as they were. -/
theorem reader_eq_ok {limit : Option Nat} {tokens : List Token} {n : Nat} {c : Condition}
    {cursor : Cursor} :
    reader limit ⟨tokens, n⟩ = (.ok c, cursor) ↔
      ∃ p rest, tokens = p ++ rest ∧ cursor = ⟨rest, n⟩ ∧ ConditionForm .disjunction p c ∧
        Within limit c.depth ∧ Nests limit n p ∧ rest.headD .eof ∉ joining := by
  constructor
  · intro h
    obtain ⟨p, d, rest, rfl, hp, hd, hn, hr, hc⟩ := operand_completes .empty tokens h
    cases hc
    exact ⟨p, rest, rfl, rfl, hp, hd, hn, hr⟩
  · rintro ⟨p, rest, rfl, rfl, hp, hd, hn, hr⟩
    obtain ⟨f, last, rfl, he⟩ := form_reads hp hd [] rest hn
    change operand limit n .empty [] (p ++ rest) = _
    rw [he, after_other hr, Frame.complete_eq_ok.mpr ⟨rfl, hd⟩]
    rfl

end Condition

end SqlShell
