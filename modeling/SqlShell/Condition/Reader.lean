import SqlShell.Cursor

/-!
# Reading conditions

AND binds tighter than OR, and both lean to the left. A condition is read in one pass over the
tokens, with a frame for every open parenthesis. A frame holds the finished left part of its OR
chain and of its AND chain. Trees and parentheses deeper than a limit are refused as soon as they
arise; without a limit nothing is refused for its depth.
-/

set_option autoImplicit false

namespace SqlShell

def depthLimit : Nat := 128

namespace Condition

def overrun? (limit : Option Nat) (depth : Nat) : Option ParseError :=
  limit.bind fun bound => if bound < depth then some (.tooDeep bound) else none

def bounded (limit : Option Nat) (c : Condition) : Except ParseError Condition :=
  match overrun? limit c.depth with
  | some e => .error e
  | none => .ok c

/-- The finished left parts of an OR chain and of the AND chain at its right end. -/
structure Frame where
  disjunction : Option Condition
  conjunction : Option Condition
  deriving DecidableEq, Repr

namespace Frame

def empty : Frame := ⟨none, none⟩

def conjoin (f : Frame) (operand : Condition) : Condition :=
  match f.conjunction with
  | some left => .and left operand
  | none => operand

def disjoin (f : Frame) (operand : Condition) : Condition :=
  match f.disjunction with
  | some left => .or left operand
  | none => operand

def extend (limit : Option Nat) (f : Frame) (operand : Condition) : Except ParseError Condition :=
  bounded limit (f.conjoin operand)

def complete (limit : Option Nat) (f : Frame) (operand : Condition) :
    Except ParseError Condition :=
  match f.extend limit operand with
  | .ok conjunction => bounded limit (f.disjoin conjunction)
  | .error e => .error e

end Frame

def stop (base : Nat) (outer : List Frame) (e : ParseError) (rest : List Token) :
    Except ParseError Condition × Cursor :=
  (.error e, ⟨rest, base + outer.length⟩)

mutual

def operand (limit : Option Nat) (base : Nat) (frame : Frame) (outer : List Frame) :
    List Token → Except ParseError Condition × Cursor
  | .leftParen :: rest =>
    match overrun? limit (base + outer.length + 1) with
    | some e => stop base outer e rest
    | none => operand limit base .empty (frame :: outer) rest
  | .identifier column :: .operator op :: value :: rest =>
    if op.isComparison then
      match value.asLiteral with
      | .ok literal => after limit base frame outer (.comparison column op literal) rest
      | .error e => stop base outer e (value :: rest)
    else
      stop base outer (.unexpected .comparison (.operator op)) (.operator op :: value :: rest)
  | .identifier _ :: .operator op :: [] =>
    if op.isComparison then stop base outer (.unexpected .literal .eof) []
    else stop base outer (.unexpected .comparison (.operator op)) [.operator op]
  | .identifier _ :: rest => stop base outer (.unexpected .comparison (rest.headD .eof)) rest
  | rest => stop base outer (.unexpected .column (rest.headD .eof)) rest

def after (limit : Option Nat) (base : Nat) (frame : Frame) (outer : List Frame)
    (last : Condition) : List Token → Except ParseError Condition × Cursor
  | .keyword .AND :: rest =>
    match frame.extend limit last with
    | .ok conjunction => operand limit base ⟨frame.disjunction, some conjunction⟩ outer rest
    | .error e => stop base outer e (.keyword .AND :: rest)
  | .keyword .OR :: rest =>
    match frame.complete limit last with
    | .ok disjunction => operand limit base ⟨some disjunction, none⟩ outer rest
    | .error e => stop base outer e (.keyword .OR :: rest)
  | .rightParen :: rest =>
    match frame.complete limit last with
    | .ok disjunction =>
      match outer with
      | enclosing :: outer => after limit base enclosing outer disjunction rest
      | [] => (.ok disjunction, ⟨.rightParen :: rest, base⟩)
    | .error e => stop base outer e (.rightParen :: rest)
  | rest =>
    match frame.complete limit last with
    | .ok disjunction =>
      match outer with
      | _ :: _ => stop base outer (.unexpected (.token .rightParen) (rest.headD .eof)) rest
      | [] => (.ok disjunction, ⟨rest, base⟩)
    | .error e => stop base outer e rest

end

mutual

theorem operand_length (limit : Option Nat) (base : Nat) (frame : Frame) (outer : List Frame)
    (tokens : List Token) :
    (operand limit base frame outer tokens).2.rest.length ≤ tokens.length := by
  unfold operand
  split
  · split
    · simp [stop]
    · exact Nat.le_succ_of_le (operand_length ..)
  · split
    · split
      · exact Nat.le_trans (after_length ..) (by simp only [List.length_cons]; omega)
      · simp [stop]
    · simp [stop]
  · split <;> simp [stop]
  · simp [stop]
  · simp [stop]
termination_by tokens.length

theorem after_length (limit : Option Nat) (base : Nat) (frame : Frame) (outer : List Frame)
    (last : Condition) (tokens : List Token) :
    (after limit base frame outer last tokens).2.rest.length ≤ tokens.length := by
  unfold after
  split
  · split
    · exact Nat.le_succ_of_le (operand_length ..)
    · simp [stop]
  · split
    · exact Nat.le_succ_of_le (operand_length ..)
    · simp [stop]
  · split
    · split
      · exact Nat.le_succ_of_le (after_length ..)
      · simp
    · simp [stop]
  · split
    · split <;> simp [stop]
    · simp [stop]
termination_by tokens.length

end

def reader (limit : Option Nat) : Reader Condition := fun c =>
  operand limit c.nesting .empty [] c.rest

theorem reader_nonGrowing (limit : Option Nat) : (reader limit).NonGrowing :=
  fun c => operand_length limit c.nesting .empty [] c.rest

end Condition

end SqlShell
