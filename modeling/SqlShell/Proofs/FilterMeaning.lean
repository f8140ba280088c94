import SqlShell.Proofs.Rendering

/-!
# The meaning of filters

All that counts of a document is which of its columns stand in which relation to which values. Given
that, a condition of a statement and its filter have the same truth. The filter is judged by its
value alone, so no column may look like a connective and no literal like an operator.
-/

set_option autoImplicit false

namespace SqlShell

open Scan

inductive Relation where
  | equal | notEqual | greater | less | greaterEqual | lessEqual
  deriving DecidableEq, Repr

abbrev Facts := String → Relation → Value → Bool

def Operator.relation? : Operator → Option Relation
  | equal => some .equal
  | notEqual | lessGreater => some .notEqual
  | greater => some .greater
  | less => some .less
  | greaterEqual => some .greaterEqual
  | lessEqual => some .lessEqual
  | plus | minus | star | slash => none

def Condition.truth? (facts : Facts) : Condition → Option Bool
  | comparison column op value =>
    op.relation?.map fun relation => facts column relation value.toValue
  | and left right => do
    let l ← left.truth? facts
    let r ← right.truth? facts
    return l && r
  | or left right => do
    let l ← left.truth? facts
    let r ← right.truth? facts
    return l || r

namespace Value

def operatorKeys : List (String × Relation) :=
  [("$ne", .notEqual), ("$gt", .greater), ("$lt", .less), ("$gte", .greaterEqual),
    ("$lte", .lessEqual)]

/-- What the value of a field asks of it: the relation of its operator if it is an object with one
operator as its key, and otherwise equality. -/
def demand (v : Value) : Relation × Value :=
  match v with
  | object [(key, operand)] =>
    match operatorKeys.lookup key with
    | some relation => (relation, operand)
    | none => (.equal, v)
  | _ => (.equal, v)

mutual

def truth? (facts : Facts) : Value → Option Bool
  | object [(key, value)] =>
    if key = "$and" then (memberTruths? facts value).map fun truths => truths.all id
    else if key = "$or" then (memberTruths? facts value).map fun truths => truths.any id
    else some (facts key value.demand.1 value.demand.2)
  | _ => none

def memberTruths? (facts : Facts) : Value → Option (List Bool)
  | array items => truths? facts items
  | _ => none

def truths? (facts : Facts) : List Value → Option (List Bool)
  | [] => some []
  | item :: items => do
    let truth ← item.truth? facts
    let truths ← truths? facts items
    return truth :: truths

end

theorem truth?_field {key : String} (ha : key ≠ "$and") (ho : key ≠ "$or") (facts : Facts)
    (value : Value) :
    truth? facts (object [(key, value)]) = some (facts key value.demand.1 value.demand.2) := by
  rw [truth?, if_neg ha, if_neg ho]

theorem truths?_pair {facts : Facts} {v w : Value} {a b : Bool} (hv : v.truth? facts = some a)
    (hw : w.truth? facts = some b) : truths? facts [v, w] = some [a, b] := by
  simp [truths?, hv, hw]

theorem truth?_and {facts : Facts} {v w : Value} {a b : Bool} (hv : v.truth? facts = some a)
    (hw : w.truth? facts = some b) :
    truth? facts (object [("$and", array [v, w])]) = some (a && b) := by
  rw [truth?, if_pos rfl, memberTruths?, truths?_pair hv hw]
  simp

theorem truth?_or {facts : Facts} {v w : Value} {a b : Bool} (hv : v.truth? facts = some a)
    (hw : w.truth? facts = some b) :
    truth? facts (object [("$or", array [v, w])]) = some (a || b) := by
  rw [truth?, if_neg (by decide), if_pos rfl, memberTruths?, truths?_pair hv hw]
  simp

def IsObject : Value → Prop
  | object _ => True
  | _ => False

theorem not_isObject_ofNumber (n : Binary64) : ¬(ofNumber n).IsObject := by
  cases n <;> exact not_false

theorem not_isObject_ofText (text : String) : ¬(ofText text).IsObject := by
  unfold ofText
  split
  · exact not_isObject_ofNumber _
  · exact not_false

theorem not_isObject_toValue (value : Literal) : ¬value.toValue.IsObject := by
  cases value with
  | number n => exact not_isObject_ofNumber n
  | string text => exact not_isObject_ofText text
  | identifier name => exact not_isObject_ofText name

theorem demand_of_not_isObject {v : Value} (h : ¬v.IsObject) : v.demand = (.equal, v) := by
  cases v with
  | object entries => exact absurd trivial h
  | _ => rfl

/-- What stands for a comparison in the filter asks for the relation of the comparison. -/
theorem demand_criterion {op : Operator} {value criterion : Value} (hv : ¬value.IsObject)
    (h : op.criterion value = .ok criterion) :
    ∃ relation, op.relation? = some relation ∧ criterion.demand = (relation, value) := by
  cases op <;> cases h
  case equal => exact ⟨_, rfl, demand_of_not_isObject hv⟩
  all_goals exact ⟨_, rfl, rfl⟩

end Value

theorem Scan.IsIdentifier.ne_dollar {name key : String} (h : IsIdentifier name)
    (hk : key.toList.head? = some '$') : name ≠ key := by
  rintro rfl
  obtain ⟨c, rest, ht, _, ⟨hd, _⟩, _⟩ := isPlainName_of_isWord h.1
  rw [ht] at hk
  exact hd (Option.some.inj hk)

/-- A condition of words has a filter, and in all circumstances the two have one truth. -/
theorem Condition.exists_filter_truth {c : Condition} (h : c.Over vocabulary) :
    ∃ filter, c.filter = .ok filter ∧
      ∀ facts, ∃ truth, c.truth? facts = some truth ∧ filter.truth? facts = some truth := by
  induction c with
  | comparison column op value =>
    obtain ⟨hc, hop, _⟩ := h
    obtain ⟨criterion, hk⟩ := Operator.criterion_ok hop value.toValue
    obtain ⟨relation, hr, hd⟩ := Value.demand_criterion (Value.not_isObject_toValue value) hk
    refine ⟨.object [(column, criterion)], by rw [filter, hk]; rfl, fun facts => ?_⟩
    refine ⟨facts column relation value.toValue, by rw [truth?, hr, Option.map_some], ?_⟩
    -- the column is a word, so as a key it is no connective
    rw [Value.truth?_field (hc.ne_dollar rfl) (hc.ne_dollar rfl), hd]
  | and left right ihl ihr =>
    obtain ⟨l, hl, hlt⟩ := ihl h.1
    obtain ⟨r, hr, hrt⟩ := ihr h.2
    refine ⟨.object [("$and", .array [l, r])], by rw [filter, hl, hr]; rfl, fun facts => ?_⟩
    obtain ⟨a, hla, ha⟩ := hlt facts
    obtain ⟨b, hrb, hb⟩ := hrt facts
    exact ⟨a && b, by rw [truth?, hla, hrb]; rfl, Value.truth?_and ha hb⟩
  | or left right ihl ihr =>
    obtain ⟨l, hl, hlt⟩ := ihl h.1
    obtain ⟨r, hr, hrt⟩ := ihr h.2
    refine ⟨.object [("$or", .array [l, r])], by rw [filter, hl, hr]; rfl, fun facts => ?_⟩
    obtain ⟨a, hla, ha⟩ := hlt facts
    obtain ⟨b, hrb, hb⟩ := hrt facts
    exact ⟨a || b, by rw [truth?, hla, hrb]; rfl, Value.truth?_or ha hb⟩

/-- The filter of a statement's condition holds exactly when the condition does, whatever the
columns of a document are. -/
theorem filter_truth_eq_condition_truth {text : String} {s : Statement} {c : Condition}
    (h : Statement.ofText text = .ok s) (hc : s.condition? = some c) :
    ∃ filter, filterOf (some c) = .ok filter ∧
      ∀ facts, ∃ truth, c.truth? facts = some truth ∧ filter.truth? facts = some truth := by
  have hw := Statement.wellFormed_of_ofText h
  exact Condition.exists_filter_truth (hw.parts.condition? c hc)

/-- A quoted operator is a value, and a word with a connective in it a column. -/
theorem filter_truth_of_operator_text :
    ∃ s c, Statement.ofText "DELETE FROM t WHERE (a <> '$gt' OR b$or = and_) AND a.b >= '0x10'" =
        .ok s ∧ s.condition? = some c ∧
      ∃ filter, filterOf (some c) = .ok filter ∧
        ∀ facts, ∃ truth, c.truth? facts = some truth ∧ filter.truth? facts = some truth := by
  have hs : Statement.ofText "DELETE FROM t WHERE (a <> '$gt' OR b$or = and_) AND a.b >= '0x10'" =
      .ok (.delete "t" (some (.and
        (.or (.comparison "a" .lessGreater (.string "$gt"))
          (.comparison "b$or" .equal (.identifier "and_")))
        (.comparison "a.b" .greaterEqual (.string "0x10"))))) := by decide +kernel
  exact ⟨_, _, hs, rfl, filter_truth_eq_condition_truth hs rfl⟩

end SqlShell
