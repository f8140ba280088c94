import SqlShell.Proofs.DocumentKeys
import SqlShell.Proofs.DocumentText
import SqlShell.Proofs.OpenSentences

/-!
# Commands with one value left open

A sentence with an open literal has a command with an open value: whatever the literal is, its value
stands at one place of one document, under the column the literal is written for, and all around it
stays the same. This fails only for a literal that does not count, since a later one or a later
condition overrides it or since it has no column.
-/

set_option autoImplicit false

namespace SqlShell

open Grammar

inductive OpenValue where
  | here
  | entry (before : Entries Value) (key : String) (value : OpenValue) (after : Entries Value)
  | item (before : List Value) (value : OpenValue) (after : List Value)

namespace OpenValue

def fill : OpenValue → Value → Value
  | here, v => v
  | entry before key value after, v => .object (before ++ (key, value.fill v) :: after)
  | item before value after, v => .array (before ++ value.fill v :: after)

def keys : OpenValue → List String
  | here => []
  | entry _ key value _ => key :: value.keys
  | item _ value _ => value.keys

end OpenValue

def Surrounds (write : Value → List Char) : Prop :=
  ∃ front back, ∀ v, write v = front ++ (v.write ++ back)

namespace Surrounds

variable {write : Value → List Char}

theorem prepend (h : Surrounds write) (text : List Char) : Surrounds fun v => text ++ write v := by
  obtain ⟨front, back, hw⟩ := h
  exact ⟨text ++ front, back, fun v => by simp only [hw, List.append_assoc]⟩

theorem append (h : Surrounds write) (text : List Char) : Surrounds fun v => write v ++ text := by
  obtain ⟨front, back, hw⟩ := h
  exact ⟨front, back ++ text, fun v => by simp only [hw, List.append_assoc]⟩

theorem comp (h : Surrounds write) {f : Value → Value} (hf : Surrounds fun v => (f v).write) :
    Surrounds fun v => write (f v) := by
  obtain ⟨front, back, hw⟩ := h
  obtain ⟨front', back', hw'⟩ := hf
  exact ⟨front ++ front', back' ++ back, fun v => by simp only [hw, hw', List.append_assoc]⟩

end Surrounds

theorem surrounds_write : Surrounds Value.write :=
  ⟨[], [], fun v => by simp⟩

theorem surrounds_writeItems (before after : List Value) :
    Surrounds fun v => Value.writeItems (before ++ v :: after) := by
  induction before with
  | nil =>
    have h := surrounds_write.append (Value.commaThen Value.writeItems after)
    simpa only [List.nil_append, Value.writeItems_cons] using h
  | cons item before ih =>
    have h := ih.prepend (item.write ++ [','])
    have hc (v : Value) : Value.commaThen Value.writeItems (before ++ v :: after) =
        ',' :: Value.writeItems (before ++ v :: after) := by
      cases before <;> rfl
    simpa [Value.writeItems_cons, hc] using h

theorem surrounds_writeEntries (before after : Entries Value) (key : String) :
    Surrounds fun v => Value.writeEntries (before ++ (key, v) :: after) := by
  induction before with
  | nil =>
    have h := (surrounds_write.append (Value.commaThen Value.writeEntries after)).prepend
      (quote key.toList ++ [':'])
    simpa [Value.writeEntries_cons] using h
  | cons entry before ih =>
    obtain ⟨k, w⟩ := entry
    have h := ih.prepend (quote k.toList ++ ':' :: (w.write ++ [',']))
    have hc (v : Value) : Value.commaThen Value.writeEntries (before ++ (key, v) :: after) =
        ',' :: Value.writeEntries (before ++ (key, v) :: after) := by
      cases before <;> rfl
    simpa [Value.writeEntries_cons, hc] using h

theorem OpenValue.surrounds_fill (d : OpenValue) : Surrounds fun v => (d.fill v).write := by
  induction d with
  | here => exact surrounds_write
  | entry before key value after ih =>
    have h := (((surrounds_writeEntries before after key).comp ih).append ['}']).prepend ['{']
    simpa only [fill, Value.write, List.singleton_append] using h
  | item before value after ih =>
    have h := (((surrounds_writeItems before after).comp ih).append [']']).prepend ['[']
    simpa only [fill, Value.write, List.singleton_append] using h

inductive OpenCommand where
  | find (collection : String) (filter : OpenValue) (projection : Option Value)
      (sort : Option Order) (limit : Option Value)
  | insertOne (collection : String) (document : OpenValue)
  | updateMatching (collection : String) (filter : OpenValue) (update : Value)
  | updateTo (collection : String) (filter : Value) (update : OpenValue)
  | deleteMany (collection : String) (filter : OpenValue)

namespace OpenCommand

def document : OpenCommand → OpenValue
  | find _ filter _ _ _ => filter
  | insertOne _ document => document
  | updateMatching _ filter _ => filter
  | updateTo _ _ update => update
  | deleteMany _ filter => filter

def fill : OpenCommand → Value → Command
  | find collection filter projection sort limit, v =>
    .find collection (filter.fill v) projection sort limit
  | insertOne collection document, v => .insertOne collection (document.fill v)
  | updateMatching collection filter update, v => .updateMany collection (filter.fill v) update
  | updateTo collection filter update, v => .updateMany collection filter (update.fill v)
  | deleteMany collection filter, v => .deleteMany collection (filter.fill v)

theorem surrounds_fill (c : OpenCommand) : Surrounds fun v => (c.fill v).write := by
  have h := c.document.surrounds_fill
  cases c with
  | find collection filter projection sort limit =>
    exact (((((h.prepend _).append _).append _).append _).append _).append _
  | insertOne collection document => exact (h.prepend _).append _
  | updateMatching collection filter update => exact (((h.prepend _).append _).append _).append _
  | updateTo collection filter update => exact (h.prepend _).append _
  | deleteMany collection filter => exact (h.prepend _).append _

/-- The text of the command is that of the open value with texts before and after it. -/
theorem exists_text (c : OpenCommand) :
    ∃ front back : String, ∀ v, (c.fill v).text = front ++ v.text ++ back := by
  obtain ⟨front, back, hw⟩ : ∃ front back, ∀ v, (c.fill v).write = front ++ (v.write ++ back) :=
    c.surrounds_fill
  refine ⟨.ofList front, .ofList back, fun v => ?_⟩
  rw [Command.text, hw, String.ofList_append, String.ofList_append, String.append_assoc]
  rfl

end OpenCommand

namespace Grammar

def OpenCondition.column : OpenCondition → String
  | comparison column _ => column
  | andLeft left _ => left.column
  | andRight _ right => right.column
  | orLeft left _ => left.column
  | orRight _ right => right.column

theorem exists_criterion {op : Operator} {v c : Value} (h : op.criterion v = .ok c) :
    ∃ d : OpenValue, ∀ v, op.criterion v = .ok (d.fill v) := by
  cases op with
  | equal => exact ⟨.here, fun v => rfl⟩
  | notEqual => exact ⟨.entry [] "$ne" .here [], fun v => rfl⟩
  | lessGreater => exact ⟨.entry [] "$ne" .here [], fun v => rfl⟩
  | greater => exact ⟨.entry [] "$gt" .here [], fun v => rfl⟩
  | less => exact ⟨.entry [] "$lt" .here [], fun v => rfl⟩
  | greaterEqual => exact ⟨.entry [] "$gte" .here [], fun v => rfl⟩
  | lessEqual => exact ⟨.entry [] "$lte" .here [], fun v => rfl⟩
  | plus => cases h
  | minus => cases h
  | star => cases h
  | slash => cases h

/-- The open literal of a condition that has a filter is an open value of it. -/
theorem OpenCondition.exists_filter (o : OpenCondition) {l : Literal} {filter : Value}
    (h : (o.fill l).filter = .ok filter) :
    ∃ d : OpenValue, o.column ∈ d.keys ∧ ∀ literal : Literal,
      (o.fill literal).filter = .ok (d.fill literal.toValue) := by
  induction o generalizing filter with
  | comparison column op =>
    obtain ⟨c, hc, -⟩ := bind_ok_iff.mp h
    obtain ⟨d, hd⟩ := exists_criterion hc
    refine ⟨.entry [] column d [], List.mem_cons_self, fun literal => ?_⟩
    rw [fill, Condition.filter, hd]
    rfl
  | andLeft left right ih =>
    obtain ⟨_, hl, hr⟩ := bind_ok_iff.mp h
    obtain ⟨other, hr, -⟩ := bind_ok_iff.mp hr
    obtain ⟨d, hm, hd⟩ := ih hl
    refine ⟨.entry [] "$and" (.item [] d [other]) [], List.mem_cons_of_mem _ hm, fun literal => ?_⟩
    rw [fill, Condition.filter, hd, hr]
    rfl
  | andRight left right ih =>
    obtain ⟨other, hl, hr⟩ := bind_ok_iff.mp h
    obtain ⟨_, hr, -⟩ := bind_ok_iff.mp hr
    obtain ⟨d, hm, hd⟩ := ih hr
    refine ⟨.entry [] "$and" (.item [other] d []) [], List.mem_cons_of_mem _ hm, fun literal => ?_⟩
    rw [fill, Condition.filter, hd, hl]
    rfl
  | orLeft left right ih =>
    obtain ⟨_, hl, hr⟩ := bind_ok_iff.mp h
    obtain ⟨other, hr, -⟩ := bind_ok_iff.mp hr
    obtain ⟨d, hm, hd⟩ := ih hl
    refine ⟨.entry [] "$or" (.item [] d [other]) [], List.mem_cons_of_mem _ hm, fun literal => ?_⟩
    rw [fill, Condition.filter, hd, hr]
    rfl
  | orRight left right ih =>
    obtain ⟨other, hl, hr⟩ := bind_ok_iff.mp h
    obtain ⟨_, hr, -⟩ := bind_ok_iff.mp hr
    obtain ⟨d, hm, hd⟩ := ih hr
    refine ⟨.entry [] "$or" (.item [other] d []) [], List.mem_cons_of_mem _ hm, fun literal => ?_⟩
    rw [fill, Condition.filter, hd, hl]
    rfl

theorem OpenCondition.filter_congr (o : OpenCondition) {a b : Literal} (h : a.toValue = b.toValue) :
    (o.fill a).filter = (o.fill b).filter := by
  induction o with
  | comparison column op => rw [fill, fill, Condition.filter, Condition.filter, h]
  | andLeft left right ih => rw [fill, fill, Condition.filter, Condition.filter, ih]
  | andRight left right ih => rw [fill, fill, Condition.filter, Condition.filter, ih]
  | orLeft left right ih => rw [fill, fill, Condition.filter, Condition.filter, ih]
  | orRight left right ih => rw [fill, fill, Condition.filter, Condition.filter, ih]

/-- Among clauses only those with a condition behind it can override a condition. -/
theorem lastClauses_condition (before after : List WrittenClause) (c : Condition) :
    lastClauses (before ++ .condition c :: after) =
      { lastClauses (before ++ after) with
        condition := some ((after.filterMap WrittenClause.condition?).getLast?.getD c) } := by
  simp [lastClauses, WrittenClause.condition?, WrittenClause.order?, WrittenClause.limit?,
    List.getLast?_append, List.getLast?_cons]

namespace OpenSentence

def column : OpenSentence → String
  | select _ _ _ condition _ => condition.column
  | insert _ columns before _ => columns[before.length]?.getD (columnName before.length)
  | assign _ _ column _ _ => column
  | update _ _ condition => condition.column
  | delete _ condition => condition.column

/-- The literal is not overridden by a later value for its column or by a later condition, and when
columns are listed it has one. -/
def Counts : OpenSentence → Prop
  | select _ _ _ _ after => after.filterMap WrittenClause.condition? = []
  | insert _ columns before after =>
    columns = [] ∨ ∃ column ∈ columns[before.length]?,
      column ∉ ((columns.drop (before.length + 1)).zip after).map Prod.fst
  | assign _ _ column after _ => column ∉ after.map Prod.fst
  | update _ _ _ => True
  | delete _ _ => True

end OpenSentence

theorem zip_append_cons {columns : List String} {before : List Literal} {column : String}
    (h : columns[before.length]? = some column) (l : Literal) (after : List Literal) :
    columns.zip (before ++ l :: after) = (columns.take before.length).zip before ++
      (column, l) :: (columns.drop (before.length + 1)).zip after := by
  obtain ⟨hn, rfl⟩ := List.getElem?_eq_some_iff.mp h
  have hs : columns = columns.take before.length ++
      columns[before.length] :: columns.drop (before.length + 1) := by
    rw [← List.drop_eq_getElem_cons hn, List.take_append_drop]
  have hl : (columns.take before.length).length = before.length := by
    rw [List.length_take]
    omega
  conv_lhs => rw [hs, List.zip_append hl, List.zip_cons_cons]

/-- Pairs in which a name is last paired with an open literal make an open document. -/
theorem exists_latest (before after : List (String × Literal)) {column : String}
    (h : column ∉ after.map Prod.fst) :
    ∃ front back, ∀ l : Literal, Entries.latest
        ((before ++ (column, l) :: after).map (Prod.map id Literal.toValue)) =
      front ++ (column, l.toValue) :: back := by
  rw [← map_fst_toValue] at h
  obtain ⟨front, back, hs⟩ :=
    Entries.exists_latest_split (before.map (Prod.map id Literal.toValue)) h
  refine ⟨front, back, fun l => ?_⟩
  rw [List.map_append, List.map_cons]
  exact hs l.toValue

theorem exists_insertedDocument {table : String} {columns : List String}
    {before after : List Literal} (h : (OpenSentence.insert table columns before after).Counts) :
    ∃ d : OpenValue, (OpenSentence.insert table columns before after).column ∈ d.keys ∧
      ∀ l : Literal, insertedDocument columns (before ++ l :: after) = d.fill l.toValue := by
  by_cases hc : columns = []
  · subst hc
    refine ⟨.entry (before.mapIdx fun i value => ("col" ++ toString i, value.toValue))
      (columnName before.length) .here
      (after.mapIdx fun i value => ("col" ++ toString (i + 1 + before.length), value.toValue)),
      List.mem_cons_self, fun l => ?_⟩
    rw [insertedDocument_of_values, List.mapIdx_append, List.mapIdx_cons, Nat.zero_add]
    rfl
  · obtain ⟨column, hm, hl⟩ := h.resolve_left hc
    obtain ⟨front, back, hs⟩ := exists_latest ((columns.take before.length).zip before) _ hl
    refine ⟨.entry front column .here back, ?_, fun l => ?_⟩
    · rw [OpenSentence.column, Option.mem_def.mp hm]
      exact List.mem_cons_self
    · rw [insertedDocument_of_columns hc, zip_append_cons hm, hs]
      rfl

/-- Whatever the open literal is, the command is an open one, filled with the value of the literal
under the column that the literal is written for. -/
structure OpenSentence.Yields (s : OpenSentence) (c : OpenCommand) : Prop where
  column_mem : s.column ∈ c.document.keys
  toCommand_fill : ∀ l : Literal, (s.fill l).statement.toCommand = .ok (c.fill l.toValue)

/-- A command for some literal that counts has an open value in the place of the literal. -/
theorem OpenSentence.exists_yields {s : OpenSentence} (hs : s.Counts) {l : Literal}
    {command : Command} (h : (s.fill l).statement.toCommand = .ok command) :
    ∃ c : OpenCommand, s.Yields c := by
  cases s with
  | select fields table before condition after =>
    -- No condition follows, so the one with the open literal is the last.
    have hlast (literal : Literal) := lastClauses_condition before after (condition.fill literal)
    have hn : after.filterMap WrittenClause.condition? = [] := hs
    simp only [hn, List.getLast?_nil, Option.getD_none] at hlast
    rw [fill, Sentence.statement, hlast, Statement.toCommand] at h
    obtain ⟨filter, hf, -⟩ := bind_ok_iff.mp h
    obtain ⟨d, hm, hd⟩ := condition.exists_filter hf
    refine ⟨.find table d (projection fields) (lastClauses (before ++ after)).order
      ((lastClauses (before ++ after)).limit.map .ofNumber), hm, fun literal => ?_⟩
    rw [fill, Sentence.statement, hlast, Statement.toCommand, filterOf, hd]
    rfl
  | insert table columns before after =>
    obtain ⟨d, hm, hd⟩ := exists_insertedDocument hs
    refine ⟨.insertOne table d, hm, fun literal => ?_⟩
    rw [fill, Sentence.statement, Statement.toCommand, hd]
    rfl
  | assign table before column after condition =>
    obtain ⟨filter, hf, -⟩ := bind_ok_iff.mp h
    obtain ⟨front, back, he⟩ := exists_latest before after hs
    refine ⟨.updateTo table filter (.entry [] "$set" (.entry front column .here back) []), ?_,
      fun literal => ?_⟩
    · simp [OpenSentence.column, OpenCommand.document, OpenValue.keys]
    · rw [fill, Sentence.statement, toCommand_update, hf, he]
      rfl
  | update table assignments condition =>
    obtain ⟨filter, hf, -⟩ := bind_ok_iff.mp h
    obtain ⟨d, hm, hd⟩ := condition.exists_filter hf
    refine ⟨.updateMatching table d (.object [("$set",
      .object (Entries.latest (assignments.map (Prod.map id Literal.toValue))))]), hm,
      fun literal => ?_⟩
    rw [fill, Sentence.statement, toCommand_update, filterOf, hd]
    rfl
  | delete table condition =>
    obtain ⟨filter, hf, -⟩ := bind_ok_iff.mp h
    obtain ⟨d, hm, hd⟩ := condition.exists_filter hf
    refine ⟨.deleteMany table d, hm, fun literal => ?_⟩
    rw [fill, Sentence.statement, Statement.toCommand, filterOf, hd]
    rfl

/-- Literals with one value have one command, whether they count or not. -/
theorem OpenSentence.toCommand_congr (s : OpenSentence) {a b : Literal}
    (h : a.toValue = b.toValue) :
    (s.fill a).statement.toCommand = (s.fill b).statement.toCommand := by
  cases s with
  | select fields table before condition after =>
    simp only [fill, Sentence.statement, lastClauses_condition, Statement.toCommand, filterOf]
    cases (after.filterMap WrittenClause.condition?).getLast? with
    | none => simp only [Option.getD_none, condition.filter_congr h]
    | some c => rfl
  | insert table columns before after =>
    simp only [fill, Sentence.statement, Statement.toCommand, insertedDocument, List.map_append,
      List.map_cons, List.length_append, List.length_cons, h]
  | assign table before column after condition =>
    simp only [fill, Sentence.statement, toCommand_update, List.map_append, List.map_cons,
      Prod.map_apply, id_eq, h]
  | update table assignments condition =>
    simp only [fill, Sentence.statement, Statement.toCommand, filterOf, condition.filter_congr h]
  | delete table condition =>
    simp only [fill, Sentence.statement, Statement.toCommand, filterOf, condition.filter_congr h]

end Grammar

end SqlShell
