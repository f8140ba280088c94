import Mathlib.Data.List.Nodup
import SqlShell.Proofs.JoinedTexts

/-!
# The keys of documents

An UPDATE and an INSERT pair names with literals, and a name may stand in several pairs. Their
documents have every name once: where it is first written, with the value it is last written with.
The columns of a projection are treated alike, and numbered columns never meet.
-/

set_option autoImplicit false

namespace SqlShell

open Grammar Condition

structure Records (pairs : List (String × Literal)) (entries : Entries Value) : Prop where
  names : entries.map Prod.fst = (pairs.map Prod.fst).eraseDups
  distinct : (entries.map Prod.fst).Nodup
  values : ∀ name value, (name, value) ∈ entries ↔
    ∃ before literal after, pairs = before ++ (name, literal) :: after ∧
      name ∉ after.map Prod.fst ∧ value = literal.toValue

theorem map_fst_toValue (pairs : List (String × Literal)) :
    (pairs.map (Prod.map id Literal.toValue)).map Prod.fst = pairs.map Prod.fst := by
  rw [List.map_map]
  rfl

theorem records_latest (pairs : List (String × Literal)) :
    Records pairs (Entries.latest (pairs.map (Prod.map id Literal.toValue))) where
  names := by rw [Entries.keys_latest, map_fst_toValue]
  distinct := Entries.nodup_keys_latest _
  values := by
    intro name value
    rw [Entries.latest_map, List.mem_map]
    constructor
    · rintro ⟨⟨_, literal⟩, hp, he⟩
      cases he
      obtain ⟨before, after, hs, hn⟩ := Entries.mem_latest_iff.mp hp
      exact ⟨before, literal, after, hs, hn, rfl⟩
    · rintro ⟨before, literal, after, hs, hn, rfl⟩
      exact ⟨(name, literal), Entries.mem_latest_iff.mpr ⟨before, after, hs, hn⟩, rfl⟩

/-- Any names and literals can be assigned: as an identifier every name has a token. -/
theorem exists_assignments {pairs : List (String × Literal)} (h : pairs ≠ []) :
    ∃ q, ListForm AssignmentForm q pairs := by
  have hliteral (value : Literal) : ∃ q, LiteralForm q value := by
    cases value with
    | number n => exact ⟨_, .number n⟩
    | string text => exact ⟨_, .string text⟩
    | identifier name => exact ⟨_, .identifier name⟩
  have hpair (pair : String × Literal) : ∃ q, AssignmentForm q pair := by
    obtain ⟨q, hq⟩ := hliteral pair.2
    exact ⟨_, .mk (.identifier pair.1) hq⟩
  induction pairs with
  | nil => exact absurd rfl h
  | cons pair pairs ih =>
    obtain ⟨p, hp⟩ := hpair pair
    by_cases hn : pairs = []
    · subst hn
      exact ⟨p, .one hp⟩
    · obtain ⟨q, hq⟩ := ih hn
      exact ⟨_, .more hp hq⟩

theorem toCommand_update (table : String) (pairs : List (String × Literal))
    (condition : Option Condition) :
    (Statement.update table (Entries.latest pairs) condition).toCommand =
      (filterOf condition).map fun filter => .updateMany table filter (.object [("$set",
        .object (Entries.latest (pairs.map (Prod.map id Literal.toValue))))]) := by
  rw [Statement.toCommand_eq, ← Entries.ofPairs_map_latest]
  rfl

theorem zip_toValue (columns : List String) (values : List Literal) :
    columns.zip (values.map Literal.toValue) =
      (columns.zip values).map (Prod.map id Literal.toValue) := by
  rw [← List.map_id columns, List.zip_map, List.map_id]

theorem insertedDocument_of_columns {columns : List String} (h : columns ≠ [])
    (values : List Literal) :
    insertedDocument columns values =
      .object (Entries.latest ((columns.zip values).map (Prod.map id Literal.toValue))) := by
  have he : columns.isEmpty = false := by simpa using h
  unfold insertedDocument
  simp only [he, Bool.false_eq_true, if_false]
  rw [Entries.ofPairs_eq_latest, zip_toValue]

theorem columnName_inj {i j : Nat} (h : columnName i = columnName j) : i = j := by
  unfold columnName at h
  have hd := congrArg String.toList h
  rw [String.toList_append, String.toList_append] at hd
  have hd := List.append_cancel_left hd
  rw [Nat.toString_eq_ofList_toDigits, Nat.toString_eq_ofList_toDigits, String.toList_ofList,
    String.toList_ofList] at hd
  have hn := congrArg (Nat.ofDigitChars 10 · 0) hd
  simpa [Nat.ofDigitChars_ten_toDigits] using hn

theorem zip_columnNames (values : List Literal) :
    ((List.range values.length).map columnName).zip (values.map Literal.toValue) =
      values.mapIdx fun i value => ("col" ++ toString i, value.toValue) := by
  apply List.ext_getElem
  · simp
  · intro i hi hj
    simp [columnName]

theorem nodup_keys_numbered (values : List Literal) :
    ((values.mapIdx fun i value => ("col" ++ toString i, value.toValue)).map Prod.fst).Nodup := by
  rw [← zip_columnNames, List.map_fst_zip (by simp)]
  exact List.Nodup.map (fun _ _ => columnName_inj) List.nodup_range

theorem insertedDocument_of_values (values : List Literal) :
    insertedDocument [] values =
      .object (values.mapIdx fun i value => ("col" ++ toString i, value.toValue)) := by
  unfold insertedDocument
  simp only [List.isEmpty_nil, if_true]
  rw [Entries.ofPairs_eq_latest, zip_columnNames]
  rw [Entries.latest_of_nodup (nodup_keys_numbered values)]

def Field.column? : Field → Option String
  | wildcard => none
  | named column => some column

theorem projection_of_ne {fields : List Field} (h : fields ≠ [.wildcard]) :
    projection fields = some (.object ((fields.filterMap Field.column?).eraseDups.map fun column =>
      (column, .number ['1']))) := by
  unfold projection
  split
  · exact absurd rfl h
  · rw [← Entries.latest_const, ← Entries.ofPairs_eq_latest, List.map_filterMap]
    refine congrArg (fun columns => some (Value.object (Entries.ofPairs columns)))
      (List.filterMap_congr fun field _ => ?_)
    cases field <;> rfl

/-- An UPDATE sets each assigned name once, where it is first assigned, to what is assigned last. An
INSERT with columns writes its columns in the same way. Without columns each value has an entry
of its own, and a projection has each named column once. -/
theorem documents_record_names_once :
    (∀ pairs : List (String × Literal), pairs ≠ [] →
      (∃ q, ListForm AssignmentForm q pairs) ∧
      ∀ (p q r rest : List Token) (table : String) (condition : Option Condition),
        NameForm p table → ListForm AssignmentForm q pairs → WhereForm r condition →
        (∀ c ∈ condition, c.depth ≤ 128) → NestsWithin 128 0 r →
        rest.headD .eof ∉ (Sentence.update table pairs condition).continuing →
        ∃ s filter entries,
          (Cursor.ofTokens (.keyword .UPDATE :: (p ++ .keyword .SET :: (q ++ r)) ++
            rest)).readStatement.1 = .ok s ∧
          s.toCommand = .ok (.updateMany table filter (.object [("$set", .object entries)])) ∧
          Records pairs entries) ∧
    (∀ (table : String) (columns : List String) (values : List Literal), columns ≠ [] →
      ∃ entries, (Statement.insert table columns values).toCommand =
          .ok (.insertOne table (.object entries)) ∧ Records (columns.zip values) entries) ∧
    (∀ (table : String) (values : List Literal),
      ∃ entries : Entries Value, (Statement.insert table [] values).toCommand =
          .ok (.insertOne table (.object entries)) ∧
        entries = values.mapIdx (fun i value => ("col" ++ toString i, value.toValue)) ∧
        (entries.map Prod.fst).Nodup) ∧
    ∀ (table : String) (fields : List Field) (clauses : Clauses), fields ≠ [.wildcard] →
      (Statement.select table fields clauses).toCommand =
        (filterOf clauses.condition).map fun filter => .find table filter
          (some (.object ((fields.filterMap Field.column?).eraseDups.map fun column =>
            (column, .number ['1'])))) clauses.order (clauses.limit.map .ofNumber) := by
  refine ⟨fun pairs hp => ⟨exists_assignments hp, ?_⟩, ?_, ?_, ?_⟩
  · intro p q r rest table condition ht ha hw hd hn hc
    obtain ⟨filter, hf⟩ := filterOf_ok_of_form hw
    have hs := SentenceForm.update ht ha hw
    have hnests := nests_some.mp ((Reader.nests_update ht ha r).mpr (nests_some.mpr hn))
    refine ⟨(Sentence.update table pairs condition).statement, filter, _, ?_, ?_,
      records_latest pairs⟩
    · refine Cursor.readStatement_fst_eq_ok.mpr ⟨_, rest, _, rfl, hs, rfl, ?_, hnests, hc⟩
      simpa [Sentence.conditions] using hd
    · rw [Sentence.statement, toCommand_update, hf]
      rfl
  · intro table columns values hc
    refine ⟨_, ?_, records_latest (columns.zip values)⟩
    rw [Statement.toCommand, insertedDocument_of_columns hc]
    rfl
  · intro table values
    refine ⟨_, ?_, rfl, nodup_keys_numbered values⟩
    rw [Statement.toCommand, insertedDocument_of_values]
    rfl
  · intro table fields clauses hw
    rw [Statement.toCommand_eq, ← projection_of_ne hw]
    rfl

/-- Names that are written twice: assigned, also with a keyword as a name, inserted with a column to
spare, and selected beside a wildcard. -/
theorem repeated_names_recorded_once :
    (∃ s filter entries,
      (Cursor.ofTokens [.keyword .UPDATE, .identifier "t", .keyword .SET,
        .identifier "a", .operator .equal, .string "1", .comma,
        .keyword .SET, .operator .equal, .identifier "c", .comma,
        .identifier "a", .operator .equal, .string "x", .semicolon]).readStatement.1 = .ok s ∧
      s.toCommand = .ok (.updateMany "t" filter (.object [("$set", .object entries)])) ∧
      Records [("a", .string "1"), ("set", .identifier "c"), ("a", .string "x")] entries) ∧
    (∃ entries, (Statement.insert "t" ["a", "b", "a", "d"]
        [.string "x", .string "7", .identifier "y"]).toCommand =
          .ok (.insertOne "t" (.object entries)) ∧
      Records [("a", .string "x"), ("b", .string "7"), ("a", .identifier "y")] entries) ∧
    (Statement.select "t" [.named "b", .wildcard, .named "a", .named "b"]
        ⟨none, none, none⟩).toCommand =
      (filterOf none).map fun filter => .find "t" filter
        (some (.object [("b", .number ['1']), ("a", .number ['1'])])) none none := by
  have hset : ListForm AssignmentForm _ _ :=
    .more (.mk (.identifier "a") (.string "1"))
      (.more (.mk (.keyword .SET (by decide)) (.identifier "c"))
        (.one (.mk (.identifier "a") (.string "x"))))
  refine ⟨?_, ?_, ?_⟩
  · exact (documents_record_names_once.1 _ (by simp)).2 [.identifier "t"] _ [] [.semicolon] "t" none
      (.identifier "t") hset .omitted (by simp) trivial (by decide)
  · exact documents_record_names_once.2.1 "t" ["a", "b", "a", "d"]
      [.string "x", .string "7", .identifier "y"] (by simp)
  · exact documents_record_names_once.2.2.2 "t" [.named "b", .wildcard, .named "a", .named "b"]
      ⟨none, none, none⟩ (by simp)

end SqlShell
