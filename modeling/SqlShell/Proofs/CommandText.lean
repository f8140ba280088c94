import SqlShell.Proofs.DocumentText
import SqlShell.Proofs.Rendering

/-!
# Command text is uniquely readable

The name of a collection has points but no parentheses, and the name of a method has neither: the
first parenthesis ends them both and the last point before it divides them. The rest is documents
between marks that no document starts with.
-/

set_option autoImplicit false

namespace SqlShell

open Scan

theorem append_cons_inj_first {c : Char} {p q r s : List Char} (hp : c ∉ p) (hq : c ∉ q)
    (h : p ++ c :: r = q ++ c :: s) : p = q ∧ r = s := by
  have hne {l : List Char} (hl : c ∉ l) : ∀ d ∈ l, (d != c) = true := by
    intro d hd
    rw [bne_iff_ne]
    rintro rfl
    exact hl hd
  have hs (l : List Char) : ∀ d ∈ (c :: l).head?, (d != c) = false := by simp
  have he : p = q := by
    rw [← takeWhile_append_stop (hne hp) (hs r), h, takeWhile_append_stop (hne hq) (hs s)]
  subst he
  exact ⟨rfl, (List.cons.inj (List.append_cancel_left h)).2⟩

theorem append_cons_inj_last {c : Char} {p q r s : List Char} (hr : c ∉ r) (hs : c ∉ s)
    (h : p ++ c :: r = q ++ c :: s) : p = q ∧ r = s := by
  have hrev := congrArg List.reverse h
  simp only [List.reverse_append, List.reverse_cons, List.append_assoc, List.cons_append,
    List.nil_append] at hrev
  obtain ⟨hrs, hpq⟩ := append_cons_inj_first (by simpa using hr) (by simpa using hs) hrev
  exact ⟨List.reverse_inj.mp hpq, List.reverse_inj.mp hrs⟩

/-- A part that may be left out can be cut off if it is told apart from what follows it. -/
theorem optional_inj {α : Type} {part : α → List Char} {x y : Option α} {rest after : List Char}
    (hp : ∀ a ∈ x, ∀ b ∈ y, part a ++ rest = part b ++ after → a = b ∧ rest = after)
    (hx : ∀ a ∈ x, part a ++ rest ≠ after) (hy : ∀ b ∈ y, part b ++ after ≠ rest)
    (h : (x.map part).getD [] ++ rest = (y.map part).getD [] ++ after) : x = y ∧ rest = after := by
  cases x with
  | none =>
    cases y with
    | none => exact ⟨rfl, h⟩
    | some b => exact absurd h.symm (hy b rfl)
  | some a =>
    cases y with
    | none => exact absurd h (hx a rfl)
    | some b =>
      obtain ⟨rfl, hr⟩ := hp a rfl b rfl h
      exact ⟨rfl, hr⟩

inductive Method where
  | find | insertOne | updateMany | deleteMany

def Method.name : Method → List Char
  | find => "find".toList
  | insertOne => "insertOne".toList
  | updateMany => "updateMany".toList
  | deleteMany => "deleteMany".toList

theorem Method.name_inj {m n : Method} (h : m.name = n.name) : m = n := by
  cases m <;> cases n <;> first | rfl | exact absurd h (by decide)

/-- No parenthesis and no point is part of the name. -/
theorem Method.notMem_name (m : Method) : '(' ∉ m.name ∧ '.' ∉ m.name := by
  cases m <;> decide

namespace Command

def collection : Command → String
  | find collection _ _ _ _ => collection
  | insertOne collection _ => collection
  | updateMany collection _ _ => collection
  | deleteMany collection _ => collection

def method : Command → Method
  | find _ _ _ _ _ => .find
  | insertOne _ _ => .insertOne
  | updateMany _ _ _ => .updateMany
  | deleteMany _ _ => .deleteMany

def projectionText (projection : Value) : List Char := ", ".toList ++ projection.write

def arguments : Command → List Char
  | find _ filter projection sort limit =>
    filter.write ++ ((projection.map projectionText).getD [] ++ ')' ::
      ((sort.map sortText).getD [] ++ ((limit.map limitText).getD [] ++ [';'])))
  | insertOne _ document => document.write ++ ");".toList
  | updateMany _ filter update => filter.write ++ (", ".toList ++ (update.write ++ ");".toList))
  | deleteMany _ filter => filter.write ++ ");".toList

theorem write_eq (c : Command) :
    c.write =
      "db.".toList ++ (c.collection.toList ++ '.' :: c.method.name ++ '(' :: c.arguments) := by
  have hf : ".find(".toList = '.' :: ("find".toList ++ ['(']) := by decide
  have hi : ".insertOne(".toList = '.' :: ("insertOne".toList ++ ['(']) := by decide
  have hu : ".updateMany(".toList = '.' :: ("updateMany".toList ++ ['(']) := by decide
  have hd : ".deleteMany(".toList = '.' :: ("deleteMany".toList ++ ['(']) := by decide
  unfold write collection method arguments projectionText Method.name
  cases c with
  | find => simp only [hf, List.append_assoc, List.cons_append, List.nil_append]
  | insertOne => simp only [hi, List.append_assoc, List.cons_append, List.nil_append]
  | updateMany => simp only [hu, List.append_assoc, List.cons_append, List.nil_append]
  | deleteMany => simp only [hd, List.append_assoc, List.cons_append, List.nil_append]

def Plain : Command → Prop
  | find collection filter projection _ limit =>
    '(' ∉ collection.toList ∧ filter.Plain ∧ (∀ p ∈ projection, p.Plain) ∧ ∀ n ∈ limit, n.Plain
  | insertOne collection document => '(' ∉ collection.toList ∧ document.Plain
  | updateMany collection filter update =>
    '(' ∉ collection.toList ∧ filter.Plain ∧ update.Plain
  | deleteMany collection filter => '(' ∉ collection.toList ∧ filter.Plain

theorem delimited_cons {c : Char} (hc : isNumberPart c = false) (rest : List Char) :
    Delimited (c :: rest) := by
  rintro d ⟨⟩
  exact hc

theorem projectionText_inj {v w : Value} (hv : v.Plain) (hw : w.Plain) {rest after : List Char}
    (h : projectionText v ++ ')' :: rest = projectionText w ++ ')' :: after) :
    v = w ∧ ')' :: rest = ')' :: after := by
  unfold projectionText at h
  simp only [List.append_assoc] at h
  exact Value.write_inj hv hw (delimited_cons rfl rest) (delimited_cons rfl after)
    (List.append_cancel_left h)

theorem sortText_inj {order other : Order} {rest after : List Char}
    (h : sortText order ++ rest = sortText other ++ after) : order = other ∧ rest = after := by
  obtain ⟨column, direction⟩ := order
  obtain ⟨column', direction'⟩ := other
  unfold sortText at h
  simp only [List.append_assoc] at h
  obtain ⟨hc, hd⟩ := quote_inj (List.append_cancel_left h)
  obtain rfl := String.toList_inj.mp hc
  have ht := List.append_cancel_left hd
  cases direction <;> cases direction' <;> cases ht <;> exact ⟨rfl, rfl⟩

theorem limitText_inj {v w : Value} (hv : v.Plain) (hw : w.Plain) {rest after : List Char}
    (h : limitText v ++ rest = limitText w ++ after) : v = w ∧ rest = after := by
  unfold limitText at h
  simp only [List.append_assoc] at h
  obtain ⟨rfl, ht⟩ := Value.write_inj hv hw (delimited_cons rfl rest) (delimited_cons rfl after)
    (List.append_cancel_left h)
  exact ⟨rfl, (List.cons.inj ht).2⟩

theorem projectionText_ne (v : Value) (rest after : List Char) :
    projectionText v ++ rest ≠ ')' :: after := by
  rintro ⟨⟩

theorem sortText_ne (order : Order) (limit : Option Value) (rest : List Char) :
    sortText order ++ rest ≠ (limit.map limitText).getD [] ++ [';'] := by
  intro h
  cases limit <;> cases h

theorem limitText_ne (v : Value) (rest : List Char) : limitText v ++ rest ≠ [';'] := by
  rintro ⟨⟩

theorem find_arguments_inj {collection collection' : String} {filter filter' : Value}
    {projection projection' : Option Value} {sort sort' : Option Order}
    {limit limit' : Option Value}
    (h : (find collection filter projection sort limit).Plain)
    (h' : (find collection' filter' projection' sort' limit').Plain)
    (he : (find collection filter projection sort limit).arguments =
      (find collection' filter' projection' sort' limit').arguments) :
    filter = filter' ∧ projection = projection' ∧ sort = sort' ∧ limit = limit' := by
  obtain ⟨_, hf, hp, hl⟩ := h
  obtain ⟨_, hf', hp', hl'⟩ := h'
  have hd (x : Option Value) (rest : List Char) :
      Delimited ((x.map projectionText).getD [] ++ ')' :: rest) := by
    cases x <;> exact delimited_cons rfl _
  obtain ⟨rfl, ht⟩ := Value.write_inj hf hf' (hd _ _) (hd _ _) he
  obtain ⟨rfl, hs⟩ := optional_inj (fun p hm q hn => projectionText_inj (hp p hm) (hp' q hn))
    (fun p _ => projectionText_ne p _ _) (fun p _ => projectionText_ne p _ _) ht
  obtain ⟨rfl, hn⟩ := optional_inj (fun _ _ _ _ => sortText_inj)
    (fun order _ => sortText_ne order _ _) (fun order _ => sortText_ne order _ _)
    (List.cons.inj hs).2
  obtain ⟨rfl, _⟩ := optional_inj (fun v hm w hw => limitText_inj (hl v hm) (hl' w hw))
    (fun v _ => limitText_ne v _) (fun v _ => limitText_ne v _) hn
  exact ⟨rfl, rfl, rfl, rfl⟩

theorem Plain.paren_notMem {c : Command} (h : c.Plain) :
    '(' ∉ c.collection.toList ++ '.' :: c.method.name := by
  have hc : '(' ∉ c.collection.toList := by cases c <;> exact h.1
  simp [hc, c.method.notMem_name.1]

theorem eq_of_write_eq {c d : Command} (hc : c.Plain) (hd : d.Plain) (h : c.write = d.write) :
    c = d := by
  rw [write_eq, write_eq] at h
  obtain ⟨hn, ha⟩ :=
    append_cons_inj_first hc.paren_notMem hd.paren_notMem (List.append_cancel_left h)
  obtain ⟨hl, hm⟩ := append_cons_inj_last c.method.notMem_name.2 d.method.notMem_name.2 hn
  have hl := String.toList_inj.mp hl
  have hm := Method.name_inj hm
  have hclose : Delimited ");".toList := delimited_cons rfl _
  have hcomma (rest : List Char) : Delimited (", ".toList ++ rest) := delimited_cons rfl _
  cases c <;> cases d <;> cases hm <;> cases hl
  case find =>
    obtain ⟨rfl, rfl, rfl, rfl⟩ := find_arguments_inj hc hd ha
    rfl
  case insertOne =>
    obtain ⟨rfl, _⟩ := Value.write_inj hc.2 hd.2 hclose hclose ha
    rfl
  case updateMany =>
    obtain ⟨rfl, ht⟩ := Value.write_inj hc.2.1 hd.2.1 (hcomma _) (hcomma _) ha
    obtain ⟨rfl, _⟩ :=
      Value.write_inj hc.2.2 hd.2.2 hclose hclose (List.append_cancel_left ht)
    rfl
  case deleteMany =>
    obtain ⟨rfl, _⟩ := Value.write_inj hc.2 hd.2 hclose hclose ha
    rfl

end Command

theorem paren_notMem_of_isPlainName {name : String} (h : IsPlainName name) : '(' ∉ name.toList := by
  obtain ⟨c, rest, hn, _, _, hc⟩ := h
  have hp : isNameChar '(' = false := by decide
  rw [hn]
  intro hm
  rw [hc _ hm] at hp
  cases hp

theorem Operator.criterion_plain {op : Operator} {value criterion : Value} (hv : value.Plain)
    (h : op.criterion value = .ok criterion) : criterion.Plain := by
  cases op <;> cases h
  case equal => exact hv
  all_goals exact ⟨hv, trivial⟩

theorem Condition.filter_plain {c : Condition} {value : Value} (h : c.filter = .ok value) :
    value.Plain := by
  induction c generalizing value with
  | comparison column op literal =>
    obtain ⟨criterion, hc, hv⟩ := bind_ok_iff.mp h
    cases hv
    exact ⟨Operator.criterion_plain (Value.plain_toValue literal) hc, trivial⟩
  | and left right ihl ihr =>
    obtain ⟨l, hl, h⟩ := bind_ok_iff.mp h
    obtain ⟨r, hr, hv⟩ := bind_ok_iff.mp h
    cases hv
    exact ⟨⟨ihl hl, ihr hr, trivial⟩, trivial⟩
  | or left right ihl ihr =>
    obtain ⟨l, hl, h⟩ := bind_ok_iff.mp h
    obtain ⟨r, hr, hv⟩ := bind_ok_iff.mp h
    cases hv
    exact ⟨⟨ihl hl, ihr hr, trivial⟩, trivial⟩

theorem filterOf_plain {condition : Option Condition} {value : Value}
    (h : filterOf condition = .ok value) : value.Plain := by
  cases condition with
  | none =>
    cases h
    trivial
  | some c => exact Condition.filter_plain h

theorem plain_ofPairs {pairs : List (String × Value)} (h : ∀ pair ∈ pairs, pair.2.Plain) :
    (Value.object (Entries.ofPairs pairs)).Plain := by
  refine Value.plainEntries_iff.mpr fun pair hp => ?_
  rw [Entries.ofPairs_eq_latest] at hp
  exact h pair (Entries.mem_of_mem_latest hp)

theorem projection_plain (fields : List Field) : ∀ p ∈ projection fields, p.Plain := by
  intro p hp
  unfold projection at hp
  split at hp
  · cases hp
  · cases hp
    refine plain_ofPairs fun pair hm => ?_
    obtain ⟨field, _, hf⟩ := List.mem_filterMap.mp hm
    cases field with
    | wildcard => cases hf
    | named column =>
      cases hf
      exact ⟨by simp, List.forall_mem_singleton.mpr rfl⟩

theorem insertedDocument_plain (columns : List String) (values : List Literal) :
    (insertedDocument columns values).Plain := by
  refine plain_ofPairs fun pair hp => ?_
  obtain ⟨_, hv⟩ := List.of_mem_zip hp
  obtain ⟨value, _, he⟩ := List.mem_map.mp hv
  rw [← he]
  exact Value.plain_toValue value

theorem Statement.command_plain {s : Statement} (hs : s.Over plainVocabulary) {filter : Value}
    (hf : filter.Plain) : (s.command filter).Plain := by
  cases s with
  | select table fields clauses =>
    refine ⟨paren_notMem_of_isPlainName hs.1.1, hf, projection_plain fields, ?_⟩
    intro value hv
    obtain ⟨count, _, rfl⟩ := Option.map_eq_some_iff.mp hv
    exact Value.plain_ofNumber count
  | insert table columns values =>
    exact ⟨paren_notMem_of_isPlainName hs.1.1, insertedDocument_plain columns values⟩
  | update table assignments condition =>
    refine ⟨paren_notMem_of_isPlainName hs.1.1, hf, plain_ofPairs ?_, trivial⟩
    intro pair hp
    obtain ⟨⟨column, value⟩, _, rfl⟩ := List.mem_map.mp hp
    exact Value.plain_toValue value
  | delete table condition => exact ⟨paren_notMem_of_isPlainName hs.1.1, hf⟩

namespace Statement

/-- The statements are of one kind and ask for the same of the same table: by equal filters, the
same columns, sort, limit and written values. -/
def Alike : Statement → Statement → Prop
  | select table fields clauses, select table' fields' clauses' =>
    table = table' ∧ filterOf clauses.condition = filterOf clauses'.condition ∧
      projection fields = projection fields' ∧ clauses.order = clauses'.order ∧
      clauses.limit.map Value.ofNumber = clauses'.limit.map Value.ofNumber
  | insert table columns values, insert table' columns' values' =>
    table = table' ∧ insertedDocument columns values = insertedDocument columns' values'
  | update table assignments condition, update table' assignments' condition' =>
    table = table' ∧ filterOf condition = filterOf condition' ∧
      Entries.ofPairs (assignments.map fun (column, value) => (column, value.toValue)) =
        Entries.ofPairs (assignments'.map fun (column, value) => (column, value.toValue))
  | delete table condition, delete table' condition' =>
    table = table' ∧ filterOf condition = filterOf condition'
  | _, _ => False

theorem command_eq_iff_alike {s t : Statement} {f g : Value} (hf : filterOf s.condition? = .ok f)
    (hg : filterOf t.condition? = .ok g) : s.command f = t.command g ↔ s.Alike t := by
  have hfilter : filterOf s.condition? = filterOf t.condition? ↔ f = g := by
    rw [hf, hg, Except.ok.injEq]
  cases s with
  | select table fields clauses =>
    cases t with
    | select table' fields' clauses' =>
      simp only [condition?] at hfilter
      rw [command, command, Command.find.injEq, Alike, hfilter]
    | _ => exact iff_of_false (fun h => by cases h) id
  | insert table columns values =>
    cases t with
    | insert table' columns' values' => rw [command, command, Command.insertOne.injEq, Alike]
    | _ => exact iff_of_false (fun h => by cases h) id
  | update table assignments condition =>
    cases t with
    | update table' assignments' condition' =>
      simp only [condition?] at hfilter
      rw [command, command, Command.updateMany.injEq, Alike, hfilter]
      simp
    | _ => exact iff_of_false (fun h => by cases h) id
  | delete table condition =>
    cases t with
    | delete table' condition' =>
      simp only [condition?] at hfilter
      rw [command, command, Command.deleteMany.injEq, Alike, hfilter]
    | _ => exact iff_of_false (fun h => by cases h) id

/-- The command's text tells all that it says of a statement: two statements of texts have the same
command text exactly when they are alike. -/
theorem text_toCommand_eq_iff_alike {x y : String} {s t : Statement} (hs : ofText x = .ok s)
    (ht : ofText y = .ok t) :
    s.toCommand.map Command.text = t.toCommand.map Command.text ↔ s.Alike t := by
  have hp {x : String} {s : Statement} (h : ofText x = .ok s) : s.Over plainVocabulary :=
    (wellFormed_of_ofText h).parts.mono vocabulary_within
  obtain ⟨f, hf⟩ := filterOf_ok (hp hs).condition?
  obtain ⟨g, hg⟩ := filterOf_ok (hp ht).condition?
  have hc : s.toCommand = .ok (s.command f) := by rw [toCommand_eq, hf, Except.map]
  have hd : t.toCommand = .ok (t.command g) := by rw [toCommand_eq, hg, Except.map]
  rw [← command_eq_iff_alike hf hg, hc, hd]
  constructor
  · intro h
    have hw : (s.command f).write = (t.command g).write := String.ofList_inj.mp (Except.ok.inj h)
    exact Command.eq_of_write_eq (command_plain (hp hs) (filterOf_plain hf))
      (command_plain (hp ht) (filterOf_plain hg)) hw
  · intro h
    rw [h]

/-- Different statements can be alike: a column is asked for once, and the two spellings of the
operator and of the word are one. -/
theorem alike_of_spellings :
    ∃ s t, ofText "SELECT a, a FROM t WHERE a <> b" = .ok s ∧
      ofText "select a from t where a != 'b'" = .ok t ∧ s ≠ t ∧ s.Alike t := by
  have hs : ofText "SELECT a, a FROM t WHERE a <> b" =
      .ok (.select "t" [.named "a", .named "a"]
        ⟨some (.comparison "a" .lessGreater (.identifier "b")), none, none⟩) := by decide +kernel
  have ht : ofText "select a from t where a != 'b'" =
      .ok (.select "t" [.named "a"]
        ⟨some (.comparison "a" .notEqual (.string "b")), none, none⟩) := by decide +kernel
  exact ⟨_, _, hs, ht, by decide, (text_toCommand_eq_iff_alike hs ht).mp (by decide +kernel)⟩

end Statement

end SqlShell
