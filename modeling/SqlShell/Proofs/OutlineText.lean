import SqlShell.Outline
import SqlShell.Proofs.Lexemes

/-!
# The text of an outline

An outline inside others stands at a depth, by which all its lines but the first are indented. So
its text can be put together from the texts of its parts, each on a line of its own and one step
deeper. Where the texts of the parts can be told from the commas behind them, so can the text of the
whole.
-/

set_option autoImplicit false

namespace SqlShell.Outline

def newLine (depth : ℕ) : List Char := '\n' :: List.replicate (4 * depth) ' '

def following (depth : ℕ) (closing : List Char) : List (List Char) → List Char
  | [] => newLine depth ++ closing
  | part :: parts => newLine (depth + 1) ++ (part ++ ',' :: following depth closing parts)

def enclosed (depth : ℕ) (opening closing : List Char) : List (List Char) → List Char
  | [] => opening ++ closing
  | part :: parts => opening ++ following depth closing (part :: parts)

def keyed (key text : List Char) : List Char := key ++ ": ".toList ++ text

def recordText (depth : ℕ) (name : String) (fields : List (String × List Char)) : List Char :=
  enclosed depth (name.toList ++ " \x7b".toList) ['}']
    (fields.map fun field => keyed field.1.toList field.2)

def wrapText (depth : ℕ) (name : String) (text : List Char) : List Char :=
  enclosed depth (name.toList ++ ['(']) [')'] [text]

def textAt (depth : ℕ) (o : Outline) : List Char :=
  (newLine depth).intercalate (o.lines.map String.toList)

theorem newLine_succ (depth : ℕ) : newLine (depth + 1) = newLine depth ++ "    ".toList := by
  have hs : "    ".toList = List.replicate 4 ' ' := by decide
  rw [newLine, newLine, hs, Nat.mul_succ, List.replicate_add, List.cons_append]

theorem toList_text (o : Outline) : o.text.toList = o.textAt 0 := by
  rw [text, String.toList_intercalate]
  rfl

theorem textAt_leaf (depth : ℕ) (text : String) : (leaf text).textAt depth = text.toList := by
  simp [textAt, lines]

theorem labelled_lines (depth : ℕ) (label : String) (lines : List String) :
    (labelled label lines).flatMap (fun line => newLine depth ++ line.toList) =
      newLine depth ++
        (label.toList ++ (newLine depth).intercalate (lines.map String.toList) ++ [',']) := by
  cases lines with
  | nil => simp [labelled]
  | cons first lines =>
    rcases List.eq_nil_or_concat' lines with rfl | ⟨front, last, rfl⟩
    · simp [labelled]
    · have hl : labelled label (first :: (front ++ [last])) =
          (label ++ first) :: (front ++ [last ++ ","]) := by
        cases front with
        | nil => rfl
        | cons next front =>
          simp [labelled, List.getLast?_cons, List.dropLast_cons_of_ne_nil]
      simp [hl, Scan.intercalate_cons, List.flatMap_map]

theorem indent_lines (depth : ℕ) (lines : List String) :
    (indent lines).flatMap (fun line => newLine depth ++ line.toList) =
      lines.flatMap fun line => newLine (depth + 1) ++ line.toList := by
  simp [indent, List.flatMap_map, newLine_succ]

theorem partLines_following (depth : ℕ) (closing : String) (parts : List (String × Outline)) :
    (partLines parts ++ [closing]).flatMap (fun line => newLine depth ++ line.toList) =
      following depth closing.toList
        (parts.map fun part => part.1.toList ++ part.2.textAt (depth + 1)) := by
  induction parts with
  | nil => simp [partLines, following]
  | cons entry parts ih =>
    obtain ⟨label, part⟩ := entry
    rw [partLines, List.append_assoc, List.flatMap_append, ih, indent_lines, labelled_lines,
      List.map_cons, following]
    simp [textAt]

theorem textAt_block (depth : ℕ) (opening closing : String) (parts : List (String × Outline)) :
    (block opening closing parts).textAt depth =
      enclosed depth opening.toList closing.toList
        (parts.map fun part => part.1.toList ++ part.2.textAt (depth + 1)) := by
  cases parts with
  | nil => simp [textAt, lines, enclosed]
  | cons entry parts =>
    have hf := partLines_following depth closing (entry :: parts)
    rw [List.map_cons] at hf ⊢
    rw [enclosed, ← hf, textAt, lines, List.map_cons, Scan.intercalate_cons, List.flatMap_map]
    simp

theorem textAt_record (depth : ℕ) (name : String) (parts : List (String × Outline)) :
    (record name parts).textAt depth =
      recordText depth name (parts.map fun part => (part.1, part.2.textAt (depth + 1))) := by
  rw [record, textAt_block, recordText]
  simp [keyed, Function.comp_def]

theorem textAt_wrap (depth : ℕ) (name : String) (part : Outline) :
    (wrap name part).textAt depth = wrapText depth name (part.textAt (depth + 1)) := by
  rw [wrap, textAt_block, wrapText]
  simp

theorem textAt_list (depth : ℕ) (parts : List Outline) :
    (list parts).textAt depth =
      enclosed depth ['['] [']'] (parts.map fun part => part.textAt (depth + 1)) := by
  rw [list, textAt_block]
  simp [Function.comp_def]

theorem textAt_table (depth : ℕ) (parts : List (String × Outline)) :
    (table parts).textAt depth =
      enclosed depth ['{'] ['}']
        (parts.map fun part => keyed part.1.toList (part.2.textAt (depth + 1))) := by
  rw [table, textAt_block]
  simp [keyed, Function.comp_def]

/-- With a comma and anything else behind them, the texts are equal only if they are of the same and
end at the same place. -/
def TellApart {α : Type} (a b : α) (text other : List Char) : Prop :=
  ∀ ⦃rest after : List Char⦄, text ++ ',' :: rest = other ++ ',' :: after → a = b ∧ rest = after

theorem TellApart.refl {α : Type} (a : α) (text : List Char) : TellApart a a text text := by
  intro rest after h
  exact ⟨rfl, (List.cons.inj (List.append_cancel_left h)).2⟩

theorem TellApart.map {α β : Type} {a b : α} {text other : List Char}
    (h : TellApart a b text other) (f : α → β) : TellApart (f a) (f b) text other := by
  intro rest after he
  obtain ⟨rfl, hr⟩ := h he
  exact ⟨rfl, hr⟩

def Legible {α : Type} (Form : α → List Char → Prop) : Prop :=
  ∀ ⦃a b : α⦄ ⦃text other : List Char⦄, Form a text → Form b other → TellApart a b text other

section Parts

variable {α : Type} {a b : α} {text other closing rest after : List Char} {depth : ℕ}
  {parts others : List (List Char)}

theorem following_inj (label : List Char) (hab : TellApart a b text other)
    (h : following depth closing ((label ++ text) :: parts) ++ rest =
      following depth closing ((label ++ other) :: others) ++ after) :
    a = b ∧ following depth closing parts ++ rest = following depth closing others ++ after := by
  simp only [following, List.append_assoc, List.cons_append] at h
  exact hab (List.append_cancel_left (List.append_cancel_left h))

theorem following_nil_inj
    (h : following depth closing [] ++ rest = following depth closing [] ++ after) :
    rest = after := List.append_cancel_left h

theorem following_cons_ne_nil {c : Char} (hc : c ≠ ' ') (part : List Char) :
    following depth [c] (part :: parts) ++ rest ≠ following depth [c] [] ++ after := by
  intro h
  simp only [following, newLine_succ, List.append_assoc] at h
  have hh := List.append_cancel_left h
  exact hc (List.cons.inj hh).1.symm

theorem enclosed_inj {opening part other : List Char}
    (h : enclosed depth opening closing (part :: parts) ++ rest =
      enclosed depth opening closing (other :: others) ++ after) :
    following depth closing (part :: parts) ++ rest =
      following depth closing (other :: others) ++ after := by
  rw [enclosed, enclosed, List.append_assoc, List.append_assoc] at h
  exact List.append_cancel_left h

theorem tellApart_wrap (name : String) (hab : TellApart a b text other) :
    TellApart a b (wrapText depth name text) (wrapText depth name other) := by
  intro rest after h
  obtain ⟨he, hr⟩ := following_inj [] hab (enclosed_inj h)
  exact ⟨he, (List.cons.inj (following_nil_inj hr)).2⟩

def fieldsText (depth : ℕ) (fields : List (String × List Char)) : List Char :=
  following depth ['}'] (fields.map fun field => keyed field.1.toList field.2)

theorem record_inj {name : String} {field other : String × List Char}
    {fields others : List (String × List Char)}
    (h : recordText depth name (field :: fields) ++ rest =
      recordText depth name (other :: others) ++ after) :
    fieldsText depth (field :: fields) ++ rest = fieldsText depth (other :: others) ++ after :=
  enclosed_inj h

theorem field_inj {label : String} {fields others : List (String × List Char)}
    (hab : TellApart a b text other)
    (h : fieldsText depth ((label, text) :: fields) ++ rest =
      fieldsText depth ((label, other) :: others) ++ after) :
    a = b ∧ fieldsText depth fields ++ rest = fieldsText depth others ++ after :=
  following_inj _ hab h

theorem fields_nil_inj
    (h : fieldsText depth [] ++ ',' :: rest = fieldsText depth [] ++ ',' :: after) :
    rest = after := (List.cons.inj (following_nil_inj h)).2

theorem following_items_inj {Form : α → List Char → Prop} (hf : Legible Form) {c : Char}
    (hc : c ≠ ' ') {items items' : List α} (ha : List.Forall₂ Form items parts)
    (hb : List.Forall₂ Form items' others)
    (h : following depth [c] parts ++ rest = following depth [c] others ++ after) :
    items = items' ∧ rest = after := by
  induction ha generalizing items' others with
  | nil =>
    cases hb with
    | nil => exact ⟨rfl, following_nil_inj h⟩
    | cons _ _ => exact absurd h.symm (following_cons_ne_nil hc _)
  | cons hitem _ ih =>
    cases hb with
    | nil => exact absurd h (following_cons_ne_nil hc _)
    | cons hitem' hrest =>
      obtain ⟨rfl, hr⟩ := following_inj [] (hf hitem hitem') h
      obtain ⟨rfl, ha⟩ := ih hrest hr
      exact ⟨rfl, ha⟩

theorem enclosed_items_inj {Form : α → List Char → Prop} (hf : Legible Form) {opening : List Char}
    {c : Char} (hc : c ≠ ' ') (hn : c ≠ '\n') {items items' : List α}
    (ha : List.Forall₂ Form items parts) (hb : List.Forall₂ Form items' others)
    (h : enclosed depth opening [c] parts ++ rest = enclosed depth opening [c] others ++ after) :
    items = items' ∧ rest = after := by
  cases ha with
  | nil =>
    cases hb with
    | nil => exact ⟨rfl, List.append_cancel_left h⟩
    | cons _ _ => simp [enclosed, following, newLine, hn] at h
  | cons hitem hrest =>
    cases hb with
    | nil => simp [enclosed, following, newLine, hn.symm] at h
    | cons hitem' hrest' =>
      exact following_items_inj hf hc (.cons hitem hrest) (.cons hitem' hrest') (enclosed_inj h)

end Parts

end SqlShell.Outline
