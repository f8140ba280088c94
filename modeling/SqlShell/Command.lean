import SqlShell.Document.Writer
import SqlShell.Filter
import SqlShell.Statement.Basic

/-!
# Commands

The command of the document shell for a statement, and its text.
-/

set_option autoImplicit false

namespace SqlShell

inductive Command where
  | find (collection : String) (filter : Value) (projection : Option Value) (sort : Option Order)
      (limit : Option Value)
  | insertOne (collection : String) (document : Value)
  | updateMany (collection : String) (filter update : Value)
  | deleteMany (collection : String) (filter : Value)
  deriving Repr

def projection (fields : List Field) : Option Value :=
  match fields with
  | [.wildcard] => none
  | fields =>
    let columns := fields.filterMap fun field =>
      match field with
      | .named column => some (column, Value.number ['1'])
      | .wildcard => none
    some (.object (Entries.ofPairs columns))

def columnName (index : Nat) : String := "col" ++ toString index

/-- The inserted document. Without columns the values are numbered; columns and values without a
partner are dropped. -/
def insertedDocument (columns : List String) (values : List Literal) : Value :=
  let names :=
    if columns.isEmpty then (List.range values.length).map columnName else columns
  .object (Entries.ofPairs (names.zip (values.map Literal.toValue)))

namespace Statement

def toCommand : Statement → Except UnsupportedOperator Command
  | select table fields clauses => do
    let filter ← filterOf clauses.condition
    return .find table filter (projection fields) clauses.order (clauses.limit.map .ofNumber)
  | insert table columns values => return .insertOne table (insertedDocument columns values)
  | update table assignments condition => do
    let filter ← filterOf condition
    let set := Entries.ofPairs (assignments.map fun (column, value) => (column, value.toValue))
    return .updateMany table filter (.object [("$set", .object set)])
  | delete table condition => do
    let filter ← filterOf condition
    return .deleteMany table filter

end Statement

namespace Command

def sortText (order : Order) : List Char :=
  let direction :=
    match order.direction with
    | .ascending => ['1']
    | .descending => ['-', '1']
  ".sort(\x7b ".toList ++ quote order.column.toList ++ ": ".toList ++ direction ++ " \x7d)".toList

def limitText (limit : Value) : List Char := ".limit(".toList ++ limit.write ++ [')']

def write : Command → List Char
  | find collection filter projection sort limit =>
    "db.".toList ++ collection.toList ++ ".find(".toList ++ filter.write ++
      (projection.map fun p => ", ".toList ++ p.write).getD [] ++ [')'] ++
      (sort.map sortText).getD [] ++ (limit.map limitText).getD [] ++ [';']
  | insertOne collection document =>
    "db.".toList ++ collection.toList ++ ".insertOne(".toList ++ document.write ++ ");".toList
  | updateMany collection filter update =>
    "db.".toList ++ collection.toList ++ ".updateMany(".toList ++ filter.write ++ ", ".toList ++
      update.write ++ ");".toList
  | deleteMany collection filter =>
    "db.".toList ++ collection.toList ++ ".deleteMany(".toList ++ filter.write ++ ");".toList

def text (c : Command) : String := String.ofList c.write

end Command

end SqlShell
