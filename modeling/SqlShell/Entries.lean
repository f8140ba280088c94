/-!
# Entries

Keys with values in the order in which the keys were first written. Writing a key again changes its
value and keeps its place.
-/

set_option autoImplicit false

namespace SqlShell

abbrev Entries (α : Type) := List (String × α)

namespace Entries

variable {α : Type}

def insert (key : String) (value : α) : Entries α → Entries α
  | [] => [(key, value)]
  | (k, v) :: rest => if k = key then (k, value) :: rest else (k, v) :: insert key value rest

def ofPairs (pairs : List (String × α)) : Entries α :=
  pairs.foldl (fun entries (key, value) => entries.insert key value) []

end Entries

end SqlShell
