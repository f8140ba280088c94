/-!
# Keywords

The reserved words of the statements. They are recognized without regard to the case of ASCII
letters. Three of them are reserved although no statement has a place for them.
-/

set_option autoImplicit false

namespace SqlShell

inductive Keyword where
  | SELECT | FROM | WHERE | AND | OR
  | INSERT | INTO | VALUES
  | UPDATE | SET | DELETE
  | LIMIT | ORDER | BY | ASC | DESC
  | JOIN | ON | AS
  deriving DecidableEq, Repr

namespace Keyword

def all : List Keyword :=
  [SELECT, FROM, WHERE, AND, OR, INSERT, INTO, VALUES, UPDATE, SET, DELETE,
    LIMIT, ORDER, BY, ASC, DESC, JOIN, ON, AS]

def name : Keyword → String
  | SELECT => "SELECT"
  | FROM => "FROM"
  | WHERE => "WHERE"
  | AND => "AND"
  | OR => "OR"
  | INSERT => "INSERT"
  | INTO => "INTO"
  | VALUES => "VALUES"
  | UPDATE => "UPDATE"
  | SET => "SET"
  | DELETE => "DELETE"
  | LIMIT => "LIMIT"
  | ORDER => "ORDER"
  | BY => "BY"
  | ASC => "ASC"
  | DESC => "DESC"
  | JOIN => "JOIN"
  | ON => "ON"
  | AS => "AS"

def ofWord? (word : List Char) : Option Keyword :=
  all.find? fun keyword => keyword.name.toList == word.map Char.toUpper

def asName (keyword : Keyword) : String :=
  String.ofList (keyword.name.toList.map Char.toLower)

def isUnsupported : Keyword → Bool
  | JOIN | ON | AS => true
  | _ => false

end Keyword

end SqlShell
