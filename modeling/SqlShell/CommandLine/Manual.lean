/-!
# Documentation

The pages of the manual. A topic has several names, in any case.
-/

set_option autoImplicit false

namespace SqlShell.CommandLine

inductive Topic where
  | grammar
  | operators
  | literals
  deriving DecidableEq, Repr

namespace Topic

def names : Topic → List String
  | grammar => ["grammar", "syntax", "statements"]
  | operators => ["operators", "ops", "filters"]
  | literals => ["literals", "values", "types"]

/-- The topic of that name. No character but an ASCII letter is the capital of a letter that stands
in a topic's name, so only those are lowered. -/
def ofName? (name : String) : Option Topic :=
  [grammar, operators, literals].find? fun topic =>
    topic.names.any (·.toList == name.toList.map Char.toLower)

end Topic

def page (lines : List String) : String := String.join (lines.map (· ++ "\n"))

def overview : String :=
  page [
    "SQL2MONGO DOCUMENTATION",
    "",
    "sql2mongo translates a single SQL statement into the equivalent MongoDB",
    "shell command. Only the first statement is read; anything after it is",
    "ignored.",
    "",
    "DOCUMENTATION TOPICS",
    "",
    "  grammar           Supported statements and clauses",
    "  operators         How WHERE conditions become query filters",
    "  literals          Strings, numbers, and numeric coercion",
    "",
    "QUICK REFERENCE",
    "",
    "  SELECT ... FROM t       db.t.find(filter, projection)",
    "  INSERT INTO t ...       db.t.insertOne(document)",
    "  UPDATE t SET ...        db.t.updateMany(filter, \x7b\"$set\": ...\x7d)",
    "  DELETE FROM t ...       db.t.deleteMany(filter)",
    "",
    "Run 'sql2mongo doc <topic>' for detailed documentation.",
    "Run 'sql2mongo demos' to see translated examples."]

def grammarPage : String :=
  page [
    "GRAMMAR - Supported Statements",
    "",
    "SELECT",
    "  SELECT * | col [, col ...] FROM table [WHERE cond] [ORDER BY col [ASC|DESC]] [LIMIT n]",
    "",
    "    Clauses may appear in any order. Scanning stops at the first word that",
    "    does not start a clause.",
    "",
    "    Example:",
    "      SQL:    SELECT nombre, edad FROM usuarios WHERE edad > 20 ORDER BY edad DESC LIMIT 5;",
    "      Mongo:  db.usuarios.find(\x7b\"edad\":\x7b\"$gt\":20\x7d\x7d, \x7b\"nombre\":1,\"edad\":1\x7d).sort(\x7b \"edad\": -1 \x7d).limit(5);",
    "",
    "INSERT",
    "  INSERT INTO table [(col [, col ...])] VALUES (value [, value ...])",
    "",
    "    Without a column list the values are named col0, col1, ...",
    "",
    "    Example:",
    "      SQL:    INSERT INTO t VALUES (1, 2);",
    "      Mongo:  db.t.insertOne(\x7b\"col0\":1,\"col1\":2\x7d);",
    "",
    "UPDATE",
    "  UPDATE table SET col = value [, col = value ...] [WHERE cond]",
    "",
    "    Every matching document is updated.",
    "",
    "DELETE",
    "  DELETE FROM table [WHERE cond]",
    "",
    "    Every matching document is removed.",
    "",
    "NAMES",
    "  Names may contain letters, digits, '_', '.', and '$', so users.id is a",
    "  single name. A keyword used as a name is lowercased.",
    "",
    "UNSUPPORTED",
    "  JOIN, ON, and AS are reserved words; using them is an error."]

def operatorsPage : String :=
  page [
    "OPERATORS - WHERE Conditions",
    "",
    "COMPARISON",
    "  =       \x7b\"col\": value\x7d",
    "  != <>   \x7b\"col\": \x7b\"$ne\": value\x7d\x7d",
    "  >       \x7b\"col\": \x7b\"$gt\": value\x7d\x7d",
    "  <       \x7b\"col\": \x7b\"$lt\": value\x7d\x7d",
    "  >=      \x7b\"col\": \x7b\"$gte\": value\x7d\x7d",
    "  <=      \x7b\"col\": \x7b\"$lte\": value\x7d\x7d",
    "",
    "  The left side must be a column name and the right side a literal.",
    "",
    "LOGICAL",
    "  AND     \x7b\"$and\": [left, right]\x7d",
    "  OR      \x7b\"$or\": [left, right]\x7d",
    "",
    "  AND binds tighter than OR. Chains nest to the left:",
    "    a = 1 AND b = 2 AND c = 3",
    "    \x7b\"$and\":[\x7b\"$and\":[\x7b\"a\":1\x7d,\x7b\"b\":2\x7d]\x7d,\x7b\"c\":3\x7d]\x7d",
    "",
    "  Parentheses group conditions:",
    "    (a = 1 OR b = 2) AND c = 3",
    "",
    "  A condition may nest at most 128 levels deep."]

def literalsPage : String :=
  page [
    "LITERALS - Values",
    "",
    "STRINGS",
    "  'text' or \"text\". A backslash keeps the next character as-is.",
    "",
    "NUMBERS",
    "  42, 3.5",
    "",
    "  Output follows JavaScript number printing: 10000000000000000 stays plain,",
    "  1e21 and above print as 1e+21, below 1e-6 as 1e-7.",
    "",
    "BARE WORDS",
    "  A bare word used as a value is kept as text: WHERE estado = activo",
    "",
    "NUMERIC COERCION",
    "  Any value whose text reads as a number becomes a number, even when quoted:",
    "",
    "    WHERE categoria = 'libros'   \x7b\"categoria\":\"libros\"\x7d",
    "    WHERE codigo = '100'         \x7b\"codigo\":100\x7d"]

def Topic.text : Topic → String
  | grammar => grammarPage
  | operators => operatorsPage
  | literals => literalsPage

end SqlShell.CommandLine
