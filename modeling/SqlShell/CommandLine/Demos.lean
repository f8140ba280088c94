import SqlShell.Conversion

/-!
# Demonstrations

Statements that are shown with their commands. A statement that fails does not keep the others from
being shown.
-/

set_option autoImplicit false

namespace SqlShell.CommandLine

def demoStatements : List String :=
  ["SELECT nombre, edad FROM usuarios WHERE edad > 20;",
    "SELECT nombre, libro_id, text_id FROM productos WHERE precio >= 100 AND " ++
      "categoria = 'libros' LIMIT 10;",
    "INSERT INTO usuarios (nombre,edad,email) VALUES ('Ana', 28, 'ana@mail.com');",
    "UPDATE usuarios SET puntos = 100 WHERE id = 5;",
    "DELETE FROM sesiones WHERE expirado = 1;",
    "SELECT id FROM users WHERE id = 2;"]

structure Demo where
  statement : String
  result : Except String String

def Demo.ofStatement (statement : String) : Demo :=
  ⟨statement, ((convert statement).map (·.command)).mapError (·.message)⟩

def Demo.display (d : Demo) : Except String String :=
  match d.result with
  | .ok command => .ok ("-- SQL: " ++ d.statement ++ "\n" ++ command)
  | .error message => .error ("ERROR: " ++ message)

def demos : List Demo := demoStatements.map Demo.ofStatement

end SqlShell.CommandLine
