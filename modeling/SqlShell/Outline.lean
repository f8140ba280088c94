/-!
# Outlines

An outline is a tree of labelled parts. A part with parts of its own is written over several lines,
each inner line indented and each inner part followed by a comma.
-/

set_option autoImplicit false

namespace SqlShell

inductive Outline where
  | leaf (text : String)
  | block (opening closing : String) (parts : List (String × Outline))

namespace Outline

def indent (lines : List String) : List String := lines.map ("    " ++ ·)

def labelled (label : String) : List String → List String
  | [] => [label ++ ","]
  | [line] => [label ++ line ++ ","]
  | first :: lines => (label ++ first) :: (lines.dropLast ++ [lines.getLastD "" ++ ","])

mutual

def lines : Outline → List String
  | leaf text => [text]
  | block opening closing [] => [opening ++ closing]
  | block opening closing parts => opening :: (partLines parts ++ [closing])

def partLines : List (String × Outline) → List String
  | [] => []
  | (label, part) :: parts => indent (labelled label part.lines) ++ partLines parts

end

def text (o : Outline) : String := "\n".intercalate o.lines

def record (name : String) (parts : List (String × Outline)) : Outline :=
  block (name ++ " \x7b") "\x7d" (parts.map fun (label, part) => (label ++ ": ", part))

def wrap (name : String) (part : Outline) : Outline := block (name ++ "(") ")" [("", part)]

def list (parts : List Outline) : Outline := block "[" "]" (parts.map fun part => ("", part))

def table (parts : List (String × Outline)) : Outline :=
  block "\x7b" "\x7d" (parts.map fun (key, part) => (key ++ ": ", part))

def optional : Option Outline → Outline
  | some part => wrap "Some" part
  | none => leaf "None"

end Outline

end SqlShell
