import SqlShell.Conversion
import SqlShell.Statement.Outline
import SqlShell.Text.Blank

/-!
# Where a statement comes from

A statement is taken from a file, else from the words of the command line, else from the input.
A source is looked at only if the ones before it are absent.
-/

set_option autoImplicit false

namespace SqlShell.CommandLine

inductive ReadError where
  | notFound
  | isDirectory
  | notText
  | other (reason : String)
  deriving DecidableEq, Repr

def ReadError.message : ReadError → String
  | notFound => "No such file or directory (os error 2)"
  | isDirectory => "Is a directory (os error 21)"
  | notText => "stream did not contain valid UTF-8"
  | other reason => reason

inductive Failure where
  | conversion (error : ConversionError)
  | read (error : ReadError)
  | noInput
  | unknownTopic (name : String)
  deriving DecidableEq, Repr

def Failure.message : Failure → String
  | conversion e => e.message
  | read e => "IO error: " ++ e.message
  | noInput => "No SQL provided. Pass a statement, use --file, or pipe SQL to stdin."
  | unknownTopic name =>
    "Unknown topic: '" ++ name ++ "'\nRun 'sql2mongo docs' to see available topics."

def decode (bytes : ByteArray) : Except ReadError String :=
  match String.fromUTF8? bytes with
  | some text => .ok text
  | none => .error .notText

abbrev Contents := Except ReadError ByteArray

structure Sources where
  words : List String
  file : Option Contents
  input : Option String

namespace Sources

def isEmpty (s : Sources) : Bool := s.words.isEmpty && s.file.isNone && s.input.isNone

def text (s : Sources) : Except Failure String :=
  match s.file with
  | some contents => (contents.bind decode).mapError .read
  | none =>
    if s.words ≠ [] then .ok (" ".intercalate s.words)
    else
      match s.input with
      | some text => if text.toList.all Text.isBlank then .error .noInput else .ok text
      | none => .error .noInput

def conversion (s : Sources) : Except Failure Conversion := do
  let text ← s.text
  (convert text).mapError .conversion

end Sources

def display (outline : Bool) (conversion : Conversion) : String :=
  if outline then conversion.statement.outline.text ++ "\n" ++ conversion.command
  else conversion.command

end SqlShell.CommandLine
