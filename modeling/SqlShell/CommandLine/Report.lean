import SqlShell.CommandLine.Arguments
import SqlShell.CommandLine.Demos
import SqlShell.CommandLine.Manual
import SqlShell.CommandLine.Source

/-!
# Reports

What a run writes to its two outputs, and its exit code: zero for success, one for a failure, two
for arguments that cannot be understood.
-/

set_option autoImplicit false

namespace SqlShell.CommandLine

structure Report where
  code : UInt8
  output : String
  errors : String
  deriving DecidableEq, Repr

namespace Report

def success (output : String) : Report := ⟨0, output, ""⟩

def failure (e : Failure) : Report := ⟨1, "", "ERROR: " ++ e.message ++ "\n"⟩

def usage (e : UsageError) : Report := ⟨2, "", "error: " ++ e.message ++ "\n"⟩

end Report

def usageLine : String :=
  "Usage: sql2mongo translate \"SELECT ... FROM ...;\"  (or --file query.sql, or pipe SQL to stdin)"

def versionLine : String := "sql2mongo 0.1.0"

def translateReport (words : List String) (file : Option Contents) (input : Option ByteArray)
    (outline : Bool) : Report :=
  let wanted := if words.isEmpty && file.isNone then input else none
  match wanted.mapM decode with
  | .error e => .failure (.read e)
  | .ok input =>
    let sources : Sources := ⟨words, file, input⟩
    if sources.isEmpty then .success (usageLine ++ "\n")
    else
      match sources.conversion with
      | .ok conversion => .success (display outline conversion ++ "\n")
      | .error e => .failure e

def demosReport : Report :=
  let shown := demos.map Demo.display
  { code := 0
    output := page (shown.filterMap fun s => s.toOption)
    errors := page (shown.filterMap fun s =>
      match s with
      | .ok _ => none
      | .error line => some line) }

def docReport (topic : String) : Report :=
  match Topic.ofName? topic with
  | some topic => .success topic.text
  | none => .failure (.unknownTopic topic)

def helpPage : Option Command → String
  | none => page [
      "sql2mongo - Translate SQL statements into MongoDB shell commands",
      "",
      "Usage: sql2mongo [OPTIONS] <COMMAND>",
      "",
      "Commands:",
      "  translate  Translate one SQL statement",
      "  demos      Translate the built-in demo statements",
      "  docs       List documentation topics",
      "  doc        Show documentation for a specific topic",
      "  help       Print this message or the help of the given subcommand(s)",
      "",
      "Options:",
      "  -v, --verbose  Log pipeline stages to stderr",
      "  -h, --help     Print help",
      "  -V, --version  Print version"]
  | some .translate => page [
      "Translate one SQL statement",
      "",
      "Usage: sql2mongo translate [OPTIONS] [SQL]...",
      "",
      "Arguments:",
      "  [SQL]...  The SQL statement (reads from stdin if not provided)",
      "",
      "Options:",
      "  -f, --file <FILE>  Read the statement from a file",
      "  -v, --verbose      Log pipeline stages to stderr",
      "      --ast          Print the parsed statement before the command",
      "  -h, --help         Print help"]
  | some .demos => page [
      "Translate the built-in demo statements",
      "",
      "Usage: sql2mongo demos [OPTIONS]",
      "",
      "Options:",
      "  -v, --verbose  Log pipeline stages to stderr",
      "  -h, --help     Print help"]
  | some .docs => page [
      "List documentation topics",
      "",
      "Usage: sql2mongo docs [OPTIONS]",
      "",
      "Options:",
      "  -v, --verbose  Log pipeline stages to stderr",
      "  -h, --help     Print help"]
  | some .doc => page [
      "Show documentation for a specific topic",
      "",
      "Usage: sql2mongo doc [OPTIONS] <TOPIC>",
      "",
      "Arguments:",
      "  <TOPIC>  Topic name (use 'sql2mongo docs' to list topics)",
      "",
      "Options:",
      "  -v, --verbose  Log pipeline stages to stderr",
      "  -h, --help     Print help"]

/-- The report on a request, with the files and the input it may read. There is no input when it
would come from a terminal. -/
def Request.report (files : String → Contents) (input : Option ByteArray) : Request → Report
  | translate words file outline => translateReport words (file.map files) input outline
  | demos => demosReport
  | docs => .success overview
  | doc topic => docReport topic
  | version => .success (versionLine ++ "\n")
  | help command => .success (helpPage command)

def report (files : String → Contents) (input : Option ByteArray) (arguments : List String) :
    Report :=
  match Invocation.ofArguments arguments with
  | .ok invocation => invocation.request.report files input
  | .error e => .usage e

end SqlShell.CommandLine
