import SqlShell.CommandLine.Report

/-!
# The program

Reads the file or the input that the arguments call for, and writes the report.
-/

set_option autoImplicit false

namespace SqlShell.CommandLine

def readError : IO.Error → ReadError
  | .noFileOrDirectory _ _ _ => .notFound
  | .inappropriateType _ 21 _ => .isDirectory
  | e => .other (toString e)

def readFile (path : String) : IO Contents := do
  try
    return .ok (← IO.FS.readBinFile path)
  catch e =>
    return .error (readError e)

def readInput : IO (Option ByteArray) := do
  let stdin ← IO.getStdin
  if ← stdin.isTty then return none
  return some (← stdin.readBinToEnd)

def perform : Request → IO Report
  | .translate words (some path) outline => do
    let contents ← readFile path
    return Request.report (fun _ => contents) none (.translate words (some path) outline)
  | .translate [] none outline => do
    return Request.report (fun _ => .error .notFound) (← readInput) (.translate [] none outline)
  | request => return request.report (fun _ => .error .notFound) none

end SqlShell.CommandLine

open SqlShell.CommandLine in
def main (arguments : List String) : IO UInt32 := do
  let report ←
    match Invocation.ofArguments arguments with
    | .ok invocation => perform invocation.request
    | .error e => pure (.usage e)
  IO.print report.output
  IO.eprint report.errors
  return report.code.toUInt32
