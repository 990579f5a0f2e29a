import SchemaQuery.CommandLine.Report

/-! The program.  It reads the file that its arguments name, runs, and writes its report. -/

open SchemaQuery

/-- The contents of the file that the arguments name, if they name one that can be read. -/
def configContents (arguments : List String) : IO (Option String) := do
  match CommandLine.Invocation.ofArguments arguments with
  | .ok { config := some path, .. } =>
    match ← (IO.FS.readFile path).toBaseIO with
    | .ok contents => return some contents
    | .error _ => return none
  | _ => return none

def main (arguments : List String) : IO UInt32 := do
  let contents ← configContents arguments
  let (report, _) := CommandLine.run MySql.Server.unreachable () (fun _ => contents) arguments
  (← IO.getStdout).putStr report.output
  (← IO.getStderr).putStr report.errors
  return UInt32.ofNat report.code
