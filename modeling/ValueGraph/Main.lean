/-
  The program: reads the files that its command line names, and shows the
  outcome.
-/
import ValueGraph.CommandLine
import ValueGraph.Configuration.Location

open ValueGraph

/-- Reads what a file name leads to. -/
def readFile (name : String) : IO File := do
  try return .bytes (← IO.FS.readBinFile name)
  catch
    | .noFileOrDirectory .. => return .missing
    | _ => return .unreadable

/-- Reads the files that the arguments name, writes the output, and ends with
    the exit code. -/
def main (args : List String) : IO UInt32 := do
  let usual := Configuration.location? (← IO.getEnv "HOME") none (← IO.getEnv "XDG_CONFIG_HOME")
  let files ← (CommandLine.inputs usual args).mapM fun name => return (name, ← readFile name)
  let outcome := CommandLine.outcome (fun name => (files.lookup name).getD .missing) usual args
  IO.print outcome.output
  if let some complaint := outcome.complaint then IO.eprintln complaint
  return outcome.code.toUInt32
