import Metamodel.CommandLine.Outcome

/-!
# The command line program

Reads the arguments and the file, and prints the outcome.
-/

open Metamodel.CommandLine

/-- The failure behind an error of the system. -/
private def readFailure : IO.Error → ReadFailure
  | .noFileOrDirectory .. => .missing
  | .permissionDenied .. => .forbidden
  | .inappropriateType none .. => .isFolder
  | .inappropriateType .. => .notFolder
  | .invalidArgument _ 36 _ => .nameTooLong
  | e => .other (toString e)

private def readMetamodel (path : String) : IO (Except ReadFailure String) := do
  try
    let bytes ← IO.FS.readBinFile path
    return match String.fromUTF8? bytes with
      | some text => .ok text
      | none => .error .notText
  catch e =>
    return .error (readFailure e)

private def finish (outcome : Outcome) : IO UInt32 := do
  IO.print outcome.output
  if let some e := outcome.error then
    IO.eprintln ("Error: " ++ e)
  return outcome.exit

def main (args : List String) : IO UInt32 := do
  match Request.ofArguments args with
  | .run options => finish (options.run (← readMetamodel options.path))
  | .version => finish { exit := 0, output := versionLine }
  | .help => finish { exit := 0, output := helpText }
  | .misuse =>
    IO.eprintln "error: unexpected arguments; for more information, try '--help'"
    return 2
