import Metamodel.CommandLine.Arguments
import Metamodel.CommandLine.FileTree
import Metamodel.Digest.Fingerprint
import Metamodel.Emission.Description
import Metamodel.Issue.Writer
import Metamodel.Json.Printer
import Metamodel.Resolution.Session

/-!
# What the program prints

The outcome of a run is the text on standard output, the exit status and, for status 1, the error.  The report comes
before anything else, and it is printed whether or not the metamodel resolves.
-/

namespace Metamodel.CommandLine

structure Outcome where
  exit : UInt32
  output : String := ""
  error : Option String := none

def versionLine : String :=
  "ormgen 0.1.0\n"

def helpText : String :=
  "Resolve and validate an ormgen metamodel\n\n" ++
  "Usage: ormgen [OPTIONS] <METAMODEL>\n\n" ++
  "Arguments:\n  <METAMODEL>  Metamodel JSON file\n\n" ++
  "Options:\n" ++
  "      --mode <MODE>                                check (default) or describe\n" ++
  "      --format <FORMAT>                            text (default) or json\n" ++
  "      --default-final-getters                      make getters final unless an object overrides it\n" ++
  "      --timezone-conversion <TIMEZONE_CONVERSION>  none (default), utc or database\n" ++
  "      --workers <WORKERS>                          number of emission workers\n" ++
  "      --warnings-as-errors                         treat warnings as errors\n" ++
  "  -h, --help                                       print help\n" ++
  "  -V, --version                                    print version\n"

/-- The report as a document, or its warnings, one a line; errors are not listed among the warnings. -/
def reportText (format : Format) (r : Report) : String :=
  match format with
  | .json => r.toJson.toPretty ++ "\n"
  | .text => String.join (r.warnings.map fun i => "warning: " ++ i.object ++ ": " ++ i.text ++ "\n")

/-- All descriptions, an empty line after each, and the count of what was described. -/
def describedText (g : Graph) (workers : Nat) : Except Error String :=
  let (descriptions, result) := g.descriptions workers
  result.map fun summary =>
    String.join (descriptions.values.map (· ++ "\n\n")) ++
      toString summary.emitted ++ " object(s) in " ++ toString summary.slots ++ " slot(s)\n"

/-- What a resolved graph is shown as. -/
def Options.graphText (o : Options) (g : Graph) : Except Error String := do
  let described ← match o.mode with
    | .check => pure ""
    | .describe => describedText g o.config.workers
  return described ++ "fingerprint: " ++ g.fingerprint ++ "\n"

/-- The outcome for a metamodel text. -/
def Options.runText (o : Options) (metamodel : String) : Outcome :=
  match Declarations.ofText metamodel with
  | .error e => { exit := 1, error := some e.message }
  | .ok d =>
    let (result, session) := d.resolve o.config
    let report := reportText o.format session.report
    match result.bind o.graphText with
    | .error e => { exit := 1, output := report, error := some e.message }
    | .ok text => { exit := 0, output := report ++ text }

/-- The outcome for the contents of the file, or for the reason why it cannot be read. -/
def Options.run (o : Options) : Except ReadFailure String → Outcome
  | .ok metamodel => o.runText metamodel
  | .error e => { exit := 1, error := some ("cannot read metamodel " ++ o.path ++ ": " ++ e.message) }

end Metamodel.CommandLine
