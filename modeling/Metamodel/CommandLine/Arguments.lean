import Metamodel.Config
import Metamodel.Text.Integer

/-!
# Command line arguments

Options may stand before or after the path, with their value attached by `=` or in the next argument, and each at most
once; after `--` there is only the path.  Arguments are read from the left, and the first one that asks for the version
or for help, or that is wrong, decides.
-/

namespace Metamodel.CommandLine

inductive Mode where
  | check | describe
deriving DecidableEq

inductive Format where
  | text | json
deriving DecidableEq

structure Options where
  path : String
  mode : Mode := .check
  format : Format := .text
  finalGetters : Bool := false
  timezone : TimezonePolicy := .keep
  workers : Option Nat := none
  warningsAreErrors : Bool := false
deriving DecidableEq

inductive Request where
  | run (options : Options)
  | version
  | help
  | misuse
deriving DecidableEq

/-- What has been read so far. -/
structure Partial where
  path : Option String := none
  mode : Option Mode := none
  format : Option Format := none
  finalGetters : Option Bool := none
  timezone : Option TimezonePolicy := none
  workers : Option Nat := none
  warningsAreErrors : Option Bool := none

/-- A number of workers: digits, perhaps after a plus sign, that fit 64 bits. -/
def workers? (value : String) : Option Nat :=
  let digits := match value.toList with
    | '+' :: cs => cs
    | cs => cs
  (Text.natural? digits).filter (· < UInt64.size)

namespace Partial

def finish (p : Partial) : Request :=
  match p.path with
  | none => .misuse
  | some path => .run
    { path := path
      mode := p.mode.getD .check
      format := p.format.getD .text
      finalGetters := p.finalGetters.getD false
      timezone := p.timezone.getD .keep
      workers := p.workers
      warningsAreErrors := p.warningsAreErrors.getD false }

/-- There is one path, and it is not empty. -/
def withPath (p : Partial) (path : String) : Option Partial :=
  if p.path.isSome || path.isEmpty then none else some { p with path := some path }

/-- Names of options that take a value. -/
def takesValue (name : String) : Bool :=
  ["mode", "format", "timezone-conversion", "workers"].contains name

def withOption (p : Partial) (name value : String) : Option Partial :=
  match name with
  | "mode" =>
    if p.mode.isSome then none
    else ([("check", .check), ("describe", .describe)].lookup value).map fun m => { p with mode := some m }
  | "format" =>
    if p.format.isSome then none
    else ([("text", .text), ("json", .json)].lookup value).map fun f => { p with format := some f }
  | "timezone-conversion" =>
    if p.timezone.isSome then none
    else ([("none", .keep), ("utc", .toUtc), ("database", .toDatabase)].lookup value).map fun t =>
      { p with timezone := some t }
  | "workers" =>
    if p.workers.isSome then none else (workers? value).map fun n => { p with workers := some n }
  | _ => none

def withFlag (p : Partial) (name : String) : Option Partial :=
  match name with
  | "default-final-getters" =>
    if p.finalGetters.isSome then none else some { p with finalGetters := some true }
  | "warnings-as-errors" =>
    if p.warningsAreErrors.isSome then none else some { p with warningsAreErrors := some true }
  | _ => none

end Partial

/-- The argument starts an option; a lone dash does not. -/
def isOption (arg : List Char) : Bool :=
  match arg with
  | '-' :: _ :: _ => true
  | _ => false

/-- The arguments after `--`. -/
def readPaths (p : Partial) : List String → Request
  | [] => p.finish
  | arg :: rest =>
    match p.withPath arg with
    | some p => readPaths p rest
    | none => .misuse

/-- Reads arguments from the left; `pending` is an option that waits for its value. -/
def readFrom (p : Partial) (pending : Option String) : List String → Request
  | [] => if pending.isSome then .misuse else p.finish
  | arg :: rest =>
    match pending, arg.toList with
    | some name, cs =>
      if isOption cs then .misuse
      else match p.withOption name arg with
        | some p => readFrom p none rest
        | none => .misuse
    | none, ['-', '-'] => readPaths p rest
    | none, '-' :: '-' :: cs =>
      let name := String.ofList (cs.takeWhile (· != '='))
      match cs.dropWhile (· != '=') with
      | _ :: value =>
        match p.withOption name (String.ofList value) with
        | some p => readFrom p none rest
        | none => .misuse
      | [] =>
        if name = "version" then .version
        else if name = "help" then .help
        else if Partial.takesValue name then readFrom p (some name) rest
        else match p.withFlag name with
          | some p => readFrom p none rest
          | none => .misuse
    | none, '-' :: c :: _ => if c = 'V' then .version else if c = 'h' then .help else .misuse
    | none, _ =>
      match p.withPath arg with
      | some p => readFrom p none rest
      | none => .misuse

def Request.ofArguments (args : List String) : Request :=
  readFrom {} none args

def Options.config (o : Options) : Config :=
  let config := ((Config.default.withFinalGetters o.finalGetters).withTimezone o.timezone).withWarningsAsErrors
    o.warningsAreErrors
  match o.workers with
  | some n => config.withWorkers n
  | none => config

end Metamodel.CommandLine
