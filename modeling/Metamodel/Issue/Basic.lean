import Metamodel.Log

/-!
# Issues and reports

A problem found in a metamodel is an issue: where it lies, in which phase it was found, and how grave it is.  A report
lists issues in the order in which they were found.  A check raises an issue with the severity of its kind; `escalated`
turns warnings into errors, for a run that asks for it, and changes nothing else.
-/

namespace Metamodel

inductive Severity where
  | warning | error
deriving DecidableEq

def Severity.name : Severity → String
  | warning => "Warning"
  | error => "Error"

/-- A declaration that is wrong in itself, or declarations that do not fit together. -/
inductive IssueKind where
  | schema | consistency
deriving DecidableEq

def IssueKind.name : IssueKind → String
  | schema => "Schema"
  | consistency => "Consistency"

def IssueKind.all : List IssueKind :=
  [schema, consistency]

inductive Phase where
  | interfaces | embeddedValues | names | attributes | inheritance | relationships | conformance | postValidation
deriving DecidableEq

namespace Phase

def name : Phase → String
  | interfaces => "Interfaces"
  | embeddedValues => "EmbeddedValues"
  | names => "Names"
  | attributes => "Attributes"
  | inheritance => "Inheritance"
  | relationships => "Relationships"
  | conformance => "InterfaceConformance"
  | postValidation => "PostValidation"

def phrase : Phase → String
  | interfaces => "interfaces"
  | embeddedValues => "embedded values"
  | names => "names"
  | attributes => "attributes"
  | inheritance => "inheritance"
  | relationships => "relationships"
  | conformance => "interface conformance"
  | postValidation => "post-validation"

def all : List Phase :=
  [interfaces, embeddedValues, names, attributes, inheritance, relationships, conformance, postValidation]

end Phase

structure Issue where
  severity : Severity
  kind : IssueKind
  phase : Phase
  object : String
  member : Option String
  message : String
deriving DecidableEq

namespace Issue

def error (phase : Phase) (kind : IssueKind) (object : String) (member : Option String) (message : String) : Issue :=
  ⟨.error, kind, phase, object, member, message⟩

def warning (phase : Phase) (kind : IssueKind) (object : String) (member : Option String) (message : String) :
    Issue :=
  ⟨.warning, kind, phase, object, member, message⟩

/-- The issue of a run in which warnings may count as errors. -/
def escalated (warningsAreErrors : Bool) (i : Issue) : Issue :=
  if warningsAreErrors then { i with severity := .error } else i

def isError (i : Issue) : Bool :=
  i.severity == .error

/-- The issue without its object. -/
def text (i : Issue) : String :=
  let member := match i.member with
    | some m => m ++ ": "
    | none => ""
  "[" ++ i.phase.phrase ++ "] " ++ member ++ i.message

/-- The line that announces the issue in a log. -/
def logRecord (i : Issue) : LogRecord :=
  { level := if i.isError then .error else .warn, message := i.object ++ ": " ++ i.text }

end Issue

structure Report where
  issues : List Issue := []
deriving DecidableEq

namespace Report

def errors (r : Report) : List Issue :=
  r.issues.filter (·.isError)

def warnings (r : Report) : List Issue :=
  r.issues.filter (! ·.isError)

def errorCount (r : Report) : Nat :=
  r.errors.length

def hasErrors (r : Report) : Bool :=
  ! r.errors.isEmpty

/-- One indented line an issue, under a line with the object wherever that changes. -/
def grouped : Option String → List Issue → String
  | _, [] => ""
  | current, i :: rest =>
    let head := if current = some i.object then "" else i.object ++ ":\n"
    head ++ "\t" ++ i.text ++ "\n" ++ grouped (some i.object) rest

/-- The errors of the report. -/
def text (r : Report) : String :=
  grouped none r.errors

end Report

end Metamodel
