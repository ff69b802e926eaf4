import Metamodel.Declaration.Reader
import Metamodel.Embedded.Expansion
import Metamodel.Enumeration.Binding
import Metamodel.Enumeration.Check
import Metamodel.Graph.MemberCheck
import Metamodel.Graph.OfDeclarations
import Metamodel.Hierarchy.Inheritance
import Metamodel.Interface.Conformance
import Metamodel.Interface.Flatten
import Metamodel.Join.Analysis
import Metamodel.Ownership.Claim

/-!
# Resolution

A session holds a metamodel on its way to a resolved graph, with the issues found so far and the log of the run.  Three
stages bring it forward: interfaces, embedded values and objects, in this order; each says whether it found no error.
Nothing stops at an error, so that a run reports as many independent problems as it can.  `Session.resolve` runs all
three, and a graph counts as resolved only if no stage and no earlier step found an error.

The steps of a stage do not see the configuration: whether a warning counts as an error is decided when an issue is
recorded.
-/

namespace Metamodel

/-! ### The stages on a graph -/

namespace Graph

/-- Finds the entity that a relationship leads to. -/
def bindRelated (key : String) (g : Graph) (id : RelationshipId) : Found Graph :=
  let r := g.relationshipAt id
  match g.lookup r.relatedName .object with
  | some related => (g.modifyRelationship id fun r => { r with related := some related }, [])
  | none => (g, [.error .names .schema key (some r.name)
      ("related object '" ++ r.relatedName ++ "' of relationship '" ++ r.name ++ "' is not defined")])

def bindRelationships (g : Graph) (object : EntityId × String) : Found Graph :=
  gather (bindRelated object.2) g (g.entity object.1).relationships

/-- Expands the embedded values that the object under a key declares. -/
def expandDeclared (d : Declarations) (g : Graph) (object : EntityId × String) : Found Graph :=
  match d.objects.find? object.2 with
  | some decl => expandValues object.1 g decl.embeddedValues
  | none => (g, [])

/-- The objects that are declared, with their keys, resolved in a graph whose interfaces and embedded values are. -/
def resolveObjects (d : Declarations) (declared : List (EntityId × String)) (g : Graph) : Found Graph :=
  let ids := declared.map (·.1)
  let enumerationIssues := d.enumerations.entries.flatMap fun (key, e) =>
    e.problems.map (Issue.error .names .schema key none)
  let (g, issues) := gather bindRelationships g declared
  let g := ids.foldl bindEnumerations g
  let bound : Found Graph := (g, enumerationIssues ++ issues)
  let merged := (bound.andThen fun g => gather (expandDeclared d) g declared).andThen resolveInheritance
  let checked := merged.andThen fun g => (g, declared.flatMap fun (id, key) => g.attributeIssues id key)
  let joined := checked.andThen resolveRelationships
  joined.andThen fun g =>
    let g := ids.foldl claimOwnership g
    (g, ids.flatMap (conformanceGaps d g) ++ declared.flatMap fun (id, key) => g.memberIssues id key)

end Graph

/-! ### Sessions -/

structure Session where
  declarations : Declarations
  config : Config
  graph : Graph
  /-- The objects that are in the graph, with their keys. -/
  declared : List (EntityId × String)
  report : Report
  log : Log

namespace Session

/-- The session with the issues of a step, each with the severity it has in this run. -/
def record (s : Session) (found : List Issue) : Session :=
  let issues := found.map (·.escalated s.config.warningsAreErrors)
  { s with report := ⟨s.report.issues ++ issues⟩, log := s.log ++ issues.map (·.logRecord) }

/-- The session after a stage, and whether the stage found no error. -/
def runStage (s : Session) (stage : Graph → Found Graph) : Bool × Session :=
  let (g, found) := stage s.graph
  let t := { s with graph := g }.record found
  (t.report.errorCount == s.report.errorCount, t)

def start (d : Declarations) (config : Config) : Session :=
  let ((g, declared), found) := Graph.ofDeclarations config d
  { declarations := d
    config := config
    graph := g
    declared := declared
    report := {}
    log := [] : Session }.record found

def resolveInterfaces (s : Session) : Bool × Session :=
  s.runStage (Graph.registerInterfaces s.declarations)

def resolveEmbeddedValues (s : Session) : Bool × Session :=
  s.runStage Graph.resolveEmbeddedValues

/-- A run without errors is noted in the log. -/
def resolveObjects (s : Session) : Bool × Session :=
  let (ok, t) := s.runStage (Graph.resolveObjects s.declarations s.declared)
  let note : LogRecord :=
    { level := .info, message := "validated " ++ toString s.declared.length ++ " object(s)" }
  (ok, if ok then { t with log := t.log ++ [note] } else t)

/-- All stages, and the graph if there is no error at all. -/
def resolve (s : Session) : Except Error Graph × Session :=
  let (interfaces, s) := s.resolveInterfaces
  let (embedded, s) := s.resolveEmbeddedValues
  let (objects, s) := s.resolveObjects
  if interfaces && embedded && objects && !s.report.hasErrors then (.ok s.graph, s)
  else (.error (.unresolved s.report.errorCount s.report.text), s)

end Session

/-- The graph that declarations resolve to, and the session in the end. -/
def Declarations.resolve (d : Declarations) (config : Config) : Except Error Graph × Session :=
  (Session.start d config).resolve

end Metamodel
