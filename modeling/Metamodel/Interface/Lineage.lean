import Metamodel.Declaration.Basic
import Metamodel.Issue.Gather

/-!
# The lineage of interfaces

An interface names the interfaces above it.  `Declarations.superInterfacesOf` lists all of them, nearest first, each
once; `Declarations.cyclicInterfaces` searches for interfaces from which a cycle can be reached.  The search goes down
into an interface only if it has not been there, and so no deeper than there are interfaces.
-/

namespace Metamodel

def InterfaceDeclaration.qualifiedName (i : InterfaceDeclaration) : String :=
  i.name.qualified

namespace Declarations

/-- The interface that a name denotes: the one under that key, or else the only one with that simple name. -/
def interfaceNamed? (d : Declarations) (name : String) : Option InterfaceDeclaration :=
  match d.interfaces.find? name with
  | some i => some i
  | none =>
    match d.interfaces.values.filter (·.name.simple == name) with
    | [i] => some i
    | _ => none

/-! ### All interfaces above one -/

/-- The interfaces that the names denote, without those in `seen` and without repetitions. -/
def unseen (d : Declarations) (seen : List String) : List String → List InterfaceDeclaration
  | [] => []
  | name :: names =>
    match d.interfaceNamed? name with
    | none => d.unseen seen names
    | some i =>
      if seen.contains i.qualifiedName then d.unseen seen names
      else i :: d.unseen (i.qualifiedName :: seen) names

/-- Level by level upwards from the interfaces named by `frontier`. -/
def levelsAbove (d : Declarations) : Nat → List String → List String → List InterfaceDeclaration
  | 0, _, _ => []
  | steps + 1, seen, frontier =>
    match d.unseen seen frontier with
    | [] => []
    | level => level ++ d.levelsAbove steps (level.map (·.qualifiedName) ++ seen) (level.flatMap (·.superInterfaces))

def superInterfacesOf (d : Declarations) (i : InterfaceDeclaration) : List InterfaceDeclaration :=
  d.levelsAbove (d.interfaces.size + 1) [] i.superInterfaces

/-! ### Cycles -/

structure CycleSearch where
  /-- The keys whose interfaces are done with. -/
  finished : List String := []
  /-- The names of interfaces from which a cycle can be reached. -/
  cyclic : List String := []
  issues : List Issue := []

namespace CycleSearch

def mark (s : CycleSearch) (names : List String) : CycleSearch :=
  { s with cyclic := s.cyclic ++ names }

def report (s : CycleSearch) (i : Issue) : CycleSearch :=
  { s with issues := s.issues ++ [i] }

/-- An interface below a cyclic one is cyclic. -/
def inherit (s : CycleSearch) (name parent : String) : CycleSearch :=
  if s.cyclic.contains parent then s.mark [name] else s

end CycleSearch

def undefinedSuper (name super : String) : Issue :=
  .error .interfaces .schema name none ("super interface '" ++ super ++ "' is not defined")

def circular (name parent : String) : Issue :=
  .error .interfaces .consistency name none
    ("Circular dependency between super interface " ++ name ++ " and " ++ parent)

/-- Searches from the interface under the key `name`, coming from the interfaces under the keys `path`. -/
def searchCycles (d : Declarations) : Nat → List String → CycleSearch → String → CycleSearch
  | 0, _, s, _ => s
  | steps + 1, path, s, name =>
    if path.contains name || s.finished.contains name then s
    else match d.interfaces.find? name with
      | none => s
      | some i =>
        let s := i.superInterfaces.foldl (fun s super =>
          match d.interfaceNamed? super with
          | none => s.report (undefinedSuper name super)
          | some parent =>
            let parent := parent.qualifiedName
            if (name :: path).contains parent then (s.report (circular name parent)).mark [name, parent]
            else (d.searchCycles steps (name :: path) s parent).inherit name parent) s
        { s with finished := name :: s.finished }

def cyclicInterfaces (d : Declarations) : CycleSearch :=
  d.interfaces.keys.foldl (d.searchCycles (d.interfaces.size + 1) []) {}

end Declarations

end Metamodel
