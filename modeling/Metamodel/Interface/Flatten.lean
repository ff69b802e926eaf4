import Metamodel.Graph.Basic
import Metamodel.Interface.Lineage

/-!
# Flattened interfaces

The interface that objects are checked against has its own members and those of all interfaces above it, nearest first;
where two interfaces declare a member of the same name, they must agree on it.  Only an interface without any problem,
in itself or above it, gets into the graph.
-/

namespace Metamodel

namespace Interface

def problem (i : Interface) (member message : String) : Issue :=
  .error .interfaces .schema i.qualifiedName (some member) message

/-- The interface with an attribute that `declaredBy` declares. -/
def withAttribute (declaredBy : String) (i : Interface) (a : InterfaceAttributeDeclaration) : Found Interface :=
  match i.attributes.find? (·.name == a.name) with
  | none => ({ i with attributes := i.attributes ++ [⟨a.name, a.dataType, declaredBy⟩] }, [])
  | some b =>
    if b.dataType = a.dataType then (i, [])
    else (i, [problem i a.name ("attribute '" ++ a.name ++ "' is " ++ b.dataType.name ++ " in " ++ b.declaredBy ++
      " but " ++ a.dataType.name ++ " in " ++ declaredBy)])

def withAsOf (declaredBy : String) (i : Interface) (a : InterfaceAsOfDeclaration) : Found Interface :=
  match i.asOfAttributes.find? (·.name == a.name) with
  | none => ({ i with asOfAttributes := i.asOfAttributes ++ [a] }, [])
  | some b =>
    if b.isProcessingDate = a.isProcessingDate then (i, [])
    else (i, [problem i a.name ("as-of attribute '" ++ a.name ++ "' is declared inconsistently by " ++ declaredBy)])

/-- A relationship leads to an object or to an interface.  What is wrong with the relationship itself is reported with
the interface that declares it and not again below. -/
def withRelationship (d : Declarations) (g : Graph) (declaredBy : String) (i : Interface)
    (r : InterfaceRelationshipDeclaration) : Found Interface :=
  let own (message : String) := if declaredBy = i.qualifiedName then [problem i r.name message] else []
  match Cardinality.ofKey r.cardinality with
  | .error e => (i, own e.message)
  | .ok cardinality =>
    let related := ((g.lookup r.relatedObject .object).map g.qualifiedName).or
      ((d.interfaceNamed? r.relatedObject).map (·.qualifiedName))
    match related with
    | none => (i, own ("related object '" ++ r.relatedObject ++ "' of relationship '" ++ r.name ++
        "' is neither an object nor an interface"))
    | some related =>
      match i.relationships.find? (·.name == r.name) with
      | none => ({ i with relationships := i.relationships ++ [⟨r.name, related, cardinality⟩] }, [])
      | some b =>
        if b.cardinality = cardinality then (i, [])
        else (i, [problem i r.name ("relationship '" ++ r.name ++ "' is " ++ cardinality.key ++ " in " ++ declaredBy ++
          " but " ++ b.cardinality.key ++ " in a super interface")])

/-- The interface with the members of one declaration. -/
def withMembersOf (d : Declarations) (g : Graph) (i : Interface) (source : InterfaceDeclaration) : Found Interface :=
  let declaredBy := source.qualifiedName
  ((gather (withAttribute declaredBy) i source.attributes).andThen
    (gather (withAsOf declaredBy) · source.asOfAttributes)).andThen
      (gather (withRelationship d g declaredBy) · source.relationships)

def flatten (d : Declarations) (g : Graph) (decl : InterfaceDeclaration) : Found Interface :=
  let above := d.superInterfacesOf decl
  gather (withMembersOf d g) { name := decl.name, superInterfaces := above.map (·.qualifiedName) } (decl :: above)

end Interface

namespace Graph

/-- The graph with the interface under a key, if there is nothing wrong with it. -/
def registerInterface (d : Declarations) (cyclic : List String) (g : Graph)
    (entry : String × InterfaceDeclaration) : Found Graph :=
  let (key, decl) := entry
  if cyclic.contains key || decl.superInterfaces.any fun s => (d.interfaceNamed? s).isNone then (g, [])
  else match Interface.flatten d g decl with
    | (i, []) => (g.addInterface i, [])
    | (_, issues) => (g, issues)

def registerInterfaces (d : Declarations) (g : Graph) : Found Graph :=
  let search := d.cyclicInterfaces
  let (g, issues) := gather (registerInterface d search.cyclic) g d.interfaces.entries
  (g, search.issues ++ issues)

end Graph

end Metamodel
