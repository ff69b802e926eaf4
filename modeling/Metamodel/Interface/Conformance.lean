import Metamodel.Graph.Basic
import Metamodel.Interface.Lineage

/-!
# Conformance to interfaces

An object has every member that its interfaces demand: attributes of the demanded type that are not as-of attributes,
as-of attributes that agree on being a processing date, and relationships of the demanded cardinality.
-/

namespace Metamodel.Graph

def missingMember (object member message : String) : Issue :=
  .error .conformance .consistency object (some member) message

def attributeGaps (g : Graph) (id : EntityId) (i : Interface) (a : InterfaceAttribute) : List Issue :=
  let issue := missingMember (g.qualifiedName id) a.name
  match ((g.attributeNamed? id a.name).map g.attributeAt).filter (! ·.isAsOf) with
  | none => [issue ("attribute '" ++ a.name ++ "' required by interface " ++ i.qualifiedName ++ " is missing")]
  | some found =>
    if found.dataType = a.dataType then []
    else [issue ("attribute '" ++ a.name ++ "' is " ++ found.dataType.name ++ " but interface " ++ i.qualifiedName ++
      " requires " ++ a.dataType.name)]

def asOfGaps (g : Graph) (id : EntityId) (i : Interface) (a : InterfaceAsOfDeclaration) : List Issue :=
  let found := (g.attributeNamed? id a.name).map g.attributeAt
  if found.any fun b => b.isAsOf && b.isProcessingDate == a.isProcessingDate then []
  else [missingMember (g.qualifiedName id) a.name ("as-of attribute '" ++ a.name ++ "' required by interface " ++
    i.qualifiedName ++ " is missing or of the wrong kind")]

def relationshipGaps (g : Graph) (id : EntityId) (i : Interface) (r : InterfaceRelationship) : List Issue :=
  let found := (g.relationshipNamed? id r.name).map g.relationshipAt
  if found.any (·.cardinality == some r.cardinality) then []
  else [missingMember (g.qualifiedName id) r.name ("relationship '" ++ r.name ++ "' (" ++ r.cardinality.key ++
    ") required by interface " ++ i.qualifiedName ++ " is missing")]

/-- What an object lacks of one interface that it declares. -/
def interfaceGaps (d : Declarations) (g : Graph) (id : EntityId) (declared : String) : List Issue :=
  match (d.interfaceNamed? declared).bind fun decl => g.interfaces.find? decl.qualifiedName with
  | none => [.error .conformance .schema (g.qualifiedName id) none
      ("interface '" ++ declared ++ "' is not defined or failed resolution")]
  | some i =>
    i.attributes.flatMap (g.attributeGaps id i) ++ i.asOfAttributes.flatMap (g.asOfGaps id i) ++
      i.relationships.flatMap (g.relationshipGaps id i)

/-- An object that failed is not checked. -/
def conformanceGaps (d : Declarations) (g : Graph) (id : EntityId) : List Issue :=
  if g.isFailed id then [] else (g.entity id).interfaces.flatMap (interfaceGaps d g id)

end Metamodel.Graph
