import Metamodel.Graph.Basic

/-!
# Enumeration attributes and their enumerations

An enumeration attribute takes over the class and the members of the enumeration that its declaration names; it is left
as it is when there is none.
-/

namespace Metamodel.Graph

def bindEnumeration (g : Graph) (id : AttributeId) : Graph :=
  match (g.attributeAt id).kind with
  | .enumeration s =>
    match g.lookup s.enumeration .enumeration with
    | none => g
    | some target =>
      let e := g.entity target
      let bound := { s with target := some target, className := some e.name.simple, members := e.members }
      g.modifyAttribute id fun a => { a with kind := .enumeration bound }
  | _ => g

def bindEnumerations (g : Graph) (owner : EntityId) : Graph :=
  (g.entity owner).attributes.foldl bindEnumeration g

end Metamodel.Graph
