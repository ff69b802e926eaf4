import Metamodel.Proofs.Graph.Elements
import Metamodel.Proofs.Issue.Clean
import Metamodel.Resolution.Session

/-!
# Expansion of embedded values, step by step

Expansion does nothing to a graph but add mapped attributes to the object that declares the values.  So what such an
attribute keeps, the expansion of all values of an object keeps, however deep they are nested
(`KeptByMapping.expandDeclared`).
-/

namespace Metamodel.Graph

/-- One more mapped attribute of `owner` keeps the property of graphs. -/
def KeptByMapping (owner : EntityId) (P : Graph → Prop) : Prop :=
  ∀ g, P g → ∀ name type settings, P (g.addAttribute (.ofMapping name type settings owner (g.entity owner).defaults))

namespace KeptByMapping

variable {P : Graph → Prop} {owner : EntityId} {g : Graph}

theorem mapColumn (hP : KeptByMapping owner P) (value : EntityId) (valueName : String) (hg : P g) (m : ColumnMapping) :
    P (mapColumn owner value valueName g m).1 := by
  unfold Graph.mapColumn
  dsimp only
  split
  · exact hg
  · split
    · exact hg
    · split
      · exact hg
      · exact hP g hg ..

mutual

theorem expand (hP : KeptByMapping owner P) (path : List String) (value : EntityId) {g : Graph} (hg : P g) :
    (d : EmbeddedValueDeclaration) → P (expand owner path value g d).1
  | .mk name _ mappings nested => by
    rw [Graph.expand, Found.andThen_eq]
    have hmapped : P (gather (Graph.mapColumn owner value (nestedName (path ++ [name]))) g mappings).1 :=
      gather_invariant P (fun _ m _ hh => hP.mapColumn value _ hh m) hg
    exact hP.expandNested _ value hmapped nested

theorem expandNested (hP : KeptByMapping owner P) (path : List String) (value : EntityId) {g : Graph} (hg : P g) :
    (ds : List EmbeddedValueDeclaration) → P (expandNested owner path value g ds).1
  | [] => by
    rw [Graph.expandNested]
    exact hg
  | d :: ds => by
    rw [Graph.expandNested, Found.andThen_eq]
    dsimp only
    split
    · rename_i target _
      exact hP.expandNested path value (hP.expand path target hg d) ds
    · exact hP.expandNested path value hg ds

end

theorem expandValue (hP : KeptByMapping owner P) (hg : P g) (d : EmbeddedValueDeclaration) :
    P (expandValue owner g d).1 := by
  unfold Graph.expandValue
  dsimp only
  split
  · exact hg
  · split
    · exact hg
    · split
      · exact hg
      · exact hP.expand [] _ hg d

/-- All values that an object declares. -/
theorem expandDeclared (hP : KeptByMapping owner P) (hg : P g) (d : Declarations) (key : String) :
    P (expandDeclared d g (owner, key)).1 := by
  unfold Graph.expandDeclared
  split
  · exact gather_invariant P (fun _ v _ hh => hP.expandValue hh v) hg
  · exact hg

end KeptByMapping

end Metamodel.Graph
