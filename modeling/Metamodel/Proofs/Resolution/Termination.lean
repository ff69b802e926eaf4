import Metamodel.Proofs.Embedded.Termination
import Metamodel.Proofs.Hierarchy.Termination
import Metamodel.Proofs.Interface.Termination

/-!
# Resolution ends

Superclasses, nested values and super interfaces are names that may lead anywhere, in circles too.  No recursion along
them goes deeper than there are objects, embedded values or interfaces, and one step more to find nothing new.
-/

namespace Metamodel.Graph

/-- Each of the four recursions of resolution keeps within the steps it is given: whatever is done at the bottom, and
however many more steps there are, the result is the same.  No super interface is listed twice. -/
theorem resolution_within_steps (g : Graph) (d : Declarations) (extra : Nat) :
    (∀ bottom, gather (settleBy^[(g.idsOfKind .object).length + 1 + extra] bottom []) g (g.idsOfKind .object) =
        g.resolveInheritance) ∧
      (∀ bottom, ((gather checkNested g (g.idsOfKind .embeddedValue)).andThen
          (gather (visitBy^[(g.idsOfKind .embeddedValue).length + 1 + extra] bottom []) ·
            (g.idsOfKind .embeddedValue))) = g.resolveEmbeddedValues) ∧
      (∀ bottom, d.interfaces.keys.foldl (d.searchBy^[d.interfaces.size + 1 + extra] bottom []) {} =
        d.cyclicInterfaces) ∧
      (∀ bottom i, d.levelBy^[d.interfaces.size + 1 + extra] bottom [] i.superInterfaces = d.superInterfacesOf i) ∧
      ∀ i, ((d.superInterfacesOf i).map (·.qualifiedName)).Nodup := by
  refine ⟨fun bottom => ?_, fun bottom => ?_, fun bottom => ?_, fun bottom i => ?_, fun i => ?_⟩
  · exact g.resolveInheritance_of_bottom bottom extra
  · exact g.resolveEmbeddedValues_of_bottom bottom extra
  · exact d.cyclicInterfaces_of_bottom bottom extra
  · exact d.superInterfacesOf_of_bottom bottom extra i
  · exact d.nodup_superInterfacesOf i

end Metamodel.Graph
