import Metamodel.Proofs.Access.Declarations
import Metamodel.Proofs.Access.Embedded
import Metamodel.Proofs.Access.Inheritance
import Metamodel.Proofs.Access.Ownership
import Metamodel.Proofs.Access.Relationships

/-!
# Look-ups of all stages

The last stage is checked like the ones before.  As the graph is intact before and after every step, no step uses an
index that is out of range, whether it finds errors or not: with checked look-ups and changes alone, each stage has an
outcome, and it is the outcome of the stage (`Session.intact_of_every_stage`).
-/

namespace Metamodel

namespace Graph

namespace Checked

/-- Binds the names of the members that objects declare. -/
def bindNames (declared : List (EntityId × String)) (g : Graph) : Option (Found Graph) := do
  let (g, issues) ← gather bindRelationships g declared
  return (← (declared.map (·.1)).foldlM bindEnumerations g, issues)

def checkAttributes (declared : List (EntityId × String)) (g : Graph) : Option (Found Graph) := do
  return (g, ← flatMap (fun (id, key) => attributeIssues g id key) declared)

/-- Claims are the last change, and all checks after them read the same graph. -/
def claimAndCheck (d : Declarations) (declared : List (EntityId × String)) (g : Graph) : Option (Found Graph) := do
  let ids := declared.map (·.1)
  let g ← ids.foldlM claimOwnership g
  return (g, (← flatMap (conformanceGaps d g) ids) ++ (← flatMap (fun (id, key) => memberIssues g id key) declared))

def resolveObjects (d : Declarations) (declared : List (EntityId × String)) (g : Graph) : Option (Found Graph) := do
  let enumerationIssues := d.enumerations.entries.flatMap fun (key, e) =>
    e.problems.map (Issue.error .names .schema key none)
  let (g, issues) ← bindNames declared g
  let bound := some (g, enumerationIssues ++ issues)
  let merged := andThen (andThen bound fun g => gather (expandDeclared d) g declared) resolveInheritance
  andThen (andThen (andThen merged (checkAttributes declared)) resolveRelationships) (claimAndCheck d declared)

section Parts

variable {g : Graph} {declared : List (EntityId × String)} (hdeclared : ∀ o ∈ declared, o.1 < g.entities.size)

include hdeclared

private theorem bindNames_eq {n : Nat} (hg : Standing n g) :
    bindNames declared g = some
      ((declared.map (·.1)).foldl Graph.bindEnumerations (Metamodel.gather Graph.bindRelationships g declared).1,
        (Metamodel.gather Graph.bindRelationships g declared).2) := by
  have hindex : ∀ {h : Graph}, Advances n g h → ∀ o ∈ declared, o.1 < h.entities.size := fun hh o ho =>
    size_of_outline_eq hh.outline ▸ hdeclared o ho
  have hstep : ∀ h, Advances n g h → ∀ o ∈ declared, Advances n g (h.bindRelationships o).1 := fun h hh o _ =>
    hh.trans (advances_bindRelationships hh.standing o)
  have hbound : gather bindRelationships g declared = some (Metamodel.gather Graph.bindRelationships g declared) :=
    gather_eq (Advances n g) (fun h hh o ho => ⟨bindRelationships_eq hh.standing (hindex hh o ho), hstep h hh o ho⟩)
      (.refl hg)
  have hadvanced := gather_invariant (Advances n g) (fun h o ho hh => hstep h hh o ho) (.refl hg)
  have hlinked : (declared.map (·.1)).foldlM bindEnumerations (Metamodel.gather Graph.bindRelationships g declared).1 =
      some ((declared.map (·.1)).foldl Graph.bindEnumerations
        (Metamodel.gather Graph.bindRelationships g declared).1) := by
    refine foldlM_eq (Advances n g) (fun h hh o ho => ⟨?_, hh.trans (advances_bindEnumerations hh.standing o)⟩)
      hadvanced
    obtain ⟨object, hobject, rfl⟩ := List.mem_map.1 ho
    exact bindEnumerations_eq hh.standing (hindex hh object hobject)
  simp only [bindNames, hbound, hlinked, Option.bind_eq_bind, Option.bind_some]
  rfl

private theorem checkAttributes_eq (hg : g.Sound) :
    checkAttributes declared g = some (g, declared.flatMap fun (id, key) => g.attributeIssues id key) := by
  rw [checkAttributes, flatMap_eq fun o ho => attributeIssues_eq hg (hdeclared o ho) o.2]
  rfl

private theorem claimAndCheck_eq (hg : g.Intact) (d : Declarations) :
    claimAndCheck d declared g =
      let h := (declared.map (·.1)).foldl Graph.claimOwnership g
      some (h, (declared.map (·.1)).flatMap (Graph.conformanceGaps d h) ++
        declared.flatMap fun (id, key) => h.memberIssues id key) := by
  have hindex : ∀ {h : Graph}, h.disowned = g.disowned → ∀ o ∈ declared, o.1 < h.entities.size := fun hh o ho =>
    size_of_outline_eq (outline_of_disowned_eq hh) ▸ hdeclared o ho
  have hindex' : ∀ {h : Graph}, h.disowned = g.disowned → ∀ o ∈ declared.map (·.1), o < h.entities.size := by
    intro h hh o ho
    obtain ⟨object, hobject, rfl⟩ := List.mem_map.1 ho
    exact hindex hh object hobject
  have hclaimed : (declared.map (·.1)).foldlM claimOwnership g =
      some ((declared.map (·.1)).foldl Graph.claimOwnership g) := by
    refine foldlM_eq (fun h => h.Intact ∧ h.disowned = g.disowned) (fun h hh o ho => ?_) ⟨hg, rfl⟩
    exact ⟨claimOwnership_eq hh.1 (hindex' hh.2 o ho), intact_claimOwnership hh.1 o,
      (disowned_foldl_claimOwnership h [o]).trans hh.2⟩
  have hintact := intact_foldl_claimOwnership hg (declared.map (·.1))
  have hsame := disowned_foldl_claimOwnership g (declared.map (·.1))
  simp only [claimAndCheck, hclaimed, Option.bind_eq_bind, Option.bind_some]
  rw [flatMap_eq fun o ho => conformanceGaps_eq hintact (hindex' hsame o ho) d,
    flatMap_eq fun o ho => memberIssues_eq hintact (hindex hsame o ho) o.2]
  rfl

end Parts

private theorem resolveObjects_eq {g : Graph} (hg : Standing 1 g) (d : Declarations)
    {declared : List (EntityId × String)} (hdeclared : declared.map (·.1) = g.idsOfKind .object) :
    resolveObjects d declared g = some (Graph.resolveObjects d declared g) := by
  have hindex : ∀ {h : Graph}, h.outline = g.outline → ∀ o ∈ declared, o.1 < h.entities.size := by
    intro h hh o ho
    have hobject : o.1 ∈ g.idsOfKind .object := hdeclared ▸ List.mem_map_of_mem ho
    exact size_of_outline_eq hh ▸ g.lt_size_of_mem_idsOfKind hobject
  have hlinked := advances_linked hg declared
  have hprepared := advances_prepared d hg hdeclared
  have hsettled := advances_settled hprepared.standing
  have hjoined := advances_joined hprepared.standing
  simp only [resolveObjects, Graph.resolveObjects, bindNames_eq (hindex rfl) hg, Option.bind_eq_bind, Option.bind_some]
  refine andThen_eq (andThen_eq (andThen_eq (andThen_eq (andThen_eq rfl ?expand) ?inherit) ?check) ?relate) ?claim
  case expand =>
    refine gather_eq (Advances 1 g) (fun h hh o ho => ?_) hlinked
    have ho' := hindex hh.outline o ho
    exact ⟨expandDeclared_eq d hh.standing ho', hh.trans (advances_expandDeclared d hh.standing ho')⟩
  case inherit =>
    exact resolveInheritance_eq (hprepared.standing.mono (Nat.le_succ 1))
  case check =>
    exact checkAttributes_eq (hindex (hsettled.outline.trans hprepared.outline)) hsettled.standing.intact.toSound
  case relate =>
    exact resolveRelationships_eq (hsettled.standing.mono (Nat.le_succ 2))
  case claim =>
    exact claimAndCheck_eq (hindex (hjoined.outline.trans hprepared.outline)) hjoined.standing.intact d

end Checked

end Graph

/-- Whatever a metamodel declares, its graph is intact from the start and after every stage of resolution, all indices
that it has stored are in range, and each entity and each declared object stands where its index says.  Nor does any
step on the way use an index that is out of range: each stage has an outcome with checked look-ups and changes alone. -/
theorem Session.intact_of_every_stage (d : Declarations) (config : Config) :
    let started := Session.start d config
    let interfaces := started.resolveInterfaces.2
    let embedded := interfaces.resolveEmbeddedValues.2
    let objects := embedded.resolveObjects.2
    (∀ s ∈ [started, interfaces, embedded, objects],
      s.graph.Intact ∧ s.graph.InRange ∧ (∀ i < s.graph.entities.size, (s.graph.entity i).id = i) ∧
        ∀ o ∈ s.declared, o.1 < s.graph.entities.size ∧ (s.graph.entity o.1).kind = .object) ∧
      Graph.Checked.ofDeclarations config d = some (Graph.ofDeclarations config d) ∧
      Graph.Checked.registerInterfaces d started.graph = some (started.graph.registerInterfaces d) ∧
      Graph.Checked.resolveEmbeddedValues interfaces.graph = some interfaces.graph.resolveEmbeddedValues ∧
      Graph.Checked.resolveObjects d embedded.declared embedded.graph =
        some (Graph.resolveObjects d embedded.declared embedded.graph) := by
  intro started interfaces embedded objects
  have hstarted : Graph.Standing 0 started.graph := Graph.standing_ofDeclarations config d
  have hinterfaces : Graph.Standing 0 interfaces.graph := Graph.standing_registerInterfaces hstarted d
  have hembedded : Graph.Advances 0 interfaces.graph embedded.graph := Graph.advances_resolveEmbeddedValues hinterfaces
  refine ⟨fun s hs => ?_, Graph.Checked.ofDeclarations_eq config d, Graph.Checked.registerInterfaces_eq d _,
    Graph.Checked.resolveEmbeddedValues_eq hinterfaces, ?_⟩
  · have hintact := Session.intact_graph hs
    refine ⟨hintact, hintact.inRange, fun _ hi => s.graph.id_entity hi, fun o ho => ?_⟩
    exact s.graph.mem_idsOfKind.1 (Session.map_declared hs ▸ List.mem_map_of_mem ho)
  · exact Graph.Checked.resolveObjects_eq (hembedded.standing.mono (Nat.zero_le 1)) d (Graph.staged_spec config d).2

end Metamodel
