import Metamodel.Proofs.Access.Basic
import Metamodel.Proofs.Resolution.Integrity

/-!
# Look-ups for inheritance

Checked forms of the way up to the superclasses and of the merges on the way back.  The superclass is found by name, and
its members are those that its lists refer to, so that all of them exist before the subclass gets copies of its own.
-/

namespace Metamodel.Graph.Checked

variable {g : Graph} {parent child id : EntityId}

/-! ### Merges -/

def collect {α : Type} (step : Graph → α → Option (Graph × List MemberConflict)) :
    Graph → List α → Option (Graph × List MemberConflict)
  | g, [] => some (g, [])
  | g, a :: as => do
    let (g, here) ← step g a
    let (g, later) ← collect step g as
    return (g, here ++ later)

def addInheritedAttribute (child : EntityId) (g : Graph) (a : Attribute) : Option Graph := do
  addAttribute g (a.inheritedBy child (← entity g child).defaults)

def inheritAttribute (child : EntityId) (parentSource : Option AttributeId) (ownSource : Bool) (g : Graph)
    (id : AttributeId) : Option (Graph × List MemberConflict) := do
  let a ← attributeAt g id
  if some id = parentSource then
    if ownSource then return (g, [])
    else
      let h ← addInheritedAttribute child g a
      return (← modifyEntity h child fun e => { e with source := some g.attributes.size }, [])
  else match ← attributeNamed? g child a.name with
    | none => return (← addInheritedAttribute child g a, [])
    | some own =>
      let (merged, conflicts) := (← attributeAt g own).mergedWith a
      return (← modifyAttribute g own fun _ => merged, conflicts.map fun message => (a.name, message))

def inheritRelationship (child : EntityId) (g : Graph) (id : RelationshipId) :
    Option (Graph × List MemberConflict) := do
  let r ← relationshipAt g id
  if r.isReverse then return (g, [])
  else match ← relationshipNamed? g child r.name with
    | none => return (← addRelationship g (r.inheritedBy child), [])
    | some own =>
      let (merged, conflicts) := (← relationshipAt g own).mergedWith r
      return (← modifyRelationship g own fun _ => merged, conflicts.map fun message => (r.name, message))

def sourceConflicts (g : Graph) (parent child : EntityId) : Option (List MemberConflict) := do
  match (← entity g parent).source, (← entity g child).source with
  | some _, some own => return [overriddenSource (← attributeAt g own)]
  | _, _ => return []

def mergeMembers (g : Graph) (parent child : EntityId) : Option (Graph × List MemberConflict) := do
  let source := (← entity g parent).source
  let ownSource := (← entity g child).source.isSome
  let (merged, attributes) ← collect (inheritAttribute child source ownSource) g (← entity g parent).attributes
  let (merged, relationships) ← collect (inheritRelationship child) merged (← entity merged parent).relationships
  return (merged, (← sourceConflicts g parent child) ++ attributes ++ relationships)

private theorem collect_eq {α : Type} {n : Nat} {as : List α} {step? : Graph → α → Option (Graph × List MemberConflict)}
    {step : Graph → α → Graph × List MemberConflict} (hg : Standing n g)
    (hstep : ∀ h, Advances n g h → ∀ a ∈ as, step? h a = some (step h a) ∧ Advances n h (step h a).1) :
    collect step? g as = some (Graph.collect step g as) := by
  induction as generalizing g with
  | nil => rfl
  | cons a as ih =>
    obtain ⟨hfirst, hadvanced⟩ := hstep g (.refl hg) a List.mem_cons_self
    have hlater := ih hadvanced.standing fun h hh b hb => hstep h (hadvanced.trans hh) b (List.mem_cons_of_mem _ hb)
    simp only [collect, Graph.collect, hfirst, hlater, Option.bind_eq_bind, Option.bind_some]
    rfl

private theorem addInheritedAttribute_eq (hchild : child < g.entities.size) (a : Attribute) :
    addInheritedAttribute child g a = some (Graph.addInheritedAttribute child g a) := by
  rw [addInheritedAttribute, entity_eq hchild]
  exact addAttribute_eq (by exact hchild)

private theorem inheritAttribute_eq (hg : g.Sound) (hchild : child < g.entities.size) {a : AttributeId}
    (ha : a < g.attributes.size) (source : Option AttributeId) (ownSource : Bool) :
    inheritAttribute child source ownSource g a = some (Graph.inheritAttribute child source ownSource g a) := by
  have hchild' : child < (Graph.addInheritedAttribute child g (g.attributeAt a)).entities.size := by
    simpa [Graph.addInheritedAttribute] using hchild
  simp only [inheritAttribute, Graph.inheritAttribute, attributeAt_eq ha, addInheritedAttribute_eq hchild,
    modifyEntity_eq hchild', attributeNamed?_eq hg hchild, Option.bind_eq_bind, Option.bind_some]
  split
  · split <;> rfl
  · cases hown : g.attributeNamed? child (g.attributeAt a).name with
    | none => rfl
    | some own =>
      have hlt := hg.attributeNamed_lt hown
      simp only [attributeAt_eq hlt, modifyAttribute_eq hlt, Option.bind_some]
      rfl

private theorem inheritRelationship_eq (hg : g.Sound) (hchild : child < g.entities.size) {r : RelationshipId}
    (hr : r < g.relationships.size) :
    inheritRelationship child g r = some (Graph.inheritRelationship child g r) := by
  simp only [inheritRelationship, Graph.inheritRelationship, relationshipAt_eq hr, relationshipNamed?_eq hg hchild,
    Option.bind_eq_bind, Option.bind_some]
  split
  · rfl
  · cases hown : g.relationshipNamed? child (g.relationshipAt r).name with
    | none =>
      rw [addRelationship_eq (by exact hchild)]
      rfl
    | some own =>
      have hlt := hg.relationshipNamed_lt hown
      simp only [relationshipAt_eq hlt, modifyRelationship_eq hlt, Option.bind_some]
      rfl

private theorem sourceConflicts_eq (hg : g.Intact) (hparent : parent < g.entities.size)
    (hchild : child < g.entities.size) :
    sourceConflicts g parent child = some (g.sourceConflicts parent child) := by
  simp only [sourceConflicts, Graph.sourceConflicts, entity_eq hparent, entity_eq hchild, Option.bind_eq_bind,
    Option.bind_some]
  cases (g.entity parent).source with
  | none => rfl
  | some _ =>
    cases hown : (g.entity child).source with
    | none => rfl
    | some own =>
      simp only [attributeAt_eq (hg.toSound.source_lt hown), Option.bind_some]
      rfl

/-- The members of the superclass exist before the merge, and all that it adds goes to the subclass. -/
private theorem mergeMembers_eq (hg : Standing 2 g) (hparent : parent < g.entities.size)
    (hchild : child ∈ g.idsOfKind .object) : mergeMembers g parent child = some (g.mergeMembers parent child) := by
  have hindex := g.lt_size_of_mem_idsOfKind hchild
  have hindex' : ∀ {h}, Advances 2 g h → child < h.entities.size := fun hh => size_of_outline_eq hh.outline ▸ hindex
  have hattribute : ∀ h, Advances 2 g h → ∀ a ∈ (g.entity parent).attributes,
      inheritAttribute child (g.entity parent).source (g.entity child).source.isSome h a =
        some (Graph.inheritAttribute child (g.entity parent).source (g.entity child).source.isSome h a) ∧
      Advances 2 h (Graph.inheritAttribute child (g.entity parent).source (g.entity child).source.isSome h a).1 := by
    intro h hh a ha
    obtain ⟨hlt, hsame⟩ := hh.attributes a (hg.intact.attribute_owned parent a ha).1
    refine ⟨inheritAttribute_eq hh.standing.intact.toSound (hindex' hh) hlt _ _, ?_⟩
    refine advances_inheritAttribute hh.standing (hindex' hh) hlt fun hsource => ?_
    rw [hsame]
    exact hg.intact.source_isSource parent a hsource.symm
  have hattributes := collect_eq hg hattribute
  have hadvanced := Advances.collect hg fun h hh a ha => (hattribute h hh a ha).2
  simp only [mergeMembers, Graph.mergeMembers, entity_eq hparent, entity_eq hindex, sourceConflicts_eq hg.intact hparent
    hindex, hattributes, Option.bind_eq_bind, Option.bind_some]
  generalize Graph.collect (Graph.inheritAttribute child (g.entity parent).source (g.entity child).source.isSome) g
    (g.entity parent).attributes = merged at hadvanced
  have hrelationships : collect (inheritRelationship child) merged.1 (merged.1.entity parent).relationships =
      some (Graph.collect (Graph.inheritRelationship child) merged.1 (merged.1.entity parent).relationships) := by
    refine collect_eq hadvanced.standing fun h hh r hr => ?_
    have hlt := (hadvanced.standing.intact.relationship_owned parent r hr).1
    have hlt' := Nat.lt_of_lt_of_le hlt hh.relationships
    refine ⟨inheritRelationship_eq hh.standing.intact.toSound (hindex' (hadvanced.trans hh)) hlt', ?_⟩
    exact advances_inheritRelationship hh.standing (hh.mem_idsOfKind (hadvanced.mem_idsOfKind hchild)) hlt'
  have hparent' : parent < merged.1.entities.size := size_of_outline_eq hadvanced.outline ▸ hparent
  simp only [entity_eq hparent', hrelationships, Option.bind_some]
  rfl

/-! ### The way up -/

def inheritanceIssue (g : Graph) (kind : IssueKind) (id : EntityId) (member : Option String) (message : String) :
    Option Issue := do
  return .error .inheritance kind (← qualifiedName g id) member message

def inheritFrom (g : Graph) (superName : String) (parent id : EntityId) : Option (Found Graph) := do
  if (← stateOf g parent) != .resolved then
    if ← isFailed g id then return (g, [])
    else
      return (← setState g id .failed, [← inheritanceIssue g .consistency id none
        ("superclass '" ++ superName ++ "' of '" ++ (← qualifiedName g id) ++ "' failed resolution")])
  else
    let (merged, conflicts) ← mergeMembers g parent id
    return (← setState merged id (if conflicts.isEmpty then .resolved else .failed),
      ← conflicts.mapM fun (member, message) => inheritanceIssue g .schema id (some member) message)

/-- A cycle is reported under the name of the first entity on it. -/
def cyclicInheritance (g : Graph) (cycle : List EntityId) (id : EntityId) : Option Issue := do
  let (first, names) ← namesAlong g (cycle ++ [id])
  return .error .inheritance .consistency first none
    ("cyclic superclass chain " ++ " -> ".intercalate names)

def settle : Nat → List EntityId → Graph → EntityId → Option (Found Graph)
  | 0, _, g, _ => some (g, [])
  | steps + 1, path, g, id => do
    match ← stateOf g id with
    | .resolved | .failed => return (g, [])
    | .inProgress =>
      let cycle := superCycle path id
      return (← setStates g cycle .failed, [← cyclicInheritance g cycle id])
    | .unresolved =>
      match (← entity g id).superName with
      | none => return (← setState g id .resolved, [])
      | some superName =>
        match ← lookup g superName .object with
        | none => return (← setState g id .failed,
            [← inheritanceIssue g .schema id none ("SuperClass name '" ++ superName ++ "' not defined")])
        | some parent =>
          let g ← modifyEntity g id fun e => { e with superEntity := some parent, state := .inProgress }
          andThen (settle steps (path ++ [id]) g parent) fun g => inheritFrom g superName parent id

def resolveInheritance (g : Graph) : Option (Found Graph) :=
  let ids := g.idsOfKind .object
  gather (settle (ids.length + 1) []) g ids

private theorem inheritanceIssue_eq (hid : id < g.entities.size) (kind : IssueKind) (member : Option String)
    (message : String) :
    inheritanceIssue g kind id member message = some (g.inheritanceIssue kind id member message) := by
  rw [inheritanceIssue, qualifiedName_eq hid]
  rfl

private theorem inheritFrom_eq (hg : Standing 2 g) (superName : String) (hparent : parent < g.entities.size)
    (hid : id ∈ g.idsOfKind .object) :
    inheritFrom g superName parent id = some (g.inheritFrom superName parent id) := by
  have hindex := g.lt_size_of_mem_idsOfKind hid
  simp only [inheritFrom, Graph.inheritFrom, stateOf_eq hparent, isFailed_eq hindex, setState_eq hindex,
    qualifiedName_eq hindex, inheritanceIssue_eq hindex, mergeMembers_eq hg hparent hid, Option.bind_eq_bind,
    Option.bind_some]
  split
  · split <;> rfl
  · have hmerged := advances_mergeMembers hg parent hid
    have hissues : (g.mergeMembers parent id).2.mapM (fun (member, message) =>
          some (g.inheritanceIssue .schema id (some member) message)) =
        some ((g.mergeMembers parent id).2.map fun (member, message) =>
          g.inheritanceIssue .schema id (some member) message) :=
      mapM_eq fun _ _ => rfl
    simp only [setState_eq (size_of_outline_eq hmerged.outline ▸ hindex), hissues, Option.bind_some]
    rfl

/-- A visit goes to objects that are in the graph, each the superclass of the one before. -/
private theorem settle_eq (hg : Standing 2 g) {steps : Nat} {path : List EntityId}
    (hpath : ∀ o ∈ path, o < g.entities.size)
    (hid : id ∈ g.idsOfKind .object) : settle steps path g id = some (Graph.settle steps path g id) := by
  induction steps generalizing path g id with
  | zero => rfl
  | succ steps ih =>
    have hindex := g.lt_size_of_mem_idsOfKind hid
    rw [settle, Graph.settle, stateOf_eq hindex]
    cases hstate : g.stateOf id with
    | resolved => rfl
    | failed => rfl
    | inProgress =>
      have hcycle : ∀ o ∈ superCycle path id, o < g.entities.size := fun o ho => hpath o (mem_of_mem_dropWhile_ne ho)
      have hissue : cyclicInheritance g (superCycle path id) id = some (g.inheritanceIssue .consistency id none
          ("cyclic superclass chain " ++ " -> ".intercalate ((superCycle path id ++ [id]).map g.qualifiedName))) := by
        rw [cyclicInheritance, superCycle, namesAlong_eq hpath hindex]
        rfl
      simp only [setStates_eq hcycle, hissue, Option.bind_eq_bind, Option.bind_some]
      rfl
    | unresolved =>
      simp only [entity_eq hindex, Option.bind_eq_bind, Option.bind_some]
      cases (g.entity id).superName with
      | none =>
        simp only [setState_eq hindex, Option.bind_some]
        rfl
      | some superName =>
        simp only [lookup_eq, Option.bind_some]
        cases hlookup : g.lookup superName .object with
        | none =>
          simp only [setState_eq hindex, inheritanceIssue_eq hindex, Option.bind_some]
          rfl
        | some parent =>
          have hparent := g.mem_idsOfKind_of_lookup hlookup
          have hentered := advances_enter hg id hparent
          have hparent' := hentered.mem_idsOfKind hparent
          have habove := @advances_settle _ hentered.standing steps (path ++ [id]) _ hparent'
          have hpath' : ∀ o ∈ path ++ [id], o < g.entities.size :=
            List.forall_mem_append.2 ⟨hpath, List.forall_mem_singleton.2 hindex⟩
          simp only [modifyEntity_eq hindex, Option.bind_some]
          refine andThen_eq (ih hentered.standing ?_ hparent') ?_
          · exact fun o ho => size_of_outline_eq hentered.outline ▸ hpath' o ho
          · have hkept := hentered.trans habove
            have hindex' := Graph.lt_size_of_mem_idsOfKind _ (hkept.mem_idsOfKind hparent)
            exact inheritFrom_eq hkept.standing superName hindex' (hkept.mem_idsOfKind hid)

theorem resolveInheritance_eq (hg : Standing 2 g) : resolveInheritance g = some g.resolveInheritance := by
  refine gather_eq (Advances 2 g) (fun h hh id hid => ?_) (.refl hg)
  have hid' := hh.mem_idsOfKind hid
  exact ⟨settle_eq hh.standing (by simp) hid', hh.trans (advances_settle hh.standing hid')⟩

end Metamodel.Graph.Checked
