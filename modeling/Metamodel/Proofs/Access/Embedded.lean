import Metamodel.Proofs.Access.Basic
import Metamodel.Proofs.Resolution.Integrity

/-!
# Look-ups for embedded values

Checked forms of the steps that settle embedded values, and of those that expand them in the objects that declare them.
Visits go to nested values, and expansions to their types; both have been found in the graph before, and both advance
it, so that they find it standing wherever they go.
-/

namespace Metamodel.Graph.Checked

variable {g : Graph} {n : Nat} {id owner : EntityId}

/-! ### Nesting -/

def checkNested (g : Graph) (id : EntityId) : Option (Found Graph) := do
  let object ← qualifiedName g id
  let names := (← attributesOf g id).map (·.name)
  let nested ← (← entity g id).nested.mapM fun v => do
    return { v with target := ← lookup g v.typeName .embeddedValue : NestedValue }
  return (← modifyEntity g id fun e => { e with nested := nested },
    (repeated [] names).map (duplicateMember object) ++ nestedIssues object names nested)

/-- The cycle is reported under the name of the first entity on it. -/
def cyclicNesting (g : Graph) (cycle : List EntityId) (id : EntityId) : Option Issue := do
  let (first, names) ← namesAlong g (cycle ++ [id])
  return .error .embeddedValues .consistency first none
    ("cyclic nesting of embedded value objects: " ++ " -> ".intercalate names)

def nestedTargets (g : Graph) (id : EntityId) : Option (List EntityId) := do
  return (← entity g id).nested.filterMap (·.target)

def visitNested : Nat → List EntityId → Graph → EntityId → Option (Found Graph)
  | 0, _, g, _ => some (g, [])
  | steps + 1, path, g, id => do
    match ← stateOf g id with
    | .resolved | .failed => return (g, [])
    | .inProgress =>
      let cycle := cycleAt path id
      return (← setStates g cycle .failed, [← cyclicNesting g cycle id])
    | .unresolved =>
      let targets ← nestedTargets g id
      let (g, issues) ← gather (visitNested steps (path ++ [id])) (← setState g id .inProgress) targets
      let states ← targets.mapM (stateOf g)
      let settled := if states.all (· == .resolved) then EntityState.resolved else .failed
      return (← if (← stateOf g id) == .inProgress then setState g id settled else some g, issues)

def resolveEmbeddedValues (g : Graph) : Option (Found Graph) :=
  let ids := g.idsOfKind .embeddedValue
  andThen (gather checkNested g ids) (gather (visitNested (ids.length + 1) []) · ids)

private theorem checkNested_eq (hg : g.Sound) (hid : id < g.entities.size) : checkNested g id = some
    (g.checkNested id) := by
  have hnested : ((g.entity id).nested.mapM fun v =>
        (pure { v with target := g.lookup v.typeName .embeddedValue } : Option NestedValue)) =
      some ((g.entity id).nested.map fun v => { v with target := g.lookup v.typeName .embeddedValue }) :=
    mapM_eq fun _ _ => rfl
  simp only [checkNested, qualifiedName_eq hid, attributesOf_eq hg hid, entity_eq hid, lookup_eq, hnested,
    modifyEntity_eq hid, Option.bind_eq_bind, Option.bind_some]
  rfl

private theorem cyclicNesting_eq {path : List EntityId} (hpath : ∀ o ∈ path, o < g.entities.size)
    (hid : id < g.entities.size) :
    cyclicNesting g (cycleAt path id) id = some (g.cyclicNesting (cycleAt path id) id) := by
  rw [cyclicNesting, cycleAt, namesAlong_eq hpath hid]
  rfl

private theorem nestedTargets_eq (hid : id < g.entities.size) : nestedTargets g id = some (g.nestedTargets id) := by
  rw [nestedTargets, entity_eq hid]
  rfl

/-- The visit of a value goes to values that are in the graph, each nested in the one before. -/
private theorem visitNested_eq (hg : Standing n g) {steps : Nat} {path : List EntityId}
    (hpath : ∀ o ∈ path, o < g.entities.size) (hid : id < g.entities.size) :
    visitNested steps path g id = some (Graph.visitNested steps path g id) := by
  induction steps generalizing path g id with
  | zero => rfl
  | succ steps ih =>
    rw [visitNested, Graph.visitNested, stateOf_eq hid]
    cases hstate : g.stateOf id with
    | resolved => rfl
    | failed => rfl
    | inProgress =>
      have hcycle : ∀ o ∈ cycleAt path id, o < g.entities.size := fun o ho => hpath o (mem_of_mem_dropWhile_ne ho)
      simp only [setStates_eq hcycle, cyclicNesting_eq hpath hid, Option.bind_eq_bind, Option.bind_some]
      rfl
    | unresolved =>
      have hentered := Advances.setState hg id .inProgress
      have hpath' : ∀ o ∈ path ++ [id], o < g.entities.size :=
        List.forall_mem_append.2 ⟨hpath, List.forall_mem_singleton.2 hid⟩
      have htargets : ∀ t ∈ g.nestedTargets id, t < g.entities.size := fun t ht =>
        g.lt_size_of_mem_idsOfKind ((hg.intact.entity_linked id).nested t ht)
      have hbelow : gather (visitNested steps (path ++ [id])) (g.setState id .inProgress) (g.nestedTargets id) =
          some (Metamodel.gather (Graph.visitNested steps (path ++ [id])) (g.setState id .inProgress)
            (g.nestedTargets id)) := by
        refine gather_eq (Advances n g) (fun h hh t ht => ⟨?_, hh.trans (advances_visitNested hh.standing)⟩) hentered
        have hsize := size_of_outline_eq hh.outline
        exact ih hh.standing (fun o ho => hsize ▸ hpath' o ho) (hsize ▸ htargets t ht)
      have hsize : (Metamodel.gather (Graph.visitNested steps (path ++ [id])) (g.setState id .inProgress)
          (g.nestedTargets id)).1.entities.size = g.entities.size :=
        size_of_outline_eq (hentered.trans (.gather hentered.standing fun h hh t _ =>
          advances_visitNested hh.standing)).outline
      simp only [nestedTargets_eq hid, setState_eq hid, hbelow, Option.bind_eq_bind, Option.bind_some]
      generalize Metamodel.gather (Graph.visitNested steps (path ++ [id])) (g.setState id .inProgress)
        (g.nestedTargets id) = visited at hsize
      have hstates : (g.nestedTargets id).mapM (stateOf visited.1) =
          some ((g.nestedTargets id).map visited.1.stateOf) :=
        mapM_eq fun t ht => stateOf_eq (hsize ▸ htargets t ht)
      simp only [hstates, stateOf_eq (hsize ▸ hid), setState_eq (hsize ▸ hid), List.all_map, Option.bind_some]
      split <;> rfl

theorem resolveEmbeddedValues_eq (hg : Standing n g) : resolveEmbeddedValues g = some g.resolveEmbeddedValues := by
  have hlt : ∀ h, Advances n g h → ∀ id ∈ g.idsOfKind .embeddedValue, id < h.entities.size := fun h hh id hid =>
    h.lt_size_of_mem_idsOfKind (hh.mem_idsOfKind hid)
  have hchecked : Advances n g (Metamodel.gather Graph.checkNested g (g.idsOfKind .embeddedValue)).1 :=
    .gather hg fun h hh id _ => advances_checkNested hh.standing id
  unfold resolveEmbeddedValues Graph.resolveEmbeddedValues
  refine andThen_eq ?_ ?_
  · refine gather_eq (Advances n g) (fun h hh id hid => ⟨?_, hh.trans (advances_checkNested hh.standing id)⟩)
      (.refl hg)
    exact checkNested_eq hh.standing.intact.toSound (hlt h hh id hid)
  · refine gather_eq (Advances n g) (fun h hh id hid => ⟨?_, hh.trans (advances_visitNested hh.standing)⟩) hchecked
    exact visitNested_eq hh.standing (by simp) (hlt h hh id hid)

/-! ### Expansion -/

def mapColumn (owner value : EntityId) (valueName : String) (g : Graph) (m : ColumnMapping) :
    Option (Found Graph) := do
  let object ← qualifiedName g owner
  match ← attributeNamed? g value m.member with
  | none => return (g, [expansionIssue .schema object valueName
      ("embedded value object " ++ (← qualifiedName g value) ++ " has no attribute '" ++ m.member ++ "'")])
  | some source =>
    if (← attributesOf g owner).any fun a => a.columnName == some m.columnName then return (g, [])
    else
      let name := m.underlying.getD (valueName ++ Text.firstUpper m.member)
      if ← hasMember g owner name then
        return (g, [expansionIssue .consistency object name ("mapped attribute '" ++ name ++ "' of embedded value '" ++
          valueName ++ "' collides with an existing member")])
      else
        let source ← attributeAt g source
        let settings : MappedSettings :=
          { embeddedValue := valueName
            member := m.member
            columnName := m.columnName
            nullable := source.isNullable
            maxLength := source.maxLength }
        return (← addAttribute g (.ofMapping name source.dataType settings owner (← entity g owner).defaults), [])

def nestedTarget? (g : Graph) (value : EntityId) (name : String) : Option (Option EntityId) := do
  return ((← entity g value).nested.find? (·.name == name)).bind (·.target)

mutual

def expand (owner : EntityId) (path : List String) (value : EntityId) (g : Graph) :
    EmbeddedValueDeclaration → Option (Found Graph)
  | .mk name _ mappings nested =>
    let path := path ++ [name]
    andThen (gather (mapColumn owner value (nestedName path)) g mappings) fun g =>
      expandNested owner path value g nested

def expandNested (owner : EntityId) (path : List String) (value : EntityId) (g : Graph) :
    List EmbeddedValueDeclaration → Option (Found Graph)
  | [] => some (g, [])
  | d :: ds => do
    let here := match ← nestedTarget? g value d.name with
      | some target => expand owner path target g d
      | none => do
        return (g, [expansionIssue .schema (← qualifiedName g owner) (nestedName path)
          ("embedded value object " ++ (← qualifiedName g value) ++ " has no nested object '" ++ d.name ++ "'")])
    andThen here fun g => expandNested owner path value g ds

end

def expandValue (owner : EntityId) (g : Graph) (d : EmbeddedValueDeclaration) : Option (Found Graph) := do
  let issue := expansionIssue .schema (← qualifiedName g owner) d.name
  match d.typeName with
  | none => return (g, [issue ("embedded value '" ++ d.name ++ "' does not declare its type")])
  | some typeName =>
    match ← lookup g typeName .embeddedValue with
    | none => return (g, [issue ("embedded value type '" ++ typeName ++ "' is not defined")])
    | some value =>
      if ← isFailed g value then
        return (g, [issue ("embedded value type '" ++ typeName ++ "' failed resolution")])
      else expand owner [] value g d

def expandDeclared (d : Declarations) (g : Graph) (object : EntityId × String) : Option (Found Graph) :=
  match d.objects.find? object.2 with
  | some decl => gather (expandValue object.1) g decl.embeddedValues
  | none => some (g, [])

private theorem mapColumn_eq (hg : g.Sound) {value : EntityId} (howner : owner < g.entities.size)
    (hvalue : value < g.entities.size) (valueName : String) (m : ColumnMapping) :
    mapColumn owner value valueName g m = some (Graph.mapColumn owner value valueName g m) := by
  simp only [mapColumn, Graph.mapColumn, qualifiedName_eq howner, attributeNamed?_eq hg hvalue, qualifiedName_eq hvalue,
    attributesOf_eq hg howner, hasMember_eq hg howner, entity_eq howner, Option.bind_eq_bind, Option.bind_some]
  cases hsource : g.attributeNamed? value m.member with
  | none => rfl
  | some source =>
    simp only [attributeAt_eq (hg.attributeNamed_lt hsource), Option.bind_some]
    split
    · rfl
    · split
      · rfl
      · rw [addAttribute_eq (by exact howner)]
        rfl

private theorem nestedTarget?_eq (hid : id < g.entities.size) (name : String) :
    nestedTarget? g id name = some (g.nestedTarget? id name) := by
  rw [nestedTarget?, entity_eq hid]
  rfl

section Expansion

variable (howner : owner < g.entities.size)

include howner

mutual

/-- Nested uses go down to the types that are nested in the type of the value. -/
private theorem expand_eq (path : List String) {value : EntityId} {h : Graph} (hh : Advances 1 g h)
    (hvalue : value < g.entities.size) :
    (d : EmbeddedValueDeclaration) → expand owner path value h d = some (Graph.expand owner path value h d)
  | .mk name _ mappings nested => by
    rw [expand, Graph.expand]
    have hkept := keptByMapping_advances howner
    refine andThen_eq (gather_eq (Advances 1 g) (fun k hk m _ => ⟨?_, hkept.mapColumn value _ hk m⟩) hh) ?_
    · have hsize := size_of_outline_eq hk.outline
      exact mapColumn_eq hk.standing.intact.toSound (hsize ▸ howner) (hsize ▸ hvalue) _ m
    · have hmapped : Advances 1 g (Metamodel.gather (Graph.mapColumn owner value (nestedName (path ++ [name]))) h
          mappings).1 :=
        gather_invariant (Advances 1 g) (fun k m _ hk => hkept.mapColumn value _ hk m) hh
      exact expandNested_eq _ hmapped hvalue nested

private theorem expandNested_eq (path : List String) {value : EntityId} {h : Graph} (hh : Advances 1 g h)
    (hvalue : value < g.entities.size) :
    (ds : List EmbeddedValueDeclaration) →
      expandNested owner path value h ds = some (Graph.expandNested owner path value h ds)
  | [] => by
    rw [expandNested, Graph.expandNested]
  | d :: ds => by
    have hsize := size_of_outline_eq hh.outline
    have hvalue' : value < h.entities.size := hsize ▸ hvalue
    rw [expandNested, Graph.expandNested, nestedTarget?_eq hvalue']
    simp only [Option.bind_eq_bind, Option.bind_some]
    cases htarget : h.nestedTarget? value d.name with
    | none =>
      refine andThen_eq ?_ (expandNested_eq path hh hvalue ds)
      simp only [qualifiedName_eq hvalue', qualifiedName_eq (hsize ▸ howner), Option.bind_some]
      rfl
    | some target =>
      have hlinked : target < g.entities.size := by
        obtain ⟨v, hv, hvt⟩ := Option.bind_eq_some_iff.1 htarget
        have hmem := List.mem_filterMap.2 ⟨v, List.mem_of_find?_eq_some hv, hvt⟩
        exact hsize ▸ h.lt_size_of_mem_idsOfKind ((hh.standing.intact.entity_linked value).nested target hmem)
      refine andThen_eq (expand_eq path hh hlinked d) ?_
      exact expandNested_eq path ((keptByMapping_advances howner).expand path target hh d) hvalue ds

end

private theorem expandValue_eq {h : Graph} (hh : Advances 1 g h) (d : EmbeddedValueDeclaration) :
    expandValue owner h d = some (Graph.expandValue owner h d) := by
  have hsize := size_of_outline_eq hh.outline
  simp only [expandValue, Graph.expandValue, qualifiedName_eq (hsize ▸ howner), Option.bind_eq_bind, Option.bind_some]
  cases d.typeName with
  | none => rfl
  | some typeName =>
    simp only [lookup_eq, Option.bind_some]
    cases hlookup : h.lookup typeName .embeddedValue with
    | none => rfl
    | some value =>
      have hvalue := h.lt_size_of_lookup hlookup
      simp only [isFailed_eq hvalue, Option.bind_some]
      split
      · rfl
      · exact expand_eq howner [] hh (hsize ▸ hvalue) d

end Expansion

theorem expandDeclared_eq (d : Declarations) (hg : Standing 1 g) {object : EntityId × String}
    (howner : object.1 < g.entities.size) : expandDeclared d g object = some (Graph.expandDeclared d g object) := by
  unfold expandDeclared Graph.expandDeclared
  cases d.objects.find? object.2 with
  | none => rfl
  | some decl =>
    refine gather_eq (Advances 1 g) (fun h hh v _ => ⟨expandValue_eq howner hh v, ?_⟩) (.refl hg)
    exact (keptByMapping_advances howner).expandValue hh v

end Metamodel.Graph.Checked
