import Metamodel.Proofs.Graph.Erasure
import Metamodel.Proofs.Resolution.Success

/-!
# Noninterference of the configuration

The defaults of members and the severity of warnings come from the configuration, and no step of resolution looks at
either: every step does the same to a graph without defaults, and finds the same issues there.  So two runs on the same
declarations raise the same issues in the same order, whatever their configurations are, and end with the same graph
but for the defaults (`Declarations.outcome_withoutDefaults`).  Success, which is decided by what the issues count as,
follows from that (`Declarations.resolve_noninterference`).
-/

namespace Metamodel

namespace Graph

variable (g : Graph)

/-! ### Interfaces -/

private theorem flatten_withoutDefaults (d : Declarations) (decl : InterfaceDeclaration) :
    Interface.flatten d g.withoutDefaults decl = Interface.flatten d g decl := by
  have hrelationship : Interface.withRelationship d g.withoutDefaults = Interface.withRelationship d g := by
    funext declaredBy i r
    simp only [Interface.withRelationship, lookup_withoutDefaults, qualifiedName_withoutDefaults]
  have hmembers : Interface.withMembersOf d g.withoutDefaults = Interface.withMembersOf d g := by
    funext i source
    simp only [Interface.withMembersOf, hrelationship]
  simp only [Interface.flatten, hmembers]

private theorem registerInterfaces_withoutDefaults (d : Declarations) :
    g.withoutDefaults.registerInterfaces d = (g.registerInterfaces d).map withoutDefaults := by
  have hstep : ∀ (cyclic : List String) (h : Graph) (entry : String × InterfaceDeclaration),
      registerInterface d cyclic h.withoutDefaults entry = (registerInterface d cyclic h entry).map withoutDefaults := by
    intro cyclic h entry
    simp only [registerInterface, flatten_withoutDefaults]
    split
    · rfl
    · split
      · rfl
      · rfl
  simp only [registerInterfaces, gather_map (hstep _)]
  rfl

/-! ### Embedded values -/

private theorem checkNested_withoutDefaults (id : EntityId) :
    g.withoutDefaults.checkNested id = (g.checkNested id).map withoutDefaults := by
  have hnames : (g.withoutDefaults.attributesOf id).map (·.name) = (g.attributesOf id).map (·.name) := by
    simp [Attribute.withoutDefaults]
  simp only [checkNested, hnames, qualifiedName_withoutDefaults, lookup_withoutDefaults, entity_withoutDefaults,
    Found.map_mk]
  exact Prod.ext (g.modifyEntity_withoutDefaults id fun _ => rfl) rfl

private theorem nestedTargets_withoutDefaults : g.withoutDefaults.nestedTargets = g.nestedTargets := by
  funext id
  rw [nestedTargets, entity_withoutDefaults]
  rfl

private theorem visitNested_withoutDefaults (steps : Nat) (path : List EntityId) (id : EntityId) :
    visitNested steps path g.withoutDefaults id = (visitNested steps path g id).map withoutDefaults := by
  induction steps generalizing path g id with
  | zero => rfl
  | succ steps ih =>
    have hgather := gather_map fun h t => ih h (path ++ [id]) t
    simp only [visitNested, stateOf_withoutDefaults, nestedTargets_withoutDefaults, setState_withoutDefaults,
      setStates_withoutDefaults, hgather]
    split
    · rfl
    · rfl
    · simp only [cyclicNesting, qualifiedName_withoutDefaults]
      rfl
    · simp only [Found.map, stateOf_withoutDefaults, setState_withoutDefaults, apply_ite withoutDefaults]

private theorem resolveEmbeddedValues_withoutDefaults :
    g.withoutDefaults.resolveEmbeddedValues = g.resolveEmbeddedValues.map withoutDefaults := by
  simp only [resolveEmbeddedValues, idsOfKind_withoutDefaults, gather_map checkNested_withoutDefaults]
  exact Found.map_andThen fun h => gather_map (fun k id => k.visitNested_withoutDefaults _ [] id) h _

/-! ### Names -/

private theorem bindRelationships_withoutDefaults (object : EntityId × String) :
    g.withoutDefaults.bindRelationships object = (g.bindRelationships object).map withoutDefaults := by
  have hstep : ∀ (h : Graph) (r : RelationshipId),
      bindRelated object.2 h.withoutDefaults r = (bindRelated object.2 h r).map withoutDefaults := by
    intro h r
    simp only [bindRelated, relationshipAt_withoutDefaults, lookup_withoutDefaults]
    split <;> rfl
  rw [bindRelationships, entity_withoutDefaults]
  exact gather_map hstep g _

private theorem bindEnumeration_withoutDefaults (a : AttributeId) :
    g.withoutDefaults.bindEnumeration a = (g.bindEnumeration a).withoutDefaults := by
  have hkind : (g.attributeAt a).withoutDefaults.kind = (g.attributeAt a).kind := rfl
  simp only [bindEnumeration, attributeAt_withoutDefaults, hkind, lookup_withoutDefaults, entity_withoutDefaults]
  split
  · split
    · rfl
    · exact g.modifyAttribute_withoutDefaults a fun _ => rfl
  · rfl

private theorem bindEnumerations_withoutDefaults (owner : EntityId) :
    g.withoutDefaults.bindEnumerations owner = (g.bindEnumerations owner).withoutDefaults := by
  rw [bindEnumerations, entity_withoutDefaults]
  exact List.foldl_hom withoutDefaults fun h a => h.bindEnumeration_withoutDefaults a

/-! ### Mapped attributes -/

private theorem mapColumn_withoutDefaults (owner value : EntityId) (valueName : String) (m : ColumnMapping) :
    mapColumn owner value valueName g.withoutDefaults m =
      (mapColumn owner value valueName g m).map withoutDefaults := by
  have hcolumns : ((g.withoutDefaults.attributesOf owner).any fun a => a.columnName == some m.columnName) =
      (g.attributesOf owner).any fun a => a.columnName == some m.columnName := by
    rw [attributesOf_withoutDefaults, List.any_map]
    rfl
  simp only [mapColumn, attributeNamed?_withoutDefaults, qualifiedName_withoutDefaults, hcolumns,
    hasMember_withoutDefaults, attributeAt_withoutDefaults, entity_withoutDefaults]
  split
  · rfl
  · split
    · rfl
    · split
      · rfl
      · rw [Found.map_mk, ← addAttribute_withoutDefaults]
        rfl

private theorem nestedTarget?_withoutDefaults : g.withoutDefaults.nestedTarget? = g.nestedTarget? := by
  funext value name
  rw [nestedTarget?, entity_withoutDefaults]
  rfl

mutual

private theorem expand_withoutDefaults (owner : EntityId) (path : List String) (value : EntityId) (g : Graph) :
    ∀ d, expand owner path value g.withoutDefaults d = (expand owner path value g d).map withoutDefaults
  | .mk name _ mappings nested => by
    rw [expand, expand, gather_map fun h m => h.mapColumn_withoutDefaults owner value _ m]
    exact Found.map_andThen fun h => expandNested_withoutDefaults owner (path ++ [name]) value h nested

private theorem expandNested_withoutDefaults (owner : EntityId) (path : List String) (value : EntityId) (g : Graph) :
    ∀ ds, expandNested owner path value g.withoutDefaults ds = (expandNested owner path value g ds).map withoutDefaults
  | [] => by
    rw [expandNested, expandNested]
    rfl
  | d :: ds => by
    rw [expandNested, expandNested, nestedTarget?_withoutDefaults, qualifiedName_withoutDefaults]
    have hrest : ∀ h : Graph, expandNested owner path value h.withoutDefaults ds =
        (expandNested owner path value h ds).map withoutDefaults := fun h =>
      expandNested_withoutDefaults owner path value h ds
    split
    · rw [expand_withoutDefaults owner path _ g d]
      exact Found.map_andThen hrest
    · exact Found.map_andThen (x := (g, _)) hrest

end

private theorem expandDeclared_withoutDefaults (d : Declarations) (object : EntityId × String) :
    expandDeclared d g.withoutDefaults object = (expandDeclared d g object).map withoutDefaults := by
  have hstep : ∀ (h : Graph) (v : EmbeddedValueDeclaration),
      expandValue object.1 h.withoutDefaults v = (expandValue object.1 h v).map withoutDefaults := by
    intro h v
    simp only [expandValue, qualifiedName_withoutDefaults, lookup_withoutDefaults, isFailed_withoutDefaults]
    split
    · rfl
    · split
      · rfl
      · split
        · rfl
        · exact expand_withoutDefaults object.1 [] _ h v
  unfold expandDeclared
  split
  · exact gather_map hstep g _
  · rfl

/-! ### Inheritance -/

private theorem mergedWith_withoutDefaults (a t : Attribute) :
    a.withoutDefaults.mergedWith t.withoutDefaults = ((a.mergedWith t).1.withoutDefaults, (a.mergedWith t).2) := by
  have hconflicts : a.withoutDefaults.conflicts t.withoutDefaults = a.conflicts t := rfl
  have hfilled : a.withoutDefaults.filledFrom t.withoutDefaults = (a.filledFrom t).withoutDefaults := by
    have hkinds : a.withoutDefaults.kind = a.kind ∧ t.withoutDefaults.kind = t.kind := ⟨rfl, rfl⟩
    simp only [Attribute.filledFrom, hkinds]
    split <;> rfl
  simp only [Attribute.mergedWith, hconflicts, hfilled]
  split <;> rfl

/-- The step finds the same conflicts in a graph without defaults, and leaves the same graph but for the defaults. -/
def MergesAlike {α : Type} (step : Graph → α → Graph × List MemberConflict) : Prop :=
  ∀ g a, step g.withoutDefaults a = ((step g a).1.withoutDefaults, (step g a).2)

private theorem collect_withoutDefaults {α : Type} {step : Graph → α → Graph × List MemberConflict}
    (hstep : MergesAlike step) : MergesAlike (collect step) := by
  intro g as
  induction as generalizing g with
  | nil => rfl
  | cons a as ih => simp only [collect, hstep g a, ih]

private theorem addInheritedAttribute_withoutDefaults (child : EntityId) (a : Attribute) :
    addInheritedAttribute child g.withoutDefaults a.withoutDefaults =
      (addInheritedAttribute child g a).withoutDefaults := by
  rw [addInheritedAttribute, entity_withoutDefaults]
  exact g.addAttribute_withoutDefaults (a.inheritedBy child (g.entity child).defaults)

private theorem inheritAttribute_withoutDefaults (child : EntityId) (source : Option AttributeId) (ownSource : Bool) :
    MergesAlike (inheritAttribute child source ownSource) := by
  intro g a
  have hname : (g.attributeAt a).withoutDefaults.name = (g.attributeAt a).name := rfl
  simp only [inheritAttribute, attributeAt_withoutDefaults, attributeNamed?_withoutDefaults, hname,
    addInheritedAttribute_withoutDefaults, mergedWith_withoutDefaults, size_attributes_withoutDefaults]
  split
  · split
    · rfl
    · exact Prod.ext (modifyEntity_withoutDefaults _ child fun _ => rfl) rfl
  · split
    · rfl
    · exact Prod.ext (g.modifyAttribute_withoutDefaults _ fun _ => rfl) rfl

private theorem inheritRelationship_withoutDefaults (child : EntityId) : MergesAlike (inheritRelationship child) := by
  intro g r
  simp only [inheritRelationship, relationshipAt_withoutDefaults, relationshipNamed?_withoutDefaults,
    addRelationship_withoutDefaults, modifyRelationship_withoutDefaults]
  split
  · rfl
  · split <;> rfl

private theorem sourceConflicts_withoutDefaults : g.withoutDefaults.sourceConflicts = g.sourceConflicts := by
  funext parent child
  simp only [sourceConflicts, entity_withoutDefaults, attributeAt_withoutDefaults]
  rfl

private theorem mergeMembers_withoutDefaults (parent child : EntityId) :
    g.withoutDefaults.mergeMembers parent child =
      ((g.mergeMembers parent child).1.withoutDefaults, (g.mergeMembers parent child).2) := by
  have hattributes := collect_withoutDefaults
    (inheritAttribute_withoutDefaults child (g.entity parent).source (g.entity child).source.isSome) g
    (g.entity parent).attributes
  generalize hmerged : collect (inheritAttribute child (g.entity parent).source (g.entity child).source.isSome) g
    (g.entity parent).attributes = merged at hattributes
  have hrelationships := collect_withoutDefaults (inheritRelationship_withoutDefaults child) merged.1
    (merged.1.entity parent).relationships
  simp only [mergeMembers, sourceConflicts_withoutDefaults, hmerged]
  rw [entity_withoutDefaults, entity_withoutDefaults]
  simp only [Entity.withoutDefaults, hattributes, hrelationships, entity_withoutDefaults]

private theorem inheritFrom_withoutDefaults (superName : String) (parent id : EntityId) :
    g.withoutDefaults.inheritFrom superName parent id = (g.inheritFrom superName parent id).map withoutDefaults := by
  simp only [inheritFrom, stateOf_withoutDefaults, isFailed_withoutDefaults, inheritanceIssue,
    qualifiedName_withoutDefaults, mergeMembers_withoutDefaults, setState_withoutDefaults]
  split
  · split <;> rfl
  · rfl

private theorem settle_withoutDefaults (steps : Nat) (path : List EntityId) (id : EntityId) :
    settle steps path g.withoutDefaults id = (settle steps path g id).map withoutDefaults := by
  induction steps generalizing path g id with
  | zero => rfl
  | succ steps ih =>
    have hsuper : (g.entity id).withoutDefaults.superName = (g.entity id).superName := rfl
    simp only [settle, stateOf_withoutDefaults, setState_withoutDefaults, setStates_withoutDefaults, inheritanceIssue,
      qualifiedName_withoutDefaults, lookup_withoutDefaults, entity_withoutDefaults, hsuper]
    split
    · rfl
    · rfl
    · rfl
    · split
      · rfl
      · split
        · rfl
        · rename_i superName _ _ parent _
          rw [modifyEntity_withoutDefaults g id
            (f := fun e => { e with superEntity := some parent, state := .inProgress }) fun _ => rfl, ih]
          exact Found.map_andThen fun h => h.inheritFrom_withoutDefaults superName parent id

private theorem resolveInheritance_withoutDefaults :
    g.withoutDefaults.resolveInheritance = g.resolveInheritance.map withoutDefaults := by
  rw [resolveInheritance, idsOfKind_withoutDefaults]
  exact gather_map (fun h id => h.settle_withoutDefaults _ [] id) g _

/-! ### Relationships -/

private theorem analysis_withoutDefaults : g.withoutDefaults.analysis = g.analysis := by
  have hjoin : g.withoutDefaults.readJoin = g.readJoin := by
    funext related r
    simp only [readJoin, entity_withoutDefaults, qualifiedName_withoutDefaults]
    rfl
  have hpairs : g.withoutDefaults.pairErrors = g.pairErrors := by
    funext owner related p
    simp only [pairErrors, attributeNamed?_withoutDefaults, qualifiedName_withoutDefaults]
  have hkeys : g.withoutDefaults.unjoinedKeys = g.unjoinedKeys := by
    funext owner join
    simp only [unjoinedKeys, attributesOf_withoutDefaults, List.filter_map, List.map_map]
    rfl
  have hobstacle : g.withoutDefaults.dependenceObstacle? = g.dependenceObstacle? := by
    funext owner r cardinality join
    simp only [dependenceObstacle?, hkeys]
  funext owner related r
  simp only [analysis, hjoin, hpairs, hobstacle]

private theorem addReverse_withoutDefaults (r : RelationshipId) (ownerName : String) :
    g.withoutDefaults.addReverse r ownerName = (g.addReverse r ownerName).map withoutDefaults := by
  have hread : ∀ e : Entity, e.withoutDefaults.isFailed = e.isFailed ∧ e.withoutDefaults.imported = e.imported ∧
      e.withoutDefaults.qualifiedName = e.qualifiedName := fun _ => ⟨rfl, rfl, rfl⟩
  simp only [addReverse, relationshipAt_withoutDefaults, entity_withoutDefaults, hread, hasMember_withoutDefaults,
    addRelationship_withoutDefaults]
  split
  · rfl
  · split
    · rfl
    · split
      · rfl
      · split <;> rfl

private theorem analyse_withoutDefaults (owner : EntityId) (r : RelationshipId) :
    analyse owner g.withoutDefaults r = (analyse owner g r).map withoutDefaults := by
  simp only [analyse, relationshipAt_withoutDefaults, analysis_withoutDefaults, qualifiedName_withoutDefaults,
    modifyRelationship_withoutDefaults, addReverse_withoutDefaults]
  split
  · rfl
  · split
    · rfl
    · split
      · rfl
      · split <;> rfl

private theorem resolveRelationships_withoutDefaults :
    g.withoutDefaults.resolveRelationships = g.resolveRelationships.map withoutDefaults := by
  have hentity : ∀ (h : Graph) (owner : EntityId),
      h.withoutDefaults.analyseEntity owner = (h.analyseEntity owner).map withoutDefaults := by
    intro h owner
    simp only [analyseEntity, isFailed_withoutDefaults, entity_withoutDefaults]
    split
    · rfl
    · exact gather_map (fun k r => k.analyse_withoutDefaults owner r) h _
  rw [resolveRelationships, idsOfKind_withoutDefaults]
  exact gather_map hentity g _

/-! ### Ownership -/

private theorem claims_withoutDefaults : g.withoutDefaults.claims = g.claims := by
  have hpair : g.withoutDefaults.pairClaim? = g.pairClaim? := by
    funext owner related id r c p
    simp only [pairClaim?, attributeNamed?_withoutDefaults, forwardClaim, backwardClaim, entity_withoutDefaults,
      attributeAt_withoutDefaults]
    rfl
  have hthrough : g.withoutDefaults.claimThrough? = g.claimThrough? := by
    funext owner id p
    simp only [claimThrough?, relationshipAt_withoutDefaults, isFailed_withoutDefaults, hpair]
  funext owner id
  rw [claims, claims, relationshipAt_withoutDefaults, hthrough]

private theorem applyClaim_withoutDefaults (c : Claim) : g.withoutDefaults.applyClaim c =
    (g.applyClaim c).withoutDefaults := by
  have hkey : OwnershipKey.ofRelationship g.withoutDefaults = OwnershipKey.ofRelationship g := by
    funext r
    simp only [OwnershipKey.ofRelationship, qualifiedName_withoutDefaults]
  have hprevails : g.withoutDefaults.prevails c = g.prevails c := by
    simp only [prevails, attributeAt_withoutDefaults, relationshipAt_withoutDefaults, hkey]
    rfl
  simp only [applyClaim, hprevails]
  split
  · exact g.modifyAttribute_withoutDefaults c.target fun _ => rfl
  · rfl

private theorem claimOwnership_withoutDefaults (owner : EntityId) :
    g.withoutDefaults.claimOwnership owner = (g.claimOwnership owner).withoutDefaults := by
  simp only [claimOwnership, isFailed_withoutDefaults, claims_withoutDefaults, entity_withoutDefaults]
  split
  · rfl
  · exact List.foldl_hom withoutDefaults fun h c => h.applyClaim_withoutDefaults c

/-! ### Checks -/

private theorem attributeIssues_withoutDefaults : g.withoutDefaults.attributeIssues = g.attributeIssues := by
  funext id key
  simp only [attributeIssues, isFailed_withoutDefaults, attributesOf_withoutDefaults, List.filter_map,
    List.flatMap_map]
  rfl

private theorem memberIssues_withoutDefaults : g.withoutDefaults.memberIssues = g.memberIssues := by
  have hnames : g.withoutDefaults.memberNames = g.memberNames := by
    funext id
    simp only [memberNames, attributesOf_withoutDefaults, relationshipsOf_withoutDefaults, List.map_map]
    rfl
  have hdates : g.withoutDefaults.processingDateIssues = g.processingDateIssues := by
    funext id key
    simp only [processingDateIssues, attributesOf_withoutDefaults, List.filter_map, List.length_map]
    rfl
  have hreversals : g.withoutDefaults.reversalIssues = g.reversalIssues := by
    funext id key
    simp only [reversalIssues, relationshipsOf_withoutDefaults, relationshipAt_withoutDefaults]
    rfl
  funext id key
  simp only [memberIssues, isFailed_withoutDefaults, hnames, hdates, hreversals]

private theorem conformanceGaps_withoutDefaults (d : Declarations) :
    conformanceGaps d g.withoutDefaults = conformanceGaps d g := by
  have hfound : ∀ id name, (g.attributeNamed? id name).map g.withoutDefaults.attributeAt =
      ((g.attributeNamed? id name).map g.attributeAt).map Attribute.withoutDefaults := by
    intro id name
    cases g.attributeNamed? id name <;> simp
  have hattribute : g.withoutDefaults.attributeGaps = g.attributeGaps := by
    funext id i a
    simp only [attributeGaps, qualifiedName_withoutDefaults, attributeNamed?_withoutDefaults, hfound]
    cases (g.attributeNamed? id a.name).map g.attributeAt with
    | none => rfl
    | some b =>
      have hread : b.withoutDefaults.isAsOf = b.isAsOf := rfl
      rw [Option.map_some, Option.filter_some, Option.filter_some, hread]
      cases b.isAsOf <;> rfl
  have hasOf : g.withoutDefaults.asOfGaps = g.asOfGaps := by
    funext id i a
    simp only [asOfGaps, qualifiedName_withoutDefaults, attributeNamed?_withoutDefaults, hfound, Option.any_map]
    rfl
  have hrelationship : g.withoutDefaults.relationshipGaps = g.relationshipGaps := by
    funext id i r
    simp only [relationshipGaps, qualifiedName_withoutDefaults, relationshipNamed?_withoutDefaults,
      relationshipAt_withoutDefaults]
  have hinterface : interfaceGaps d g.withoutDefaults = interfaceGaps d g := by
    funext id declared
    simp only [interfaceGaps, qualifiedName_withoutDefaults, interfaces_withoutDefaults, hattribute, hasOf,
      hrelationship]
  funext id
  simp only [conformanceGaps, isFailed_withoutDefaults, entity_withoutDefaults, hinterface]
  rfl

/-! ### The last stage -/

private theorem resolveObjects_withoutDefaults (d : Declarations) (declared : List (EntityId × String)) :
    resolveObjects d declared g.withoutDefaults = (resolveObjects d declared g).map withoutDefaults := by
  have henumerations : ∀ h : Graph, (declared.map (·.1)).foldl bindEnumerations h.withoutDefaults =
      ((declared.map (·.1)).foldl bindEnumerations h).withoutDefaults := fun h =>
    List.foldl_hom withoutDefaults fun k owner => k.bindEnumerations_withoutDefaults owner
  have hclaims : ∀ h : Graph, (declared.map (·.1)).foldl claimOwnership h.withoutDefaults =
      ((declared.map (·.1)).foldl claimOwnership h).withoutDefaults := fun h =>
    List.foldl_hom withoutDefaults fun k owner => k.claimOwnership_withoutDefaults owner
  have hexpanded : ∀ h : Graph, gather (expandDeclared d) h.withoutDefaults declared =
      (gather (expandDeclared d) h declared).map withoutDefaults := fun h =>
    gather_map (fun k object => k.expandDeclared_withoutDefaults d object) h declared
  simp only [resolveObjects, gather_map bindRelationships_withoutDefaults, Found.map, Found.andThen_eq, henumerations,
    hexpanded, resolveInheritance_withoutDefaults, attributeIssues_withoutDefaults,
    resolveRelationships_withoutDefaults, hclaims, conformanceGaps_withoutDefaults, memberIssues_withoutDefaults]

/-! ### Declarations -/

private theorem addAttributes_withoutDefaults {α : Type} {make make' : α → Attribute}
    (hmake : ∀ d, make' d = (make d).withoutDefaults) (ds : List α) :
    g.withoutDefaults.addAttributes make' ds = (g.addAttributes make ds).withoutDefaults := by
  refine List.foldl_hom withoutDefaults fun h d => ?_
  rw [hmake]
  exact h.addAttribute_withoutDefaults (make d)

private theorem addSource_withoutDefaults (id : EntityId) (defaults : MemberDefaults)
    (source : Option SourceDeclaration) :
    g.withoutDefaults.addSource id {} source = (g.addSource id defaults source).withoutDefaults := by
  cases source with
  | none => rfl
  | some d =>
    have hadded := g.addAttribute_withoutDefaults (.ofSource d id defaults)
    have hsource : Attribute.ofSource d id {} = (Attribute.ofSource d id defaults).withoutDefaults := rfl
    rw [addSource, hsource, hadded, size_attributes_withoutDefaults]
    exact modifyEntity_withoutDefaults _ id fun _ => rfl

/-- An object has the same members whatever their defaults are. -/
private theorem addMembers_withoutDefaults (id : EntityId) (defaults : MemberDefaults) (d : ObjectDeclaration) :
    g.withoutDefaults.addMembers id {} { d with defaultFinalGetters := none } =
      (g.addMembers id defaults d).withoutDefaults := by
  have hcolumns : ∀ h : Graph, h.withoutDefaults.addAttributes (Attribute.ofDeclaration · id {}) d.attributes =
      (h.addAttributes (Attribute.ofDeclaration · id defaults) d.attributes).withoutDefaults := fun h =>
    h.addAttributes_withoutDefaults (fun _ => by rfl) _
  have hasOf : ∀ h : Graph, h.withoutDefaults.addAttributes (Attribute.ofAsOf · id {}) d.asOfAttributes =
      (h.addAttributes (Attribute.ofAsOf · id defaults) d.asOfAttributes).withoutDefaults := fun h =>
    h.addAttributes_withoutDefaults (fun _ => by rfl) _
  have henumerations : ∀ h : Graph,
      h.withoutDefaults.addAttributes (h.withoutDefaults.enumerationAttribute id {}) d.enumerationAttributes =
        (h.addAttributes (h.enumerationAttribute id defaults) d.enumerationAttributes).withoutDefaults := by
    refine fun h => h.addAttributes_withoutDefaults (fun a => ?_) _
    simp only [enumerationAttribute, lookup_withoutDefaults, entity_withoutDefaults]
    rfl
  simp only [addMembers, hcolumns, hasOf, henumerations, addSource_withoutDefaults _ id defaults]
  exact List.foldl_hom withoutDefaults fun h r => h.addRelationship_withoutDefaults (.ofDeclaration r id)

/-- An object is declared alike under all configurations, except for its defaults. -/
private theorem declareObject_withoutDefaults (config : Config) (s : WithKeys) (entry : String × ObjectDeclaration) :
    declareObject .default (s.1.withoutDefaults, s.2) (entry.1, { entry.2 with defaultFinalGetters := none }) =
      (declareObject config s entry).map fun s => (s.1.withoutDefaults, s.2) := by
  obtain ⟨key, d⟩ := entry
  simp only [declareObject]
  generalize MemberDefaults.mk (d.defaultFinalGetters.getD config.defaultFinalGetters) config.defaultTimezone = defaults
  generalize hbare : s.1.withoutDefaults.addEntity? _ = bare
  generalize hadded : s.1.addEntity? _ = added
  have hsame : bare = added.map fun x => (x.1.withoutDefaults, x.2) := by
    rw [← hbare, ← hadded, ← addEntity?_withoutDefaults]
    rfl
  rw [hsame]
  cases added with
  | none => rfl
  | some x =>
    exact congrArg (fun h => ((h, s.2 ++ [(x.2, key)]), [])) (x.1.addMembers_withoutDefaults x.2 defaults d)

private theorem ofDeclarations_withoutDefaults (d : Declarations) (c₁ c₂ : Config) :
    (ofDeclarations c₁ d).map (fun s => (s.1.withoutDefaults, s.2)) =
      (ofDeclarations c₂ d).map fun s => (s.1.withoutDefaults, s.2) := by
  have hobjects : ∀ (c : Config) (g : Graph), gather
      (fun s entry => declareObject .default s (entry.1, { entry.2 with defaultFinalGetters := none }))
        (g.withoutDefaults, []) d.objects.entries =
      (gather (declareObject c) (g, []) d.objects.entries).map fun s => (s.1.withoutDefaults, s.2) := fun c g =>
    gather_map (f := fun s : WithKeys => (s.1.withoutDefaults, s.2)) (declareObject_withoutDefaults c) (g, []) _
  have hboth := fun g => (hobjects c₁ g).symm.trans (hobjects c₂ g)
  simp only [Found.map, Prod.mk.injEq] at hboth
  simp only [ofDeclarations, Found.map, hboth]

end Graph

/-! ### Runs -/

/-- The graph that a run ends with, and the issues of all its steps as they are raised. -/
def Declarations.outcome (d : Declarations) (config : Config) : Found Graph :=
  let declared := Graph.ofDeclarations config d
  let started : Found Graph := (declared.1.1, declared.2)
  ((started.andThen (·.registerInterfaces d)).andThen Graph.resolveEmbeddedValues).andThen
    (Graph.resolveObjects d declared.1.2)

/-- Without defaults, the outcome does not depend on the configuration. -/
theorem Declarations.outcome_withoutDefaults (d : Declarations) (c₁ c₂ : Config) :
    (d.outcome c₁).map Graph.withoutDefaults = (d.outcome c₂).map Graph.withoutDefaults := by
  have hdeclared := Graph.ofDeclarations_withoutDefaults d c₁ c₂
  simp only [Found.map, Prod.mk.injEq] at hdeclared
  obtain ⟨⟨hgraph, hkeys⟩, hissues⟩ := hdeclared
  have herased : ∀ c, (d.outcome c).map Graph.withoutDefaults =
      let started : Found Graph := ((Graph.ofDeclarations c d).1.1.withoutDefaults, (Graph.ofDeclarations c d).2)
      ((started.andThen (·.registerInterfaces d)).andThen Graph.resolveEmbeddedValues).andThen
        (Graph.resolveObjects d (Graph.ofDeclarations c d).1.2) := by
    intro c
    rw [outcome, ← Found.map_andThen fun g => g.resolveObjects_withoutDefaults d _,
      ← Found.map_andThen Graph.resolveEmbeddedValues_withoutDefaults,
      ← Found.map_andThen fun g => g.registerInterfaces_withoutDefaults d]
    rfl
  rw [herased, herased, hgraph, hkeys, hissues]

theorem Report.errors_eq_nil_iff (r : Report) : r.errors = [] ↔ Clean r.issues := by
  simp [Report.errors, List.filter_eq_nil_iff, Clean]

namespace Session

private theorem snd_resolve (s : Session) :
    s.resolve.2 = s.resolveInterfaces.2.resolveEmbeddedValues.2.resolveObjects.2 := by
  simp only [resolve]
  split <;> rfl

/-- A stage adds its issues, and leaves all but the graph, the report and the log as it was. -/
private theorem runStage_spec (s : Session) (stage : Graph → Found Graph) :
    (s.runStage stage).2.graph = (stage s.graph).1 ∧
      (s.runStage stage).2.report.issues =
        s.report.issues ++ (stage s.graph).2.map (·.escalated s.config.warningsAreErrors) ∧
      (s.runStage stage).2.config = s.config ∧ (s.runStage stage).2.declarations = s.declarations ∧
      (s.runStage stage).2.declared = s.declared :=
  ⟨rfl, rfl, rfl, rfl, rfl⟩

/-- A stage after which there are no errors has found none. -/
private theorem fst_runStage_of_clean {s : Session} {stage : Graph → Found Graph}
    (clean : Clean (s.runStage stage).2.report.issues) : (s.runStage stage).1 = true := by
  have hbefore := (Report.errors_eq_nil_iff _).2 (clean_of_clean_runStage clean).1
  have hafter := (Report.errors_eq_nil_iff _).2 clean
  show ((s.runStage stage).2.report.errorCount == s.report.errorCount) = true
  rw [Report.errorCount, Report.errorCount, hbefore, hafter]
  rfl

/-- Resolution succeeds just if there are no errors in the end. -/
theorem isOk_resolve_iff (s : Session) : s.resolve.1.isOk = true ↔ Clean s.resolve.2.report.issues := by
  rw [snd_resolve]
  constructor
  · intro hok
    simp only [resolve] at hok
    split at hok
    · rename_i hall
      exact clean_of_not_hasErrors (by simpa using (Bool.and_eq_true_iff.1 hall).2)
    · cases hok
  · intro clean
    have hnone := (Report.errors_eq_nil_iff _).2 clean
    rw [report_resolveObjects] at clean
    have hobjects := fst_runStage_of_clean clean
    have hembedded := fst_runStage_of_clean (clean_of_clean_runStage clean).1
    have hinterfaces := fst_runStage_of_clean (clean_of_clean_runStage (clean_of_clean_runStage clean).1).1
    simp only [resolve]
    rw [if_pos]
    · rfl
    · simp only [Report.hasErrors, hnone, Bool.and_eq_true]
      exact ⟨⟨⟨hinterfaces, hembedded⟩, hobjects⟩, rfl⟩

end Session

namespace Declarations

variable (d : Declarations) (config : Config)

private theorem start_spec :
    (Session.start d config).graph = (Graph.ofDeclarations config d).1.1 ∧
      (Session.start d config).report.issues =
        (Graph.ofDeclarations config d).2.map (·.escalated config.warningsAreErrors) ∧
      (Session.start d config).config = config ∧ (Session.start d config).declarations = d ∧
      (Session.start d config).declared = (Graph.ofDeclarations config d).1.2 :=
  ⟨rfl, List.nil_append _, rfl, rfl, rfl⟩

private theorem graph_resolve : (d.resolve config).2.graph = (d.outcome config).1 := by
  simp only [resolve, Session.snd_resolve, Session.graph_resolveObjects, Session.resolveInterfaces,
    Session.resolveEmbeddedValues, Session.runStage_spec, start_spec, outcome, Found.andThen_eq]

/-- What is reported is what is raised, each issue as the configuration has it. -/
theorem issues_resolve :
    (d.resolve config).2.report.issues = (d.outcome config).2.map (·.escalated config.warningsAreErrors) := by
  simp only [resolve, Session.snd_resolve, Session.report_resolveObjects, Session.resolveInterfaces,
    Session.resolveEmbeddedValues, Session.runStage_spec, start_spec, outcome, Found.andThen_eq, List.map_append]

private theorem eq_graph_of_resolve {g : Graph} (h : (d.resolve config).1 = .ok g) : g =
    (d.resolve config).2.graph := by
  simp only [resolve, Session.resolve] at h ⊢
  split at h
  · rw [if_pos ‹_›]
    exact (Except.ok.inj h).symm
  · cases h

/-- The configuration does not interfere with resolution.  There is one list of issues that are raised under every
configuration; warnings among them are errors just for a configuration that asks for it, and then resolution succeeds
just if it would succeed otherwise without a warning.  The graphs that are returned differ in defaults only. -/
theorem resolve_noninterference (d : Declarations) :
    (∃ raised : List Issue, ∀ config : Config,
      (d.resolve config).2.report.issues = raised.map (·.escalated config.warningsAreErrors)) ∧
    (∀ strict lenient : Config, strict.warningsAreErrors = true → lenient.warningsAreErrors = false →
      ((d.resolve strict).1.isOk = true ↔
        (d.resolve lenient).1.isOk = true ∧ (d.resolve lenient).2.report.warnings = [])) ∧
    ∀ (c₁ c₂ : Config) (g₁ g₂ : Graph), (d.resolve c₁).1 = .ok g₁ → (d.resolve c₂).1 = .ok g₂ →
      g₁.withoutDefaults = g₂.withoutDefaults := by
  have hsame := d.outcome_withoutDefaults
  simp only [Found.map, Prod.mk.injEq] at hsame
  have hissues : ∀ config, (d.resolve config).2.report.issues =
      (d.outcome .default).2.map (·.escalated config.warningsAreErrors) := by
    intro config
    rw [issues_resolve, (hsame config .default).2]
  refine ⟨⟨_, hissues⟩, fun strict lenient hstrict hlenient => ?_, fun c₁ c₂ g₁ g₂ h₁ h₂ => ?_⟩
  · have hnone : Clean ((d.outcome .default).2.map (·.escalated true)) ↔ (d.outcome .default).2 = [] :=
      ⟨eq_nil_of_clean_map fun _ => rfl, fun h => by simp [h, Clean]⟩
    have hall : (d.outcome .default).2.map (·.escalated false) = (d.outcome .default).2 := List.map_id _
    rw [resolve, resolve, Session.isOk_resolve_iff, Session.isOk_resolve_iff, ← resolve, ← resolve, Report.warnings,
      hissues, hissues, hstrict, hlenient, hnone, hall]
    constructor
    · intro h
      simp [h, Clean]
    · rintro ⟨hclean, hwarnings⟩
      refine List.eq_nil_iff_forall_not_mem.2 fun i hi => ?_
      have := List.filter_eq_nil_iff.1 hwarnings i hi
      rw [hclean i hi] at this
      exact this rfl
  · rw [d.eq_graph_of_resolve c₁ h₁, d.eq_graph_of_resolve c₂ h₂, graph_resolve, graph_resolve]
    exact (hsame c₁ c₂).1

/-- Orders and their items, which are joined on a number that is not the primary key. -/
def numberedOrders : Declarations where
  objects := ⟨[
    ("shop.Item",
      { name := ⟨"shop", "Item"⟩
        attributes := [{ name := "id", dataType := .int, column := { primaryKey := true } },
          { name := "number", dataType := .int }] }),
    ("shop.Order",
      { name := ⟨"shop", "Order"⟩
        attributes := [{ name := "id", dataType := .int, column := { primaryKey := true } },
          { name := "number", dataType := .int }]
        relationships := [{
          name := "items"
          relatedObject := "Item"
          cardinality := some "one-to-many"
          query := some "this.number = Item.number"
          relatedIsDependent := some true }] })], by decide⟩

/-- Items cannot depend on orders here, which is a warning.  Final getters make a difference to the defaults only, and
where warnings count as errors there is no graph. -/
theorem resolve_numberedOrders :
    let lenient := Config.default
    let final := Config.default.withFinalGetters true
    let strict := Config.default.withWarningsAsErrors true
    let graph (config : Config) := (numberedOrders.resolve config).1.toOption.getD .empty
    (numberedOrders.resolve lenient).2.report.warnings.length = 1 ∧
      (numberedOrders.resolve lenient).1 = .ok (graph lenient) ∧
      (numberedOrders.resolve final).1 = .ok (graph final) ∧
      graph lenient ≠ graph final ∧ (graph lenient).withoutDefaults = (graph final).withoutDefaults ∧
      strict.warningsAreErrors = true ∧ lenient.warningsAreErrors = false ∧
      (numberedOrders.resolve strict).1.isOk = false := by
  intro lenient final strict graph
  obtain ⟨-, hsuccess, hgraphs⟩ := resolve_noninterference numberedOrders
  obtain ⟨hlenient, hfinal, hwarning, hdefaults⟩ : (numberedOrders.resolve lenient).1.isOk = true ∧
      (numberedOrders.resolve final).1.isOk = true ∧ (numberedOrders.resolve lenient).2.report.warnings.length = 1 ∧
      ((graph lenient).entity 0).defaults ≠ ((graph final).entity 0).defaults := by
    decide +kernel
  replace hlenient : (numberedOrders.resolve lenient).1 = .ok (graph lenient) := eq_ok_of_isOk hlenient _
  replace hfinal : (numberedOrders.resolve final).1 = .ok (graph final) := eq_ok_of_isOk hfinal _
  refine ⟨hwarning, hlenient, hfinal, fun h => hdefaults (by rw [h]), hgraphs _ _ _ _ hlenient hfinal, rfl, rfl, ?_⟩
  rw [← Bool.not_eq_true, hsuccess strict lenient rfl rfl]
  rintro ⟨-, hnone⟩
  rw [hnone] at hwarning
  cases hwarning

end Declarations

end Metamodel
