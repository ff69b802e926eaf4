import Metamodel.Proofs.Access.Basic
import Metamodel.Proofs.Resolution.Integrity

/-!
# Look-ups for ownership and the last checks

Checked forms of the claims of relationships, and of the checks of an object that come after them.  A claim is made on
attributes that were found by name, for relationships that are listed, and claims change records of ownership alone, so
that a claim that is made can be applied.
-/

namespace Metamodel.Graph.Checked

variable {g : Graph} {id owner related : EntityId}

/-! ### Claims -/

def ownershipKey (g : Graph) (r : Relationship) : Option OwnershipKey := do
  return {
    independent := !(r.isDependent || r.isRelatedDependent)
    nameLength := r.name.utf8ByteSize
    name := r.name
    owner := ← qualifiedName g r.owner
    related := (← r.related.mapM (qualifiedName g)).getD ""
    reverse := r.isReverse }

def forwardClaim (g : Graph) (owner : EntityId) (id : RelationshipId) (r : Relationship) (far : AttributeId) :
    Option Claim := do
  return ⟨far, ⟨id, r.reverseName, some ⟨(← entity g owner).name, r.name⟩⟩⟩

def backwardClaim (g : Graph) (related : EntityId) (id : RelationshipId) (r : Relationship) (near : AttributeId) :
    Option Claim := do
  let target := (← entity g related).name
  return ⟨near, ⟨id, some r.name, r.reverseName.map fun name => ⟨target, name⟩⟩⟩

def pairClaim? (g : Graph) (owner related : EntityId) (id : RelationshipId) (r : Relationship) (c : Cardinality)
    (p : JoinPair) : Option (Option Claim) := do
  match ← attributeNamed? g owner p.thisAttribute, ← attributeNamed? g related p.relatedAttribute with
  | some near, some far =>
    let a ← attributeAt g near
    let b ← attributeAt g far
    let dependent := r.isRelatedDependent
    if a.isAsOf || a.isSource then return none
    else match c with
      | .oneToMany => forwardClaim g owner id r far
      | .manyToOne => backwardClaim g related id r near
      | .manyToMany => return none
      | .oneToOne =>
        if dependent || !b.isPrimaryKey then forwardClaim g owner id r far
        else if !a.isPrimaryKey then backwardClaim g related id r near
        else return none
  | _, _ => return none

def claimThrough? (g : Graph) (owner : EntityId) (id : RelationshipId) (p : JoinPair) : Option (Option Claim) := do
  let r ← relationshipAt g id
  match r.related, r.cardinality with
  | some related, some c =>
    if canClaim r && !(← isFailed g related) then pairClaim? g owner related id r c p else return none
  | _, _ => return none

def claims (g : Graph) (owner : EntityId) (id : RelationshipId) : Option (List Claim) := do
  filterMap (claimThrough? g owner id) (← relationshipAt g id).join.pairs

def prevails (g : Graph) (c : Claim) : Option Bool := do
  match (← attributeAt g c.target).ownership with
  | none => return true
  | some incumbent =>
    let challenger ← ownershipKey g (← relationshipAt g c.ownership.relationship)
    let defender ← ownershipKey g (← relationshipAt g incumbent.relationship)
    return incumbent.relationship == c.ownership.relationship || challenger.precedes defender

def applyClaim (g : Graph) (c : Claim) : Option Graph := do
  if ← prevails g c then modifyAttribute g c.target fun a => { a with ownership := some c.ownership } else return g

def claimOwnership (g : Graph) (owner : EntityId) : Option Graph := do
  if ← isFailed g owner then return g
  else (← flatMap (claims g owner) (← entity g owner).relationships).foldlM applyClaim g

/-! ### The last checks -/

def attributeGaps (g : Graph) (id : EntityId) (i : Interface) (a : InterfaceAttribute) : Option (List Issue) := do
  let issue := missingMember (← qualifiedName g id) a.name
  match (← (← attributeNamed? g id a.name).mapM (attributeAt g)).filter (! ·.isAsOf) with
  | none => return [issue ("attribute '" ++ a.name ++ "' required by interface " ++ i.qualifiedName ++ " is missing")]
  | some found =>
    if found.dataType = a.dataType then return []
    else return [issue ("attribute '" ++ a.name ++ "' is " ++ found.dataType.name ++ " but interface " ++
      i.qualifiedName ++ " requires " ++ a.dataType.name)]

def asOfGaps (g : Graph) (id : EntityId) (i : Interface) (a : InterfaceAsOfDeclaration) : Option (List Issue) := do
  let found ← (← attributeNamed? g id a.name).mapM (attributeAt g)
  if found.any fun b => b.isAsOf && b.isProcessingDate == a.isProcessingDate then return []
  else return [missingMember (← qualifiedName g id) a.name ("as-of attribute '" ++ a.name ++
    "' required by interface " ++ i.qualifiedName ++ " is missing or of the wrong kind")]

def relationshipGaps (g : Graph) (id : EntityId) (i : Interface) (r : InterfaceRelationship) :
    Option (List Issue) := do
  let found ← (← relationshipNamed? g id r.name).mapM (relationshipAt g)
  if found.any (·.cardinality == some r.cardinality) then return []
  else return [missingMember (← qualifiedName g id) r.name ("relationship '" ++ r.name ++ "' (" ++
    r.cardinality.key ++ ") required by interface " ++ i.qualifiedName ++ " is missing")]

def interfaceGaps (d : Declarations) (g : Graph) (id : EntityId) (declared : String) : Option (List Issue) :=
  match (d.interfaceNamed? declared).bind fun decl => g.interfaces.find? decl.qualifiedName with
  | none => do
    return [.error .conformance .schema (← qualifiedName g id) none
      ("interface '" ++ declared ++ "' is not defined or failed resolution")]
  | some i => do
    return (← flatMap (attributeGaps g id i) i.attributes) ++ (← flatMap (asOfGaps g id i) i.asOfAttributes) ++
      (← flatMap (relationshipGaps g id i) i.relationships)

def conformanceGaps (d : Declarations) (g : Graph) (id : EntityId) : Option (List Issue) := do
  if ← isFailed g id then return [] else flatMap (interfaceGaps d g id) (← entity g id).interfaces

def memberNames (g : Graph) (id : EntityId) : Option (List String) := do
  return (← attributesOf g id).map (·.name) ++ (← relationshipsOf g id).map (·.name)

def processingDateIssues (g : Graph) (id : EntityId) (key : String) : Option (List Issue) := do
  let count := ((← attributesOf g id).filter (·.isProcessingDate)).length
  if count ≤ 1 then return []
  else return [consistencyIssue key none
    ("only one processing date as-of attribute is allowed, found " ++ toString count)]

def reversalIssuesOf (g : Graph) (key : String) (r : Relationship) : Option (List Issue) :=
  match r.reversal with
  | none => some []
  | some reversal => do
    let forward ← relationshipAt g reversal.forward
    if r.cardinality = forward.cardinality.map (·.reverse) then return []
    else return [consistencyIssue key (some r.name) ("reverse relationship '" ++ r.name ++
      "' does not invert the cardinality of '" ++ forward.name ++ "'")]

def memberIssues (g : Graph) (id : EntityId) (key : String) : Option (List Issue) := do
  if ← isFailed g id then return []
  else
    return (repeated [] (← memberNames g id)).map (fun name =>
        consistencyIssue key (some name) ("duplicate member name '" ++ name ++ "'")) ++
      (← processingDateIssues g id key) ++ (← flatMap (reversalIssuesOf g key) (← relationshipsOf g id))

/-! ### Claims on what exists -/

section Claims

variable (hg : g.Intact)

include hg

private theorem ownershipKey_eq {r : RelationshipId} (hr : r < g.relationships.size) :
    ownershipKey g (g.relationshipAt r) = some (OwnershipKey.ofRelationship g (g.relationshipAt r)) := by
  have hrelated : (g.relationshipAt r).related.mapM (qualifiedName g) =
      some ((g.relationshipAt r).related.map g.qualifiedName) :=
    optionMapM_eq fun _ he => qualifiedName_eq (hg.related_lt hr he)
  rw [ownershipKey, qualifiedName_eq (g.lt_size_of_mem_idsOfKind (hg.relationship_linked r hr).owner), hrelated]
  rfl

private theorem pairClaim?_eq (howner : owner < g.entities.size) (hrelated : related < g.entities.size)
    (id : RelationshipId) (r : Relationship) (c : Cardinality) (p : JoinPair) :
    pairClaim? g owner related id r c p = some (g.pairClaim? owner related id r c p) := by
  have hforward : ∀ far, forwardClaim g owner id r far = some (g.forwardClaim owner id r far) := by
    intro far
    rw [forwardClaim, entity_eq howner]
    rfl
  have hbackward : ∀ near, backwardClaim g related id r near = some (g.backwardClaim related id r near) := by
    intro near
    rw [backwardClaim, entity_eq hrelated]
    rfl
  simp only [pairClaim?, Graph.pairClaim?, attributeNamed?_eq hg.toSound howner, attributeNamed?_eq hg.toSound hrelated,
    hforward, hbackward, Option.bind_eq_bind, Option.bind_some]
  cases hnear : g.attributeNamed? owner p.thisAttribute with
  | none => rfl
  | some near =>
    cases hfar : g.attributeNamed? related p.relatedAttribute with
    | none => rfl
    | some far =>
      have hnear' := hg.toSound.attributeNamed_lt hnear
      have hfar' := hg.toSound.attributeNamed_lt hfar
      simp only [attributeAt_eq hnear', attributeAt_eq hfar', Option.bind_some]
      split
      · rfl
      · cases c with
        | oneToOne =>
          dsimp only
          split
          · rfl
          · split <;> rfl
        | _ => rfl

private theorem claimThrough?_eq (howner : owner < g.entities.size) {r : RelationshipId} (hr : r < g.relationships.size)
    (p : JoinPair) : claimThrough? g owner r p = some (g.claimThrough? owner r p) := by
  simp only [claimThrough?, Graph.claimThrough?, relationshipAt_eq hr, Option.bind_eq_bind, Option.bind_some]
  cases hrelated : (g.relationshipAt r).related with
  | none => rfl
  | some related =>
    have hlt := hg.related_lt hr hrelated
    cases (g.relationshipAt r).cardinality with
    | none => rfl
    | some c =>
      simp only [isFailed_eq hlt, pairClaim?_eq hg howner hlt, Option.bind_some]
      split <;> rfl

private theorem claims_eq (howner : owner < g.entities.size) {r : RelationshipId} (hr : r < g.relationships.size) :
    claims g owner r = some (g.claims owner r) := by
  rw [claims, relationshipAt_eq hr]
  exact filterMap_eq fun p _ => claimThrough?_eq hg howner hr p

private theorem applyClaim_eq {c : Claim} (htarget : c.target < g.attributes.size)
    (hclaimant : c.ownership.relationship < g.relationships.size) : applyClaim g c = some (g.applyClaim c) := by
  have hprevails : prevails g c = some (g.prevails c) := by
    simp only [prevails, Graph.prevails, attributeAt_eq htarget, relationshipAt_eq hclaimant,
      ownershipKey_eq hg hclaimant, Option.bind_eq_bind, Option.bind_some]
    cases hincumbent : (g.attributeAt c.target).ownership with
    | none => rfl
    | some incumbent =>
      have hlt := (hg.attribute_linked c.target htarget).ownership incumbent hincumbent
      simp only [relationshipAt_eq hlt, ownershipKey_eq hg hlt, Option.bind_some]
      rfl
  simp only [applyClaim, Graph.applyClaim, hprevails, modifyAttribute_eq htarget, Option.bind_eq_bind, Option.bind_some]
  split <;> rfl

/-- All claims of an entity are made before the first is applied, and none takes away what another refers to. -/
theorem claimOwnership_eq (howner : owner < g.entities.size) :
    claimOwnership g owner = some (g.claimOwnership owner) := by
  have hclaims : flatMap (claims g owner) (g.entity owner).relationships =
      some ((g.entity owner).relationships.flatMap (g.claims owner)) :=
    flatMap_eq fun r hr => claims_eq hg howner (hg.relationship_owned owner r hr).1
  simp only [claimOwnership, isFailed_eq howner, entity_eq howner, hclaims, Option.bind_eq_bind, Option.bind_some]
  cases hfailed : g.isFailed owner with
  | true => simp [Graph.claimOwnership, hfailed]
  | false =>
    have hclaimsOf : g.claimsOf owner = (g.entity owner).relationships.flatMap (g.claims owner) := by
      simp [claimsOf, hfailed]
    rw [if_neg Bool.false_ne_true, claimOwnership_eq_foldl, hclaimsOf]
    refine foldlM_eq (fun h => h.Intact ∧ h.disowned = g.disowned) (fun h hh c hc => ?_) ⟨hg, rfl⟩
    obtain ⟨htarget, hclaimant⟩ := inRange_of_mem_claimsOf hg (hclaimsOf ▸ hc)
    have hsame : h.relationships = g.relationships := congrArg (·.relationships) hh.2
    have hclaimant' : c.ownership.relationship < h.relationships.size := hsame ▸ hclaimant
    refine ⟨applyClaim_eq hh.1 (size_of_disowned_eq hh.2 ▸ htarget) hclaimant', intact_applyClaim hh.1 hclaimant', ?_⟩
    exact (disowned_applyClaim h c).trans hh.2

end Claims

/-! ### Checks of what exists -/

section Checks

variable (hg : g.Intact)

include hg

private theorem foundAttribute_eq (name : String) :
    (g.attributeNamed? id name).mapM (attributeAt g) = some ((g.attributeNamed? id name).map g.attributeAt) :=
  optionMapM_eq fun _ ha => attributeAt_eq (hg.toSound.attributeNamed_lt ha)

private theorem reversalIssuesOf_eq (key : String) :
    flatMap (reversalIssuesOf g key) (g.relationshipsOf id) = some (g.reversalIssues id key) := by
  refine flatMap_eq fun x hx => ?_
  obtain ⟨r, hr, rfl⟩ := List.mem_map.1 hx
  unfold reversalIssuesOf
  cases hreversal : (g.relationshipAt r).reversal with
  | none => rfl
  | some reversal =>
    have hlt := (hg.relationship_linked r (hg.relationship_owned id r hr).1).reversal reversal hreversal
    simp only [relationshipAt_eq hlt, Option.bind_eq_bind, Option.bind_some]
    split <;> rfl

variable (hid : id < g.entities.size)

include hid

private theorem attributeGaps_eq (i : Interface) (a : InterfaceAttribute) :
    attributeGaps g id i a = some (g.attributeGaps id i a) := by
  simp only [attributeGaps, Graph.attributeGaps, qualifiedName_eq hid, attributeNamed?_eq hg.toSound hid,
    foundAttribute_eq hg, Option.bind_eq_bind, Option.bind_some]
  cases ((g.attributeNamed? id a.name).map g.attributeAt).filter (! ·.isAsOf) with
  | none => rfl
  | some found =>
    dsimp only
    split <;> rfl

private theorem asOfGaps_eq (i : Interface) (a : InterfaceAsOfDeclaration) :
    asOfGaps g id i a = some (g.asOfGaps id i a) := by
  simp only [asOfGaps, Graph.asOfGaps, qualifiedName_eq hid, attributeNamed?_eq hg.toSound hid, foundAttribute_eq hg,
    Option.bind_eq_bind, Option.bind_some]
  split <;> rfl

private theorem relationshipGaps_eq (i : Interface) (r : InterfaceRelationship) :
    relationshipGaps g id i r = some (g.relationshipGaps id i r) := by
  have hfound : (g.relationshipNamed? id r.name).mapM (relationshipAt g) =
      some ((g.relationshipNamed? id r.name).map g.relationshipAt) :=
    optionMapM_eq fun _ hx => relationshipAt_eq (hg.toSound.relationshipNamed_lt hx)
  simp only [relationshipGaps, Graph.relationshipGaps, qualifiedName_eq hid, relationshipNamed?_eq hg.toSound hid,
    hfound, Option.bind_eq_bind, Option.bind_some]
  split <;> rfl

private theorem interfaceGaps_eq (d : Declarations) (declared : String) :
    interfaceGaps d g id declared = some (Graph.interfaceGaps d g id declared) := by
  unfold interfaceGaps Graph.interfaceGaps
  cases (d.interfaceNamed? declared).bind fun decl => g.interfaces.find? decl.qualifiedName with
  | none =>
    simp only [qualifiedName_eq hid, Option.bind_eq_bind, Option.bind_some]
    rfl
  | some i =>
    simp only [flatMap_eq fun a _ => attributeGaps_eq hg hid i a, flatMap_eq fun a _ => asOfGaps_eq hg hid i a,
      flatMap_eq fun r _ => relationshipGaps_eq hg hid i r, Option.bind_eq_bind, Option.bind_some]
    rfl

theorem conformanceGaps_eq (d : Declarations) : conformanceGaps d g id = some (Graph.conformanceGaps d g id) := by
  simp only [conformanceGaps, Graph.conformanceGaps, isFailed_eq hid, entity_eq hid,
    flatMap_eq fun i _ => interfaceGaps_eq hg hid d i, Option.bind_eq_bind, Option.bind_some]
  split <;> rfl

theorem memberIssues_eq (key : String) : memberIssues g id key = some (g.memberIssues id key) := by
  have hnames : memberNames g id = some (g.memberNames id) := by
    rw [memberNames, attributesOf_eq hg.toSound hid, relationshipsOf_eq hg.toSound hid]
    rfl
  have hdates : processingDateIssues g id key = some (g.processingDateIssues id key) := by
    simp only [processingDateIssues, Graph.processingDateIssues, attributesOf_eq hg.toSound hid, Option.bind_eq_bind,
      Option.bind_some]
    split <;> rfl
  simp only [memberIssues, Graph.memberIssues, isFailed_eq hid, hnames, hdates, relationshipsOf_eq hg.toSound hid,
    reversalIssuesOf_eq hg, Option.bind_eq_bind, Option.bind_some]
  split <;> rfl

end Checks

end Metamodel.Graph.Checked
