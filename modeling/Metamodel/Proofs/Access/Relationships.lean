import Metamodel.Graph.MemberCheck
import Metamodel.Proofs.Access.Basic
import Metamodel.Proofs.Resolution.Integrity

/-!
# Look-ups for attributes and relationships

Checked forms of the steps that bind the names of members, and of those that check attributes and read relationships.
Related entities are found by name and kept in the relationship, and the names of a join are looked up among the members
of the two entities, so that what is read of either exists.
-/

namespace Metamodel.Graph.Checked

variable {g : Graph} {n : Nat} {id owner related : EntityId}

/-! ### Names -/

def bindRelated (key : String) (g : Graph) (id : RelationshipId) : Option (Found Graph) := do
  let r ← relationshipAt g id
  match ← lookup g r.relatedName .object with
  | some related => return (← modifyRelationship g id fun r => { r with related := some related }, [])
  | none => return (g, [.error .names .schema key (some r.name)
      ("related object '" ++ r.relatedName ++ "' of relationship '" ++ r.name ++ "' is not defined")])

def bindRelationships (g : Graph) (object : EntityId × String) : Option (Found Graph) := do
  gather (bindRelated object.2) g (← entity g object.1).relationships

def bindEnumeration (g : Graph) (id : AttributeId) : Option Graph := do
  match (← attributeAt g id).kind with
  | .enumeration s =>
    match ← lookup g s.enumeration .enumeration with
    | none => return g
    | some target =>
      let e ← entity g target
      let bound := { s with target := some target, className := some e.name.simple, members := e.members }
      modifyAttribute g id fun a => { a with kind := .enumeration bound }
  | _ => return g

def bindEnumerations (g : Graph) (owner : EntityId) : Option Graph := do
  (← entity g owner).attributes.foldlM bindEnumeration g

private theorem bindRelated_eq (key : String) {r : RelationshipId} (hr : r < g.relationships.size) :
    bindRelated key g r = some (Graph.bindRelated key g r) := by
  simp only [bindRelated, Graph.bindRelated, relationshipAt_eq hr, lookup_eq, modifyRelationship_eq hr,
    Option.bind_eq_bind, Option.bind_some]
  cases g.lookup (g.relationshipAt r).relatedName .object with
  | none => rfl
  | some related => rfl

theorem bindRelationships_eq (hg : Standing n g) {object : EntityId × String} (hid : object.1 < g.entities.size) :
    bindRelationships g object = some (g.bindRelationships object) := by
  rw [bindRelationships, entity_eq hid]
  refine gather_eq (Advances n g) (fun h hh r hr => ⟨?_, hh.trans (advances_bindRelated hh.standing object.2 r)⟩)
    (.refl hg)
  have hlt := (hg.intact.relationship_owned object.1 r hr).1
  exact bindRelated_eq object.2 (Nat.lt_of_lt_of_le hlt hh.relationships)

private theorem bindEnumeration_eq {a : AttributeId} (ha : a < g.attributes.size) :
    bindEnumeration g a = some (g.bindEnumeration a) := by
  simp only [bindEnumeration, Graph.bindEnumeration, attributeAt_eq ha, lookup_eq, modifyAttribute_eq ha,
    Option.bind_eq_bind, Option.bind_some]
  cases (g.attributeAt a).kind with
  | enumeration s =>
    cases hlookup : g.lookup s.enumeration .enumeration with
    | none =>
      simp only [hlookup]
      rfl
    | some target =>
      have htarget := g.lt_size_of_lookup hlookup
      simp only [hlookup, entity_eq htarget, Option.bind_some]
  | _ => rfl

theorem bindEnumerations_eq (hg : Standing n g) (hid : owner < g.entities.size) :
    bindEnumerations g owner = some (g.bindEnumerations owner) := by
  rw [bindEnumerations, entity_eq hid]
  refine foldlM_eq (Advances n g) (fun h hh a ha => ⟨?_, hh.trans (advances_bindEnumeration hh.standing a)⟩)
    (.refl hg)
  exact bindEnumeration_eq (hh.attributes a (hg.intact.attribute_owned owner a ha).1).1

/-! ### Attributes -/

def attributeIssues (g : Graph) (id : EntityId) (key : String) : Option (List Issue) := do
  if ← isFailed g id then return []
  else
    return ((← attributesOf g id).filter (! ·.isInherited)).flatMap fun a =>
      a.problems.map (Issue.error .attributes .schema key (some a.name))

theorem attributeIssues_eq (hg : g.Sound) (hid : id < g.entities.size) (key : String) :
    attributeIssues g id key = some (g.attributeIssues id key) := by
  simp only [attributeIssues, Graph.attributeIssues, isFailed_eq hid, attributesOf_eq hg hid, Option.bind_eq_bind,
    Option.bind_some]
  split <;> rfl

/-! ### Relationships -/

def readJoin (g : Graph) (related : EntityId) (r : Relationship) : Option (Join × List String) :=
  match r.query with
  | none => some ({}, ["relationship '" ++ r.name ++ "' does not declare a join"])
  | some query => do
    let join := Join.parse query (← entity g related).name.simple
    let object ← qualifiedName g related
    return (join,
      (if join.referencesRelated then []
      else ["relationship query does not have any relational expression involving the related object: " ++ object]) ++
      (if join.referencesThis then []
      else ["relationship query does not have any relational expression involving 'this'"]))

def missingAttribute (g : Graph) (id : EntityId) (name : String) : Option (List String) := do
  if (← attributeNamed? g id name).isSome then return []
  else return ["join attribute '" ++ name ++ "' is not an attribute of " ++ (← qualifiedName g id)]

def pairErrors (g : Graph) (owner related : EntityId) (p : JoinPair) : Option (List String) := do
  return (← missingAttribute g owner p.thisAttribute) ++ (← missingAttribute g related p.relatedAttribute)

def unjoinedKeys (g : Graph) (owner : EntityId) (join : Join) : Option (List String) := do
  let keys := (← attributesOf g owner).filter (·.isPrimaryKey)
  return (keys.filter fun a => ! join.pairs.any (·.thisAttribute == a.name)).map (·.name)

def dependenceObstacle? (g : Graph) (owner : EntityId) (r : Relationship) (cardinality : Option Cardinality)
    (join : Join) : Option (Option String) := do
  let unjoined ← unjoinedKeys g owner join
  if r.relatedIsDependent != some true then return none
  else if cardinality == some .manyToMany then
    return some ("relationship '" ++ r.name ++ "' cannot be related-dependent because it is many-to-many")
  else if unjoined.isEmpty then return none
  else return some ("relationship '" ++ r.name ++ "' cannot be related-dependent because primary key attribute(s) " ++
    ", ".intercalate unjoined ++ " are not joined")

def analysis (g : Graph) (owner related : EntityId) (r : Relationship) : Option JoinAnalysis := do
  let (cardinality, cardinalityErrors) := readCardinality r
  let (join, joinErrors) ← readJoin g related r
  let obstacle ← dependenceObstacle? g owner r cardinality join
  let pairErrors ← flatMap (pairErrors g owner related) join.pairs
  return {
    cardinality := cardinality
    join := join
    relatedIsDependent := if obstacle.isSome then some false else r.relatedIsDependent
    errors := cardinalityErrors ++ joinErrors ++ pairErrors ++
      (if r.hasParameters && r.isBidirectional then
        ["parameterized relationship '" ++ r.name ++ "' cannot have a reverse relationship"] else [])
    warnings := obstacle.toList }

def addReverse (g : Graph) (id : RelationshipId) (ownerName : String) : Option (Found Graph) := do
  let r ← relationshipAt g id
  match r.reverse? id ownerName with
  | none => return (g, [])
  | some reverse =>
    let target ← entity g reverse.owner
    if target.isFailed then return (g, [])
    else if target.imported then
      return (g, [relationshipError .consistency ownerName r.name ("cannot add reverse relationship '" ++
        reverse.name ++ "' to imported object " ++ target.qualifiedName)])
    else if ← hasMember g reverse.owner reverse.name then
      return (g, [relationshipError .consistency target.qualifiedName reverse.name ("reverse relationship '" ++
        reverse.name ++ "' of " ++ ownerName ++ "." ++ r.name ++ " collides with an existing member")])
    else return (← addRelationship g reverse, [])

def analyse (owner : EntityId) (g : Graph) (id : RelationshipId) : Option (Found Graph) := do
  let r ← relationshipAt g id
  match r.related with
  | none => return (g, [])
  | some related =>
    if r.isReverse then return (g, [])
    else
      let result ← analysis g owner related r
      let ownerName ← qualifiedName g owner
      let g ← modifyRelationship g id fun r =>
        { r with
          cardinality := result.cardinality
          join := result.join
          relatedIsDependent := result.relatedIsDependent }
      if r.isInherited then return (g, [])
      else
        let issues := result.errors.map (relationshipError .schema ownerName r.name) ++
          result.warnings.map (Issue.warning .relationships .schema ownerName (some r.name))
        let (g, more) ← if result.errors.isEmpty then addReverse g id ownerName else some (g, [])
        return (g, issues ++ more)

def analyseEntity (g : Graph) (owner : EntityId) : Option (Found Graph) := do
  if ← isFailed g owner then return (g, [])
  else gather (analyse owner) g (← entity g owner).relationships

def resolveRelationships (g : Graph) : Option (Found Graph) :=
  gather analyseEntity g (g.idsOfKind .object)

private theorem readJoin_eq (hrelated : related < g.entities.size) (r : Relationship) :
    readJoin g related r = some (g.readJoin related r) := by
  unfold readJoin Graph.readJoin
  cases r.query with
  | none => rfl
  | some query =>
    simp only [entity_eq hrelated, qualifiedName_eq hrelated, Option.bind_eq_bind, Option.bind_some]
    rfl

private theorem missingAttribute_eq (hg : g.Sound) (hid : id < g.entities.size) (name : String) :
    missingAttribute g id name = some (if (g.attributeNamed? id name).isSome then []
      else ["join attribute '" ++ name ++ "' is not an attribute of " ++ g.qualifiedName id]) := by
  simp only [missingAttribute, attributeNamed?_eq hg hid, qualifiedName_eq hid, Option.bind_eq_bind, Option.bind_some]
  split <;> rfl

section Reading

variable (hg : g.Sound) (howner : owner < g.entities.size)

include hg howner

private theorem pairErrors_eq (hrelated : related < g.entities.size) (p : JoinPair) :
    pairErrors g owner related p = some (g.pairErrors owner related p) := by
  rw [pairErrors, missingAttribute_eq hg howner, missingAttribute_eq hg hrelated]
  rfl

private theorem dependenceObstacle?_eq (r : Relationship) (cardinality : Option Cardinality) (join : Join) :
    dependenceObstacle? g owner r cardinality join = some (g.dependenceObstacle? owner r cardinality join) := by
  have hkeys : unjoinedKeys g owner join = some (g.unjoinedKeys owner join) := by
    rw [unjoinedKeys, attributesOf_eq hg howner]
    rfl
  simp only [dependenceObstacle?, Graph.dependenceObstacle?, hkeys, Option.bind_eq_bind, Option.bind_some]
  split
  · rfl
  · split
    · rfl
    · split <;> rfl

private theorem analysis_eq (hrelated : related < g.entities.size) (r : Relationship) :
    analysis g owner related r = some (g.analysis owner related r) := by
  simp only [analysis, Graph.analysis, readJoin_eq hrelated, dependenceObstacle?_eq hg howner, Option.bind_eq_bind,
    Option.bind_some, flatMap_eq fun p _ => pairErrors_eq hg howner hrelated p]
  rfl

end Reading

private theorem addReverse_eq (hg : g.Intact) {r : RelationshipId} (hr : r < g.relationships.size)
    (ownerName : String) : addReverse g r ownerName = some (g.addReverse r ownerName) := by
  simp only [addReverse, Graph.addReverse, relationshipAt_eq hr, Option.bind_eq_bind, Option.bind_some]
  cases hreverse : (g.relationshipAt r).reverse? r ownerName with
  | none => rfl
  | some reverse =>
    have howner : reverse.owner < g.entities.size := by
      unfold Relationship.reverse? at hreverse
      split at hreverse
      · rename_i hrelated
        obtain rfl := Option.some.inj hreverse
        exact hg.related_lt hr hrelated
      · cases hreverse
    simp only [entity_eq howner, hasMember_eq hg.toSound howner, addRelationship_eq howner, Option.bind_some]
    split
    · rfl
    · split
      · rfl
      · split <;> rfl

private theorem analyse_eq (hg : Standing 3 g) (howner : owner < g.entities.size) {r : RelationshipId}
    (hr : r < g.relationships.size) : analyse owner g r = some (Graph.analyse owner g r) := by
  simp only [analyse, Graph.analyse, relationshipAt_eq hr, qualifiedName_eq howner, modifyRelationship_eq hr,
    Option.bind_eq_bind, Option.bind_some]
  cases hrelated : (g.relationshipAt r).related with
  | none => rfl
  | some related =>
    have hlt := hg.intact.related_lt hr hrelated
    let result := g.analysis owner related (g.relationshipAt r)
    have hread : Advances 3 g (g.modifyRelationship r fun r =>
        { r with
          cardinality := result.cardinality
          join := result.join
          relatedIsDependent := result.relatedIsDependent }) :=
      .modifyRelationship hg r rfl rfl rfl fun _ he => .inl he
    have hreverse := addReverse_eq hread.standing.intact (Nat.lt_of_lt_of_le hr hread.relationships)
      (g.qualifiedName owner)
    simp only [analysis_eq hg.intact.toSound howner hlt, Option.bind_some]
    split
    · rfl
    · split
      · rfl
      · split
        · rw [hreverse]
          rfl
        · rfl

theorem resolveRelationships_eq (hg : Standing 3 g) : resolveRelationships g = some g.resolveRelationships := by
  refine gather_eq (Advances 3 g) (fun h hh o ho => ⟨?_, hh.trans (advances_analyseEntity hh.standing o)⟩) (.refl hg)
  have hindex := h.lt_size_of_mem_idsOfKind (hh.mem_idsOfKind ho)
  simp only [analyseEntity, Graph.analyseEntity, isFailed_eq hindex, entity_eq hindex, Option.bind_eq_bind,
    Option.bind_some]
  split
  · rfl
  · refine gather_eq (Advances 3 h) (fun k hk r hr => ?_) (.refl hh.standing)
    have hlt := Nat.lt_of_lt_of_le (hh.standing.intact.relationship_owned o r hr).1 hk.relationships
    exact ⟨analyse_eq hk.standing (size_of_outline_eq hk.outline ▸ hindex) hlt,
      hk.trans (advances_analyse hk.standing o hlt)⟩

end Metamodel.Graph.Checked
