import Metamodel.Graph.Basic
import Metamodel.Issue.Gather
import Metamodel.Join.Query

/-!
# Analysis of relationships

Once all members are known, the cardinality and the join of each relationship are read and checked against the two
entities, and a bidirectional relationship without problems gets its counterpart on the related entity.  Dependence of
the related entity needs a join on the whole primary key and is given up, with a warning, where that is missing.
Inherited relationships are analysed like others, but their problems were reported with the class that declares them.
-/

namespace Metamodel

/-- The result of reading a relationship. -/
structure JoinAnalysis where
  cardinality : Option Cardinality
  join : Join
  relatedIsDependent : Option Bool
  errors : List String
  warnings : List String

namespace Graph

def readCardinality (r : Relationship) : Option Cardinality × List String :=
  match r.cardinalityKey with
  | none => (none, ["relationship '" ++ r.name ++ "' does not declare a cardinality"])
  | some key =>
    match Cardinality.ofKey key with
    | .ok c => (some c, [])
    | .error e => (none, [e.message])

def readJoin (g : Graph) (related : EntityId) (r : Relationship) : Join × List String :=
  match r.query with
  | none => ({}, ["relationship '" ++ r.name ++ "' does not declare a join"])
  | some query =>
    let join := Join.parse query (g.entity related).name.simple
    (join,
      (if join.referencesRelated then []
      else ["relationship query does not have any relational expression involving the related object: " ++
        g.qualifiedName related]) ++
      (if join.referencesThis then []
      else ["relationship query does not have any relational expression involving 'this'"]))

/-- The attributes of a pair that the two entities do not have. -/
def pairErrors (g : Graph) (owner related : EntityId) (p : JoinPair) : List String :=
  let missing (id : EntityId) (name : String) :=
    if (g.attributeNamed? id name).isSome then []
    else ["join attribute '" ++ name ++ "' is not an attribute of " ++ g.qualifiedName id]
  missing owner p.thisAttribute ++ missing related p.relatedAttribute

/-- The names of the primary key attributes of the owner that the join leaves out. -/
def unjoinedKeys (g : Graph) (owner : EntityId) (join : Join) : List String :=
  let keys := (g.attributesOf owner).filter (·.isPrimaryKey)
  (keys.filter fun a => ! join.pairs.any (·.thisAttribute == a.name)).map (·.name)

/-- Why the related entity cannot depend on the owner, although the relationship asks for it. -/
def dependenceObstacle? (g : Graph) (owner : EntityId) (r : Relationship) (cardinality : Option Cardinality)
    (join : Join) : Option String :=
  let unjoined := g.unjoinedKeys owner join
  if r.relatedIsDependent != some true then none
  else if cardinality == some .manyToMany then
    some ("relationship '" ++ r.name ++ "' cannot be related-dependent because it is many-to-many")
  else if unjoined.isEmpty then none
  else some ("relationship '" ++ r.name ++ "' cannot be related-dependent because primary key attribute(s) " ++
    ", ".intercalate unjoined ++ " are not joined")

def analysis (g : Graph) (owner related : EntityId) (r : Relationship) : JoinAnalysis :=
  let (cardinality, cardinalityErrors) := readCardinality r
  let (join, joinErrors) := g.readJoin related r
  let obstacle := g.dependenceObstacle? owner r cardinality join
  { cardinality := cardinality
    join := join
    relatedIsDependent := if obstacle.isSome then some false else r.relatedIsDependent
    errors := cardinalityErrors ++ joinErrors ++ join.pairs.flatMap (g.pairErrors owner related) ++
      (if r.hasParameters && r.isBidirectional then
        ["parameterized relationship '" ++ r.name ++ "' cannot have a reverse relationship"] else [])
    warnings := obstacle.toList }

def relationshipError (kind : IssueKind) (object member message : String) : Issue :=
  .error .relationships kind object (some member) message

/-- The counterpart of an analysed relationship.  It is not made on an entity that failed, and it can neither go to an
imported entity nor take a name that the related entity has. -/
def addReverse (g : Graph) (id : RelationshipId) (ownerName : String) : Found Graph :=
  let r := g.relationshipAt id
  match r.reverse? id ownerName with
  | none => (g, [])
  | some reverse =>
    let target := g.entity reverse.owner
    if target.isFailed then (g, [])
    else if target.imported then
      (g, [relationshipError .consistency ownerName r.name ("cannot add reverse relationship '" ++ reverse.name ++
        "' to imported object " ++ target.qualifiedName)])
    else if g.hasMember reverse.owner reverse.name then
      (g, [relationshipError .consistency target.qualifiedName reverse.name ("reverse relationship '" ++
        reverse.name ++ "' of " ++ ownerName ++ "." ++ r.name ++ " collides with an existing member")])
    else (g.addRelationship reverse, [])

/-- Counterparts, and relationships to entities that do not exist, are left as they are. -/
def analyse (owner : EntityId) (g : Graph) (id : RelationshipId) : Found Graph :=
  let r := g.relationshipAt id
  match r.related with
  | none => (g, [])
  | some related =>
    if r.isReverse then (g, [])
    else
      let result := g.analysis owner related r
      let ownerName := g.qualifiedName owner
      let g := g.modifyRelationship id fun r =>
        { r with
          cardinality := result.cardinality
          join := result.join
          relatedIsDependent := result.relatedIsDependent }
      if r.isInherited then (g, [])
      else
        let issues := result.errors.map (relationshipError .schema ownerName r.name) ++
          result.warnings.map (Issue.warning .relationships .schema ownerName (some r.name))
        let (g, more) := if result.errors.isEmpty then g.addReverse id ownerName else (g, [])
        (g, issues ++ more)

def analyseEntity (g : Graph) (owner : EntityId) : Found Graph :=
  if g.isFailed owner then (g, []) else gather (analyse owner) g (g.entity owner).relationships

def resolveRelationships (g : Graph) : Found Graph :=
  gather analyseEntity g (g.idsOfKind .object)

end Graph

end Metamodel
