import Metamodel.Proofs.Resolution.Counterparts

/-!
# Claims from both ends

A relationship that is declared both ways and its counterpart join the same attributes, one from each end, and each
makes claims of its own.  Where both ends can tell alike which attribute of a pair is to be owned, the two claim the
same one, with the same record of ownership (`content_pairClaim?_reversed`, and `claims_agree_of_resolve` in a resolved
graph).
-/

namespace Metamodel

/-- What is claimed, whichever relationship claims it: the attribute, and the names in its record of ownership. -/
def Claim.content (c : Claim) : AttributeId × Option String × Option FarEnd :=
  (c.target, c.ownership.name, c.ownership.farEnd)

/-- Both ends tell alike which of the attributes `a` of the owner and `b` of the related entity is to be owned: the one
on the side of the many, or, between one and one, the one that is no primary key. -/
def Relationship.TellsSides (f : Relationship) (a b : Attribute) : Prop :=
  f.cardinality = some .oneToMany ∨ f.cardinality = some .manyToOne ∨
    f.cardinality = some .oneToOne ∧ f.isRelatedDependent = false ∧ (a.isPrimaryKey = true ∨ b.isPrimaryKey = true)

namespace Graph

variable {g : Graph} {f r : RelationshipId} {near far : AttributeId} {p : JoinPair}

/-- The decision on one pair, seen from the other end. -/
theorem content_pairClaim?_reversed {x y : Relationship} {c : Cardinality} (hname : x.reverseName = some y.name)
    (hreverse : y.reverseName = some x.name) (hindependent : y.isRelatedDependent = false)
    (hcardinality : x.cardinality = some c) (hnear : g.attributeNamed? x.owner p.thisAttribute = some near)
    (hfar : g.attributeNamed? y.owner p.relatedAttribute = some far)
    (hnear' : (g.attributeAt near).isAsOf = false ∧ (g.attributeAt near).isSource = false)
    (hfar' : (g.attributeAt far).isAsOf = false ∧ (g.attributeAt far).isSource = false)
    (hsides : x.TellsSides (g.attributeAt near) (g.attributeAt far)) :
    (g.pairClaim? x.owner y.owner f x c p).map Claim.content =
      (g.pairClaim? y.owner x.owner r y c.reverse p.reversed).map Claim.content := by
  -- What one end claims of its own attributes, the other claims of those of the related entity.
  have hforward : ∀ a, (g.forwardClaim x.owner f x a).content = (g.backwardClaim x.owner r y a).content := by
    intro a
    simp [forwardClaim, backwardClaim, Claim.content, hname, hreverse]
  have hbackward : ∀ a, (g.backwardClaim y.owner f x a).content = (g.forwardClaim y.owner r y a).content := by
    intro a
    simp [forwardClaim, backwardClaim, Claim.content, hname, hreverse]
  unfold pairClaim?
  simp only [JoinPair.reversed, hnear, hfar, hnear', hfar', Bool.or_self, Bool.false_eq_true, if_false]
  unfold Relationship.TellsSides at hsides
  rw [hcardinality] at hsides
  rcases hsides with hmany | hmany | ⟨hone, hindependent', hkey⟩
  · obtain rfl := Option.some.inj hmany
    exact congrArg some (hforward far)
  · obtain rfl := Option.some.inj hmany
    exact congrArg some (hbackward near)
  · obtain rfl := Option.some.inj hone
    simp only [Cardinality.reverse, hindependent, hindependent', Bool.false_or]
    cases ha : (g.attributeAt near).isPrimaryKey <;> cases hb : (g.attributeAt far).isPrimaryKey
    · rw [ha, hb] at hkey
      simp at hkey
    · exact congrArg some (hbackward near)
    · exact congrArg some (hforward far)
    · rfl

namespace ResolvesTo

variable {d : Declarations} {g₀ : Graph} (c : ResolvesTo d g₀ g)

include c

/-- The counterpart is made from the relationship that it reverses, and in the end this is still what would be made. -/
private theorem reverse?_of_forwardOf? (hr : r < g.relationships.size) (hforward : g.forwardOf? r = some f) :
    ∃ ownerName, (g.relationshipAt f).reverse? f ownerName = some (g.relationshipAt r) := by
  obtain ⟨v, hv, hsame⟩ := Option.map_eq_some_iff.1 hforward
  have hreverse : (g.relationshipAt r).isReverse = true := by
    rw [Relationship.isReverse, hv]
    rfl
  obtain ⟨f', -, -, ownerName, hx⟩ := c.exists_forward hr hreverse
  obtain rfl : f' = f := by
    unfold Relationship.reverse? at hx
    split at hx
    · rw [← Option.some.inj hx] at hv
      rw [← hsame, ← Option.some.inj hv]
    · cases hx
  exact ⟨ownerName, hx⟩

/-- Either both of a pair can claim attributes or neither, and the counterpart makes nothing depend on it. -/
private theorem canClaim_counterpart (hr : r < g.relationships.size) (hforward : g.forwardOf? r = some f) :
    (g.relationshipAt r).isRelatedDependent = false ∧
      canClaim (g.relationshipAt r) = canClaim (g.relationshipAt f) := by
  obtain ⟨-, -, hmirrors⟩ := c.mirrors hr hforward
  obtain ⟨hparameters, hparameters'⟩ := hmirrors.parameters
  obtain ⟨ownerName, hx⟩ := c.reverse?_of_forwardOf? hr hforward
  simp only [Relationship.reverse?, hmirrors.name, hmirrors.owner, Option.some.injEq] at hx
  have hjoin : (g.relationshipAt r).join = (g.relationshipAt f).join.reversed := by rw [← hx]
  constructor
  · rw [← hx]
    rfl
  · simp only [canClaim, Relationship.hasSetter, hparameters, hparameters', Relationship.hasFilters,
      Relationship.joinsOnlyItsEnds, hjoin, Join.reversed]

/-- What the two of a pair claim through one pair of attributes. -/
private theorem content_claimThrough? (hr : r < g.relationships.size) (hforward : g.forwardOf? r = some f)
    (hnear : g.attributeNamed? (g.relationshipAt f).owner p.thisAttribute = some near)
    (hfar : g.attributeNamed? (g.relationshipAt r).owner p.relatedAttribute = some far)
    (hnear' : (g.attributeAt near).isAsOf = false ∧ (g.attributeAt near).isSource = false)
    (hfar' : (g.attributeAt far).isAsOf = false ∧ (g.attributeAt far).isSource = false)
    (hsides : (g.relationshipAt f).TellsSides (g.attributeAt near) (g.attributeAt far)) :
    (g.claimThrough? (g.relationshipAt f).owner f p).map Claim.content =
      (g.claimThrough? (g.relationshipAt r).owner r p.reversed).map Claim.content := by
  obtain ⟨hf, -, hmirrors⟩ := c.mirrors hr hforward
  obtain ⟨hindependent, hcan⟩ := c.canClaim_counterpart hr hforward
  obtain ⟨cardinality, hcardinality, hcardinality'⟩ := hmirrors.cardinality
  have hend := c.isFailed_eq_false (c.mem_owner hr).1
  have hend' := c.isFailed_eq_false (c.mem_owner (c.lt_size_of_old hf)).1
  simp only [claimThrough?, hmirrors.owner, hmirrors.related, hcardinality, hcardinality', hcan, hend, hend']
  split
  · exact content_pairClaim?_reversed hmirrors.name hmirrors.reverseName hindependent hcardinality hnear hfar hnear'
      hfar' hsides
  · rfl

end ResolvesTo

/-- In a resolved graph, through every pair of attributes of a relationship that is declared both ways, this and its
counterpart claim the same attribute with the same record of ownership, or neither claims one, if neither attribute is
an as-of or a source attribute and both ends can tell alike which of the two is to be owned. -/
theorem claims_agree_of_resolve {d : Declarations} {config : Config} (hresolve : (d.resolve config).1 = .ok g)
    (hr : r < g.relationships.size) (hforward : g.forwardOf? r = some f)
    (hp : p ∈ (g.relationshipAt f).join.pairs) :
    p.reversed ∈ (g.relationshipAt r).join.pairs ∧
      ∃ near far, g.attributeNamed? (g.relationshipAt f).owner p.thisAttribute = some near ∧
        g.attributeNamed? (g.relationshipAt r).owner p.relatedAttribute = some far ∧
        ((g.attributeAt near).isAsOf = false ∧ (g.attributeAt near).isSource = false →
          (g.attributeAt far).isAsOf = false ∧ (g.attributeAt far).isSource = false →
          (g.relationshipAt f).TellsSides (g.attributeAt near) (g.attributeAt far) →
          (g.claimThrough? (g.relationshipAt f).owner f p).map Claim.content =
            (g.claimThrough? (g.relationshipAt r).owner r p.reversed).map Claim.content) := by
  obtain ⟨g₀, c⟩ := exists_resolvesTo_of_resolve hresolve
  obtain ⟨hf, -, hmirrors⟩ := c.mirrors hr hforward
  obtain ⟨ho, hlisted⟩ := c.mem_owner (c.lt_size_of_old hf)
  obtain ⟨related, hrelated, hpairs⟩ := (c.wellJoined ho hlisted).2.related
  obtain rfl : related = (g.relationshipAt r).owner := Option.some.inj (hrelated.symm.trans hmirrors.owner)
  obtain ⟨hnear, hfar⟩ := hpairs p hp
  obtain ⟨near, hnear⟩ := Option.isSome_iff_exists.1 hnear
  obtain ⟨far, hfar⟩ := Option.isSome_iff_exists.1 hfar
  refine ⟨?_, near, far, hnear, hfar, c.content_claimThrough? hr hforward hnear hfar⟩
  rw [hmirrors.pairs]
  exact List.mem_map_of_mem hp

/-! ### A sample -/

/-- A passport is one person's, and a person has one passport. -/
def passports : Declarations where
  objects := ⟨[
    ("town.Passport",
      { name := ⟨"town", "Passport"⟩
        attributes := [{ name := "number", dataType := .int, column := { primaryKey := true } },
          { name := "holderId", dataType := .int }] }),
    ("town.Person",
      { name := ⟨"town", "Person"⟩
        attributes := [{ name := "id", dataType := .int, column := { primaryKey := true } }]
        relationships := [{
          name := "passport"
          relatedObject := "Passport"
          cardinality := some "one-to-one"
          query := some "this.id = Passport.holderId"
          reverseName := some "holder" }] })], by decide⟩

/-- The graph that the sample resolves to. -/
def passportGraph : Graph :=
  (passports.resolve .default).1.toOption.getD empty

private theorem passportGraph_facts :
    (passports.resolve .default).1.isOk = true ∧ 1 < passportGraph.relationships.size ∧
      passportGraph.forwardOf? 1 = some 0 ∧
      ⟨"id", "holderId"⟩ ∈ (passportGraph.relationshipAt 0).join.pairs ∧
      (passportGraph.relationshipAt 0).cardinality = some .oneToOne ∧
      (passportGraph.relationshipAt 0).isRelatedDependent = false ∧
      (passportGraph.attributeAt 2).isPrimaryKey = true ∧
      (passportGraph.relationshipAt 0).owner = 1 ∧ (passportGraph.relationshipAt 1).owner = 0 ∧
      passportGraph.attributeNamed? 1 "id" = some 2 ∧ passportGraph.attributeNamed? 0 "holderId" = some 1 ∧
      (∀ a ∈ [1, 2], (passportGraph.attributeAt a).isAsOf = false ∧ (passportGraph.attributeAt a).isSource = false) ∧
      (passportGraph.claimThrough? 1 0 ⟨"id", "holderId"⟩).map Claim.content =
        some (1, some "holder", some ⟨⟨"town", "Person"⟩, "passport"⟩) := by
  decide +kernel

private theorem resolve_passports : (passports.resolve .default).1 = .ok passportGraph :=
  eq_ok_of_isOk passportGraph_facts.1 empty

/-- In the sample the person and the passport both claim the number of the holder, for the person. -/
theorem claims_agree_of_passports :
    (passports.resolve .default).1 = .ok passportGraph ∧ 1 < passportGraph.relationships.size ∧
      passportGraph.forwardOf? 1 = some 0 ∧
      ⟨"id", "holderId"⟩ ∈ (passportGraph.relationshipAt 0).join.pairs ∧
      (passportGraph.relationshipAt 0).TellsSides (passportGraph.attributeAt 2) (passportGraph.attributeAt 1) ∧
      (passportGraph.claimThrough? 1 0 ⟨"id", "holderId"⟩).map Claim.content =
        some (1, some "holder", some ⟨⟨"town", "Person"⟩, "passport"⟩) ∧
      (passportGraph.claimThrough? 1 0 ⟨"id", "holderId"⟩).map Claim.content =
        (passportGraph.claimThrough? 0 1 ⟨"holderId", "id"⟩).map Claim.content := by
  obtain ⟨-, hr, hforward, hp, hone, hindependent, hkey, hforwardOwner, howner, hid, hholder, hplain, hclaim⟩ :=
    passportGraph_facts
  have hsides : (passportGraph.relationshipAt 0).TellsSides (passportGraph.attributeAt 2)
      (passportGraph.attributeAt 1) :=
    .inr (.inr ⟨hone, hindependent, .inl hkey⟩)
  obtain ⟨-, near, far, hnear, hfar, hagree⟩ := claims_agree_of_resolve resolve_passports hr hforward hp
  rw [hforwardOwner] at hnear hagree
  rw [howner] at hfar hagree
  obtain rfl : 2 = near := Option.some.inj (hid.symm.trans hnear)
  obtain rfl : 1 = far := Option.some.inj (hholder.symm.trans hfar)
  exact ⟨resolve_passports, hr, hforward, hp, hsides, hclaim,
    hagree (hplain 2 (by decide)) (hplain 1 (by decide)) hsides⟩

end Graph

end Metamodel
