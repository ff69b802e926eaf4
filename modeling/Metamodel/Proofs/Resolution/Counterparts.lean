import Metamodel.Proofs.Join.Counterparts
import Metamodel.Proofs.Resolution.Guarantees
import Metamodel.Proofs.Resolution.Integrity

/-!
# Counterparts in a resolved graph

In a graph that resolution returns, counterparts and the relationships that are declared both ways belong together one
by one, and the two of a pair mirror each other.
-/

namespace Metamodel

/-- The relationship is declared by its owner, and declared to lead back as well. -/
structure Relationship.IsDeclaredBothWays (f : Relationship) : Prop where
  own : f.isInherited = false
  forward : f.isReverse = false
  bidirectional : f.isBidirectional = true

/-- `r` leads back from where `f` leads to: its ends, its names and the sides of its join are those of `f` the other way
round, its cardinality is the reverse one, and its owner depends on the other end just if `f` says so.  Neither takes
parameters. -/
structure Relationship.Mirrors (r f : Relationship) : Prop where
  owner : f.related = some r.owner
  related : r.related = some f.owner
  name : f.reverseName = some r.name
  reverseName : r.reverseName = some f.name
  cardinality : ∃ c, f.cardinality = some c ∧ r.cardinality = some c.reverse
  pairs : r.join.pairs = f.join.pairs.map JoinPair.reversed
  dependent : r.isDependent = f.isRelatedDependent
  parameters : f.hasParameters = false ∧ r.hasParameters = false

namespace Graph

namespace ResolvesTo

variable {d : Declarations} {g₀ g : Graph} {o : EntityId} {r f : RelationshipId} (c : ResolvesTo d g₀ g)

include c

private theorem standing_settled : Standing 2 g₀.settled :=
  (advances_settled c.standing).standing

theorem standing_joined : Standing 3 g₀.joined :=
  (advances_joined c.standing).standing

theorem pairing : Pairing g₀.settled g₀.joined :=
  pairing_resolveRelationships c.settling.sound

theorem relationships_eq : g.relationships = g₀.joined.relationships := by
  rw [← relationships_disowned, c.disowned, relationships_disowned]

theorem lt_size_of_old (hf : f < g₀.settled.relationships.size) : f < g.relationships.size := by
  rw [c.relationships_eq]
  exact Nat.lt_of_lt_of_le hf c.reading.size

/-- A relationship is listed by its owner, and that is an object. -/
theorem mem_owner (hr : r < g.relationships.size) :
    (g.relationshipAt r).owner ∈ g₀.idsOfKind .object ∧
      r ∈ (g.entity (g.relationshipAt r).owner).relationships := by
  rw [c.relationships_eq] at hr
  have hintact := c.standing_joined.intact
  rw [c.relationshipAt_eq, c.entity_eq]
  refine ⟨?_, hintact.relationship_listed r hr⟩
  rw [← idsOfKind_of_outline_eq (advances_joined c.standing).outline]
  exact (hintact.relationship_linked r hr).owner

/-- A relationship from before counterparts is of an object, and leads to one. -/
theorem ends_of_old (hf : f < g₀.settled.relationships.size) :
    ∃ o ∈ g₀.idsOfKind .object, f ∈ (g₀.settled.entity o).relationships ∧
      (g₀.settled.relationshipAt f).owner = o ∧ (g₀.settled.relationshipAt f).isReverse = false ∧
      ∃ related ∈ g₀.idsOfKind .object, (g₀.settled.relationshipAt f).related = some related ∧
        (g₀.settled.analysis o related (g₀.settled.relationshipAt f)).errors = [] := by
  have hintact := c.standing_settled.intact
  have hlinked := hintact.relationship_linked f hf
  have hlisted := hintact.relationship_listed f hf
  have ho := hlinked.owner
  rw [c.idsOfKind_settled] at ho
  obtain ⟨hforward, related, hrelated, herrors⟩ := c.errors_eq_nil ho _ (List.mem_map_of_mem hlisted)
  have hobject := hlinked.related related hrelated
  rw [c.idsOfKind_settled] at hobject
  exact ⟨_, ho, hlisted, rfl, hforward, related, hobject, hrelated, herrors⟩

theorem isPaired (hf : f < g₀.settled.relationships.size) : IsPaired g₀.settled g₀.joined f := by
  obtain ⟨o, ho, hlisted, -, hforward, related, hobject, hrelated, -⟩ := c.ends_of_old hf
  have hnone : ∀ o ∈ g₀.settled.idsOfKind .object, g₀.settled.isFailed o = false := by
    intro o ho
    rw [c.idsOfKind_settled] at ho
    exact c.not_failed ho
  rw [← c.idsOfKind_settled] at ho
  exact isPaired_of_clean c.settling.sound hnone c.relationships o ho f hlisted
    ⟨hforward, related, hrelated, c.not_failed hobject⟩

/-- A relationship from before counterparts has been read, and nothing else has become of it. -/
theorem exists_readAs_of_old (hf : f < g₀.settled.relationships.size) :
    ∃ a, g.relationshipAt f = (g₀.settled.relationshipAt f).readAs a := by
  rw [c.relationshipAt_eq]
  exact c.reading.old f hf

/-- In the end a relationship from before counterparts is what it reads as. -/
theorem relationshipAt_eq_readAt (hf : f < g₀.settled.relationships.size) :
    g.relationshipAt f = g₀.settled.readAt f := by
  rw [c.relationshipAt_eq]
  exact (c.isPaired hf).read

/-- The relationships from before counterparts are those that are no counterparts. -/
theorem lt_size_settled_iff (hr : r < g.relationships.size) :
    r < g₀.settled.relationships.size ↔ (g.relationshipAt r).isReverse = false := by
  rw [c.relationships_eq] at hr
  constructor
  · intro hlt
    obtain ⟨-, -, -, -, hforward, -⟩ := c.ends_of_old hlt
    obtain ⟨a, ha⟩ := c.exists_readAs_of_old hlt
    rw [ha, Relationship.isReverse_readAs]
    exact hforward
  · intro hforward
    by_contra hnew
    rw [c.relationshipAt_eq] at hforward
    have hreverse := (c.reading.counterparts r hr (Nat.not_lt.1 hnew)).1
    rw [hforward] at hreverse
    cases hreverse

/-- A counterpart is made from a relationship that is declared both ways. -/
theorem exists_forward (hr : r < g.relationships.size) (hreverse : (g.relationshipAt r).isReverse = true) :
    ∃ f < g₀.settled.relationships.size, (g.relationshipAt f).IsDeclaredBothWays ∧
      ∃ ownerName, (g.relationshipAt f).reverse? f ownerName = some (g.relationshipAt r) := by
  have hnew : g₀.settled.relationships.size ≤ r := by
    by_contra hlt
    rw [(c.lt_size_settled_iff hr).1 (Nat.not_le.1 hlt)] at hreverse
    cases hreverse
  have hr' := hr
  rw [c.relationships_eq] at hr'
  obtain ⟨f, hf, hown, hforward, ownerName, hx⟩ := c.pairing.new r hr' hnew
  obtain ⟨a, ha⟩ := c.exists_readAs_of_old hf
  rw [← c.relationshipAt_eq_readAt hf, ← c.relationshipAt_eq] at hx
  refine ⟨f, hf, ⟨?_, ?_, ?_⟩, ownerName, hx⟩
  · rw [ha, Relationship.isInherited_readAs]
    exact hown
  · rw [ha, Relationship.isReverse_readAs]
    exact hforward
  · unfold Relationship.reverse? at hx
    split at hx
    · rename_i hname _
      rw [Relationship.isBidirectional, hname]
      rfl
    · cases hx

theorem mirrors (hr : r < g.relationships.size) (hforward : g.forwardOf? r = some f) :
    f < g₀.settled.relationships.size ∧ (g.relationshipAt f).IsDeclaredBothWays ∧
      (g.relationshipAt r).Mirrors (g.relationshipAt f) := by
  have hreverse : (g.relationshipAt r).isReverse = true := by
    obtain ⟨v, hv, -⟩ := Option.map_eq_some_iff.1 hforward
    rw [Relationship.isReverse, hv]
    rfl
  obtain ⟨f', hf, hdeclared, ownerName, hx⟩ := c.exists_forward hr hreverse
  obtain ⟨o, ho, hlisted, -, -, related, -, hrelated, herrors⟩ := c.ends_of_old hf
  obtain ⟨⟨a, ha⟩, -, hjoined, -⟩ := c.relationshipAt_of_old ho hlisted
  obtain ⟨cardinality, hcardinality⟩ := Option.isSome_iff_exists.1 hjoined.cardinality
  obtain ⟨name, hname⟩ := Option.isSome_iff_exists.1 hdeclared.bidirectional
  have hrelated' : (g.relationshipAt f').related = some related := by
    rw [ha, Relationship.related_readAs]
    exact hrelated
  -- The counterpart as it is made, field by field.
  simp only [Relationship.reverse?, hname, hrelated', Option.some.injEq] at hx
  obtain rfl : f' = f := by
    rw [forwardOf?, ← hx] at hforward
    exact Option.some.inj hforward
  have hparameters : (g.relationshipAt f').hasParameters = false := by
    have hnot := ((errors_eq_nil_iff ..).1 herrors).2.2
    have hboth := hdeclared.bidirectional
    rw [ha, Relationship.isBidirectional_readAs] at hboth
    rw [ha, Relationship.hasParameters_readAs]
    cases hparameters : (g₀.settled.relationshipAt f').hasParameters with
    | false => rfl
    | true => exact absurd ⟨hparameters, hboth⟩ hnot
  refine ⟨hf, hdeclared, ?_⟩
  rw [← hx]
  exact ⟨hrelated', rfl, hname, rfl, ⟨cardinality, hcardinality, by rw [hcardinality]; rfl⟩, rfl, rfl, hparameters, rfl⟩

theorem exists_counterpart (hf : f < g.relationships.size) (hdeclared : (g.relationshipAt f).IsDeclaredBothWays) :
    ∃ r < g.relationships.size, g.forwardOf? r = some f := by
  have hold := (c.lt_size_settled_iff hf).2 hdeclared.forward
  obtain ⟨a, ha⟩ := c.exists_readAs_of_old hold
  have hown := hdeclared.own
  have hboth := hdeclared.bidirectional
  rw [ha, Relationship.isInherited_readAs] at hown
  rw [ha, Relationship.isBidirectional_readAs] at hboth
  obtain ⟨r, hr, -, hforward⟩ := (c.isPaired hold).counterpart hown hboth
  refine ⟨r, ?_, ?_⟩
  · rw [c.relationships_eq]
    exact hr
  · rw [forwardOf?, c.relationshipAt_eq]
    exact hforward

/-- Two counterparts of one relationship would be members of one object with one name. -/
private theorem counterpart_unique {s : RelationshipId} (hr : r < g.relationships.size) (hs : s < g.relationships.size)
    (hforward : g.forwardOf? r = some f) (hforward' : g.forwardOf? s = some f) : r = s := by
  obtain ⟨hf, -, hmirrors⟩ := c.mirrors hr hforward
  obtain ⟨-, -, hmirrors'⟩ := c.mirrors hs hforward'
  have howner : (g.relationshipAt r).owner = (g.relationshipAt s).owner :=
    Option.some.inj (hmirrors.owner.symm.trans hmirrors'.owner)
  have hname : (g.relationshipAt r).name = (g.relationshipAt s).name :=
    Option.some.inj (hmirrors.name.symm.trans hmirrors'.name)
  obtain ⟨hobject, hlisted⟩ := c.mem_owner hr
  have hlisted' := (c.mem_owner hs).2
  rw [← howner] at hlisted'
  have hnodup := (List.nodup_append'.1 (c.memberNames_nodup hobject)).2.1
  rw [relationshipsOf, List.map_map] at hnodup
  exact List.inj_on_of_nodup_map hnodup hlisted hlisted' hname

end ResolvesTo

/-- In a resolved graph every relationship that is declared both ways has exactly one counterpart, every counterpart is
that of such a relationship, and the two of a pair mirror each other. -/
theorem counterparts_of_resolve {d : Declarations} {config : Config} {g : Graph}
    (hresolve : (d.resolve config).1 = .ok g) :
    (∀ f < g.relationships.size, (g.relationshipAt f).IsDeclaredBothWays →
      ∃! r, r < g.relationships.size ∧ g.forwardOf? r = some f) ∧
    (∀ r < g.relationships.size, (g.relationshipAt r).isReverse = true →
      ∃ f < g.relationships.size, (g.relationshipAt f).IsDeclaredBothWays ∧ g.forwardOf? r = some f) ∧
    (∀ r < g.relationships.size, ∀ f, g.forwardOf? r = some f → (g.relationshipAt r).Mirrors (g.relationshipAt f)) := by
  obtain ⟨g₀, c⟩ := exists_resolvesTo_of_resolve hresolve
  refine ⟨fun f hf hdeclared => ?_, fun r hr hreverse => ?_, fun r hr f hforward => (c.mirrors hr hforward).2.2⟩
  · obtain ⟨r, hr, hforward⟩ := c.exists_counterpart hf hdeclared
    exact ⟨r, ⟨hr, hforward⟩, fun s hs => c.counterpart_unique hs.1 hr hs.2 hforward⟩
  · obtain ⟨v, hv⟩ := Option.isSome_iff_exists.1 hreverse
    have hforward : g.forwardOf? r = some v.forward := by
      rw [forwardOf?, hv]
      rfl
    obtain ⟨hf, hdeclared, -⟩ := c.mirrors hr hforward
    exact ⟨v.forward, c.lt_size_of_old hf, hdeclared, hforward⟩

/-- The topmost object of the sample leads to its team, and the one counterpart leads back to the boss. -/
theorem counterparts_of_staff :
    (staff.resolve .default).1 = .ok staffGraph ∧ 1 < staffGraph.relationships.size ∧
      (staffGraph.relationshipAt 1).IsDeclaredBothWays ∧ 3 < staffGraph.relationships.size ∧
      staffGraph.forwardOf? 3 = some 1 ∧ (∃! r, r < staffGraph.relationships.size ∧ staffGraph.forwardOf? r = some 1) ∧
      (staffGraph.relationshipAt 3).Mirrors (staffGraph.relationshipAt 1) := by
  obtain ⟨hsize, hforward, hown, hnotReverse, hbidirectional⟩ : staffGraph.relationships.size = 4 ∧
      staffGraph.forwardOf? 3 = some 1 ∧ (staffGraph.relationshipAt 1).isInherited = false ∧
      (staffGraph.relationshipAt 1).isReverse = false ∧ (staffGraph.relationshipAt 1).isBidirectional = true := by
    decide +kernel
  have hdeclared : (staffGraph.relationshipAt 1).IsDeclaredBothWays := ⟨hown, hnotReverse, hbidirectional⟩
  obtain ⟨hunique, -, hmirrors⟩ := counterparts_of_resolve resolve_staff
  exact ⟨resolve_staff, by omega, hdeclared, by omega, hforward, hunique 1 (by omega) hdeclared,
    hmirrors 3 (by omega) 1 hforward⟩

end Graph

end Metamodel
