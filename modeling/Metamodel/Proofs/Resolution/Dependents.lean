import Metamodel.Proofs.Resolution.Dependence
import Metamodel.Proofs.Resolution.Navigation

/-!
# Relationships to dependents

Where a resolved relationship says that its related entity depends on the owner, the dependents of one owner can be told
from those of another: the relationship is not many-to-many, and its join takes in the whole primary key of the owner
(`Carries`).  This is found with the keys that the owner itself has, those that it has inherited included, so it holds
of declared relationships and of copies alike.  A counterpart never has dependents; it says of its own owner what the
relationship that it reverses says in the end.
-/

namespace Metamodel

private theorem Relationship.isRelatedDependent_iff {r : Relationship} :
    r.isRelatedDependent = true ↔ r.relatedIsDependent = some true := by
  rw [isRelatedDependent]
  cases r.relatedIsDependent <;> simp

/-- A counterpart has no dependents, and it depends on the other end if the relationship that it reverses says so. -/
private theorem Relationship.dependence_of_reverse? {f r : Relationship} {id : RelationshipId} {ownerName : String}
    (h : f.reverse? id ownerName = some r) :
    r.isRelatedDependent = false ∧ r.isDependent = f.isRelatedDependent ∧ r.reversal.map (·.forward) = some id := by
  unfold reverse? at h
  split at h
  · obtain rfl := Option.some.inj h
    exact ⟨rfl, rfl, rfl⟩
  · cases h

namespace Graph

variable {d : Declarations} {k g₀ g : Graph} {o related : EntityId} {r : RelationshipId} {x : Relationship}

/-- `x` can lead from `o` to dependents of `o`. -/
structure Carries (g : Graph) (o : EntityId) (x : Relationship) : Prop where
  cardinality : ∃ c, x.cardinality = some c ∧ c ≠ .manyToMany
  keys : ∀ a ∈ g.attributesOf o, a.isPrimaryKey = true → ∃ p ∈ x.join.pairs, p.thisAttribute = a.name

private theorem exists_pair_of_unjoinedKeys_eq_nil {join : Join} (h : k.unjoinedKeys o join = []) {a : Attribute}
    (ha : a ∈ k.attributesOf o) (hkey : a.isPrimaryKey = true) : ∃ p ∈ join.pairs, p.thisAttribute = a.name := by
  by_contra hnone
  have hleft : a.name ∈ k.unjoinedKeys o join :=
    mem_unjoinedKeys_iff.2 ⟨a, ha, hkey, fun p hp hname => hnone ⟨p, hp, hname⟩, rfl⟩
  rw [h] at hleft
  cases hleft

/-- Reading gives no relationship a dependence that it has not asked for. -/
private theorem asks_of_relatedIsDependent_analysis (h : (k.analysis o related x).relatedIsDependent = some true) :
    x.relatedIsDependent = some true := by
  simp only [analysis] at h
  split at h
  · cases h
  · exact h

namespace ResolvesTo

variable (c : ResolvesTo d g₀ g)

include c

private theorem lt_size_of_mem (hr : r ∈ (g.entity o).relationships) : r < g.relationships.size := by
  rw [c.entity_eq] at hr
  rw [c.relationships_eq]
  exact (c.reading.sound.relationship_owned o r hr).1

/-- A relationship from before counterparts keeps its dependence in the end only if it can carry it. -/
private theorem carries_of_old (hr : r < g₀.settled.relationships.size)
    (hdependent : (g.relationshipAt r).isRelatedDependent = true) :
    Carries g (g.relationshipAt r).owner (g.relationshipAt r) := by
  obtain ⟨o, ho, hlisted, howner, -, related, -, hrelated, -⟩ := c.ends_of_old hr
  have hcardinality := (c.relationshipAt_of_old ho hlisted).2.2.1.cardinality
  have hread := (c.relationshipAt_eq_readAt hr).trans (readAt_of_related hrelated)
  have howner' : (g.relationshipAt r).owner = o := by
    rw [hread, Relationship.owner_readAs]
    exact howner
  rw [howner] at hread
  rw [Relationship.isRelatedDependent_iff, hread, Relationship.relatedIsDependent_readAs] at hdependent
  obtain ⟨hmany, hkeys⟩ :=
    (relatedIsDependent_analysis_iff (asks_of_relatedIsDependent_analysis hdependent)).1 hdependent
  rw [← c.unjoinedKeys_eq] at hkeys
  rw [howner']
  constructor
  · obtain ⟨cardinality, hsome⟩ := Option.isSome_iff_exists.1 hcardinality
    refine ⟨cardinality, hsome, ?_⟩
    rintro rfl
    rw [hread, Relationship.cardinality_readAs] at hsome
    exact hmany hsome
  · rw [hread, Relationship.join_readAs]
    exact fun a ha hkey => exists_pair_of_unjoinedKeys_eq_nil hkeys ha hkey

end ResolvesTo

/-! ### Resolution -/

/-- A relationship of a resolved object, declared, declared again or inherited, has dependents only if it is not
many-to-many and joins the whole primary key that the object has, inherited or not.  A counterpart has none, and its
owner depends on the other end just if that is what the reversed relationship says in the end. -/
theorem carries_of_resolve {config : Config} (hresolve : (d.resolve config).1 = .ok g)
    (ho : o ∈ g.idsOfKind .object) (hr : r ∈ (g.entity o).relationships) :
    (g.relationshipAt r).owner = o ∧
      ((g.relationshipAt r).isRelatedDependent = true → Carries g o (g.relationshipAt r)) ∧
      ((g.relationshipAt r).isReverse = true → (g.relationshipAt r).isRelatedDependent = false ∧
        ∃ f < g.relationships.size, g.forwardOf? r = some f ∧
          ((g.relationshipAt r).isDependent = true ↔ (g.relationshipAt f).isRelatedDependent = true)) := by
  obtain ⟨g₀, c⟩ := exists_resolvesTo_of_resolve hresolve
  rw [c.idsOfKind_eq] at ho
  obtain ⟨rfl, -⟩ := c.wellJoined ho hr
  have hlt := c.lt_size_of_mem hr
  have hcounterpart : (g.relationshipAt r).isReverse = true → (g.relationshipAt r).isRelatedDependent = false ∧
      ∃ f < g.relationships.size, g.forwardOf? r = some f ∧
        ((g.relationshipAt r).isDependent = true ↔ (g.relationshipAt f).isRelatedDependent = true) := by
    intro hreverse
    obtain ⟨f, hf, -, ownerName, hx⟩ := c.exists_forward hlt hreverse
    obtain ⟨hnone, hdependent, hforward⟩ := Relationship.dependence_of_reverse? hx
    exact ⟨hnone, f, c.lt_size_of_old hf, hforward, by rw [hdependent]⟩
  refine ⟨rfl, fun hdependent => ?_, hcounterpart⟩
  by_cases hreverse : (g.relationshipAt r).isReverse = true
  · rw [(hcounterpart hreverse).1] at hdependent
    cases hdependent
  · exact c.carries_of_old ((c.lt_size_settled_iff hlt).2 (Bool.eq_false_iff.2 hreverse)) hdependent

/-- In the sample the second kind of order inherits the key and the relationship to the items, which depend on it; the
way back from an item is to what it depends on. -/
theorem carries_of_orders :
    (orders.resolve .default).1 = .ok ordersGraph ∧ 0 ∈ ordersGraph.idsOfKind .object ∧
      1 ∈ (ordersGraph.entity 0).relationships ∧ (ordersGraph.relationshipAt 1).isRelatedDependent = true ∧
      Carries ordersGraph 0 (ordersGraph.relationshipAt 1) ∧
      2 ∈ (ordersGraph.entity 2).relationships ∧ (ordersGraph.relationshipAt 2).isRelatedDependent = false ∧
      (ordersGraph.relationshipAt 2).isDependent = true := by
  obtain ⟨hheir, hcopy, hdependent, hitem, hback, hreverse, hdepends⟩ :
      0 ∈ ordersGraph.idsOfKind .object ∧ 1 ∈ (ordersGraph.entity 0).relationships ∧
        (ordersGraph.relationshipAt 1).isRelatedDependent = true ∧ 2 ∈ ordersGraph.idsOfKind .object ∧
        2 ∈ (ordersGraph.entity 2).relationships ∧ (ordersGraph.relationshipAt 2).isReverse = true ∧
        (ordersGraph.relationshipAt 2).isDependent = true := by
    decide +kernel
  obtain ⟨-, hcarries, -⟩ := carries_of_resolve resolve_orders hheir hcopy
  obtain ⟨-, -, hcounterpart⟩ := carries_of_resolve resolve_orders hitem hback
  exact ⟨resolve_orders, hheir, hcopy, hdependent, hcarries hdependent, hback, (hcounterpart hreverse).1, hdepends⟩

end Graph

end Metamodel
