import Metamodel.Proofs.Resolution.Completion

/-!
# What a resolved graph guarantees

A graph that resolution returns holds valid members only, inherited ones and counterparts included.  Each of its
objects has members that agree with those of its superclass (`Completes.standsFor`), and so with those of every
object above it (`Completes.standsFor_above`).
-/

namespace Metamodel

namespace Graph

/-- `o` can stand for `p`: it has attributes, a source attribute and relationships that agree with those of `p`. -/
structure StandsFor (g : Graph) (o p : EntityId) : Prop where
  attributes : ∀ t ∈ g.attributesOf p, ∃ a ∈ g.attributesOf o, a.name = t.name ∧ a.AgreesWith t
  source : ∀ t, (g.entity p).source = some t → ∃ a, (g.entity o).source = some a ∧
    (g.attributeAt a).name = (g.attributeAt t).name ∧ (g.attributeAt a).AgreesWith (g.attributeAt t)
  relationships : ∀ t ∈ g.relationshipsOf p, t.isReverse = false →
    ∃ r ∈ g.relationshipsOf o, r.name = t.name ∧ r.isReverse = false ∧
      (∃ related, r.related = some related ∧ t.related = some related) ∧
      ∃ cardinality, r.cardinality = some cardinality ∧ t.cardinality = some cardinality

theorem StandsFor.trans {g : Graph} {o p q : EntityId} (first : g.StandsFor o p) (second : g.StandsFor p q) :
    g.StandsFor o q := by
  refine ⟨fun t ht => ?_, fun t ht => ?_, fun t ht hforward => ?_⟩
  · obtain ⟨b, hb, hname, hagrees⟩ := second.attributes t ht
    obtain ⟨a, ha, hname', hagrees'⟩ := first.attributes b hb
    exact ⟨a, ha, hname'.trans hname, hagrees'.trans hagrees⟩
  · obtain ⟨b, hb, hname, hagrees⟩ := second.source t ht
    obtain ⟨a, ha, hname', hagrees'⟩ := first.source b hb
    exact ⟨a, ha, hname'.trans hname, hagrees'.trans hagrees⟩
  · obtain ⟨s, hs, hname, hforward', ⟨related, hs₁, ht₁⟩, cardinality, hs₂, ht₂⟩ := second.relationships t ht hforward
    obtain ⟨r, hr, hname', hforward'', ⟨related', hr₁, hs₁'⟩, cardinality', hr₂, hs₂'⟩ :=
      first.relationships s hs hforward'
    refine ⟨r, hr, hname'.trans hname, hforward'', ⟨related, ?_, ht₁⟩, cardinality, ?_, ht₂⟩
    · rw [hr₁, ← hs₁', hs₁]
    · rw [hr₂, ← hs₂', hs₂]

namespace Completes

variable {g₀ g : Graph} {o p : EntityId} (c : Completes g₀ g)

include c

/-! ### Relationships in the end -/

/-- A relationship that is no counterpart is one that has been read. -/
theorem relationshipAt_of_old (ho : o ∈ g₀.idsOfKind .object) {r : RelationshipId}
    (hr : r ∈ (g₀.settled.entity o).relationships) :
    (∃ a, g.relationshipAt r = (g₀.settled.relationshipAt r).readAs a) ∧
      (g.relationshipAt r).isReverse = false ∧ WellJoined g₀.settled o (g.relationshipAt r) ∧
      (g.relationshipAt r).cardinality = (g₀.settled.relationshipAt r).cardinalityKey.bind Cardinality.ofKey? := by
  obtain ⟨a, ha⟩ := c.reading.old r (c.settling.sound.relationship_owned o r hr).1
  obtain ⟨hforward, related, hrelated, herrors⟩ := c.errors_eq_nil ho _ (List.mem_map_of_mem hr)
  obtain ⟨hcardinality, hjoin⟩ := (c.read ho r hr).1 related hrelated hforward
  rw [c.relationshipAt_eq]
  refine ⟨⟨a, ha⟩, ?_, wellJoined_of_errors_eq_nil herrors ?_ hcardinality hjoin, ?_⟩
  · rw [ha, Relationship.isReverse_readAs]
    exact hforward
  · rw [ha, Relationship.related_readAs]
    exact hrelated
  · rw [hcardinality, cardinality_analysis]

/-- Every relationship of an object is well joined: one that was read, and a counterpart. -/
theorem wellJoined (ho : o ∈ g₀.idsOfKind .object) {r : RelationshipId} (hr : r ∈ (g.entity o).relationships) :
    (g.relationshipAt r).owner = o ∧ WellJoined g o (g.relationshipAt r) := by
  rw [c.entity_eq] at hr
  obtain ⟨hlt, howner⟩ := c.reading.sound.relationship_owned o r hr
  rw [← c.relationshipAt_eq] at howner
  have hjoined : WellJoined g₀.settled o (g.relationshipAt r) := by
    by_cases hold : r < g₀.settled.relationships.size
    · exact (c.relationshipAt_of_old ho (c.reading.mem_old hr hold)).2.2.1
    · have hcounterpart := (c.reading.counterparts r hlt (Nat.not_lt.1 hold)).2
      rw [← c.relationshipAt_eq, howner] at hcounterpart
      exact hcounterpart
  obtain ⟨related, hrelated, hpairs⟩ := hjoined.related
  refine ⟨howner, hjoined.cardinality, hjoined.references, related, hrelated, ?_⟩
  simp only [c.attributeNamed?_eq]
  exact hpairs

/-! ### One step up -/

private theorem source_eq (o : EntityId) : (g.entity o).source = (g₀.settled.entity o).source := by
  rw [c.entity_eq, c.reading.source]

/-- Attributes agree as they did after inheritance. -/
private theorem exists_attribute_up (ho : o ∈ g₀.idsOfKind .object) (hup : g₀.superOf o = some p) {i : AttributeId}
    (hi : i ∈ (g.entity p).attributes) :
    ∃ j ∈ (g.entity o).attributes, (g.attributeAt j).name = (g.attributeAt i).name ∧
      (g.attributeAt j).AgreesWith (g.attributeAt i) ∧
      ((g.entity p).source = some i → (g.entity o).source = some j) := by
  rw [c.attributeList_eq] at hi
  obtain ⟨m, hm, hname, hagrees, hmark⟩ :=
    c.exists_attribute_below ho hup (t := g₀.settled.marked p i) (List.mem_map_of_mem hi)
  obtain ⟨j, hj, rfl⟩ := List.mem_map.1 hm
  rw [← c.attributeList_eq] at hj
  refine ⟨j, hj, ?_, ?_, fun hs => ?_⟩
  · rw [c.name_attributeAt, c.name_attributeAt]
    exact hname
  · exact ((c.agreesWith_attributeAt j).trans hagrees).trans (c.agreesWith_attributeAt i).symm
  · rw [c.source_eq] at hs ⊢
    have hmarked : (g₀.settled.marked o j).isSource = true := hmark (by simp [marked, hs])
    exact (beq_iff_eq.1 hmarked).symm

/-- A relationship that is no counterpart was there after inheritance. -/
private theorem mem_old_of_not_isReverse {r : RelationshipId} (hr : r ∈ (g.entity p).relationships)
    (hforward : (g.relationshipAt r).isReverse = false) : r ∈ (g₀.settled.entity p).relationships := by
  rw [c.entity_eq] at hr
  refine c.reading.mem_old hr ?_
  by_contra hnew
  have hindex := (c.reading.sound.relationship_owned p r hr).1
  have hcounterpart := (c.reading.counterparts r hindex (Nat.not_lt.1 hnew)).1
  rw [← c.relationshipAt_eq, hforward] at hcounterpart
  cases hcounterpart

private theorem exists_relationship_up (ho : o ∈ g₀.idsOfKind .object) (hup : g₀.superOf o = some p)
    {i : RelationshipId} (hi : i ∈ (g.entity p).relationships) (hforward : (g.relationshipAt i).isReverse = false) :
    ∃ j ∈ (g.entity o).relationships, (g.relationshipAt j).name = (g.relationshipAt i).name ∧
      (g.relationshipAt j).isReverse = false ∧
      (∃ related, (g.relationshipAt j).related = some related ∧ (g.relationshipAt i).related = some related) ∧
      ∃ cardinality, (g.relationshipAt j).cardinality = some cardinality ∧
        (g.relationshipAt i).cardinality = some cardinality := by
  have hp := mem_objects_of_superOf hup
  have hold := c.mem_old_of_not_isReverse hi hforward
  obtain ⟨⟨a, hi'⟩, -, hjoined, hcardinality⟩ := c.relationshipAt_of_old hp hold
  obtain ⟨related, hrelated, -⟩ := hjoined.related
  obtain ⟨cardinality, hsome⟩ := Option.isSome_iff_exists.1 hjoined.cardinality
  obtain ⟨x, hx, hname, hagrees⟩ := c.exists_relationship_below ho hup (List.mem_map_of_mem hold)
    (c.errors_eq_nil hp _ (List.mem_map_of_mem hold)).1
  obtain ⟨j, hj, rfl⟩ := List.mem_map.1 hx
  obtain ⟨⟨b, hj'⟩, hforward', -, hcardinality'⟩ := c.relationshipAt_of_old ho hj
  have hlisted : j ∈ (g.entity o).relationships := by
    rw [c.entity_eq]
    exact c.reading.mem_new hj
  refine ⟨j, hlisted, ?_, hforward', ⟨related, ?_, hrelated⟩, cardinality, ?_, hsome⟩
  · rw [hi', hj', Relationship.name_readAs, Relationship.name_readAs]
    exact hname
  · rw [hi', Relationship.related_readAs] at hrelated
    rw [hj', Relationship.related_readAs]
    exact hagrees.related.trans hrelated
  · obtain ⟨key, hkey, -⟩ := Option.bind_eq_some_iff.1 (hcardinality.symm.trans hsome)
    rw [hcardinality', hagrees.cardinalityKey key hkey, ← hkey, ← hcardinality, hsome]

theorem standsFor (ho : o ∈ g₀.idsOfKind .object) (hup : g₀.superOf o = some p) : g.StandsFor o p := by
  refine ⟨fun t ht => ?_, fun i hi => ?_, fun t ht hforward => ?_⟩
  · obtain ⟨i, hi, rfl⟩ := List.mem_map.1 ht
    obtain ⟨j, hj, hname, hagrees, -⟩ := c.exists_attribute_up ho hup hi
    exact ⟨g.attributeAt j, List.mem_map_of_mem hj, hname, hagrees⟩
  · have hlisted : i ∈ (g.entity p).attributes := by
      rw [c.attributeList_eq]
      rw [c.source_eq] at hi
      exact c.settling.sound.source_listed p i hi
    obtain ⟨j, -, hname, hagrees, hmark⟩ := c.exists_attribute_up ho hup hlisted
    exact ⟨j, hmark hi, hname, hagrees⟩
  · obtain ⟨i, hi, rfl⟩ := List.mem_map.1 ht
    obtain ⟨j, hj, hname, hreverse, hrelated, hcardinality⟩ := c.exists_relationship_up ho hup hi hforward
    exact ⟨g.relationshipAt j, List.mem_map_of_mem hj, hname, hreverse, hrelated, hcardinality⟩

/-- So it can for every object above, step by step. -/
theorem standsFor_above (ho : o ∈ g₀.idsOfKind .object)
    (hp : Relation.TransGen (fun o p => (g.entity o).superEntity = some p) o p) :
    p ∈ g₀.idsOfKind .object ∧ g.StandsFor o p := by
  have step : ∀ {o p}, o ∈ g₀.idsOfKind .object → (g.entity o).superEntity = some p →
      p ∈ g₀.idsOfKind .object ∧ g.StandsFor o p := by
    intro o p ho hup
    rw [c.superEntity_eq ho] at hup
    exact ⟨mem_objects_of_superOf hup, c.standsFor ho hup⟩
  induction hp with
  | single hup => exact step ho hup
  | tail _ hup ih =>
    obtain ⟨hmid, hbelow⟩ := ih
    obtain ⟨hp, habove⟩ := step hmid hup
    exact ⟨hp, hbelow.trans habove⟩

end Completes

/-! ### A sample -/

/-- Objects in three generations.  The one in the middle declares members of the topmost again, and leaves the
cardinality of its relationship to it. -/
def staff : Declarations where
  enumerations := ⟨[("staff.Rank",
    { name := ⟨"staff", "Rank"⟩, persistedType := .int, members := [⟨"LOW", "1"⟩, ⟨"HIGH", "2"⟩] })], by decide⟩
  objects := ⟨[
    ("staff.Clerk", { name := ⟨"staff", "Clerk"⟩, superClass := some "Employee" }),
    ("staff.Employee",
      { name := ⟨"staff", "Employee"⟩
        superClass := some "Person"
        attributes := [{ name := "id", dataType := .int, column := { primaryKey := true } }]
        enumerationAttributes := [{ name := "rank", enumeration := "Rank", columnName := some "RANK" }]
        relationships := [{ name := "boss", relatedObject := "Person", query := some "this.bossId = Person.id" }] }),
    ("staff.Person",
      { name := ⟨"staff", "Person"⟩
        attributes := [{ name := "id", dataType := .int, column := { primaryKey := true } },
          { name := "bossId", dataType := .int }]
        asOfAttributes := [{
          name := "known"
          settings := { fromColumn := some "IN_Z", toColumn := some "OUT_Z", isProcessingDate := true } }]
        sourceAttribute := some { name := "region", dataType := .string }
        enumerationAttributes := [{ name := "rank", enumeration := "Rank" }]
        relationships := [{
          name := "boss"
          relatedObject := "Person"
          cardinality := some "many-to-one"
          query := some "this.bossId = Person.id"
          reverseName := some "team" }] })], by decide⟩

/-- The graph that the sample resolves to. -/
def staffGraph : Graph :=
  (staff.resolve .default).1.toOption.getD empty

private theorem staffGraph_facts :
    (staff.resolve .default).1.isOk = true ∧ 1 ∈ staffGraph.idsOfKind .object ∧ 3 ∈ staffGraph.idsOfKind .object ∧
      (staffGraph.entity 1).superEntity = some 2 ∧ (staffGraph.entity 2).superEntity = some 3 ∧
      (staffGraph.relationshipsOf 3).map (·.name) = ["boss", "team"] := by
  decide +kernel

theorem resolve_staff : (staff.resolve .default).1 = .ok staffGraph :=
  eq_ok_of_isOk staffGraph_facts.1 empty

/-! ### Resolution -/

/-- An object of a resolved graph can stand for every object above it: its attributes and its relationships agree with
theirs. -/
theorem standsFor_of_resolve {d : Declarations} {config : Config} {g : Graph} {o p : EntityId}
    (hresolve : (d.resolve config).1 = .ok g) (ho : o ∈ g.idsOfKind .object)
    (hp : Relation.TransGen (fun o p => (g.entity o).superEntity = some p) o p) : g.StandsFor o p := by
  obtain ⟨g₀, c⟩ := exists_completes_of_resolve hresolve
  rw [c.idsOfKind_eq] at ho
  exact (c.standsFor_above ho hp).2

/-- The object at the bottom of the sample can stand for the one at the top. -/
theorem standsFor_of_staff :
    (staff.resolve .default).1 = .ok staffGraph ∧ 1 ∈ staffGraph.idsOfKind .object ∧
      (staffGraph.entity 1).superEntity = some 2 ∧ (staffGraph.entity 2).superEntity = some 3 ∧
      staffGraph.StandsFor 1 3 := by
  obtain ⟨-, hobject, -, hfirst, hsecond, -⟩ := staffGraph_facts
  exact ⟨resolve_staff, hobject, hfirst, hsecond,
    standsFor_of_resolve resolve_staff hobject (.tail (.single hfirst) hsecond)⟩

/-- No member of an object of a resolved graph has anything wrong with it, whether it is declared, inherited or a
counterpart: attributes have no problems, and relationships are well joined. -/
theorem members_valid_of_resolve {d : Declarations} {config : Config} {g : Graph} {o : EntityId}
    (hresolve : (d.resolve config).1 = .ok g) (ho : o ∈ g.idsOfKind .object) :
    (∀ a ∈ g.attributesOf o, a.problems = []) ∧
      ∀ r ∈ g.relationshipsOf o, r.owner = o ∧ WellJoined g o r := by
  obtain ⟨g₀, c⟩ := exists_completes_of_resolve hresolve
  rw [c.idsOfKind_eq] at ho
  constructor
  · intro a ha
    obtain ⟨i, hi, rfl⟩ := List.mem_map.1 ha
    rw [c.attributeList_eq] at hi
    rw [c.read_attributeAt Attribute.problems fun _ => rfl]
    exact c.problems_eq_nil ho (g₀.settled.marked o i) (List.mem_map_of_mem hi)
  · intro r hr
    obtain ⟨i, hi, rfl⟩ := List.mem_map.1 hr
    exact c.wellJoined ho hi

/-- The object at the top of the sample has a relationship and its counterpart, both well joined. -/
theorem members_valid_of_staff :
    (staff.resolve .default).1 = .ok staffGraph ∧ 3 ∈ staffGraph.idsOfKind .object ∧
      (staffGraph.relationshipsOf 3).map (·.name) = ["boss", "team"] ∧
      (∀ a ∈ staffGraph.attributesOf 3, a.problems = []) ∧
      ∀ r ∈ staffGraph.relationshipsOf 3, r.owner = 3 ∧ WellJoined staffGraph 3 r := by
  obtain ⟨-, -, hobject, -, -, hnames⟩ := staffGraph_facts
  obtain ⟨hattributes, hrelationships⟩ := members_valid_of_resolve resolve_staff hobject
  exact ⟨resolve_staff, hobject, hnames, hattributes, hrelationships⟩

end Graph

end Metamodel
