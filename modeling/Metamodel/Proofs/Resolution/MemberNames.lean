import Metamodel.Proofs.Resolution.Guarantees

/-!
# Names of members along superclasses

In a resolved graph the members of an object have distinct names, and an object has a member of its own for each
attribute and each relationship above it.  So a name is that of an attribute, or that of a relationship, along all of a
line of superclasses.  Only counterparts are no part of this: a counterpart stays with the object that it was added to,
and an object below may use its name for an attribute.
-/

namespace Metamodel

namespace Graph

namespace Completes

variable {g₀ g : Graph} {o : EntityId} (c : Completes g₀ g)

include c

/-- No attribute of an object has the name of one of its relationships. -/
private theorem name_ne_name (ho : o ∈ g₀.idsOfKind .object) {a : Attribute} (ha : a ∈ g.attributesOf o)
    {r : Relationship} (hr : r ∈ g.relationshipsOf o) : a.name ≠ r.name := by
  obtain ⟨-, -, hdisjoint⟩ := List.nodup_append'.1 (c.memberNames_nodup ho)
  intro hname
  exact hdisjoint (List.mem_map_of_mem ha) (hname ▸ List.mem_map_of_mem hr)

end Completes

/-- In a resolved graph no object has an attribute of the name of a relationship above it, unless this is a counterpart
of a name that no attribute has there, and no relationship of the name of an attribute above it. -/
theorem name_ne_of_resolve {d : Declarations} {config : Config} {g : Graph} {o p : EntityId}
    (hresolve : (d.resolve config).1 = .ok g) (ho : o ∈ g.idsOfKind .object)
    (hp : Relation.TransGen (fun o p => (g.entity o).superEntity = some p) o p) :
    (∀ a ∈ g.attributesOf o, ∀ r ∈ g.relationshipsOf p, a.name = r.name →
      r.isReverse = true ∧ ∀ b ∈ g.attributesOf p, b.name ≠ r.name) ∧
    ∀ r ∈ g.relationshipsOf o, ∀ a ∈ g.attributesOf p, r.name ≠ a.name := by
  obtain ⟨g₀, c⟩ := exists_completes_of_resolve hresolve
  rw [c.idsOfKind_eq] at ho
  obtain ⟨hp, habove⟩ := c.standsFor_above ho hp
  refine ⟨fun a ha r hr hname => ⟨?_, fun b hb => c.name_ne_name hp hb hr⟩, fun r hr a ha hname => ?_⟩
  · by_contra hforward
    obtain ⟨r', hr', hsame, -⟩ := habove.relationships r hr (by simpa using hforward)
    exact c.name_ne_name ho ha hr' (hname.trans hsame.symm)
  · obtain ⟨a', ha', hsame, -⟩ := habove.attributes a ha
    exact c.name_ne_name ho ha' hr (hsame.trans hname.symm)

/-! ### A counterpart above an attribute -/

/-- Employees are persons and have a team, and a person has a team of employees. -/
def teams : Declarations where
  objects := ⟨[
    ("com.acme.Employee",
      { name := ⟨"com.acme", "Employee"⟩
        superClass := some "Person"
        attributes := [{ name := "team", dataType := .string }, { name := "bossId", dataType := .int }]
        relationships := [{
          name := "boss"
          relatedObject := "Person"
          cardinality := some "many-to-one"
          query := some "this.bossId = Person.id"
          reverseName := some "team" }] }),
    ("com.acme.Person",
      { name := ⟨"com.acme", "Person"⟩
        attributes := [{ name := "id", dataType := .int, column := { primaryKey := true } }] })], by decide⟩

/-- The graph that the sample resolves to. -/
def teamsGraph : Graph :=
  (teams.resolve .default).1.toOption.getD empty

private theorem teamsGraph_facts :
    (teams.resolve .default).1.isOk = true ∧ 0 ∈ teamsGraph.idsOfKind .object ∧
      (teamsGraph.entity 0).superEntity = some 1 ∧
      (∃ a ∈ teamsGraph.attributesOf 0, a.name = "team") ∧ ∃ r ∈ teamsGraph.relationshipsOf 1, r.name = "team" := by
  decide +kernel

private theorem resolve_teams : (teams.resolve .default).1 = .ok teamsGraph :=
  eq_ok_of_isOk teamsGraph_facts.1 empty

/-- The name of the counterpart is taken below. -/
theorem name_eq_of_teams :
    (teams.resolve .default).1 = .ok teamsGraph ∧ 0 ∈ teamsGraph.idsOfKind .object ∧
      (teamsGraph.entity 0).superEntity = some 1 ∧
      (∃ a ∈ teamsGraph.attributesOf 0, a.name = "team") ∧ ∃ r ∈ teamsGraph.relationshipsOf 1, r.name = "team" :=
  ⟨resolve_teams, teamsGraph_facts.2⟩

/-- There is a counterpart of that name and no attribute above, and no other name is used twice. -/
theorem name_ne_of_teams :
    (teams.resolve .default).1 = .ok teamsGraph ∧ 0 ∈ teamsGraph.idsOfKind .object ∧
      (teamsGraph.entity 0).superEntity = some 1 ∧
      (∀ a ∈ teamsGraph.attributesOf 0, ∀ r ∈ teamsGraph.relationshipsOf 1, a.name = r.name →
        r.isReverse = true ∧ ∀ b ∈ teamsGraph.attributesOf 1, b.name ≠ r.name) ∧
      ∀ r ∈ teamsGraph.relationshipsOf 0, ∀ a ∈ teamsGraph.attributesOf 1, r.name ≠ a.name := by
  obtain ⟨-, hobject, hup, -⟩ := teamsGraph_facts
  exact ⟨resolve_teams, hobject, hup, name_ne_of_resolve resolve_teams hobject (.single hup)⟩

end Graph

end Metamodel
