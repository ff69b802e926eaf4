import Metamodel.Proofs.Join.Dependence
import Metamodel.Proofs.Resolution.Counterparts
import Metamodel.Proofs.Resolution.Noninterference

/-!
# Dependence that is lost in resolution

A relationship that asks for the dependence of its related entity may lose it when joins are analysed.  If its
declaration loses it, there is a warning that names the declaration.  An inherited copy is analysed with the primary key
of the heir, and no warning is raised for it: it can lose what its declaration keeps, but only to a key that the heir
has and the declaring object has not (`dependence_of_resolve`).
-/

namespace Metamodel

/-- The entity that declares the relationship. -/
def Relationship.origin (r : Relationship) : EntityId :=
  r.originalOwner.getD r.owner

/-- There is a warning about the member, raised when joins were analysed. -/
def Report.WarnsOf (report : Report) (object member : String) : Prop :=
  ∃ i ∈ report.issues, i.severity = .warning ∧ i.phase = .relationships ∧ i.object = object ∧ i.member = some member

namespace Graph

/-- The graph as it goes into the analysis of joins: names are bound, embedded values are expanded, and members are
inherited. -/
def merged (config : Config) (d : Declarations) : Graph :=
  ((staged config d).prepared d (ofDeclarations config d).1.2).settled

section Report

variable {d : Declarations} {config : Config} {g : Graph}

/-- A run that returns a graph reports what is raised as it is raised. -/
private theorem mem_report_of_resolve (hresolve : (d.resolve config).1 = .ok g) {i : Issue}
    (hi : i ∈ (d.outcome config).2) : i ∈ (d.resolve config).2.report.issues := by
  have hclean : Clean (d.resolve config).2.report.issues := by
    refine (Session.isOk_resolve_iff (Session.start d config)).1 ?_
    rw [show (Session.start d config).resolve = d.resolve config from rfl, hresolve]
    rfl
  have hescalated : i.escalated config.warningsAreErrors ∈ (d.resolve config).2.report.issues := by
    rw [d.issues_resolve]
    exact List.mem_map_of_mem hi
  -- Were warnings to count as errors, this one would be an error, and there is none.
  have hlenient : config.warningsAreErrors = false := by
    by_contra hstrict
    have herror := hclean _ hescalated
    rw [Bool.not_eq_false] at hstrict
    rw [Issue.escalated, if_pos hstrict] at herror
    cases herror
  rwa [hlenient] at hescalated

private theorem mem_outcome_of_join {i : Issue} (hi : i ∈ (merged config d).resolveRelationships.2) :
    i ∈ (d.outcome config).2 := by
  have hstage : i ∈ (resolveObjects d (ofDeclarations config d).1.2 (staged config d)).2 := by
    simp only [resolveObjects, Found.andThen_eq, List.mem_append]
    exact .inl (.inr hi)
  exact List.mem_append_right _ hstage

end Report

/-! ### Keys that are left out -/

theorem mem_unjoinedKeys_iff {g : Graph} {o : EntityId} {join : Join} {name : String} :
    name ∈ g.unjoinedKeys o join ↔ ∃ a ∈ g.attributesOf o,
      a.isPrimaryKey = true ∧ (∀ p ∈ join.pairs, p.thisAttribute ≠ a.name) ∧ a.name = name := by
  simp only [unjoinedKeys, List.mem_map, List.mem_filter, Bool.not_eq_true', List.any_eq_false, beq_iff_eq, and_assoc]

section Keys

variable {d : Declarations} {g₀ g : Graph} {o p : EntityId}

/-- The keys of an object are after inheritance as they are in the end. -/
theorem Completes.unjoinedKeys_eq (c : Completes g₀ g) (o : EntityId) (join : Join) :
    g.unjoinedKeys o join = g₀.settled.unjoinedKeys o join := by
  have hkey : ∀ i, (g.attributeAt i).isPrimaryKey = (g₀.settled.attributeAt i).isPrimaryKey :=
    c.read_attributeAt (·.isPrimaryKey) fun _ => rfl
  simp only [unjoinedKeys, attributesOf, c.attributeList_eq, List.filter_map, List.map_map, Function.comp_def,
    hkey, c.name_attributeAt]

/-- Where an object and one above it, or the same one, have attributes of one name, both are keys or neither is. -/
private theorem Completes.isPrimaryKey_above (c : Completes g₀ g) (ho : o ∈ g₀.idsOfKind .object)
    (hp : Relation.ReflTransGen (fun o p => (g.entity o).superEntity = some p) o p) {a b : Attribute}
    (ha : a ∈ g.attributesOf o) (hb : b ∈ g.attributesOf p) (hname : b.name = a.name) :
    b.isPrimaryKey = a.isPrimaryKey := by
  have hunique : ∀ a' ∈ g.attributesOf o, a'.name = a.name → a' = a := by
    intro a' ha' hsame
    exact List.inj_on_of_nodup_map (List.nodup_append'.1 (c.memberNames_nodup ho)).1 ha' ha hsame
  rcases Relation.reflTransGen_iff_eq_or_transGen.1 hp with rfl | habove
  · rw [hunique b hb hname]
  · obtain ⟨a', ha', hsame, hagrees⟩ := (c.standsFor_above ho habove).2.attributes b hb
    rw [← hunique a' ha' (hsame.trans hname), hagrees.isPrimaryKey]

/-- A copy that loses what its declaration keeps loses it to a key that only the heir has. -/
private theorem Completes.exists_own_key (c : Completes g₀ g) (ho : o ∈ g₀.idsOfKind .object)
    (hp : Relation.ReflTransGen (fun o p => (g.entity o).superEntity = some p) o p) {join : Join}
    (hheir : g.unjoinedKeys o join ≠ []) (horigin : g.unjoinedKeys p join = []) :
    ∃ a ∈ g.attributesOf o, a.isPrimaryKey = true ∧ (∀ q ∈ join.pairs, q.thisAttribute ≠ a.name) ∧
      ∀ b ∈ g.attributesOf p, b.name ≠ a.name := by
  obtain ⟨name, hmem⟩ := List.exists_mem_of_ne_nil _ hheir
  obtain ⟨a, ha, hkey, hjoin, -⟩ := mem_unjoinedKeys_iff.1 hmem
  refine ⟨a, ha, hkey, hjoin, fun b hb hname => ?_⟩
  have hbkey : b.isPrimaryKey = true := (c.isPrimaryKey_above ho hp ha hb hname).trans hkey
  have hleft : b.name ∈ g.unjoinedKeys p join := mem_unjoinedKeys_iff.2 ⟨b, hb, hbkey, by rwa [hname], rfl⟩
  rw [horigin] at hleft
  cases hleft

/-- A relationship that loses its dependence is warned of with its declaration, or it is a copy that has lost it to a
key of the heir. -/
private theorem ResolvesTo.lost_cases (c : ResolvesTo d g₀ g) {r : RelationshipId}
    (hasks : (g₀.settled.relationshipAt r).relatedIsDependent = some true)
    (hlost : (g.relationshipAt r).isRelatedDependent = false) :
    Relation.ReflTransGen (fun o p => (g.entity o).superEntity = some p) (g.relationshipAt r).owner
        (g.relationshipAt r).origin ∧
      ((∃ message, Issue.warning .relationships .schema (g.qualifiedName (g.relationshipAt r).origin)
          (some (g.relationshipAt r).name) message ∈ g₀.settled.resolveRelationships.2) ∨
        (g.relationshipAt r).isInherited = true ∧ ∃ a ∈ g.attributesOf (g.relationshipAt r).owner,
          a.isPrimaryKey = true ∧ (∀ p ∈ (g.relationshipAt r).join.pairs, p.thisAttribute ≠ a.name) ∧
            ∀ b ∈ g.attributesOf (g.relationshipAt r).origin, b.name ≠ a.name) := by
  have hr : r < g₀.settled.relationships.size := by
    by_contra hnot
    rw [relationshipAt, Array.getD, dif_neg hnot] at hasks
    cases hasks
  obtain ⟨o, ho, hlisted, howner, -, related, -, hrelated, -⟩ := c.ends_of_old hr
  obtain ⟨f, hf, hown, hcopy, horigin, habove⟩ := c.exists_declared ho _ (List.mem_map_of_mem hlisted)
  have hread := (c.relationshipAt_eq_readAt hr).trans (readAt_of_related hrelated)
  rw [howner] at hread
  rw [← horigin] at habove
  -- What the statement says of `r` in the end, said of its declaration and of the reading.
  have hstated : (g.relationshipAt r).owner = o ∧
      (g.relationshipAt r).origin = (g₀.settled.relationshipAt f).owner ∧
      (g.relationshipAt r).name = (g₀.settled.relationshipAt f).name ∧
      (g.relationshipAt r).join = (g₀.settled.analysis o related (g₀.settled.relationshipAt r)).join := by
    rw [hread, Relationship.origin, Relationship.owner_readAs, Relationship.originalOwner_readAs,
      Relationship.name_readAs, Relationship.join_readAs]
    exact ⟨howner, horigin.symm, congrArg (·.name) hcopy, rfl⟩
  obtain ⟨howner', horigin', hname', hjoin'⟩ := hstated
  rw [howner', horigin', hname', hjoin']
  refine ⟨habove, ?_⟩
  have hasks' : (g₀.settled.relationshipAt f).relatedIsDependent = some true :=
    (congrArg (·.relatedIsDependent) hcopy).symm.trans hasks
  rcases (accounts_resolveRelationships c.settling.sound).accounted f hf hasks' hown with hstill | ⟨message, hmessage⟩
  · have hrelated' : (g₀.settled.relationshipAt f).related = some related :=
      (congrArg (·.related) hcopy).symm.trans hrelated
    have hkept : (g.relationshipAt f).relatedIsDependent = some true := by
      rw [c.relationshipAt_eq]
      exact hstill
    rw [c.relationshipAt_eq_readAt hf, readAt_of_related hrelated'] at hkept
    have hlost' : (g₀.settled.analysis o related (g₀.settled.relationshipAt r)).relatedIsDependent ≠ some true := by
      intro hsome
      rw [hread] at hlost
      simp [Relationship.isRelatedDependent, Relationship.readAs, hsome] at hlost
    obtain ⟨hkeys, hheir⟩ := unjoinedKeys_of_copy hcopy hasks hlost' hkept
    have hcopied : (g₀.settled.relationshipAt r).isInherited = true := by
      by_contra hdeclared
      have hnone : (g₀.settled.relationshipAt r).originalOwner = none := by
        simpa [Relationship.isInherited] using hdeclared
      rw [hnone, Option.getD_none, howner] at horigin
      rw [horigin] at hkeys
      exact hheir hkeys
    rw [← c.unjoinedKeys_eq] at hkeys hheir
    refine .inr ⟨?_, c.exists_own_key ho habove hheir hkeys⟩
    rw [hread, Relationship.isInherited_readAs]
    exact hcopied
  · rw [qualifiedName_of_outline_eq c.settling.outline, ← qualifiedName_of_outline_eq c.outline_eq] at hmessage
    exact .inl ⟨message, hmessage⟩

end Keys

/-! ### Resolution -/

/-- In what resolves, a relationship loses the dependence that it asked for with a warning that names it with the object
that declares it, which is its owner or one above.  There is one exception: a copy, whose heir has a primary key
attribute of its own that the join leaves out. -/
theorem dependence_of_resolve {d : Declarations} {config : Config} {g : Graph} {r : RelationshipId}
    (hresolve : (d.resolve config).1 = .ok g)
    (hasks : ((merged config d).relationshipAt r).relatedIsDependent = some true)
    (hlost : (g.relationshipAt r).isRelatedDependent = false) :
    Relation.ReflTransGen (fun o p => (g.entity o).superEntity = some p) (g.relationshipAt r).owner
        (g.relationshipAt r).origin ∧
      ((d.resolve config).2.report.WarnsOf (g.qualifiedName (g.relationshipAt r).origin) (g.relationshipAt r).name ∨
        (g.relationshipAt r).isInherited = true ∧ ∃ a ∈ g.attributesOf (g.relationshipAt r).owner,
          a.isPrimaryKey = true ∧ (∀ p ∈ (g.relationshipAt r).join.pairs, p.thisAttribute ≠ a.name) ∧
            ∀ b ∈ g.attributesOf (g.relationshipAt r).origin, b.name ≠ a.name) := by
  obtain ⟨habove, hcases⟩ := (resolvesTo_of_resolve hresolve).lost_cases hasks hlost
  refine ⟨habove, hcases.imp_left fun ⟨message, hmessage⟩ => ?_⟩
  exact ⟨_, mem_report_of_resolve hresolve (mem_outcome_of_join hmessage), rfl, rfl, rfl, rfl⟩

/-! ### An heir with a key of its own -/

/-- Orders own the items that they are made of.  Where orders have versions, the number of an order is not all of the
key. -/
def versionedOrders : Declarations where
  objects := ⟨[
    ("com.acme.Order",
      { name := ⟨"com.acme", "Order"⟩
        attributes := [{ name := "id", dataType := .int, column := { primaryKey := true } }]
        relationships := [{
          name := "items"
          relatedObject := "OrderItem"
          cardinality := some "one-to-many"
          query := some "this.id = OrderItem.orderId"
          relatedIsDependent := some true }] }),
    ("com.acme.OrderItem",
      { name := ⟨"com.acme", "OrderItem"⟩
        attributes := [{ name := "id", dataType := .int, column := { primaryKey := true } },
          { name := "orderId", dataType := .int }] }),
    ("com.acme.VersionedOrder",
      { name := ⟨"com.acme", "VersionedOrder"⟩
        superClass := some "Order"
        attributes := [{ name := "version", dataType := .int, column := { primaryKey := true } }] })], by decide⟩

/-- The graph that the sample resolves to. -/
def versionedOrdersGraph : Graph :=
  (versionedOrders.resolve .default).1.toOption.getD empty

private theorem versionedOrdersGraph_facts :
    (versionedOrders.resolve .default).1.isOk = true ∧
      ((merged .default versionedOrders).relationshipAt 1).relatedIsDependent = some true ∧
      (versionedOrdersGraph.relationshipAt 1).name = "items" ∧
      versionedOrdersGraph.qualifiedName (versionedOrdersGraph.relationshipAt 1).owner = "com.acme.VersionedOrder" ∧
      (versionedOrdersGraph.relationshipAt 1).isRelatedDependent = false ∧
      (versionedOrders.resolve .default).2.report.issues = [] := by
  decide +kernel

private theorem resolve_versionedOrders : (versionedOrders.resolve .default).1 = .ok versionedOrdersGraph :=
  eq_ok_of_isOk versionedOrdersGraph_facts.1 empty

/-- The relationship of versioned orders asks for dependence and loses it, and nothing is reported. -/
theorem silent_of_versionedOrders :
    (versionedOrders.resolve .default).1 = .ok versionedOrdersGraph ∧
      ((merged .default versionedOrders).relationshipAt 1).relatedIsDependent = some true ∧
      (versionedOrdersGraph.relationshipAt 1).name = "items" ∧
      versionedOrdersGraph.qualifiedName (versionedOrdersGraph.relationshipAt 1).owner = "com.acme.VersionedOrder" ∧
      (versionedOrdersGraph.relationshipAt 1).isRelatedDependent = false ∧
      (versionedOrders.resolve .default).2.report.issues = [] :=
  ⟨resolve_versionedOrders, versionedOrdersGraph_facts.2⟩

/-- It is a copy, and the version is a key that orders do not have. -/
theorem dependence_of_versionedOrders :
    (versionedOrders.resolve .default).1 = .ok versionedOrdersGraph ∧
      ((merged .default versionedOrders).relationshipAt 1).relatedIsDependent = some true ∧
      (versionedOrdersGraph.relationshipAt 1).isRelatedDependent = false ∧
      ∃ a ∈ versionedOrdersGraph.attributesOf (versionedOrdersGraph.relationshipAt 1).owner, a.isPrimaryKey = true ∧
        ∀ b ∈ versionedOrdersGraph.attributesOf (versionedOrdersGraph.relationshipAt 1).origin, b.name ≠ a.name := by
  obtain ⟨-, hasks, -, -, hlost, hsilent⟩ := versionedOrdersGraph_facts
  obtain ⟨-, hcases⟩ := dependence_of_resolve resolve_versionedOrders hasks hlost
  rcases hcases with ⟨i, hi, -⟩ | ⟨-, a, ha, hkey, -, hown⟩
  · rw [hsilent] at hi
    cases hi
  · exact ⟨resolve_versionedOrders, hasks, hlost, a, ha, hkey, hown⟩

end Graph

end Metamodel
