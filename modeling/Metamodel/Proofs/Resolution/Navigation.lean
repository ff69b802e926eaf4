import Metamodel.Proofs.Resolution.Counterparts

/-!
# The way back from an attribute

The record of ownership of an attribute names a relationship of its owner and the far end of that relationship.  In a
resolved graph the owner has the relationship, and it leads back under the name that is recorded.  It leads to the
entity that is recorded as well, unless the record is that of an inherited relationship: a copy has no counterpart of
its own, so the way back is that of the original, and leads to the object that the copy is from.
-/

namespace Metamodel

namespace Graph

/-- The owner of the attribute has the relationship that the record of ownership names, and this leads to the far end
that is recorded. -/
def LeadsBack (g : Graph) (a : AttributeId) : Prop :=
  ∀ w ∈ (g.attributeAt a).ownership, ∀ name ∈ w.name, ∀ far ∈ w.farEnd,
    ∃ q ∈ g.relationshipsOf (g.attributeAt a).owner, q.name = name ∧ q.reverseName = some far.name ∧
      ∃ e ∈ q.related, (g.entity e).name = far.type

instance (g : Graph) (a : AttributeId) : Decidable (g.LeadsBack a) := by
  unfold LeadsBack
  infer_instance

/-- The record of ownership names the heir of a relationship as its far end, and the relationship that it names leads
to the entity which the heir has it from. -/
def LeadsToOrigin (g : Graph) (a : AttributeId) : Prop :=
  ∃ w ∈ (g.attributeAt a).ownership, ∃ far ∈ w.farEnd,
    (g.entity (g.relationshipAt w.relationship).owner).name = far.type ∧
      ∃ q ∈ g.relationshipsOf (g.attributeAt a).owner, w.name = some q.name ∧ q.reverseName = some far.name ∧
        ∃ e ∈ q.related, (g.relationshipAt w.relationship).originalOwner = some e

namespace ResolvesTo

variable {d : Declarations} {g₀ g : Graph} {o : EntityId} (c : ResolvesTo d g₀ g)

include c

/-- From the related entity of a relationship with a reverse name a relationship leads back, to the owner or, if that
has inherited the relationship, to the object which it has it from. -/
private theorem exists_wayBack {u : RelationshipId} (hu : u < g.relationships.size) {related : EntityId} {name : String}
    (hrelated : (g.relationshipAt u).related = some related) (hname : (g.relationshipAt u).reverseName = some name) :
    ∃ q ∈ g.relationshipsOf related, q.name = name ∧ q.reverseName = some (g.relationshipAt u).name ∧
      ∃ e ∈ q.related, e = (g.relationshipAt u).owner ∨ (g.relationshipAt u).originalOwner = some e := by
  cases hforward : (g.relationshipAt u).isReverse with
  | true =>
    obtain ⟨v, hv⟩ := Option.isSome_iff_exists.1 hforward
    have hof : g.forwardOf? u = some v.forward := by
      rw [forwardOf?, hv]
      rfl
    obtain ⟨hf, -, hmirrors⟩ := c.mirrors hu hof
    obtain rfl : related = (g.relationshipAt v.forward).owner := Option.some.inj (hrelated.symm.trans hmirrors.related)
    obtain rfl : name = (g.relationshipAt v.forward).name := Option.some.inj (hname.symm.trans hmirrors.reverseName)
    have hlisted := (c.mem_owner (c.lt_size_of_old hf)).2
    exact ⟨_, List.mem_map_of_mem hlisted, rfl, hmirrors.name, _, hmirrors.owner, .inl rfl⟩
  | false =>
    have hold := (c.lt_size_settled_iff hu).2 hforward
    obtain ⟨o, ho, hlisted, -⟩ := c.ends_of_old hold
    obtain ⟨f, hf, hown, hcopy, horigin, -⟩ := c.exists_declared ho _ (List.mem_map_of_mem hlisted)
    obtain ⟨a, ha⟩ := c.exists_readAs_of_old hold
    obtain ⟨b, hb⟩ := c.exists_readAs_of_old hf
    -- The same holds of both in the end, since reading leaves all of this as it was.
    have hsame' : (g.relationshipAt f).name = (g.relationshipAt u).name ∧
        (g.relationshipAt f).reverseName = (g.relationshipAt u).reverseName ∧
        (g.relationshipAt f).owner = (g.relationshipAt u).originalOwner.getD (g.relationshipAt u).owner ∧
        (g.relationshipAt f).related = (g.relationshipAt u).related := by
      simp only [ha, hb, Relationship.name_readAs, Relationship.reverseName_readAs, Relationship.owner_readAs,
        Relationship.originalOwner_readAs, Relationship.related_readAs]
      exact ⟨(congrArg (·.name) hcopy).symm, (congrArg (·.reverseName) hcopy).symm, horigin,
        (congrArg (·.related) hcopy).symm⟩
    obtain ⟨hname', hreverse, howner, hrelated'⟩ := hsame'
    have hdeclared : (g.relationshipAt f).IsDeclaredBothWays := by
      refine ⟨?_, (c.lt_size_settled_iff (c.lt_size_of_old hf)).1 hf, ?_⟩
      · rw [hb, Relationship.isInherited_readAs]
        exact hown
      · rw [Relationship.isBidirectional, hreverse, hname]
        rfl
    obtain ⟨r, hr, hof⟩ := c.exists_counterpart (c.lt_size_of_old hf) hdeclared
    obtain ⟨-, -, hmirrors⟩ := c.mirrors hr hof
    obtain rfl : related = (g.relationshipAt r).owner := by
      rw [hmirrors.owner, hrelated] at hrelated'
      exact (Option.some.inj hrelated').symm
    obtain rfl : name = (g.relationshipAt r).name := by
      rw [hmirrors.name, hname] at hreverse
      exact (Option.some.inj hreverse).symm
    refine ⟨_, List.mem_map_of_mem (c.mem_owner hr).2, rfl, hname' ▸ hmirrors.reverseName, _, hmirrors.related, ?_⟩
    rw [howner]
    cases (g.relationshipAt u).originalOwner with
    | none => exact .inl rfl
    | some e => exact .inr rfl

/-- A record of ownership is what its relationship claims on one of its sides. -/
private theorem exists_side {a : AttributeId} {w : Ownership} (hw : (g.attributeAt a).ownership = some w) :
    w.relationship < g.relationships.size ∧
      ∃ related, (g.relationshipAt w.relationship).related = some related ∧
        ((g.attributeAt a).owner = related ∧ ⟨a, w⟩ =
            g.forwardClaim (g.relationshipAt w.relationship).owner w.relationship (g.relationshipAt w.relationship) a ∨
          (g.attributeAt a).owner = (g.relationshipAt w.relationship).owner ∧ ⟨a, w⟩ =
            g.backwardClaim related w.relationship (g.relationshipAt w.relationship) a) := by
  have hintact := c.standing_joined.intact
  have hread : (g.attributeAt a).owner = (g₀.joined.attributeAt a).owner :=
    read_of_disowned_eq c.disowned Attribute.owner (fun _ => rfl) a
  -- Claims are made on the graph as it is before them, which is the same but for ownership.
  simp only [hread, c.relationshipAt_eq, c.relationships_eq, forwardClaim, backwardClaim, c.entity_eq]
  rw [c.claimed] at hw
  obtain ⟨o, -, -, hlisted, hclaim⟩ := mem_claims_of_ownership c.standing_joined.unowned hw
  obtain ⟨hlt, rfl⟩ := hintact.relationship_owned o _ hlisted
  obtain ⟨related, hrelated, -, ⟨htarget, hrecord⟩ | ⟨htarget, hrecord⟩⟩ := sides_of_mem_claims hclaim
  · exact ⟨hlt, related, hrelated, .inl ⟨(hintact.attribute_owned _ a htarget).2, hrecord⟩⟩
  · exact ⟨hlt, related, hrelated, .inr ⟨(hintact.attribute_owned _ a htarget).2, hrecord⟩⟩

private theorem leadsBack_or_leadsToOrigin {a : AttributeId} {w : Ownership} {name : String} {far : FarEnd}
    (hw : (g.attributeAt a).ownership = some w) (hname : w.name = some name) (hfar : w.farEnd = some far) :
    (∃ q ∈ g.relationshipsOf (g.attributeAt a).owner, q.name = name ∧ q.reverseName = some far.name ∧
      ∃ e ∈ q.related, (g.entity e).name = far.type) ∨ g.LeadsToOrigin a := by
  obtain ⟨hu, related, hrelated, ⟨howner, hrecord⟩ | ⟨howner, hrecord⟩⟩ := c.exists_side hw
  · -- The related entity owns the attribute: its relationship is found from the one that claims.
    have hrecord' := congrArg Claim.ownership hrecord
    dsimp only [forwardClaim] at hrecord'
    have hreverse : (g.relationshipAt w.relationship).reverseName = some name := by
      rw [← hname]
      exact (congrArg Ownership.name hrecord').symm
    obtain rfl : far = ⟨(g.entity (g.relationshipAt w.relationship).owner).name,
        (g.relationshipAt w.relationship).name⟩ := by
      exact Option.some.inj (hfar.symm.trans (congrArg Ownership.farEnd hrecord'))
    obtain ⟨q, hq, hqname, hqreverse, e, he, rfl | horigin⟩ := c.exists_wayBack hu hrelated hreverse
    · exact .inl ⟨q, howner ▸ hq, hqname, hqreverse, _, he, rfl⟩
    · exact .inr ⟨w, hw, _, hfar, rfl, q, howner ▸ hq, hqname ▸ hname, hqreverse, e, he, horigin⟩
  · -- The relationship that claims is one of the attribute's owner itself.
    have hrecord' := congrArg Claim.ownership hrecord
    dsimp only [backwardClaim] at hrecord'
    have hname' : name = (g.relationshipAt w.relationship).name :=
      Option.some.inj (hname.symm.trans (congrArg Ownership.name hrecord'))
    obtain ⟨reverse, hreverse, rfl⟩ := Option.map_eq_some_iff.1
      ((congrArg Ownership.farEnd hrecord').symm.trans hfar)
    exact .inl ⟨_, howner ▸ List.mem_map_of_mem (c.mem_owner hu).2, hname'.symm, hreverse, related, hrelated, rfl⟩

end ResolvesTo

/-- In a resolved graph the record of every attribute leads back, or it is that of an inherited relationship and leads
to where that comes from. -/
theorem leadsBack_of_resolve {d : Declarations} {config : Config} {g : Graph}
    (hresolve : (d.resolve config).1 = .ok g) (a : AttributeId) : g.LeadsBack a ∨ g.LeadsToOrigin a := by
  obtain ⟨g₀, c⟩ := exists_resolvesTo_of_resolve hresolve
  by_cases horigin : g.LeadsToOrigin a
  · exact .inr horigin
  · refine .inl fun w hw name hname far hfar => ?_
    exact (c.leadsBack_or_leadsToOrigin hw hname hfar).resolve_right horigin

/-! ### An heir that claims -/

/-- Orders own the items that they are made of, and there is a second kind of order, which inherits the relationship. -/
def orders : Declarations where
  objects := ⟨[
    ("com.acme.BulkOrder", { name := ⟨"com.acme", "BulkOrder"⟩, superClass := some "Order" }),
    ("com.acme.Order",
      { name := ⟨"com.acme", "Order"⟩
        attributes := [{ name := "id", dataType := .int, column := { primaryKey := true } }]
        relationships := [{
          name := "items"
          relatedObject := "OrderItem"
          cardinality := some "one-to-many"
          query := some "this.id = OrderItem.orderId"
          reverseName := some "order"
          relatedIsDependent := some true }] }),
    ("com.acme.OrderItem",
      { name := ⟨"com.acme", "OrderItem"⟩
        attributes := [{ name := "id", dataType := .int, column := { primaryKey := true } },
          { name := "orderId", dataType := .int }] })], by decide⟩

/-- The graph that the sample resolves to. -/
def ordersGraph : Graph :=
  (orders.resolve .default).1.toOption.getD empty

private theorem ordersGraph_facts :
    (orders.resolve .default).1.isOk = true ∧
      (ordersGraph.attributeAt 2).ownership =
        some ⟨1, some "order", some ⟨⟨"com.acme", "BulkOrder"⟩, "items"⟩⟩ ∧
      (ordersGraph.relationshipsOf 2).map (fun q => (q.name, q.related.map ordersGraph.qualifiedName)) =
        [("order", some "com.acme.Order")] ∧
      ¬ ordersGraph.LeadsBack 2 := by
  decide +kernel

theorem resolve_orders : (orders.resolve .default).1 = .ok ordersGraph :=
  eq_ok_of_isOk ordersGraph_facts.1 empty

/-- The second kind of order wins the key of the items by its name, but from an item there is only the way back to an
order of the first kind. -/
theorem not_leadsBack_of_orders :
    (orders.resolve .default).1 = .ok ordersGraph ∧
      (ordersGraph.attributeAt 2).ownership =
        some ⟨1, some "order", some ⟨⟨"com.acme", "BulkOrder"⟩, "items"⟩⟩ ∧
      (ordersGraph.relationshipsOf 2).map (fun q => (q.name, q.related.map ordersGraph.qualifiedName)) =
        [("order", some "com.acme.Order")] ∧
      ¬ ordersGraph.LeadsBack 2 :=
  ⟨resolve_orders, ordersGraph_facts.2⟩

/-- So the record of that key leads to where the second kind of order has the relationship from. -/
theorem leadsToOrigin_of_orders :
    (orders.resolve .default).1 = .ok ordersGraph ∧ ordersGraph.LeadsToOrigin 2 := by
  obtain ⟨-, -, -, hnot⟩ := ordersGraph_facts
  exact ⟨resolve_orders, (leadsBack_of_resolve resolve_orders 2).resolve_left hnot⟩

end Graph

end Metamodel
