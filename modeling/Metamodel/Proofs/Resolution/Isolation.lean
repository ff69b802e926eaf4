import Metamodel.Proofs.Join.Counterparts
import Metamodel.Proofs.Resolution.Completion
import Metamodel.Proofs.Resolution.Integrity

/-!
# Isolation of what failed

Resolution goes on after an error, and the steps that come later each pass over the entities that failed: inheritance
under a superclass, reading at the owner of a relationship, counterparts at the related entity, and claims at both ends.
So whatever a metamodel declares, an object that failed has no heirs, no counterparts and no part in ownership
(`Session.isolatesFailures_of_resolveObjects`).  States do not change after inheritance, so that each step need only
be compared with the graph that inheritance leaves.
-/

namespace Metamodel

namespace Graph

/-- The relationship joins two entities, neither of which failed. -/
def SparesFailed (g : Graph) (r : Relationship) : Prop :=
  g.isFailed r.owner = false ∧ ∃ related, r.related = some related ∧ g.isFailed related = false

/-- Nothing that came to be depends on an entity that failed. -/
structure IsolatesFailures (g : Graph) : Prop where
  superclass : ∀ o ∈ g.idsOfKind .object, g.stateOf o = .resolved →
    ∀ p, (g.entity o).superEntity = some p → g.stateOf p = .resolved
  unowned : ∀ o, g.isFailed o = true → ∀ a ∈ g.attributesOf o, a.ownership = none
  owner : ∀ a w, (g.attributeAt a).ownership = some w → g.SparesFailed (g.relationshipAt w.relationship)
  counterpart : ∀ r, (g.relationshipAt r).isReverse = true → g.SparesFailed (g.relationshipAt r)

variable {g h k : Graph} {o : EntityId} {r : RelationshipId}

/-- Of two graphs with the same states, what spares the failed entities of one spares those of the other. -/
private theorem sparesFailed_congr (hfailed : ∀ e, h.isFailed e = g.isFailed e) (x : Relationship) :
    h.SparesFailed x ↔ g.SparesFailed x := by
  simp only [SparesFailed, hfailed]

/-! ### Inheritance -/

/-- An object is resolved only below a superclass that is. -/
private theorem resolved_of_superEntity (hg : g.Pristine) {p : EntityId} (ho : o ∈ g.idsOfKind .object)
    (hresolved : g.settled.stateOf o = .resolved) (hsuper : (g.settled.entity o).superEntity = some p) :
    g.settled.stateOf p = .resolved := by
  obtain ⟨hs, hsettled, -⟩ := hg.settled_spec
  have hlinked := (hs.object o ho).linked (hsettled o ho).ne_unresolved
  rw [hsuper, hg.superEntity, Option.or_none] at hlinked
  exact (inherit_membersOf hs ho hresolved hlinked.symm (hsettled p (mem_objects_of_superOf hlinked.symm))).1

/-! ### Counterparts -/

/-- No counterpart in `h` has an end that failed in `k`. -/
def CounterpartsSpare (k h : Graph) : Prop :=
  ∀ r, (h.relationshipAt r).isReverse = true → k.SparesFailed (h.relationshipAt r)

namespace CounterpartsSpare

/-- Reading a relationship leaves both of its ends as they are. -/
theorem modifyRelationship (hh : CounterpartsSpare k h) (r : RelationshipId) (a : JoinAnalysis) :
    CounterpartsSpare k (h.modifyRelationship r (·.readAs a)) := by
  intro s hs
  rw [relationshipAt_modifyRelationship] at hs ⊢
  split
  · rw [if_pos ‹_›] at hs
    exact hh s hs
  · rw [if_neg ‹_›] at hs
    exact hh s hs

/-- A counterpart swaps the ends, and its owner was found not to have failed. -/
theorem addReverse (hh : CounterpartsSpare k h) (hfailed : ∀ e, h.isFailed e = k.isFailed e) (ownerName : String)
    (howner : k.isFailed (h.relationshipAt r).owner = false) :
    CounterpartsSpare k (h.addReverse r ownerName).1 := by
  rcases addReverse_cases h r ownerName with hnone | ⟨x, hx, hspared, hadded⟩
  · rwa [hnone]
  · rw [hadded]
    intro s hs
    rw [relationshipAt_addRelationship] at hs ⊢
    split
    · rw [hfailed] at hspared
      unfold Relationship.reverse? at hx
      split at hx
      · obtain rfl := Option.some.inj hx
        exact ⟨hspared, _, rfl, howner⟩
      · cases hx
    · rw [if_neg ‹_›] at hs
      exact hh s hs

theorem analyse (hk : k.Sound) (hp : Reading k h) (hh : CounterpartsSpare k h) (ho : k.isFailed o = false)
    (hr : r < k.relationships.size → r ∈ (k.entity o).relationships) :
    CounterpartsSpare k (Graph.analyse o h r).1 := by
  by_cases hlt : r < k.relationships.size
  · by_cases hforward : ∃ related, (h.relationshipAt r).related = some related ∧ (h.relationshipAt r).isReverse = false
    · obtain ⟨related, hrelated, hforward⟩ := hforward
      have hread := hp.modifyRelationship hlt (h.analysis o related (h.relationshipAt r))
      have hspare := hh.modifyRelationship r (h.analysis o related (h.relationshipAt r))
      rcases (analyse_cases (o := o) hrelated hforward).1 with hcase | ⟨-, hcase⟩
      · rwa [hcase]
      · rw [hcase]
        refine hspare.addReverse hread.isFailed _ ?_
        rwa [hread.relationshipAt_owner hk (hr hlt)]
    · rwa [analyse_of_not_forward hforward]
  · rwa [analyse_of_not_lt hp hlt]

theorem analyseEntity (hk : k.Sound) (hp : Reading k h) (hh : CounterpartsSpare k h) (o : EntityId) :
    CounterpartsSpare k (h.analyseEntity o).1 := by
  unfold Graph.analyseEntity
  split
  · exact hh
  · rename_i hfailed
    rw [hp.isFailed, Bool.not_eq_true] at hfailed
    refine (gather_invariant (fun g => Reading k g ∧ CounterpartsSpare k g) (fun g r hr hg => ?_) ⟨hp, hh⟩).2
    exact ⟨(readsOn_analyse hk hg.1 (hp.mem_old hr)).reading, hg.2.analyse hk hg.1 hfailed (hp.mem_old hr)⟩

end CounterpartsSpare

/-- Where there are no counterparts yet, those that are made spare what failed. -/
private theorem counterpartsSpare_resolveRelationships (hk : k.Sound)
    (hnone : ∀ r, (k.relationshipAt r).isReverse = false) : CounterpartsSpare k k.resolveRelationships.1 := by
  have hfirst : CounterpartsSpare k k := by
    intro r hr
    rw [hnone r] at hr
    cases hr
  refine (gather_invariant (fun g => Reading k g ∧ CounterpartsSpare k g) (fun g o _ hg => ?_)
    ⟨.refl hk, hfirst⟩).2
  exact ⟨(readsOn_analyseEntity hk hg.1 o).reading, hg.2.analyseEntity hk hg.1 o⟩

/-! ### Claims -/

/-- A record of ownership is a claim between two entities that did not fail, on an attribute of one of them. -/
private theorem spares_of_ownership (hintact : g.Intact) (unowned : ∀ a, (g.attributeAt a).ownership = none)
    {order : List EntityId} {a : AttributeId} {w : Ownership}
    (hw : ((order.foldl claimOwnership g).attributeAt a).ownership = some w) :
    g.SparesFailed (g.relationshipAt w.relationship) ∧ g.isFailed (g.attributeAt a).owner = false := by
  obtain ⟨o, -, hfailed, hlisted, hclaim⟩ := mem_claims_of_ownership unowned hw
  obtain ⟨-, rfl⟩ := hintact.relationship_owned o _ hlisted
  obtain ⟨related, hrelated, hfailed', hside⟩ := sides_of_mem_claims hclaim
  refine ⟨⟨hfailed, related, hrelated, hfailed'⟩, ?_⟩
  rcases hside with ⟨htarget, -⟩ | ⟨htarget, -⟩
  · rwa [(hintact.attribute_owned _ a htarget).2]
  · rwa [(hintact.attribute_owned _ a htarget).2]

/-! ### All steps -/

/-- No relationship is a counterpart before relationships are read. -/
private theorem isReverse_settled (hstanding : Standing 2 g.settled) (r : RelationshipId) :
    (g.settled.relationshipAt r).isReverse = false := by
  have hstage := hstanding.relationship_stage r
  unfold Relationship.stage at hstage
  split at hstage
  · omega
  · rwa [← Bool.not_eq_true]

/-- From a pristine graph all later steps isolate what fails. -/
private theorem isolatesFailures_of_standing (hg : g.Pristine) (hstanding : Standing 1 g) (order : List EntityId) :
    (order.foldl claimOwnership g.joined).IsolatesFailures := by
  have hsettled := (advances_settled hstanding).standing
  have hjoined := (advances_joined hstanding).standing
  have hsound := hg.settled_spec.1.sound
  have hreading : Reading g.settled g.joined := reading_resolveRelationships hsound
  have hdisowned := disowned_foldl_claimOwnership g.joined order
  have hintact := intact_foldl_claimOwnership hjoined.intact order
  generalize horder : order.foldl claimOwnership g.joined = last at hdisowned hintact
  have hjoinedFailed : ∀ e, last.isFailed e = g.joined.isFailed e := fun e => by
    rw [isFailed, entity_of_disowned_eq hdisowned, isFailed]
  have hfailed : ∀ e, last.isFailed e = g.settled.isFailed e := fun e => by
    rw [hjoinedFailed, hreading.isFailed]
  have hentity : ∀ e, last.entity e =
      { g.settled.entity e with relationships := (g.joined.entity e).relationships } := fun e => by
    rw [entity_of_disowned_eq hdisowned, hreading.entity]
  have hstate : ∀ e, last.stateOf e = g.settled.stateOf e := fun e => by rw [stateOf, hentity, stateOf]
  have hsuperEntity : ∀ e, (last.entity e).superEntity = (g.settled.entity e).superEntity := fun e => by rw [hentity]
  constructor
  · intro o ho hresolved p hsuper
    have hids : o ∈ g.idsOfKind .object := by
      have houtline := (outline_of_disowned_eq hdisowned).trans (advances_joined hstanding).outline
      rwa [idsOfKind_of_outline_eq houtline] at ho
    rw [hstate] at hresolved ⊢
    rw [hsuperEntity] at hsuper
    exact resolved_of_superEntity hg hids hresolved hsuper
  · intro o ho a ha
    obtain ⟨i, hi, rfl⟩ := List.mem_map.1 ha
    by_contra hsome
    obtain ⟨w, hw⟩ := Option.ne_none_iff_exists'.1 hsome
    have hspared := (spares_of_ownership hjoined.intact hjoined.unowned (horder ▸ hw)).2
    rw [← read_of_disowned_eq hdisowned Attribute.owner (fun _ => rfl) i, (hintact.attribute_owned o i hi).2,
      ← hjoinedFailed, ho] at hspared
    cases hspared
  · intro a w hw
    rw [sparesFailed_congr hjoinedFailed, relationshipAt_of_disowned_eq hdisowned]
    exact (spares_of_ownership hjoined.intact hjoined.unowned (horder ▸ hw)).1
  · intro r hr
    rw [sparesFailed_congr hfailed]
    rw [relationshipAt_of_disowned_eq hdisowned] at hr ⊢
    exact counterpartsSpare_resolveRelationships hsound (isReverse_settled hsettled) r hr

end Graph

/-- Whatever a metamodel declares, the graph that is left by the three stages isolates what failed, whether there were
errors or not. -/
theorem Session.isolatesFailures_of_resolveObjects (d : Declarations) (config : Config) :
    let interfaces := (Session.start d config).resolveInterfaces.2
    let embedded := interfaces.resolveEmbeddedValues.2
    let objects := embedded.resolveObjects.2
    objects.graph.IsolatesFailures := by
  intro interfaces embedded objects
  obtain ⟨hpristine, -⟩ := Graph.staged_spec config d
  obtain ⟨hbound, hprepared⟩ := Graph.prepared_spec hpristine d (Graph.ofDeclarations config d).1.2
  rw [show objects.graph = _ from graph_resolveObjects embedded, Graph.graph_of_resolveObjects]
  exact Graph.isolatesFailures_of_standing hprepared.pristine (Graph.advances_prepared_staged config d).standing _

/-- Items and their orders, whose superclass is not defined. -/
def orphanedOrders : Declarations where
  objects := ⟨[
    ("shop.Item",
      { name := ⟨"shop", "Item"⟩
        attributes := [{ name := "id", dataType := .int, column := { primaryKey := true } },
          { name := "orderId", dataType := .int }]
        relationships := [{
          name := "order"
          relatedObject := "Order"
          cardinality := some "many-to-one"
          query := some "this.orderId = Order.id"
          reverseName := some "items" }] }),
    ("shop.Order",
      { name := ⟨"shop", "Order"⟩
        superClass := some "Base"
        attributes := [{ name := "id", dataType := .int, column := { primaryKey := true } }] })], by decide⟩

/-- The orders fail.  The items do not, but get no counterpart, and their key has no owner. -/
example :
    let g := (orphanedOrders.resolve .default).2.graph
    [0, 1].map g.stateOf = [.resolved, .failed] ∧ g.relationships.size = 1 ∧
      (g.attributeAt 1).name = "orderId" ∧ (g.attributeAt 1).ownership = none := by
  decide +kernel

end Metamodel
