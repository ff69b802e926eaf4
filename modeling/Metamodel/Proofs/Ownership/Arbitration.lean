import Mathlib.Data.List.Nodup
import Metamodel.Proofs.Graph.Elements
import Metamodel.Proofs.Ownership.Contest

/-!
# Arbitration of ownership

Claims are read off a graph without its records of ownership, so those of one entity do not depend on which
entities came before it (`claimsOf_congr`), and the ownership of an attribute after any sequence of entities is
the outcome of one contest among all claims on it (`ownership_foldl_claimOwnership`).  Where qualified names are
distinct and relationships of one entity have distinct names, no two relationships have the same rank, and the
outcome is the same for every order of the entities.
-/

namespace Metamodel

/-- The attribute with no record of ownership. -/
def Attribute.disowned (a : Attribute) : Attribute :=
  { a with ownership := none }

namespace Graph

/-! ### Graphs up to ownership -/

/-- The graph with no record of ownership. -/
def disowned (g : Graph) : Graph :=
  { g with attributes := g.attributes.map Attribute.disowned }

theorem relationships_disowned (g : Graph) : g.disowned.relationships = g.relationships := rfl

private theorem attributeAt_disowned (g : Graph) (a : AttributeId) : g.disowned.attributeAt a =
    (g.attributeAt a).disowned := by
  by_cases ha : a < g.attributes.size <;> simp [attributeAt, disowned, Array.getD, ha]
  rfl

theorem disowned_applyClaim (g : Graph) (c : Claim) : (g.applyClaim c).disowned = g.disowned := by
  unfold applyClaim
  split
  · simp only [disowned, modifyAttribute, Graph.mk.injEq, true_and, and_true]
    apply Array.ext
    · simp
    · intro i h₁ h₂
      simp only [Array.getElem_map, Array.getElem_modify]
      split <;> rfl
  · rfl

private theorem disowned_foldl_applyClaim (g : Graph) (cs : List Claim) :
    (cs.foldl applyClaim g).disowned = g.disowned := by
  induction cs generalizing g with
  | nil => rfl
  | cons c cs ih => rw [List.foldl_cons, ih, disowned_applyClaim]

/-- The rank of a relationship among those that claim an attribute. -/
def rank (g : Graph) (id : RelationshipId) : OwnershipKey :=
  .ofRelationship g (g.relationshipAt id)

/-- All claims that an entity makes; one that failed makes none. -/
def claimsOf (g : Graph) (owner : EntityId) : List Claim :=
  if g.isFailed owner then [] else (g.entity owner).relationships.flatMap (g.claims owner)

theorem claimOwnership_eq_foldl (g : Graph) (owner : EntityId) :
    g.claimOwnership owner = (g.claimsOf owner).foldl applyClaim g := by
  unfold claimOwnership claimsOf
  split <;> rfl

/-! ### What claims depend on -/

section UpToOwnership

variable {g h : Graph} (eq : h.disowned = g.disowned)

include eq

theorem entity_of_disowned_eq (o : EntityId) : h.entity o = g.entity o := by
  show h.disowned.entity o = g.disowned.entity o
  rw [eq]

theorem relationshipAt_of_disowned_eq (r : RelationshipId) : h.relationshipAt r = g.relationshipAt r := by
  show h.disowned.relationshipAt r = g.disowned.relationshipAt r
  rw [eq]

theorem outline_of_disowned_eq : h.outline = g.outline := by
  show h.disowned.outline = g.disowned.outline
  rw [eq]

theorem interfaces_of_disowned_eq : h.interfaces = g.interfaces := by
  show h.disowned.interfaces = g.disowned.interfaces
  rw [eq]

/-- What does not look at ownership reads the same of an attribute of both graphs. -/
theorem read_of_disowned_eq {α : Type} (read : Attribute → α) (hread : ∀ a, read a.disowned = read a)
    (a : AttributeId) : read (h.attributeAt a) = read (g.attributeAt a) := by
  rw [← hread, ← hread (g.attributeAt a), ← attributeAt_disowned, ← attributeAt_disowned, eq]

theorem attributeNamed?_of_disowned_eq (o : EntityId) (name : String) :
    h.attributeNamed? o name = g.attributeNamed? o name := by
  simp only [attributeNamed?, entity_of_disowned_eq eq, read_of_disowned_eq eq Attribute.name fun _ => rfl]

private theorem rank_congr (id : RelationshipId) : h.rank id = g.rank id := by
  have hname : h.qualifiedName = g.qualifiedName := by
    funext o
    rw [qualifiedName, qualifiedName, entity_of_disowned_eq eq]
  simp only [rank, OwnershipKey.ofRelationship, relationshipAt_of_disowned_eq eq, hname]

private theorem pairClaim?_congr (owner related : EntityId) (id : RelationshipId) (r : Relationship) (c : Cardinality)
    (p : JoinPair) : h.pairClaim? owner related id r c p = g.pairClaim? owner related id r c p := by
  simp only [pairClaim?, attributeNamed?_of_disowned_eq eq, forwardClaim, backwardClaim, entity_of_disowned_eq eq,
    read_of_disowned_eq eq Attribute.isAsOf fun _ => rfl, read_of_disowned_eq eq Attribute.isSource fun _ => rfl,
    read_of_disowned_eq eq Attribute.isPrimaryKey fun _ => rfl]

/-- The claims of an entity do not depend on who owns what. -/
theorem claimsOf_congr (owner : EntityId) : h.claimsOf owner = g.claimsOf owner := by
  have hentity : h.entity = g.entity := funext (entity_of_disowned_eq eq)
  have hfailed : h.isFailed = g.isFailed := by
    funext o
    rw [isFailed, isFailed, hentity]
  have hclaims : h.claims owner = g.claims owner := by
    have hthrough : h.claimThrough? owner = g.claimThrough? owner := by
      funext id p
      simp only [claimThrough?, relationshipAt_of_disowned_eq eq, pairClaim?_congr eq, hfailed]
    funext id
    rw [claims, claims, relationshipAt_of_disowned_eq eq, hthrough]
  rw [claimsOf, claimsOf, hclaims, hfailed, hentity]

end UpToOwnership

/-! ### Ownership after a sequence of claims -/

/-- The records claimed for one attribute, in order. -/
def recordsFor (a : AttributeId) (cs : List Claim) : List Ownership :=
  (cs.filter (·.target == a)).map (·.ownership)

private theorem prevails_of_owned (g : Graph) {c : Claim} {owner : Ownership}
    (h : (g.attributeAt c.target).ownership = some owner) :
    g.prevails c = (owner.relationship == c.ownership.relationship ||
      (g.rank c.ownership.relationship).precedes (g.rank owner.relationship)) := by
  rw [prevails, h]
  rfl

private theorem ownership_applyClaim (g : Graph) (c : Claim) {a : AttributeId} (ha : a < g.attributes.size) :
    ((g.applyClaim c).attributeAt a).ownership =
      if c.target == a then contest g.rank (g.attributeAt a).ownership c.ownership
      else (g.attributeAt a).ownership := by
  by_cases ht : c.target = a
  · subst ht
    cases hi : (g.attributeAt c.target).ownership with
    | none => simp [applyClaim, prevails, hi, attributeAt_modifyAttribute, ha, contest]
    | some owner =>
      rw [contest, applyClaim, prevails_of_owned g hi]
      split
      · simp [attributeAt_modifyAttribute, ha]
      · simp [hi]
  · rw [if_neg (by simpa using ht)]
    unfold applyClaim
    split
    · rw [attributeAt_modifyAttribute, if_neg fun e => ht e.1]
    · rfl

theorem size_of_disowned_eq {g h : Graph} (eq : h.disowned = g.disowned) :
    h.attributes.size = g.attributes.size := by
  have := congrArg (fun k : Graph => k.attributes.size) eq
  simpa [disowned] using this

private theorem ownership_foldl_applyClaim (g : Graph) (cs : List Claim) {a : AttributeId}
    (ha : a < g.attributes.size) : ((cs.foldl applyClaim g).attributeAt a).ownership =
      (recordsFor a cs).foldl (contest g.rank) (g.attributeAt a).ownership := by
  induction cs generalizing g with
  | nil => rfl
  | cons c cs ih =>
    have eq := disowned_applyClaim g c
    have hrank : (g.applyClaim c).rank = g.rank := funext (rank_congr eq)
    rw [List.foldl_cons, ih _ (by rw [size_of_disowned_eq eq]; exact ha), hrank, ownership_applyClaim g c ha]
    by_cases ht : c.target = a <;> simp [recordsFor, ht]

private theorem foldl_claimOwnership_eq (g h : Graph) (eq : h.disowned = g.disowned) (order : List EntityId) :
    order.foldl claimOwnership h = (order.flatMap g.claimsOf).foldl applyClaim h := by
  induction order generalizing h with
  | nil => rfl
  | cons o order ih =>
    rw [List.foldl_cons, List.flatMap_cons, List.foldl_append, claimOwnership_eq_foldl, claimsOf_congr eq]
    exact ih _ ((disowned_foldl_applyClaim h _).trans eq)

theorem disowned_foldl_claimOwnership (g : Graph) (order : List EntityId) :
    (order.foldl claimOwnership g).disowned = g.disowned := by
  rw [foldl_claimOwnership_eq g g rfl, disowned_foldl_applyClaim]

/-- The owner of an attribute is the outcome of a contest among all claims on it. -/
theorem ownership_foldl_claimOwnership (g : Graph) (order : List EntityId) {a : AttributeId}
    (ha : a < g.attributes.size) :
    ((order.foldl claimOwnership g).attributeAt a).ownership =
      (recordsFor a (order.flatMap g.claimsOf)).foldl (contest g.rank) (g.attributeAt a).ownership := by
  rw [foldl_claimOwnership_eq g g rfl, ownership_foldl_applyClaim g _ ha]

/-! ### Every order of the entities -/

/-- The relationship belongs to one of the entities, which did not fail, and claims the attribute. -/
def Contends (g : Graph) (entities : List EntityId) (id : RelationshipId) (a : AttributeId) : Prop :=
  ∃ owner ∈ entities, g.isFailed owner = false ∧ id ∈ (g.entity owner).relationships ∧
    ∃ c ∈ g.claims owner id, c.target = a

/-- The record that the relationship itself claims for an attribute: that of the last pair which leads there. -/
def lastRecord? (g : Graph) (id : RelationshipId) (a : AttributeId) : Option Ownership :=
  (recordsFor a (g.claims (g.relationshipAt id).owner id)).getLast?

theorem relationship_of_mem_claims {g : Graph} {owner : EntityId} {id : RelationshipId} {c : Claim}
    (hc : c ∈ g.claims owner id) : c.ownership.relationship = id := by
  obtain ⟨p, -, hp⟩ := List.mem_filterMap.1 hc
  unfold claimThrough? at hp
  dsimp only at hp
  split at hp
  · split at hp
    · unfold pairClaim? at hp
      grind [forwardClaim, backwardClaim]
    · cases hp
  · cases hp

/-- A claim is made on one side of the join, with the record that belongs there, if the related entity did not fail. -/
theorem sides_of_mem_claims {g : Graph} {owner : EntityId} {id : RelationshipId} {c : Claim}
    (hc : c ∈ g.claims owner id) :
    ∃ related, (g.relationshipAt id).related = some related ∧ g.isFailed related = false ∧
      (c.target ∈ (g.entity related).attributes ∧ c = g.forwardClaim owner id (g.relationshipAt id) c.target ∨
        c.target ∈ (g.entity owner).attributes ∧ c = g.backwardClaim related id (g.relationshipAt id) c.target) := by
  obtain ⟨p, -, hp⟩ := List.mem_filterMap.1 hc
  unfold claimThrough? at hp
  dsimp only at hp
  split at hp
  · rename_i related cardinality hrelated _
    split at hp
    · rename_i hclaims
      refine ⟨related, hrelated, by simpa using (Bool.and_eq_true_iff.1 hclaims).2, ?_⟩
      unfold pairClaim? at hp
      split at hp
      · rename_i near far hnear hfar
        have hnear' := List.mem_of_find?_eq_some hnear
        have hfar' := List.mem_of_find?_eq_some hfar
        grind [forwardClaim, backwardClaim]
      · cases hp
    · cases hp
  · cases hp

theorem mem_claimsOf {g : Graph} {owner : EntityId} {c : Claim} :
    c ∈ g.claimsOf owner ↔ g.isFailed owner = false ∧ ∃ id ∈ (g.entity owner).relationships, c ∈ g.claims owner id := by
  unfold claimsOf
  split <;> simp_all

private theorem contends_iff {g : Graph} {entities : List EntityId} {id : RelationshipId} {a : AttributeId} :
    g.Contends entities id a ↔ ∃ w ∈ recordsFor a (entities.flatMap g.claimsOf), w.relationship = id := by
  simp only [recordsFor, List.mem_map, List.mem_filter, List.mem_flatMap, mem_claimsOf, beq_iff_eq]
  constructor
  · rintro ⟨owner, howner, hfailed, hid, c, hc, ht⟩
    exact ⟨c.ownership, ⟨c, ⟨⟨owner, howner, hfailed, id, hid, hc⟩, ht⟩, rfl⟩, relationship_of_mem_claims hc⟩
  · rintro ⟨_, ⟨c, ⟨⟨owner, howner, hfailed, i, hi, hc⟩, ht⟩, rfl⟩, rfl⟩
    rw [relationship_of_mem_claims hc]
    exact ⟨owner, howner, hfailed, hi, c, hc, ht⟩

private theorem filter_flatMap_eq {α β : Type} {l : List α} (f : α → List β) (p : β → Bool) (hl : l.Nodup) {x : α}
    (hx : x ∈ l) (hrest : ∀ y ∈ l, y ≠ x → (f y).filter p = []) : (l.flatMap f).filter p = (f x).filter p := by
  induction l with
  | nil => cases hx
  | cons y l ih =>
    rw [List.flatMap_cons, List.filter_append]
    obtain ⟨hy, hl⟩ := List.nodup_cons.1 hl
    rcases List.mem_cons.1 hx with rfl | hx
    · have : (l.flatMap f).filter p = [] := by
        rw [List.filter_flatMap, List.flatMap_eq_nil_iff]
        intro z hz
        exact hrest z (List.mem_cons_of_mem _ hz) fun e => hy (e ▸ hz)
      rw [this, List.append_nil]
    · have : (f y).filter p = [] := hrest y List.mem_cons_self fun e => hy (e ▸ hx)
      rw [this, List.nil_append]
      exact ih hl hx fun z hz => hrest z (List.mem_cons_of_mem _ hz)

/-- Entities are told apart by their qualified names, and relationships by their entity and their names.  Of these,
`qualifiedNames` and `owners` are no conditions on a metamodel: the graph of every session has them, so that it is
distinguished if no entity has two relationships of one name (`Session.distinguished`). -/
structure Distinguished (g : Graph) : Prop where
  qualifiedNames : ∀ i < g.entities.size, ∀ j < g.entities.size, g.qualifiedName i = g.qualifiedName j → i = j
  relationshipNames : ∀ o, ((g.relationshipsOf o).map (·.name)).Nodup
  owners : ∀ o, ∀ r ∈ (g.entity o).relationships, (g.relationshipAt r).owner = o

/-- No two relationships that are listed have the same rank. -/
private theorem Distinguished.rank_injective {g : Graph} (hg : g.Distinguished) {o p : EntityId} {r s : RelationshipId}
    (hr : r ∈ (g.entity o).relationships) (hs : s ∈ (g.entity p).relationships) (h : g.rank r = g.rank s) : r = s := by
  have howner : g.qualifiedName o = g.qualifiedName p := by
    rw [← hg.owners o r hr, ← hg.owners p s hs]
    exact congrArg OwnershipKey.owner h
  obtain rfl : o = p :=
    hg.qualifiedNames o (g.lt_size_of_mem_relationships hr) p (g.lt_size_of_mem_relationships hs) howner
  have hname : (g.relationshipAt r).name = (g.relationshipAt s).name := congrArg OwnershipKey.name h
  have hnodup := hg.relationshipNames o
  rw [relationshipsOf, List.map_map] at hnodup
  exact List.inj_on_of_nodup_map hnodup hr hs hname

private theorem nodup_relationships {g : Graph} (hg : g.Distinguished) (o : EntityId) :
    (g.entity o).relationships.Nodup := by
  have hnodup := hg.relationshipNames o
  rw [relationshipsOf, List.map_map] at hnodup
  exact hnodup.of_map

/-- Among the claims of all entities, those of one relationship stand as it makes them. -/
private theorem filter_recordsFor {g : Graph} (hg : g.Distinguished) {order : List EntityId} (once : order.Nodup)
    {owner : EntityId} (howner : owner ∈ order) (hfailed : g.isFailed owner = false) {id : RelationshipId}
    (hid : id ∈ (g.entity owner).relationships) (a : AttributeId) :
    (recordsFor a (order.flatMap g.claimsOf)).filter (·.relationship == id) = recordsFor a (g.claims owner id) := by
  let own (c : Claim) : Bool := c.ownership.relationship == id
  have hothers : ∀ {o : EntityId} {r : RelationshipId}, r ≠ id → (g.claims o r).filter own = [] := by
    intro o r hr
    refine List.filter_eq_nil_iff.2 fun c hc => ?_
    simpa [own, relationship_of_mem_claims hc] using hr
  have hentity : (g.claimsOf owner).filter own = g.claims owner id := by
    rw [claimsOf, if_neg (by simp [hfailed]), filter_flatMap_eq _ _ (nodup_relationships hg owner) hid
      fun r _ hr => hothers hr, List.filter_eq_self]
    intro c hc
    simpa [own] using relationship_of_mem_claims hc
  have hall : (order.flatMap g.claimsOf).filter own = g.claims owner id := by
    rw [← hentity]
    refine filter_flatMap_eq _ _ once howner fun o _ ho => List.filter_eq_nil_iff.2 fun c hc => ?_
    obtain ⟨-, r, hr, hc⟩ := mem_claimsOf.1 hc
    have : r ≠ id := by
      rintro rfl
      exact ho ((hg.owners o r hr).symm.trans (hg.owners owner r hid))
    simpa [own, relationship_of_mem_claims hc] using this
  rw [← hall, recordsFor, recordsFor, List.filter_map, List.filter_filter, List.filter_filter]
  congr 1
  refine List.filter_congr fun c _ => ?_
  exact Bool.and_comm ..

/-- The contest for an attribute ends with the last record of the contender of least rank. -/
private theorem ownership_of_contended {g : Graph} (hg : g.Distinguished)
    (unowned : ∀ a, (g.attributeAt a).ownership = none) {order : List EntityId} (once : order.Nodup) {a : AttributeId}
    (ha : a < g.attributes.size) (hc : ∃ id, g.Contends order id a) :
    ∃ id w, g.Contends order id a ∧ (∀ other, g.Contends order other a → other ≠ id →
      (g.rank id).precedes (g.rank other)) ∧ g.lastRecord? id a = some w ∧
      ((order.foldl claimOwnership g).attributeAt a).ownership = some w := by
  obtain ⟨_, hc⟩ := hc
  obtain ⟨_, hmem, -⟩ := contends_iff.1 hc
  obtain ⟨w, hw, hleast, hlast⟩ := exists_foldl_contest g.rank _ (List.ne_nil_of_mem hmem)
  have hwmem := (List.mem_filter.1 (List.mem_of_getLast? hlast)).1
  obtain ⟨owner, howner, hfailed, hid, hclaim⟩ := contends_iff.2 ⟨w, hwmem, rfl⟩
  refine ⟨w.relationship, w, ⟨owner, howner, hfailed, hid, hclaim⟩, ?_, ?_, ?_⟩
  · intro other hother hne
    obtain ⟨v, hv, rfl⟩ := contends_iff.1 hother
    obtain ⟨o, -, -, ho, -⟩ := hother
    refine OwnershipKey.precedes_of_not_precedes (fun e => hne ?_) (hleast v hv)
    exact (hg.rank_injective hid ho e).symm
  · rw [lastRecord?, hg.owners owner _ hid, ← filter_recordsFor hg once howner hfailed hid, hlast]
  · rw [ownership_foldl_claimOwnership g order ha, unowned, hw]

private theorem ownership_of_uncontended {g : Graph} (unowned : ∀ a, (g.attributeAt a).ownership = none)
    (order : List EntityId) {a : AttributeId} (ha : a < g.attributes.size) (hc : ¬ ∃ id, g.Contends order id a) :
    ((order.foldl claimOwnership g).attributeAt a).ownership = none := by
  have : recordsFor a (order.flatMap g.claimsOf) = [] := by
    refine List.eq_nil_iff_forall_not_mem.2 fun w hw => hc ⟨w.relationship, contends_iff.2 ⟨w, hw, rfl⟩⟩
  rw [ownership_foldl_claimOwnership g order ha, this, unowned]
  rfl

/-- Where nothing was owned before, each record of ownership is one that a relationship claims, whose owner did not
fail. -/
theorem mem_claims_of_ownership {g : Graph} (unowned : ∀ a, (g.attributeAt a).ownership = none)
    {order : List EntityId} {a : AttributeId} {w : Ownership}
    (hw : ((order.foldl claimOwnership g).attributeAt a).ownership = some w) :
    ∃ owner ∈ order, g.isFailed owner = false ∧ w.relationship ∈ (g.entity owner).relationships ∧
      ⟨a, w⟩ ∈ g.claims owner w.relationship := by
  have ha : a < g.attributes.size := by
    by_contra hout
    rw [← size_of_disowned_eq (disowned_foldl_claimOwnership g order)] at hout
    simp [attributeAt, Array.getD, hout, show (default : Attribute).ownership = none from rfl] at hw
  rw [ownership_foldl_claimOwnership g order ha, unowned] at hw
  have hne : recordsFor a (order.flatMap g.claimsOf) ≠ [] := by
    intro hnone
    rw [hnone] at hw
    cases hw
  obtain ⟨v, hv, -, hlast⟩ := exists_foldl_contest g.rank _ hne
  obtain rfl : v = w := Option.some.inj (hv.symm.trans hw)
  obtain ⟨c, hc, rfl⟩ := List.mem_map.1 (List.mem_filter.1 (List.mem_of_getLast? hlast)).1
  obtain ⟨hclaimed, htarget⟩ := List.mem_filter.1 hc
  obtain ⟨owner, howner, hclaim⟩ := List.mem_flatMap.1 hclaimed
  obtain ⟨hfailed, id, hid, hmem⟩ := mem_claimsOf.1 hclaim
  obtain rfl := relationship_of_mem_claims hmem
  obtain rfl : c.target = a := beq_iff_eq.1 htarget
  exact ⟨owner, howner, hfailed, hid, hmem⟩

private theorem eq_of_disowned_eq {g h : Graph} (eq : h.disowned = g.disowned)
    (own : ∀ a < g.attributes.size, (h.attributeAt a).ownership = (g.attributeAt a).ownership) : h = g := by
  have hsize := size_of_disowned_eq eq
  have hattributes : h.attributes = g.attributes := by
    apply Array.ext hsize
    intro a h₁ h₂
    have hdis := read_of_disowned_eq eq Attribute.disowned (fun _ => rfl) a
    have hown := own a h₂
    simp only [attributeAt, Array.getD, h₁, h₂, dif_pos] at hdis hown
    simp only [Attribute.disowned, Attribute.mk.injEq] at hdis
    cases hx : h.attributes[a]
    cases hy : g.attributes[a]
    simp_all
  simp only [disowned, Graph.mk.injEq] at eq
  cases h
  cases g
  simp_all

/-- Ownership by arbitration, over entities in any order, each once.  An attribute without claims has no owner.  Every
other belongs to the relationship of least rank among all that claim it, and its record is the last one that this
relationship claims.  So the order of the entities does not matter. -/
theorem ownership_of_every_order {g : Graph} (hg : g.Distinguished)
    (unowned : ∀ a, (g.attributeAt a).ownership = none) {order : List EntityId} (once : order.Nodup) :
    (∀ a < g.attributes.size, (¬ ∃ id, g.Contends order id a) →
      ((order.foldl claimOwnership g).attributeAt a).ownership = none) ∧
    (∀ a < g.attributes.size, (∃ id, g.Contends order id a) →
      ∃ id w, g.Contends order id a ∧
        (∀ other, g.Contends order other a → other ≠ id → (g.rank id).precedes (g.rank other)) ∧
        g.lastRecord? id a = some w ∧ ((order.foldl claimOwnership g).attributeAt a).ownership = some w) ∧
    ∀ order' : List EntityId, order'.Perm order → order'.foldl claimOwnership g = order.foldl claimOwnership g := by
  refine ⟨fun a ha => ownership_of_uncontended unowned order ha,
    fun a ha => ownership_of_contended hg unowned once ha, fun order' hperm => ?_⟩
  have hdis := disowned_foldl_claimOwnership g
  have hcontends : ∀ id a, g.Contends order' id a ↔ g.Contends order id a := by
    intro id a
    simp only [Contends, hperm.mem_iff]
  refine eq_of_disowned_eq ((hdis order').trans (hdis order).symm) fun a ha => ?_
  rw [size_of_disowned_eq (hdis order)] at ha
  by_cases hc : ∃ id, g.Contends order id a
  · obtain ⟨id, w, hid, hleast, hlast, hown⟩ := ownership_of_contended hg unowned once ha hc
    obtain ⟨id', w', hid', hleast', hlast', hown'⟩ :=
      ownership_of_contended hg unowned (hperm.nodup_iff.2 once) ha (by simpa only [hcontends] using hc)
    -- Of two different winners each would precede the other.
    have : id' = id := by
      by_contra hne
      have hlt := hleast id' ((hcontends id' a).1 hid') hne
      have hgt := hleast' id ((hcontends id a).2 hid) (Ne.symm hne)
      have := OwnershipKey.precedes_trans hlt hgt
      rw [OwnershipKey.precedes_irrefl] at this
      exact Bool.false_ne_true this
    subst this
    rw [hown, hown', ← hlast, ← hlast']
  · rw [ownership_of_uncontended unowned order ha hc,
      ownership_of_uncontended unowned order' ha (by simpa only [hcontends] using hc)]

/-- Orders with their items, where both ends claim the key of the order that an item has. -/
def twoClaimants : Graph where
  entities :=
    #[{ name := ⟨"shop", "Order"⟩, kind := .object, attributes := [0], relationships := [0] },
      { id := 1, name := ⟨"shop", "Item"⟩, kind := .object, attributes := [1], relationships := [1] }]
  attributes :=
    #[{ name := "id", owner := 0, dataType := .int, defaults := {}, kind := .column { primaryKey := true } },
      { name := "orderId", owner := 1, dataType := .int, defaults := {}, kind := .column {} }]
  relationships :=
    #[{ name := "lines", owner := 0, relatedName := "Item", related := some 1, cardinality := some .oneToMany,
        join := { pairs := [⟨"id", "orderId"⟩] }, relatedIsDependent := some true },
      { name := "po", owner := 1, relatedName := "Order", related := some 0, cardinality := some .manyToOne,
        join := { pairs := [⟨"orderId", "id"⟩] } }]

/-- The dependent relationship owns the key, whichever entity comes first. -/
theorem ownership_of_twoClaimants :
    twoClaimants.Distinguished ∧ (∀ a, (twoClaimants.attributeAt a).ownership = none) ∧ [0, 1].Nodup ∧
      twoClaimants.Contends [0, 1] 1 1 ∧
      [1, 0].foldl claimOwnership twoClaimants = [0, 1].foldl claimOwnership twoClaimants ∧
      (([1, 0].foldl claimOwnership twoClaimants).attributeAt 1).ownership =
        some ⟨0, none, some ⟨⟨"shop", "Order"⟩, "lines"⟩⟩ := by
  have hg : twoClaimants.Distinguished := by
    refine ⟨by decide, ?_, ?_⟩
    · rintro (_ | _ | o)
      · decide
      · decide
      · exact List.nodup_nil
    · rintro (_ | _ | o)
      · decide
      · decide
      · exact fun r hr => absurd hr List.not_mem_nil
  have unowned : ∀ a, (twoClaimants.attributeAt a).ownership = none := by
    rintro (_ | _ | a) <;> rfl
  have once : [0, 1].Nodup := by decide
  have contends : twoClaimants.Contends [0, 1] 1 1 :=
    ⟨1, by decide, by decide, by decide, ⟨1, ⟨1, some "po", none⟩⟩, List.mem_singleton_self _, rfl⟩
  obtain ⟨-, -, same⟩ := ownership_of_every_order hg unowned once
  exact ⟨hg, unowned, once, contends, same [1, 0] (.swap 0 1 []), by decide⟩

end Graph

end Metamodel
