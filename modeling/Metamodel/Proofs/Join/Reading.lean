import Metamodel.Join.Analysis
import Metamodel.Proofs.Graph.Soundness
import Metamodel.Proofs.Issue.Clean

/-!
# Relationships that have been read

Reading a relationship finds no problem just if the relationship has all it needs, and then it is well joined, as
is its counterpart (`wellJoined_of_errors_eq_nil`, `wellJoined_of_reverse?`).  While relationships are read
(`Reading`), a graph keeps its attributes and, up to their cardinalities and joins, its relationships; it gets
well joined counterparts only. In the end every relationship of an object has been read, and those without an
error (`read_of_clean`).
-/

namespace Metamodel

/-- The relationship with what was found by reading it. -/
def Relationship.readAs (r : Relationship) (a : JoinAnalysis) : Relationship :=
  { r with cardinality := a.cardinality, join := a.join, relatedIsDependent := a.relatedIsDependent }

namespace Relationship

variable (r : Relationship) (a : JoinAnalysis)

@[simp] theorem name_readAs : (r.readAs a).name = r.name := rfl

@[simp] theorem owner_readAs : (r.readAs a).owner = r.owner := rfl

@[simp] theorem originalOwner_readAs : (r.readAs a).originalOwner = r.originalOwner := rfl

@[simp] theorem related_readAs : (r.readAs a).related = r.related := rfl

@[simp] theorem cardinality_readAs : (r.readAs a).cardinality = a.cardinality := rfl

@[simp] theorem join_readAs : (r.readAs a).join = a.join := rfl

@[simp] theorem relatedIsDependent_readAs : (r.readAs a).relatedIsDependent = a.relatedIsDependent := rfl

@[simp] theorem reverseName_readAs : (r.readAs a).reverseName = r.reverseName := rfl

@[simp] theorem isInherited_readAs : (r.readAs a).isInherited = r.isInherited := rfl

@[simp] theorem isReverse_readAs : (r.readAs a).isReverse = r.isReverse := rfl

@[simp] theorem isBidirectional_readAs : (r.readAs a).isBidirectional = r.isBidirectional := rfl

@[simp] theorem hasParameters_readAs : (r.readAs a).hasParameters = r.hasParameters := rfl

end Relationship

namespace Graph

variable {k h : Graph} {o related : EntityId} {r s : RelationshipId}

/-- A relationship of `owner` with all that is to be known of it, whose join equates attributes that its ends have. -/
structure WellJoined (g : Graph) (owner : EntityId) (r : Relationship) : Prop where
  cardinality : r.cardinality.isSome
  references : r.join.referencesThis = true ∧ r.join.referencesRelated = true
  related : ∃ related, r.related = some related ∧ ∀ p ∈ r.join.pairs,
    (g.attributeNamed? owner p.thisAttribute).isSome ∧ (g.attributeNamed? related p.relatedAttribute).isSome

/-! ### One relationship -/

/-- A relationship is read without an error just if it declares a known cardinality and a join that references both
ends through attributes that they have, and does not take parameters both ways. -/
theorem errors_eq_nil_iff (g : Graph) (owner related : EntityId) (r : Relationship) :
    (g.analysis owner related r).errors = [] ↔
      (∃ key, r.cardinalityKey = some key ∧ (Cardinality.ofKey? key).isSome) ∧
      (∃ query, r.query = some query ∧
        (Join.parse query (g.entity related).name.simple).referencesRelated = true ∧
        (Join.parse query (g.entity related).name.simple).referencesThis = true ∧
        ∀ p ∈ (Join.parse query (g.entity related).name.simple).pairs,
          (g.attributeNamed? owner p.thisAttribute).isSome ∧ (g.attributeNamed? related p.relatedAttribute).isSome) ∧
      ¬ (r.hasParameters = true ∧ r.isBidirectional = true) := by
  have hcardinality : (readCardinality r).2 = [] ↔
      ∃ key, r.cardinalityKey = some key ∧ (Cardinality.ofKey? key).isSome := by
    unfold readCardinality Cardinality.ofKey
    cases r.cardinalityKey with
    | none => simp
    | some key => cases hc : Cardinality.ofKey? key <;> simp [hc]
  have hpair : ∀ p, g.pairErrors owner related p = [] ↔
      (g.attributeNamed? owner p.thisAttribute).isSome ∧ (g.attributeNamed? related p.relatedAttribute).isSome := by
    intro p
    simp [pairErrors, Option.isSome_iff_ne_none]
  have hparameters : (if r.hasParameters && r.isBidirectional then
      ["parameterized relationship '" ++ r.name ++ "' cannot have a reverse relationship"] else []) = [] ↔
      ¬ (r.hasParameters = true ∧ r.isBidirectional = true) := by
    simp
  simp only [analysis, List.append_eq_nil_iff, List.flatMap_eq_nil_iff, hcardinality, hpair, hparameters, and_assoc]
  refine and_congr_right fun _ => ?_
  rw [← and_assoc]
  refine and_congr_left fun _ => ?_
  unfold readJoin
  cases r.query with
  | none => simp
  | some query => simp [and_assoc]

theorem cardinality_analysis (g : Graph) (owner related : EntityId) (r : Relationship) :
    (g.analysis owner related r).cardinality = r.cardinalityKey.bind Cardinality.ofKey? := by
  simp only [analysis, readCardinality, Cardinality.ofKey]
  cases r.cardinalityKey with
  | none => rfl
  | some key =>
    dsimp only [Option.bind_some]
    cases Cardinality.ofKey? key <;> rfl

theorem wellJoined_of_errors_eq_nil {g : Graph} {owner related : EntityId} {r r' : Relationship}
    (herrors : (g.analysis owner related r).errors = []) (hrelated : r'.related = some related)
    (hcardinality : r'.cardinality = (g.analysis owner related r).cardinality)
    (hjoin : r'.join = (g.analysis owner related r).join) : WellJoined g owner r' := by
  obtain ⟨⟨key, hkey, hc⟩, ⟨query, hquery, hrelates, hthis, hpairs⟩, -⟩ :=
    (errors_eq_nil_iff g owner related r).1 herrors
  have hj : r'.join = Join.parse query (g.entity related).name.simple := by
    rw [hjoin]
    simp only [analysis, readJoin, hquery]
  constructor
  · rw [hcardinality, cardinality_analysis, hkey]
    exact hc
  · rw [hj]
    exact ⟨hthis, hrelates⟩
  · refine ⟨related, hrelated, ?_⟩
    rw [hj]
    exact hpairs

/-- The counterpart of a well joined relationship is well joined: it swaps the two ends. -/
theorem wellJoined_of_reverse? {g : Graph} {x y : Relationship} {ownerName : String} (hx : WellJoined g x.owner x)
    (hy : x.reverse? r ownerName = some y) : y.isReverse = true ∧ WellJoined g y.owner y := by
  obtain ⟨hcardinality, ⟨hthis, hrelates⟩, related, hrelated, hpairs⟩ := hx
  unfold Relationship.reverse? at hy
  rw [hrelated] at hy
  split at hy
  · rename_i heq
    obtain rfl := Option.some.inj heq
    obtain rfl := Option.some.inj hy
    refine ⟨rfl, ?_, ⟨hrelates, hthis⟩, x.owner, rfl, fun p hp => ?_⟩
    · rw [Option.isSome_map]
      exact hcardinality
    · obtain ⟨q, hq, rfl⟩ := List.mem_map.1 hp
      exact (hpairs q hq).symm
  · cases hy

/-! ### Relationships on the way -/

/-- `h` is `k` with some relationships read, and with counterparts of some that were read without an error. -/
structure Reading (k h : Graph) : Prop where
  sound : h.Sound
  outline : h.outline = k.outline
  attributes : h.attributes = k.attributes
  entity : ∀ o, h.entity o = { k.entity o with relationships := (h.entity o).relationships }
  lists : ∀ o, ∃ added, (h.entity o).relationships = (k.entity o).relationships ++ added ∧
    ∀ r ∈ added, k.relationships.size ≤ r
  size : k.relationships.size ≤ h.relationships.size
  old : ∀ r < k.relationships.size, ∃ a, h.relationshipAt r = (k.relationshipAt r).readAs a
  counterparts : ∀ r < h.relationships.size, k.relationships.size ≤ r →
    (h.relationshipAt r).isReverse = true ∧ WellJoined k (h.relationshipAt r).owner (h.relationshipAt r)

namespace Reading

theorem refl (hk : k.Sound) : Reading k k where
  sound := hk
  outline := rfl
  attributes := rfl
  entity _ := rfl
  lists _ := ⟨[], (List.append_nil _).symm, fun _ hr => absurd hr List.not_mem_nil⟩
  size := Nat.le_refl _
  old _ _ := ⟨⟨_, _, _, [], []⟩, rfl⟩
  counterparts _ hr hge := absurd hr (Nat.not_lt.2 hge)

theorem attributeAt (hp : Reading k h) (a : AttributeId) : h.attributeAt a = k.attributeAt a := by
  rw [Graph.attributeAt, hp.attributes]
  rfl

theorem attributeList (hp : Reading k h) (o : EntityId) : (h.entity o).attributes = (k.entity o).attributes := by
  rw [hp.entity]

theorem source (hp : Reading k h) (o : EntityId) : (h.entity o).source = (k.entity o).source := by
  rw [hp.entity]

theorem superEntity (hp : Reading k h) (o : EntityId) : (h.entity o).superEntity = (k.entity o).superEntity := by
  rw [hp.entity]

theorem isFailed (hp : Reading k h) (o : EntityId) : h.isFailed o = k.isFailed o := by
  rw [Graph.isFailed, hp.entity]
  rfl

theorem attributesOf (hp : Reading k h) (o : EntityId) : h.attributesOf o = k.attributesOf o := by
  rw [Graph.attributesOf, hp.attributeList, Graph.attributesOf]
  exact List.map_congr_left fun a _ => hp.attributeAt a

theorem attributeNamed? (hp : Reading k h) (o : EntityId) (name : String) :
    h.attributeNamed? o name = k.attributeNamed? o name := by
  simp only [Graph.attributeNamed?, hp.attributeList, hp.attributeAt]

/-- A relationship reads the same, whichever others have been read. -/
theorem analysis (hp : Reading k h) (o related : EntityId) (r : Relationship) :
    h.analysis o related r = k.analysis o related r := by
  have hqualified : ∀ o, h.qualifiedName o = k.qualifiedName o := qualifiedName_of_outline_eq hp.outline
  have hjoin : h.readJoin related r = k.readJoin related r := by
    unfold readJoin
    rw [hqualified, name_of_outline_eq hp.outline]
  have hpairs : h.pairErrors o related = k.pairErrors o related := by
    funext p
    unfold pairErrors
    simp only [hp.attributeNamed?, hqualified]
  have hunjoined : h.unjoinedKeys o = k.unjoinedKeys o := by
    funext join
    rw [unjoinedKeys, hp.attributesOf, unjoinedKeys]
  have hobstacle : h.dependenceObstacle? o = k.dependenceObstacle? o := by
    funext r c join
    unfold dependenceObstacle?
    rw [hunjoined]
  rw [Graph.analysis, hjoin, hpairs, hobstacle]
  rfl

theorem relationshipAt_owner (hp : Reading k h) (hk : k.Sound) (hr : r ∈ (k.entity o).relationships) :
    (h.relationshipAt r).owner = o := by
  obtain ⟨hlt, howner⟩ := hk.relationship_owned o r hr
  obtain ⟨a, ha⟩ := hp.old r hlt
  rw [ha]
  exact howner

/-- One relationship more is read. -/
theorem modifyRelationship (hp : Reading k h) (hr : r < k.relationships.size) (a : JoinAnalysis) :
    Reading k (h.modifyRelationship r (·.readAs a)) where
  sound := hp.sound.modifyRelationship r rfl
  outline := hp.outline
  attributes := hp.attributes
  entity := hp.entity
  lists := hp.lists
  size := by simpa using hp.size
  old s hs := by
    obtain ⟨b, hb⟩ := hp.old s hs
    rw [relationshipAt_modifyRelationship]
    split
    · exact ⟨a, by rw [hb]; rfl⟩
    · exact ⟨b, hb⟩
  counterparts s hs hge := by
    have hne : ¬ (r = s ∧ s < h.relationships.size) := fun heq => Nat.not_lt.2 hge (heq.1 ▸ hr)
    rw [relationshipAt_modifyRelationship, if_neg hne]
    exact hp.counterparts s (by simpa using hs) hge

/-- One counterpart more. -/
theorem addRelationship (hp : Reading k h) {x : Relationship} (hx : x.isReverse = true ∧ WellJoined k x.owner x) :
    Reading k (h.addRelationship x) where
  sound := hp.sound.addRelationship x
  outline := (outline_addRelationship ..).trans hp.outline
  attributes := hp.attributes
  entity o := by
    rw [entity_addRelationship]
    split
    · rw [hp.entity o]
    · exact hp.entity o
  lists o := by
    obtain ⟨added, hlist, hadded⟩ := hp.lists o
    rw [entity_addRelationship]
    split
    · refine ⟨added ++ [h.relationships.size], by rw [hlist, List.append_assoc], fun r hr => ?_⟩
      rcases List.mem_append.1 hr with hr | hr
      · exact hadded r hr
      · rw [List.mem_singleton.1 hr]
        exact hp.size
    · exact ⟨added, hlist, hadded⟩
  size := by
    rw [size_relationships_addRelationship]
    exact Nat.le_succ_of_le hp.size
  old r hr := by
    rw [relationshipAt_addRelationship, if_neg (Nat.ne_of_lt (Nat.lt_of_lt_of_le hr hp.size))]
    exact hp.old r hr
  counterparts r hr hge := by
    rw [relationshipAt_addRelationship]
    split
    · exact hx
    · rename_i hne
      rw [size_relationships_addRelationship] at hr
      exact hp.counterparts r (Nat.lt_of_le_of_ne (Nat.le_of_lt_succ hr) hne) hge

/-- The counterpart of a well joined relationship, if there is to be one. -/
theorem addReverse (hp : Reading k h) (ownerName : String)
    (hr : WellJoined k (h.relationshipAt r).owner (h.relationshipAt r)) :
    Reading k (h.addReverse r ownerName).1 ∧
      ∀ s < h.relationships.size, (h.addReverse r ownerName).1.relationshipAt s = h.relationshipAt s := by
  unfold Graph.addReverse
  dsimp only
  split
  · exact ⟨hp, fun _ _ => rfl⟩
  · rename_i x hx
    split
    · exact ⟨hp, fun _ _ => rfl⟩
    · split
      · exact ⟨hp, fun _ _ => rfl⟩
      · split
        · exact ⟨hp, fun _ _ => rfl⟩
        · refine ⟨hp.addRelationship (wellJoined_of_reverse? hr hx), fun s hs => ?_⟩
          rw [relationshipAt_addRelationship, if_neg (Nat.ne_of_lt hs)]

end Reading

/-- The relationship of `o` has been read on the way from `k` to `h`. -/
def IsRead (k h : Graph) (o : EntityId) (r : RelationshipId) : Prop :=
  ∀ related, (k.relationshipAt r).related = some related → (k.relationshipAt r).isReverse = false →
    (h.relationshipAt r).cardinality = (k.analysis o related (k.relationshipAt r)).cardinality ∧
      (h.relationshipAt r).join = (k.analysis o related (k.relationshipAt r)).join

/-- The errors that are reported with the relationship of `o`: those of an inherited one are not. -/
def IsSoundlyRead (k : Graph) (o : EntityId) (r : RelationshipId) : Prop :=
  ∀ related, (k.relationshipAt r).related = some related → (k.relationshipAt r).isReverse = false →
    (k.relationshipAt r).isInherited = false → (k.analysis o related (k.relationshipAt r)).errors = []

theorem analyse_of_not_forward
    (hnot : ¬ ∃ related, (h.relationshipAt r).related = some related ∧ (h.relationshipAt r).isReverse = false) :
    analyse o h r = (h, []) := by
  unfold analyse
  dsimp only
  split
  · rfl
  · rename_i related hrelated
    refine if_pos ?_
    by_contra hreverse
    exact hnot ⟨related, hrelated, Bool.eq_false_iff.2 hreverse⟩

theorem analyse_of_not_lt (hp : Reading k h) (hr : ¬ r < k.relationships.size) : analyse o h r = (h, []) := by
  refine analyse_of_not_forward fun ⟨related, hrelated, hforward⟩ => ?_
  by_cases hlt : r < h.relationships.size
  · obtain ⟨hreverse, -⟩ := hp.counterparts r hlt (Nat.not_lt.1 hr)
    rw [hforward] at hreverse
    cases hreverse
  · have hnone : (h.relationshipAt r).related = none := by
      simp [relationshipAt, Array.getD, hlt]
      rfl
    rw [hnone] at hrelated
    cases hrelated

theorem analyse_of_related (hrelated : (h.relationshipAt r).related = some related)
    (hforward : (h.relationshipAt r).isReverse = false) :
    let a := h.analysis o related (h.relationshipAt r)
    let read := h.modifyRelationship r (·.readAs a)
    ((analyse o h r).1 = read ∨
      a.errors = [] ∧ (analyse o h r).1 = (read.addReverse r (h.qualifiedName o)).1) ∧
    (Clean (analyse o h r).2 → (h.relationshipAt r).isInherited = false → a.errors = []) := by
  simp only [analyse, hrelated, hforward, Bool.false_eq_true, if_false]
  split
  · rename_i hinherited
    refine ⟨.inl rfl, fun _ hfalse => ?_⟩
    rw [hinherited] at hfalse
    cases hfalse
  · refine ⟨?_, fun hclean _ => ?_⟩
    · split
      · rename_i hnone
        exact .inr ⟨List.isEmpty_iff.1 hnone, rfl⟩
      · exact .inl rfl
    · exact eq_nil_of_clean_map (fun _ => rfl) (clean_append.1 (clean_append.1 hclean).1).1

/-- A relationship that is read, and perhaps given a counterpart: that makes no difference to those there already. -/
theorem Reading.read (hk : k.Sound) (hp : Reading k h) (hr : r ∈ (k.entity o).relationships) {h' : Graph}
    (hrelated : (k.relationshipAt r).related = some related) {b : JoinAnalysis}
    (hb : b = k.analysis o related (h.relationshipAt r))
    (hcases : h' = h.modifyRelationship r (·.readAs b) ∨
      b.errors = [] ∧ ∃ name, h' = ((h.modifyRelationship r (·.readAs b)).addReverse r name).1) :
    Reading k h' ∧
      ∀ s < k.relationships.size, h'.relationshipAt s = (h.modifyRelationship r (·.readAs b)).relationshipAt s := by
  obtain ⟨hlt, -⟩ := hk.relationship_owned o r hr
  have hread := hp.modifyRelationship hlt b
  rcases hcases with rfl | ⟨hnone, name, rfl⟩
  · exact ⟨hread, fun _ _ => rfl⟩
  · have hat : (h.modifyRelationship r (·.readAs b)).relationshipAt r = (h.relationshipAt r).readAs b := by
      rw [relationshipAt_modifyRelationship, if_pos ⟨rfl, Nat.lt_of_lt_of_le hlt hp.size⟩]
    obtain ⟨a, ha⟩ := hp.old r hlt
    have hwell : WellJoined k o ((h.modifyRelationship r (·.readAs b)).relationshipAt r) := by
      rw [hb, ha] at hnone
      rw [hat, hb, ha]
      exact wellJoined_of_errors_eq_nil hnone hrelated rfl rfl
    rw [← hread.relationshipAt_owner hk hr] at hwell
    obtain ⟨hadded, hkept⟩ := hread.addReverse name hwell
    exact ⟨hadded, fun s hs => hkept s (Nat.lt_of_lt_of_le hs hread.size)⟩

/-- A relationship that leads forward is read, and those that were there already are not touched otherwise. -/
theorem relationshipAt_analyse (hk : k.Sound) (hp : Reading k h) (hr : r ∈ (k.entity o).relationships)
    (hrelated : (h.relationshipAt r).related = some related) (hforward : (h.relationshipAt r).isReverse = false) :
    Reading k (analyse o h r).1 ∧ ∀ s < k.relationships.size, (analyse o h r).1.relationshipAt s =
      if s = r then (h.relationshipAt r).readAs (k.analysis o related (h.relationshipAt r)) else h.relationshipAt s := by
  obtain ⟨hlt, -⟩ := hk.relationship_owned o r hr
  obtain ⟨a, ha⟩ := hp.old r hlt
  have hcases := (analyse_of_related (o := o) hrelated hforward).1
  rw [hp.analysis] at hcases
  obtain ⟨hreading, hresult⟩ := hp.read hk hr (by rw [ha] at hrelated; exact hrelated) rfl
    (hcases.imp_right (And.imp_right fun heq => ⟨_, heq⟩))
  refine ⟨hreading, fun s hs => ?_⟩
  rw [hresult s hs, relationshipAt_modifyRelationship]
  by_cases hsr : s = r
  · subst hsr
    rw [if_pos ⟨rfl, Nat.lt_of_lt_of_le hlt hp.size⟩, if_pos rfl]
  · rw [if_neg fun e => hsr e.1.symm, if_neg hsr]

/-- One relationship of an object. -/
private theorem analyse_spec (hk : k.Sound) (hp : Reading k h) (hr : r ∈ (k.entity o).relationships) :
    Reading k (analyse o h r).1 ∧
      (∀ s < k.relationships.size, s ≠ r → (analyse o h r).1.relationshipAt s = h.relationshipAt s) ∧
      IsRead k (analyse o h r).1 o r ∧ (Clean (analyse o h r).2 → IsSoundlyRead k o r) := by
  obtain ⟨hlt, -⟩ := hk.relationship_owned o r hr
  obtain ⟨a, ha⟩ := hp.old r hlt
  by_cases hforward : ∃ related, (k.relationshipAt r).related = some related ∧ (k.relationshipAt r).isReverse = false
  · obtain ⟨related, hrelated, hforward⟩ := hforward
    have hrelated' : (h.relationshipAt r).related = some related := by
      rw [ha]
      exact hrelated
    have hforward' : (h.relationshipAt r).isReverse = false := by
      rw [ha]
      exact hforward
    obtain ⟨hreading, hresult⟩ := relationshipAt_analyse hk hp hr hrelated' hforward'
    have hclean := (analyse_of_related (o := o) hrelated' hforward').2
    rw [hp.analysis] at hclean
    refine ⟨hreading, fun s hs hne => ?_, fun related' hrelated' _ => ?_, fun hcleaned related' hrelated' _ hown => ?_⟩
    · rw [hresult s hs, if_neg hne]
    · obtain rfl : related = related' := Option.some.inj (hrelated.symm.trans hrelated')
      rw [hresult r hlt, if_pos rfl, ha]
      exact ⟨rfl, rfl⟩
    · obtain rfl : related = related' := Option.some.inj (hrelated.symm.trans hrelated')
      rw [ha] at hclean
      exact hclean hcleaned hown
  · have hnot : ¬ ∃ related, (h.relationshipAt r).related = some related ∧ (h.relationshipAt r).isReverse = false := by
      rw [ha]
      exact hforward
    rw [analyse_of_not_forward hnot]
    exact ⟨hp, fun _ _ _ => rfl, fun related hrelated hfalse => absurd ⟨related, hrelated, hfalse⟩ hforward,
      fun _ related hrelated hfalse _ => absurd ⟨related, hrelated, hfalse⟩ hforward⟩

/-! ### All relationships -/

/-- `h` is further on the way from `k` than `g`: what has been read stays read. -/
structure ReadsOn (k g h : Graph) : Prop where
  reading : Reading k h
  kept : ∀ o, ∀ r ∈ (k.entity o).relationships, IsRead k g o r → IsRead k h o r

theorem ReadsOn.trans {g₁ g₂ g₃ : Graph} (first : ReadsOn k g₁ g₂) (second : ReadsOn k g₂ g₃) : ReadsOn k g₁ g₃ :=
  ⟨second.reading, fun o r hr hread => second.kept o r hr (first.kept o r hr hread)⟩

/-- What an object has in its list on the way are its old relationships, and counterparts, which are left alone. -/
theorem readsOn_analyse (hk : k.Sound) (hp : Reading k h)
    (hr : r < k.relationships.size → r ∈ (k.entity o).relationships) : ReadsOn k h (analyse o h r).1 := by
  by_cases hlt : r < k.relationships.size
  · obtain ⟨hreading, hkept, hdone, -⟩ := analyse_spec hk hp (hr hlt)
    refine ⟨hreading, fun o' s hs hread => ?_⟩
    obtain ⟨hs', howner⟩ := hk.relationship_owned o' s hs
    by_cases heq : s = r
    · subst heq
      rw [← howner, (hk.relationship_owned o s (hr hlt)).2]
      exact hdone
    · intro related hrelated hforward
      rw [hkept s hs' heq]
      exact hread related hrelated hforward
  · rw [analyse_of_not_lt hp hlt]
    exact ⟨hp, fun _ _ _ hread => hread⟩

theorem Reading.mem_old (hp : Reading k h) (hr : r ∈ (h.entity o).relationships) (hlt : r < k.relationships.size) :
    r ∈ (k.entity o).relationships := by
  obtain ⟨added, hlist, hadded⟩ := hp.lists o
  rw [hlist] at hr
  rcases List.mem_append.1 hr with hr | hr
  · exact hr
  · exact absurd hlt (Nat.not_lt.2 (hadded r hr))

theorem Reading.mem_new (hp : Reading k h) (hr : r ∈ (k.entity o).relationships) : r ∈ (h.entity o).relationships := by
  obtain ⟨added, hlist, -⟩ := hp.lists o
  rw [hlist]
  exact List.mem_append_left _ hr

theorem readsOn_analyseEntity (hk : k.Sound) (hp : Reading k h) (o : EntityId) :
    ReadsOn k h (h.analyseEntity o).1 := by
  unfold analyseEntity
  split
  · exact ⟨hp, fun _ _ _ hread => hread⟩
  · exact gather_invariant (ReadsOn k h) (fun g r hr hg => hg.trans (readsOn_analyse hk hg.reading (hp.mem_old hr)))
      ⟨hp, fun _ _ _ hread => hread⟩

theorem reading_resolveRelationships (hk : k.Sound) : Reading k k.resolveRelationships.1 :=
  gather_invariant (Reading k) (fun _ o _ hg => (readsOn_analyseEntity hk hg o).reading) (.refl hk)

/-- The relationships of one object that did not fail. -/
private theorem read_of_clean_analyseEntity (hk : k.Sound) (hp : Reading k h) (hfailed : k.isFailed o = false)
    (clean : Clean (h.analyseEntity o).2) :
    ∀ r ∈ (k.entity o).relationships, IsRead k (h.analyseEntity o).1 o r ∧ IsSoundlyRead k o r := by
  simp only [analyseEntity, hp.isFailed, hfailed, Bool.false_eq_true, if_false] at clean ⊢
  have hdone := forall_of_clean_gather (Reading k)
    (fun r g => r ∈ (k.entity o).relationships → IsRead k g o r ∧ IsSoundlyRead k o r)
    (fun g r hr hg => (readsOn_analyse hk hg (hp.mem_old hr)).reading)
    (fun g r hr s hg hs hmem => ⟨(readsOn_analyse hk hg (hp.mem_old hr)).kept o s hmem (hs hmem).1, (hs hmem).2⟩)
    (fun g r _ hg hclean hmem => ?_) hp clean
  · exact fun r hr => hdone r (hp.mem_new hr) hr
  · obtain ⟨-, -, hread, hsound⟩ := analyse_spec hk hg hmem
    exact ⟨hread, hsound hclean⟩

/-- In the end all relationships of objects have been read, and those that are not inherited without an error. -/
theorem read_of_clean (hk : k.Sound) (hfailed : ∀ o ∈ k.idsOfKind .object, k.isFailed o = false)
    (clean : Clean k.resolveRelationships.2) :
    ∀ o ∈ k.idsOfKind .object, ∀ r ∈ (k.entity o).relationships,
      IsRead k k.resolveRelationships.1 o r ∧ IsSoundlyRead k o r := by
  refine forall_of_clean_gather (Reading k)
    (fun o g => ∀ r ∈ (k.entity o).relationships, IsRead k g o r ∧ IsSoundlyRead k o r)
    (fun g o _ hg => (readsOn_analyseEntity hk hg o).reading)
    (fun g o _ o' hg ho' r hr => ⟨(readsOn_analyseEntity hk hg o).kept o' r hr (ho' r hr).1, (ho' r hr).2⟩)
    (fun g o ho hg hclean => read_of_clean_analyseEntity hk hg (hfailed o ho) hclean) (.refl hk) clean

end Graph

end Metamodel
