import Metamodel.Proofs.Join.Reading

/-!
# Counterparts

While relationships are read, each is either as it was or as it reads in the graph from before (`readAt`), and what is
new is the counterpart of such a reading (`Pairing`).  Reading a relationship once more changes nothing, and a
counterpart is never changed.  After a clean reading every declared relationship with a reverse name has got its
counterpart (`isPaired_of_clean`).
-/

namespace Metamodel.Graph

variable {k g h : Graph} {o related : EntityId} {r f : RelationshipId}

/-- A relationship as it is when it has been read. -/
def readAt (k : Graph) (f : RelationshipId) : Relationship :=
  let r := k.relationshipAt f
  match r.related with
  | some related => r.readAs (k.analysis r.owner related r)
  | none => r

/-- The relationship that this one is the counterpart of. -/
def forwardOf? (g : Graph) (r : RelationshipId) : Option RelationshipId :=
  (g.relationshipAt r).reversal.map (·.forward)

theorem readAt_of_related (hrelated : (k.relationshipAt f).related = some related) :
    k.readAt f = (k.relationshipAt f).readAs (k.analysis (k.relationshipAt f).owner related (k.relationshipAt f)) := by
  simp only [readAt, hrelated]

/-- What stands against the dependence of the related entity, for a relationship as it is read. -/
private def obstacleOf (k : Graph) (o related : EntityId) (x : Relationship) : Option String :=
  k.dependenceObstacle? o x (readCardinality x).1 (k.readJoin related x).1

private theorem relatedIsDependent_analysis (k : Graph) (o related : EntityId) (x : Relationship) :
    (k.analysis o related x).relatedIsDependent =
      if (k.obstacleOf o related x).isSome then some false else x.relatedIsDependent := rfl

/-- A relationship that is read again stays as it is: a dependence that was given up is not asked for again. -/
private theorem readAs_analysis_readAs (k : Graph) (o related : EntityId) (x : Relationship) :
    let a := k.analysis o related x
    (x.readAs a).readAs (k.analysis o related (x.readAs a)) = x.readAs a ∧
      (k.analysis o related (x.readAs a)).errors = a.errors := by
  intro a
  have hnone : k.obstacleOf o related (x.readAs a) = none := by
    cases hobstacle : k.obstacleOf o related x with
    | none =>
      have hkept : a.relatedIsDependent = x.relatedIsDependent := by
        rw [relatedIsDependent_analysis, hobstacle]
        rfl
      rw [← hobstacle]
      simp only [obstacleOf, dependenceObstacle?, Relationship.readAs, hkept]
      rfl
    | some obstacle =>
      have hgiven : a.relatedIsDependent = some false := by
        rw [relatedIsDependent_analysis, hobstacle]
        rfl
      simp [obstacleOf, dependenceObstacle?, Relationship.readAs, hgiven]
  have hdependent : (k.analysis o related (x.readAs a)).relatedIsDependent = a.relatedIsDependent := by
    rw [relatedIsDependent_analysis, hnone]
    rfl
  refine ⟨?_, rfl⟩
  simp only [Relationship.readAs, Relationship.mk.injEq, true_and, and_true]
  exact ⟨rfl, rfl, hdependent⟩

/-! ### One step -/

/-- A counterpart that is to be made is made, unless there is an error or the related entity failed. -/
theorem addReverse_cases (g : Graph) (r : RelationshipId) (ownerName : String) :
    (g.addReverse r ownerName).1 = g ∨ ∃ x, (g.relationshipAt r).reverse? r ownerName = some x ∧
      g.isFailed x.owner = false ∧ (g.addReverse r ownerName).1 = g.addRelationship x := by
  unfold addReverse
  dsimp only
  split
  · exact .inl rfl
  · rename_i x hx
    split
    · exact .inl rfl
    · rename_i hfailed
      split
      · exact .inl rfl
      · split
        · exact .inl rfl
        · exact .inr ⟨x, hx, Bool.eq_false_iff.2 hfailed, rfl⟩

private theorem addReverse_of_clean {x : Relationship} {ownerName : String}
    (hx : (g.relationshipAt r).reverse? r ownerName = some x) (hfailed : g.isFailed x.owner = false)
    (clean : Clean (g.addReverse r ownerName).2) : (g.addReverse r ownerName).1 = g.addRelationship x := by
  unfold addReverse at clean ⊢
  simp only [hx] at clean ⊢
  rw [if_neg (by simpa [isFailed] using hfailed)] at clean ⊢
  split at clean
  · have := clean _ (List.mem_singleton_self _)
    cases this
  · rename_i himported
    rw [if_neg himported]
    split at clean
    · have := clean _ (List.mem_singleton_self _)
      cases this
    · rename_i hmember
      rw [if_neg hmember]

/-- `h` is `k` with some relationships read; the others are counterparts of readings of declared relationships. -/
structure Pairing (k h : Graph) : Prop where
  reading : Reading k h
  old : ∀ f < k.relationships.size, h.relationshipAt f = k.relationshipAt f ∨ h.relationshipAt f = k.readAt f
  new : ∀ r < h.relationships.size, k.relationships.size ≤ r → ∃ f < k.relationships.size,
    (k.relationshipAt f).isInherited = false ∧ (k.relationshipAt f).isReverse = false ∧
      ∃ ownerName, (k.readAt f).reverse? f ownerName = some (h.relationshipAt r)

/-- `h` is further on the way from `k` than `g`: what has been read stays read, and counterparts stay as they are. -/
structure PairsOn (k g h : Graph) : Prop where
  pairing : Pairing k h
  read : ∀ f < k.relationships.size, g.relationshipAt f = k.readAt f → h.relationshipAt f = k.readAt f
  size : g.relationships.size ≤ h.relationships.size
  counterparts : ∀ r < g.relationships.size, k.relationships.size ≤ r → h.relationshipAt r = g.relationshipAt r

theorem PairsOn.refl (hg : Pairing k g) : PairsOn k g g :=
  ⟨hg, fun _ _ hread => hread, Nat.le_refl _, fun _ _ _ => rfl⟩

theorem PairsOn.trans {g₁ g₂ g₃ : Graph} (first : PairsOn k g₁ g₂) (second : PairsOn k g₂ g₃) : PairsOn k g₁ g₃ where
  pairing := second.pairing
  read f hf hread := second.read f hf (first.read f hf hread)
  size := Nat.le_trans first.size second.size
  counterparts := by
    intro r hr hnew
    rw [second.counterparts r (Nat.lt_of_lt_of_le hr first.size) hnew, first.counterparts r hr hnew]

/-- A relationship that is read, and if it is declared perhaps given its counterpart. -/
private theorem pairsOn_of_read (hp : Pairing k h) (hlt : r < k.relationships.size) {h' : Graph} (hh' : Reading k h')
    {a : JoinAnalysis} (ha : (h.relationshipAt r).readAs a = k.readAt r)
    (hcases : h' = h.modifyRelationship r (·.readAs a) ∨
      ((k.relationshipAt r).isInherited = false ∧ (k.relationshipAt r).isReverse = false) ∧ ∃ x ownerName,
        (k.readAt r).reverse? r ownerName = some x ∧ h' = (h.modifyRelationship r (·.readAs a)).addRelationship x) :
    PairsOn k h h' := by
  have hr := Nat.lt_of_lt_of_le hlt hp.reading.size
  have hread : ∀ s < h.relationships.size,
      (h.modifyRelationship r (·.readAs a)).relationshipAt s = if s = r then k.readAt r else h.relationshipAt s := by
    intro s hs
    rw [relationshipAt_modifyRelationship]
    by_cases hsr : s = r
    · subst hsr
      rw [if_pos ⟨rfl, hs⟩, if_pos rfl, ha]
    · rw [if_neg fun e => hsr e.1.symm, if_neg hsr]
  have hold : ∀ s < h.relationships.size, h'.relationshipAt s = if s = r then k.readAt r else h.relationshipAt s := by
    intro s hs
    rcases hcases with rfl | ⟨-, x, ownerName, -, rfl⟩
    · exact hread s hs
    · rw [relationshipAt_addRelationship, if_neg (by simpa using Nat.ne_of_lt hs), hread s hs]
  have hsize : h.relationships.size ≤ h'.relationships.size := by
    rcases hcases with rfl | ⟨-, x, ownerName, -, rfl⟩ <;> simp
  have hnew : ∀ s < h'.relationships.size, s < h.relationships.size ∨
      ((k.relationshipAt r).isInherited = false ∧ (k.relationshipAt r).isReverse = false) ∧
        ∃ ownerName, (k.readAt r).reverse? r ownerName = some (h'.relationshipAt s) := by
    intro s hs
    rcases hcases with rfl | ⟨hdeclared, x, ownerName, hx, rfl⟩
    · exact .inl (by simpa using hs)
    · rcases Nat.lt_or_ge s h.relationships.size with hs' | hs'
      · exact .inl hs'
      · have hlast : s = (h.modifyRelationship r (·.readAs a)).relationships.size := by
          simp only [size_relationships_addRelationship, size_modifyRelationship] at hs ⊢
          omega
        refine .inr ⟨hdeclared, ownerName, ?_⟩
        rw [relationshipAt_addRelationship, if_pos hlast, hx]
  constructor
  · refine ⟨hh', fun f hf => ?_, fun s hs hge => ?_⟩
    · rw [hold f (Nat.lt_of_lt_of_le hf hp.reading.size)]
      split
      · rename_i hfr
        exact .inr (by rw [hfr])
      · exact hp.old f hf
    · rcases hnew s hs with hs' | ⟨⟨hown, hforward⟩, hx⟩
      · rw [hold s hs', if_neg (Nat.ne_of_gt (Nat.lt_of_lt_of_le hlt hge))]
        exact hp.new s hs' hge
      · exact ⟨r, hlt, hown, hforward, hx⟩
  · intro f hf hdone
    rw [hold f (Nat.lt_of_lt_of_le hf hp.reading.size)]
    split
    · rename_i hfr
      rw [hfr]
    · exact hdone
  · exact hsize
  · intro s hs hge
    rw [hold s hs, if_neg (Nat.ne_of_gt (Nat.lt_of_lt_of_le hlt hge))]

/-- A declared relationship without errors is read and then given its counterpart. -/
theorem analyse_cases (hrelated : (h.relationshipAt r).related = some related)
    (hforward : (h.relationshipAt r).isReverse = false) :
    let read := h.modifyRelationship r (·.readAs (h.analysis o related (h.relationshipAt r)))
    ((analyse o h r).1 = read ∨
      (h.relationshipAt r).isInherited = false ∧ (analyse o h r).1 = (read.addReverse r (h.qualifiedName o)).1) ∧
    (Clean (analyse o h r).2 → (h.relationshipAt r).isInherited = false →
      (analyse o h r).1 = (read.addReverse r (h.qualifiedName o)).1 ∧
        Clean (read.addReverse r (h.qualifiedName o)).2) := by
  have herrors := (analyse_of_related (o := o) hrelated hforward).2
  intro read
  simp only [analyse, hrelated, hforward, Bool.false_eq_true, if_false] at herrors ⊢
  split
  · rename_i hinherited
    refine ⟨.inl rfl, fun _ hown => ?_⟩
    rw [hown] at hinherited
    cases hinherited
  · rename_i hown
    rw [Bool.not_eq_true] at hown
    rw [if_neg (by simp [hown])] at herrors
    split
    · exact ⟨.inr ⟨hown, rfl⟩, fun hclean _ => ⟨rfl, (clean_append.1 hclean).2⟩⟩
    · rename_i hsome
      refine ⟨.inl rfl, fun hclean _ => ?_⟩
      rw [if_neg hsome] at herrors
      rw [herrors hclean hown] at hsome
      exact absurd rfl hsome

/-- What has been read of a relationship on the way is what it reads as in the graph from before. -/
private theorem readAs_analysis_eq (hk : k.Sound) (hp : Pairing k h) (hr : r ∈ (k.entity o).relationships)
    (hrelated : (h.relationshipAt r).related = some related) :
    (h.relationshipAt r).readAs (h.analysis o related (h.relationshipAt r)) = k.readAt r := by
  obtain ⟨hlt, rfl⟩ := hk.relationship_owned o r hr
  obtain ⟨a, ha⟩ := hp.reading.old r hlt
  have hrelated' : (k.relationshipAt r).related = some related := by
    rw [ha] at hrelated
    exact hrelated
  rw [hp.reading.analysis, readAt_of_related hrelated']
  rcases hp.old r hlt with hunread | hread
  · rw [hunread]
  · rw [hread, readAt_of_related hrelated']
    exact (readAs_analysis_readAs k _ related (k.relationshipAt r)).1

/-- The relationship has been read, and has a counterpart if it is declared with a reverse name. -/
structure IsPaired (k h : Graph) (f : RelationshipId) : Prop where
  read : h.relationshipAt f = k.readAt f
  counterpart : (k.relationshipAt f).isInherited = false → (k.relationshipAt f).isBidirectional = true →
    ∃ r < h.relationships.size, k.relationships.size ≤ r ∧ h.forwardOf? r = some f

theorem PairsOn.isPaired (hgh : PairsOn k g h) (hf : f < k.relationships.size) (hg : IsPaired k g f) :
    IsPaired k h f where
  read := hgh.read f hf hg.read
  counterpart := by
    intro hown hbidirectional
    obtain ⟨r, hr, hnew, hforward⟩ := hg.counterpart hown hbidirectional
    refine ⟨r, Nat.lt_of_lt_of_le hr hgh.size, hnew, ?_⟩
    rw [forwardOf?, hgh.counterparts r hr hnew]
    exact hforward

private theorem pairsOn_analyse (hk : k.Sound) (hp : Pairing k h)
    (hr : r < k.relationships.size → r ∈ (k.entity o).relationships) : PairsOn k h (analyse o h r).1 := by
  by_cases hlt : r < k.relationships.size
  · obtain ⟨a, ha⟩ := hp.reading.old r hlt
    have hreading := (readsOn_analyse hk hp.reading hr).reading
    by_cases hforward : ∃ related, (h.relationshipAt r).related = some related ∧ (h.relationshipAt r).isReverse = false
    · obtain ⟨related, hrelated, hforward⟩ := hforward
      have hread := readAs_analysis_eq hk hp (hr hlt) hrelated
      refine pairsOn_of_read hp hlt hreading hread ?_
      rcases (analyse_cases (o := o) hrelated hforward).1 with hcase | ⟨hown, hcase⟩
      · exact .inl hcase
      · rcases addReverse_cases (h.modifyRelationship r (·.readAs (h.analysis o related (h.relationshipAt r)))) r
            (h.qualifiedName o) with hnone | ⟨x, hx, -, hadded⟩
        · exact .inl (hcase.trans hnone)
        · rw [relationshipAt_modifyRelationship, if_pos ⟨rfl, Nat.lt_of_lt_of_le hlt hp.reading.size⟩, hread] at hx
          rw [ha] at hown hforward
          exact .inr ⟨⟨hown, hforward⟩, x, _, hx, hcase.trans hadded⟩
    · rw [analyse_of_not_forward hforward]
      exact .refl hp
  · rw [analyse_of_not_lt hp.reading hlt]
    exact .refl hp

private theorem reverse?_readAt {name : String} (hrelated : (k.relationshipAt f).related = some related)
    (hname : (k.relationshipAt f).reverseName = some name) (ownerName : String) :
    ∃ x, (k.readAt f).reverse? f ownerName = some x ∧ x.owner = related ∧ x.reversal.map (·.forward) = some f := by
  have hrelated' : (k.readAt f).related = some related := by
    rw [readAt_of_related hrelated]
    exact hrelated
  have hname' : (k.readAt f).reverseName = some name := by
    rw [readAt_of_related hrelated]
    exact hname
  simp only [Relationship.reverse?, hrelated', hname']
  exact ⟨_, rfl, rfl, rfl⟩

/-- A relationship to an entity that did not fail, read without an error. -/
private theorem isPaired_of_clean_analyse (hk : k.Sound) (hp : Pairing k h) (hr : r ∈ (k.entity o).relationships)
    (hrelated : (k.relationshipAt r).related = some related) (hfailed : k.isFailed related = false)
    (hforward : (k.relationshipAt r).isReverse = false) (clean : Clean (analyse o h r).2) :
    IsPaired k (analyse o h r).1 r := by
  obtain ⟨hlt, -⟩ := hk.relationship_owned o r hr
  obtain ⟨a, ha⟩ := hp.reading.old r hlt
  have hlt' := Nat.lt_of_lt_of_le hlt hp.reading.size
  have hrelated' : (h.relationshipAt r).related = some related := by
    rw [ha]
    exact hrelated
  let read := h.modifyRelationship r (·.readAs (h.analysis o related (h.relationshipAt r)))
  have hread : read.relationshipAt r = k.readAt r := by
    rw [relationshipAt_modifyRelationship, if_pos ⟨rfl, hlt'⟩, readAs_analysis_eq hk hp hr hrelated']
  have hadded : ∀ x, (read.addRelationship x).relationshipAt r = k.readAt r := by
    intro x
    rw [relationshipAt_addRelationship, if_neg (by simpa [read] using Nat.ne_of_lt hlt'), hread]
  obtain ⟨hcases, hclean⟩ := analyse_cases (o := o) hrelated' (by rw [ha]; exact hforward)
  constructor
  · rcases hcases with hcase | ⟨-, hcase⟩
    · rw [hcase]
      exact hread
    · rcases addReverse_cases read r (h.qualifiedName o) with hnone | ⟨x, -, -, hsome⟩
      · rw [hcase, hnone, hread]
      · rw [hcase, hsome, hadded]
  · intro hown hbidirectional
    obtain ⟨name, hname⟩ := Option.isSome_iff_exists.1 hbidirectional
    obtain ⟨x, hx, howner, hforward'⟩ := reverse?_readAt hrelated hname (h.qualifiedName o)
    obtain ⟨hcase, hclean'⟩ := hclean clean (by rw [ha]; exact hown)
    have hfailed' : read.isFailed x.owner = false := by
      rw [howner, ← hfailed, ← hp.reading.isFailed]
      rfl
    have hresult := hcase.trans (addReverse_of_clean (by rw [hread]; exact hx) hfailed' hclean')
    have hsize : read.relationships.size = h.relationships.size := size_modifyRelationship ..
    refine ⟨h.relationships.size, ?_, hp.reading.size, ?_⟩
    · rw [hresult, size_relationships_addRelationship, hsize]
      exact Nat.lt_succ_self _
    · rw [hresult, forwardOf?, relationshipAt_addRelationship, if_pos hsize.symm]
      exact hforward'

/-! ### All relationships -/

private theorem pairsOn_analyseEntity (hk : k.Sound) (hp : Pairing k h) (o : EntityId) : PairsOn k h
    (h.analyseEntity o).1 := by
  unfold analyseEntity
  split
  · exact .refl hp
  · exact gather_invariant (PairsOn k h)
      (fun g r hr hg => hg.trans (pairsOn_analyse hk hg.pairing (hp.reading.mem_old hr))) (.refl hp)

theorem Pairing.refl (hk : k.Sound) : Pairing k k where
  reading := .refl hk
  old _ _ := .inl rfl
  new _ hr hge := absurd hr (Nat.not_lt.2 hge)

theorem pairing_resolveRelationships (hk : k.Sound) : Pairing k k.resolveRelationships.1 :=
  gather_invariant (Pairing k) (fun _ o _ hg => (pairsOn_analyseEntity hk hg o).pairing) (.refl hk)

/-- The relationships of an object that lead to objects that did not fail. -/
def IsPairable (k : Graph) (f : RelationshipId) : Prop :=
  (k.relationshipAt f).isReverse = false ∧
    ∃ related, (k.relationshipAt f).related = some related ∧ k.isFailed related = false

private theorem isPaired_of_clean_analyseEntity (hk : k.Sound) (hp : Pairing k h) (hfailed : k.isFailed o = false)
    (clean : Clean (h.analyseEntity o).2) :
    ∀ f ∈ (k.entity o).relationships, IsPairable k f → IsPaired k (h.analyseEntity o).1 f := by
  simp only [analyseEntity, hp.reading.isFailed, hfailed, Bool.false_eq_true, if_false] at clean ⊢
  have hdone := forall_of_clean_gather (Pairing k)
    (fun f g => f ∈ (k.entity o).relationships → IsPairable k f → IsPaired k g f)
    (fun g r hr hg => (pairsOn_analyse hk hg (hp.reading.mem_old hr)).pairing)
    (fun g r hr f hg hf hmem hpairable => (pairsOn_analyse hk hg (hp.reading.mem_old hr)).isPaired
      (hk.relationship_owned o f hmem).1 (hf hmem hpairable))
    (fun g r _ hg hclean hmem hpairable => ?_) hp clean
  · exact fun f hf => hdone f (hp.reading.mem_new hf) hf
  · obtain ⟨hforward, related, hrelated, hnot⟩ := hpairable
    exact isPaired_of_clean_analyse hk hg hmem hrelated hnot hforward hclean

/-- In the end all relationships of objects have been read, and the declared ones with a reverse name have their
counterparts. -/
theorem isPaired_of_clean (hk : k.Sound) (hfailed : ∀ o ∈ k.idsOfKind .object, k.isFailed o = false)
    (clean : Clean k.resolveRelationships.2) :
    ∀ o ∈ k.idsOfKind .object, ∀ f ∈ (k.entity o).relationships, IsPairable k f →
      IsPaired k k.resolveRelationships.1 f := by
  refine forall_of_clean_gather (Pairing k)
    (fun o g => ∀ f ∈ (k.entity o).relationships, IsPairable k f → IsPaired k g f)
    (fun g o _ hg => (pairsOn_analyseEntity hk hg o).pairing) (fun g o _ o' hg ho' f hf hpairable => ?_)
    (fun g o ho hg hclean => isPaired_of_clean_analyseEntity hk hg (hfailed o ho) hclean) (.refl hk) clean
  exact (pairsOn_analyseEntity hk hg o).isPaired (hk.relationship_owned o' f hf).1 (ho' f hf hpairable)

end Metamodel.Graph
