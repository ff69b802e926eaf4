import Metamodel.Proofs.Join.Reading

/-!
# Dependence that is given up

A relationship that asks for the dependence of its related entity keeps it when it is read, or it gives it up for a
reason that is among the warnings of the analysis.  While relationships are read, each that an object declares itself is
accounted for: it still asks, or a warning names it with its owner (`accounts_resolveRelationships`).
-/

namespace Metamodel.Graph

variable {k h : Graph} {o related : EntityId} {r : RelationshipId} {x : Relationship} {issues : List Issue}

/-! ### One reading -/

/-- Dependence is kept where the cardinality allows for it and the join takes in the whole primary key. -/
theorem relatedIsDependent_analysis_iff (hasks : x.relatedIsDependent = some true) :
    (k.analysis o related x).relatedIsDependent = some true ↔
      (k.analysis o related x).cardinality ≠ some .manyToMany ∧
        k.unjoinedKeys o (k.analysis o related x).join = [] := by
  simp only [analysis, dependenceObstacle?, hasks]
  by_cases hcardinality : (readCardinality x).1 = some .manyToMany
  · simp [hcardinality]
  · by_cases hkeys : k.unjoinedKeys o (k.readJoin related x).1 = []
    · simp [hcardinality, hkeys]
    · simp [hcardinality, hkeys]

private theorem exists_warning_of_lost (hasks : x.relatedIsDependent = some true)
    (hlost : (k.analysis o related x).relatedIsDependent ≠ some true) :
    ∃ message, message ∈ (k.analysis o related x).warnings := by
  simp only [analysis] at hlost ⊢
  split at hlost
  · rename_i hobstacle
    obtain ⟨message, hmessage⟩ := Option.isSome_iff_exists.1 hobstacle
    exact ⟨message, by rw [hmessage]; exact List.mem_singleton_self _⟩
  · exact absurd hasks hlost

/-- A copy reads like its declaration, but for the keys of the heir. -/
private theorem analysis_of_copy {x y : Relationship}
    (hcopy : x = { y with owner := x.owner, originalOwner := x.originalOwner }) (k : Graph) (o p related : EntityId) :
    (k.analysis o related x).cardinality = (k.analysis p related y).cardinality ∧
      (k.analysis o related x).join = (k.analysis p related y).join := by
  rw [hcopy]
  exact ⟨rfl, rfl⟩

/-- A copy that loses what its declaration keeps loses it to keys of the heir. -/
theorem unjoinedKeys_of_copy {x y : Relationship} {p : EntityId}
    (hcopy : x = { y with owner := x.owner, originalOwner := x.originalOwner })
    (hasks : x.relatedIsDependent = some true) (hlost : (k.analysis o related x).relatedIsDependent ≠ some true)
    (hkept : (k.analysis p related y).relatedIsDependent = some true) :
    k.unjoinedKeys p (k.analysis o related x).join = [] ∧ k.unjoinedKeys o (k.analysis o related x).join ≠ [] := by
  obtain ⟨hcardinality, hjoin⟩ := analysis_of_copy hcopy k o p related
  have hasks' : y.relatedIsDependent = some true := (congrArg (·.relatedIsDependent) hcopy).symm.trans hasks
  obtain ⟨hmany, hkeys⟩ := (relatedIsDependent_analysis_iff hasks').1 hkept
  rw [← hjoin] at hkeys
  refine ⟨hkeys, fun hnone => hlost ?_⟩
  refine (relatedIsDependent_analysis_iff hasks).2 ⟨?_, hnone⟩
  rw [hcardinality]
  exact hmany

/-- What is wrong with the dependence of a declared relationship is reported. -/
private theorem mem_analyse_of_warning (hrelated : (h.relationshipAt r).related = some related)
    (hforward : (h.relationshipAt r).isReverse = false) (hown : (h.relationshipAt r).isInherited = false)
    {message : String} (hmessage : message ∈ (h.analysis o related (h.relationshipAt r)).warnings) :
    Issue.warning .relationships .schema (h.qualifiedName o) (some (h.relationshipAt r).name) message ∈
      (analyse o h r).2 := by
  simp only [analyse, hrelated, hforward, hown, Bool.false_eq_true, if_false]
  exact List.mem_append_left _ (List.mem_append_right _ (List.mem_map_of_mem hmessage))

/-! ### All relationships -/

/-- The relationship still asks for dependence, or there is a warning that names it with its owner. -/
def AccountsFor (k h : Graph) (issues : List Issue) (f : RelationshipId) : Prop :=
  (h.relationshipAt f).relatedIsDependent = some true ∨
    ∃ message, Issue.warning .relationships .schema (k.qualifiedName (k.relationshipAt f).owner)
      (some (k.relationshipAt f).name) message ∈ issues

/-- On the way from `k` to `h`, with these issues, every declared relationship that asks for dependence is accounted
for. -/
structure Accounts (k h : Graph) (issues : List Issue) : Prop where
  reading : Reading k h
  accounted : ∀ f < k.relationships.size, (k.relationshipAt f).relatedIsDependent = some true →
    (k.relationshipAt f).isInherited = false → AccountsFor k h issues f

/-- A declared relationship keeps what it asks for when it is read, or this very step finds the warning. -/
private theorem accountsFor_analyse (hk : k.Sound) (hp : Reading k h) (hr : r ∈ (k.entity o).relationships)
    (hrelated : (h.relationshipAt r).related = some related) (hforward : (h.relationshipAt r).isReverse = false)
    (hown : (k.relationshipAt r).isInherited = false) (hasks : (h.relationshipAt r).relatedIsDependent = some true) :
    AccountsFor k (analyse o h r).1 (analyse o h r).2 r := by
  obtain ⟨hlt, rfl⟩ := hk.relationship_owned o r hr
  rw [AccountsFor, (relationshipAt_analyse hk hp hr hrelated hforward).2 r hlt, if_pos rfl]
  by_cases hkept : (k.analysis (k.relationshipAt r).owner related (h.relationshipAt r)).relatedIsDependent = some true
  · exact .inl hkept
  · obtain ⟨a, ha⟩ := hp.old r hlt
    obtain ⟨message, hmessage⟩ := exists_warning_of_lost hasks hkept
    rw [← hp.analysis] at hmessage
    have hown' : (h.relationshipAt r).isInherited = false := by
      rw [ha]
      exact hown
    have hname : (h.relationshipAt r).name = (k.relationshipAt r).name := by
      rw [ha]
      rfl
    have hfound := mem_analyse_of_warning hrelated hforward hown' hmessage
    rw [qualifiedName_of_outline_eq hp.outline, hname] at hfound
    exact .inr ⟨message, hfound⟩

private theorem accounts_analyse (hk : k.Sound) (ha : Accounts k h issues)
    (hr : r < k.relationships.size → r ∈ (k.entity o).relationships) :
    Accounts k (analyse o h r).1 (issues ++ (analyse o h r).2) := by
  by_cases hlt : r < k.relationships.size
  · by_cases hforward : ∃ related, (h.relationshipAt r).related = some related ∧ (h.relationshipAt r).isReverse = false
    · obtain ⟨related, hrelated, hforward⟩ := hforward
      obtain ⟨hreading, hresult⟩ := relationshipAt_analyse hk ha.reading (hr hlt) hrelated hforward
      refine ⟨hreading, fun f hf hasks hown => ?_⟩
      rcases ha.accounted f hf hasks hown with hstill | ⟨message, hmessage⟩
      · by_cases hfr : f = r
        · subst hfr
          have hfound := accountsFor_analyse hk ha.reading (hr hlt) hrelated hforward hown hstill
          exact hfound.imp_right fun ⟨message, hmessage⟩ => ⟨message, List.mem_append_right _ hmessage⟩
        · rw [AccountsFor, hresult f hf, if_neg hfr]
          exact .inl hstill
      · exact .inr ⟨message, List.mem_append_left _ hmessage⟩
    · rw [analyse_of_not_forward hforward, List.append_nil]
      exact ha
  · rw [analyse_of_not_lt ha.reading hlt, List.append_nil]
    exact ha

private theorem accounts_analyseEntity (hk : k.Sound) (ha : Accounts k h issues) (o : EntityId) :
    Accounts k (h.analyseEntity o).1 (issues ++ (h.analyseEntity o).2) := by
  unfold analyseEntity
  split
  · rw [List.append_nil]
    exact ha
  · refine gather_invariant_found (Accounts k) (fun g found r hr hg => ?_) ha
    exact accounts_analyse hk hg (ha.reading.mem_old hr)

/-- When all relationships have been read, a declared one still asks for the dependence that it asked for, or there is a
warning. -/
theorem accounts_resolveRelationships (hk : k.Sound) :
    Accounts k k.resolveRelationships.1 k.resolveRelationships.2 := by
  have hstart : Accounts k k [] := ⟨.refl hk, fun _ _ hasks _ => .inl hasks⟩
  rw [← List.nil_append k.resolveRelationships.2]
  exact gather_invariant_found (Accounts k) (fun _ _ o _ hg => accounts_analyseEntity hk hg o) hstart

end Metamodel.Graph
