import Metamodel.Proofs.Hierarchy.Members

/-!
# Agreement of members

An attribute that is redeclared without a conflict agrees with the one above it on what it is, and a redeclared
relationship leads to the same entity and declares no other cardinality.  A merge without conflicts leaves the
heir with a member that agrees for each member of the superclass but counterparts (`exists_attribute_of_inherit`,
`exists_relationship_of_inherit`).
-/

namespace Metamodel

/-! ### Attributes -/

namespace Attribute

/-- The enumeration that has been found for the attribute. -/
def enumerationTarget (a : Attribute) : Option EntityId :=
  match a.kind with
  | .enumeration s => s.target
  | _ => none

/-- The two are attributes of one kind and one type, and alike in what the kind has in store. -/
structure AgreesWith (a t : Attribute) : Prop where
  kind : a.kind.name = t.kind.name
  dataType : a.dataType = t.dataType
  isPrimaryKey : a.isPrimaryKey = t.isPrimaryKey
  isProcessingDate : a.isProcessingDate = t.isProcessingDate
  enumerationTarget : a.enumerationTarget = t.enumerationTarget

theorem AgreesWith.symm {a t : Attribute} (h : AgreesWith a t) : AgreesWith t a :=
  ⟨h.kind.symm, h.dataType.symm, h.isPrimaryKey.symm, h.isProcessingDate.symm, h.enumerationTarget.symm⟩

theorem AgreesWith.trans {a b c : Attribute} (first : AgreesWith a b) (second : AgreesWith b c) : AgreesWith a c :=
  ⟨first.kind.trans second.kind, first.dataType.trans second.dataType, first.isPrimaryKey.trans second.isPrimaryKey,
    first.isProcessingDate.trans second.isProcessingDate, first.enumerationTarget.trans second.enumerationTarget⟩

/-- Settings taken over are of no account. -/
theorem agreesWith_filledFrom (a t : Attribute) : (a.filledFrom t).AgreesWith a := by
  unfold filledFrom
  split
  all_goals
    constructor
    all_goals simp_all [isPrimaryKey, isProcessingDate, asOfSettings?, Attribute.enumerationTarget, AttributeKind.name,
      ColumnSettings.filledFrom, AsOfSettings.filledFrom, EnumerationSettings.filledFrom]

theorem agreesWith_of_conflicts_eq_nil {a t : Attribute} (h : a.conflicts t = []) : a.AgreesWith t := by
  unfold conflicts at h
  split at h
  · cases h
  · rename_i hsame
    obtain ⟨htype, hsettings⟩ := List.append_eq_nil_iff.1 h
    have hkind : a.kind.name = t.kind.name := by simpa using hsame
    have htype : a.dataType = t.dataType := by simpa using htype
    clear h hsame
    -- Attributes of one kind have one setting of that kind to agree on, or none.
    cases ha : a.kind with
    | column mine =>
      cases ht : t.kind with
      | column theirs =>
        simp only [ha, ht] at hsettings
        have hkey : mine.primaryKey = theirs.primaryKey := by
          split at hsettings
          · assumption
          · split at hsettings <;> cases hsettings
        exact ⟨hkind, htype, by simp [isPrimaryKey, ha, ht, hkey], by simp [isProcessingDate, asOfSettings?, ha, ht],
          by simp [Attribute.enumerationTarget, ha, ht]⟩
      | _ => simp [ha, ht, AttributeKind.name] at hkind
    | asOf mine =>
      cases ht : t.kind with
      | asOf theirs =>
        have hdate : mine.isProcessingDate = theirs.isProcessingDate := by simpa [ha, ht] using hsettings
        exact ⟨hkind, htype, by simp [isPrimaryKey, ha, ht],
          by simp [isProcessingDate, asOfSettings?, ha, ht, hdate], by simp [Attribute.enumerationTarget, ha, ht]⟩
      | _ => simp [ha, ht, AttributeKind.name] at hkind
    | enumeration mine =>
      cases ht : t.kind with
      | enumeration theirs =>
        have htarget : mine.target = theirs.target := by simpa [ha, ht] using hsettings
        exact ⟨hkind, htype, by simp [isPrimaryKey, ha, ht], by simp [isProcessingDate, asOfSettings?, ha, ht],
          by simp [Attribute.enumerationTarget, ha, ht, htarget]⟩
      | _ => simp [ha, ht, AttributeKind.name] at hkind
    | source =>
      cases ht : t.kind with
      | source =>
        exact ⟨hkind, htype, by simp [isPrimaryKey, ha, ht], by simp [isProcessingDate, asOfSettings?, ha, ht],
          by simp [Attribute.enumerationTarget, ha, ht]⟩
      | _ => simp [ha, ht, AttributeKind.name] at hkind
    | mapped mine =>
      cases ht : t.kind with
      | mapped theirs =>
        exact ⟨hkind, htype, by simp [isPrimaryKey, ha, ht], by simp [isProcessingDate, asOfSettings?, ha, ht],
          by simp [Attribute.enumerationTarget, ha, ht]⟩
      | _ => simp [ha, ht, AttributeKind.name] at hkind

theorem mergedWith_of_conflicts_eq_nil {a t : Attribute} (h : (a.mergedWith t).2 = []) :
    a.conflicts t = [] ∧ (a.mergedWith t).1 = a.filledFrom t := by
  cases hconflicts : a.conflicts t with
  | nil =>
    rw [mergedWith, hconflicts]
    exact ⟨rfl, rfl⟩
  | cons m ms =>
    rw [mergedWith, hconflicts] at h
    cases h

end Attribute

/-! ### Relationships -/

namespace Relationship

/-- Both lead to one entity, and a cardinality that is declared above is declared below. -/
structure AgreesWith (r t : Relationship) : Prop where
  related : r.related = t.related
  cardinalityKey : ∀ key, t.cardinalityKey = some key → r.cardinalityKey = some key

private theorem agreesWith_mergedWith {r t : Relationship} (h : (r.mergedWith t).2 = []) :
    (r.mergedWith t).1.AgreesWith t := by
  obtain ⟨hrelated, hkey⟩ := List.append_eq_nil_iff.1 h
  have hrelated : r.related = t.related := by simpa using hrelated
  refine ⟨hrelated, fun key ht => ?_⟩
  show r.cardinalityKey.or t.cardinalityKey = some key
  rw [ht] at hkey ⊢
  cases hr : r.cardinalityKey with
  | none => rfl
  | some mine =>
    rw [hr] at hkey
    have hsame : mine = key := by simpa using hkey
    rw [hsame]
    rfl

/-- Settings taken over are of no account. -/
theorem AgreesWith.mergedWith {r t : Relationship} (h : r.AgreesWith t) (u : Relationship) :
    (r.mergedWith u).1.AgreesWith t := by
  refine ⟨h.related, fun key ht => ?_⟩
  show r.cardinalityKey.or u.cardinalityKey = some key
  rw [h.cardinalityKey key ht]
  rfl

end Relationship

/-! ### Members -/

namespace Members

variable {heir : EntityId} {defaults : MemberDefaults} {mine theirs : Members}

/-- The source attribute of a superclass does not stay there, since no heir may declare another. -/
theorem passage_ne_stays (clean : (inherit heir defaults mine theirs).2 = []) {t : MarkedAttribute}
    (ht : t ∈ theirs.attributes) : (attributeBequest heir defaults mine.source?.isSome).passage t ≠ .stays := by
  obtain ⟨hfront, -⟩ := List.append_eq_nil_iff.1 clean
  obtain ⟨hoverridden, -⟩ := List.append_eq_nil_iff.1 hfront
  cases hsource : t.isSource with
  | false => simp [attributeBequest, hsource]
  | true =>
    have habove : theirs.source?.isSome := by
      rw [source?, Option.isSome_map, List.find?_isSome]
      exact ⟨t, ht, hsource⟩
    obtain ⟨above, habove⟩ := Option.isSome_iff_exists.1 habove
    rw [habove] at hoverridden
    cases hown : mine.source? with
    | none => simp [attributeBequest, hsource]
    | some own =>
      rw [hown] at hoverridden
      cases hoverridden

/-- What the superclass has, an heir without conflicts has. -/
theorem exists_attribute_of_inherit (clean : (inherit heir defaults mine theirs).2 = []) {t : MarkedAttribute}
    (ht : t ∈ theirs.attributes) :
    ∃ a ∈ (inherit heir defaults mine theirs).1.attributes,
      a.value.name = t.value.name ∧ a.value.AgreesWith t.value ∧ (t.isSource = true → a.isSource = true) := by
  obtain ⟨hfront, -⟩ := List.append_eq_nil_iff.1 clean
  obtain ⟨-, hattributes⟩ := List.append_eq_nil_iff.1 hfront
  refine Bequest.exists_agreeing_of_handAll (attributeBequest heir defaults mine.source?.isSome)
    (r := fun a t => a.value.AgreesWith t.value ∧ (t.isSource = true → a.isSource = true))
    (fun t => ⟨⟨rfl, rfl, rfl, rfl, rfl⟩, id⟩) (fun a t hmeets hnone => ⟨?_, fun hsource => ?_⟩)
    (fun a u t hnone hagrees => ⟨?_, hagrees.2⟩) hattributes ht (passage_ne_stays clean ht)
  · obtain ⟨hconflicts, hfilled⟩ := Attribute.mergedWith_of_conflicts_eq_nil hnone
    show (a.value.mergedWith t.value).1.AgreesWith t.value
    rw [hfilled]
    exact (a.value.agreesWith_filledFrom t.value).trans (Attribute.agreesWith_of_conflicts_eq_nil hconflicts)
  · simp only [attributeBequest, hsource, if_true] at hmeets
    split at hmeets <;> cases hmeets
  · show (a.value.mergedWith u.value).1.AgreesWith t.value
    rw [(Attribute.mergedWith_of_conflicts_eq_nil hnone).2]
    exact (a.value.agreesWith_filledFrom u.value).trans hagrees.1

theorem exists_relationship_of_inherit (clean : (inherit heir defaults mine theirs).2 = []) {t : Relationship}
    (ht : t ∈ theirs.relationships) (hforward : t.isReverse = false) :
    ∃ r ∈ (inherit heir defaults mine theirs).1.relationships, r.name = t.name ∧ r.AgreesWith t := by
  obtain ⟨-, hrelationships⟩ := List.append_eq_nil_iff.1 clean
  refine Bequest.exists_agreeing_of_handAll (relationshipBequest heir) (r := Relationship.AgreesWith)
    (fun t => ⟨rfl, fun _ h => h⟩) (fun r t _ hnone => Relationship.agreesWith_mergedWith hnone)
    (fun r u t _ hagrees => hagrees.mergedWith u) hrelationships ht ?_
  simp [relationshipBequest, hforward]

end Members

end Metamodel
