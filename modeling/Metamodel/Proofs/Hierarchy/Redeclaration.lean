import Metamodel.Proofs.Hierarchy.Agreement

/-!
# Redeclared attributes

An attribute that is declared again is merged with the one above it.  The merge succeeds if and only if the two agree,
and then fills in what the attribute leaves open; otherwise the attribute stays as it is.  In both cases a second merge
has nothing left to do (`redeclares_mergedWith`).  What is filled in is told kind by kind (`AttributeKind.FilledWith`).
-/

namespace Metamodel

/-- A setting that is there stays; one that is left open becomes what it is above, which may be open, too. -/
structure Fills {α : Type} (mine theirs filled : Option α) : Prop where
  kept : ∀ v, mine = some v → filled = some v
  taken : mine = none → filled = theirs

private theorem fills_or {α : Type} (mine theirs : Option α) : Fills mine theirs (mine.or theirs) := by
  constructor
  · rintro v rfl
    rfl
  · rintro rfl
    rfl

/-! ### Settings -/

/-- What `mine` leaves open is filled in from `theirs`, but for the generator of a key. -/
structure ColumnSettings.FilledWith (mine theirs filled : ColumnSettings) : Prop where
  columnName : Fills mine.columnName theirs.columnName filled.columnName
  nullable : Fills mine.nullable theirs.nullable filled.nullable
  maxLength : Fills mine.maxLength theirs.maxLength filled.maxLength
  trim : Fills mine.trim theirs.trim filled.trim
  truncate : Fills mine.truncate theirs.truncate filled.truncate
  poolable : Fills mine.poolable theirs.poolable filled.poolable
  timezone : Fills mine.timezone theirs.timezone filled.timezone
  defaultIfNull : Fills mine.defaultIfNull theirs.defaultIfNull filled.defaultIfNull
  precision : Fills mine.precision theirs.precision filled.precision
  scale : Fills mine.scale theirs.scale filled.scale
  finalGetter : Fills mine.finalGetter theirs.finalGetter filled.finalGetter
  others : filled = { mine with
    columnName := filled.columnName
    nullable := filled.nullable
    maxLength := filled.maxLength
    trim := filled.trim
    truncate := filled.truncate
    poolable := filled.poolable
    timezone := filled.timezone
    defaultIfNull := filled.defaultIfNull
    precision := filled.precision
    scale := filled.scale
    finalGetter := filled.finalGetter }

/-- What `mine` leaves open is filled in from `theirs`, but for a date of infinity where infinity is null. -/
structure AsOfSettings.FilledWith (mine theirs filled : AsOfSettings) : Prop where
  fromColumn : Fills mine.fromColumn theirs.fromColumn filled.fromColumn
  toColumn : Fills mine.toColumn theirs.toColumn filled.toColumn
  infinityDate : Fills mine.infinityDate (if mine.infinityIsNull then none else theirs.infinityDate) filled.infinityDate
  defaultIfNotSpecified :
    Fills mine.defaultIfNotSpecified theirs.defaultIfNotSpecified filled.defaultIfNotSpecified
  toIsInclusive : Fills mine.toIsInclusive theirs.toIsInclusive filled.toIsInclusive
  timezone : Fills mine.timezone theirs.timezone filled.timezone
  poolable : Fills mine.poolable theirs.poolable filled.poolable
  finalGetter : Fills mine.finalGetter theirs.finalGetter filled.finalGetter
  others : filled = { mine with
    fromColumn := filled.fromColumn
    toColumn := filled.toColumn
    infinityDate := filled.infinityDate
    defaultIfNotSpecified := filled.defaultIfNotSpecified
    toIsInclusive := filled.toIsInclusive
    timezone := filled.timezone
    poolable := filled.poolable
    finalGetter := filled.finalGetter }

structure EnumerationSettings.FilledWith (mine theirs filled : EnumerationSettings) : Prop where
  columnName : Fills mine.columnName theirs.columnName filled.columnName
  nullable : Fills mine.nullable theirs.nullable filled.nullable
  others : filled = { mine with columnName := filled.columnName, nullable := filled.nullable }

/-- A source attribute has no settings, and those of a mapped attribute are all there. -/
inductive AttributeKind.FilledWith : AttributeKind → AttributeKind → AttributeKind → Prop
  | column {mine theirs filled : ColumnSettings} :
    mine.FilledWith theirs filled → FilledWith (column mine) (column theirs) (column filled)
  | asOf {mine theirs filled : AsOfSettings} :
    mine.FilledWith theirs filled → FilledWith (asOf mine) (asOf theirs) (asOf filled)
  | enumeration {mine theirs filled : EnumerationSettings} :
    mine.FilledWith theirs filled → FilledWith (enumeration mine) (enumeration theirs) (enumeration filled)
  | source : FilledWith source source source
  | mapped (mine theirs : MappedSettings) : FilledWith (mapped mine) (mapped theirs) (mapped mine)

namespace ColumnSettings

private theorem filledWith_filledFrom (mine theirs : ColumnSettings) : mine.FilledWith theirs
    (mine.filledFrom theirs) := by
  constructor
  case others => rfl
  all_goals exact fills_or ..

private theorem filledFrom_filledFrom (mine theirs : ColumnSettings) :
    (mine.filledFrom theirs).filledFrom theirs = mine.filledFrom theirs := by
  simp only [filledFrom, Option.or_assoc, Option.or_self]

end ColumnSettings

namespace AsOfSettings

private theorem filledWith_filledFrom (mine theirs : AsOfSettings) : mine.FilledWith theirs
    (mine.filledFrom theirs) := by
  constructor
  case others => rfl
  case infinityDate =>
    unfold filledFrom
    split
    · simpa using fills_or mine.infinityDate none
    · exact fills_or ..
  all_goals exact fills_or ..

private theorem filledFrom_filledFrom (mine theirs : AsOfSettings) :
    (mine.filledFrom theirs).filledFrom theirs = mine.filledFrom theirs := by
  cases hnull : mine.infinityIsNull <;> simp [filledFrom, hnull, Option.or_assoc]

end AsOfSettings

namespace EnumerationSettings

private theorem filledWith_filledFrom (mine theirs : EnumerationSettings) :
    mine.FilledWith theirs (mine.filledFrom theirs) :=
  ⟨fills_or .., fills_or .., rfl⟩

private theorem filledFrom_filledFrom (mine theirs : EnumerationSettings) :
    (mine.filledFrom theirs).filledFrom theirs = mine.filledFrom theirs := by
  simp only [filledFrom, Option.or_assoc, Option.or_self]

end EnumerationSettings

/-! ### Attributes -/

namespace Attribute

variable {child parent : Attribute}

private theorem conflicts_of_agreesWith (h : child.AgreesWith parent) : child.conflicts parent = [] := by
  obtain ⟨hkind, htype, hkey, hdate, htarget⟩ := h
  rw [conflicts, if_neg (not_not.2 hkind), if_pos htype, List.nil_append]
  split
  · rename_i mine theirs hmine htheirs
    exact if_pos (by simpa [isPrimaryKey, hmine, htheirs] using hkey)
  · rename_i mine theirs hmine htheirs
    exact if_pos (by simpa [isProcessingDate, asOfSettings?, hmine, htheirs] using hdate)
  · rename_i mine theirs hmine htheirs
    exact if_pos (by simpa [Attribute.enumerationTarget, hmine, htheirs] using htarget)
  · rfl

private theorem mergedWith_of_agreesWith (h : child.AgreesWith parent) :
    child.mergedWith parent = (child.filledFrom parent, []) := by
  rw [mergedWith, conflicts_of_agreesWith h]

private theorem mergedWith_eq_nil_iff : (child.mergedWith parent).2 = [] ↔ child.AgreesWith parent :=
  ⟨fun h => agreesWith_of_conflicts_eq_nil (mergedWith_of_conflicts_eq_nil h).1, fun h => by
    rw [mergedWith_of_agreesWith h]⟩

private theorem mergedWith_of_ne_nil (h : (child.mergedWith parent).2 ≠ []) : (child.mergedWith parent).1 = child := by
  unfold mergedWith at h ⊢
  split
  · rename_i hconflicts
    rw [hconflicts] at h
    exact absurd rfl h
  · rfl

/-- Attributes of one kind are filled from each other. -/
private theorem filledWith_filledFrom (h : child.kind.name = parent.kind.name) :
    child.kind.FilledWith parent.kind (child.filledFrom parent).kind := by
  unfold filledFrom
  split
  · rename_i mine theirs hmine htheirs
    rw [hmine, htheirs]
    exact .column (mine.filledWith_filledFrom theirs)
  · rename_i mine theirs hmine htheirs
    rw [hmine, htheirs]
    exact .asOf (mine.filledWith_filledFrom theirs)
  · rename_i mine theirs hmine htheirs
    rw [hmine, htheirs]
    exact .enumeration (mine.filledWith_filledFrom theirs)
  · -- Two source attributes or two mapped ones are left, since other pairs of one kind have been filled.
    cases hmine : child.kind <;> cases htheirs : parent.kind <;> simp_all [AttributeKind.name] <;> constructor

private theorem filledFrom_filledFrom (child parent : Attribute) :
    (child.filledFrom parent).filledFrom parent = child.filledFrom parent := by
  cases hmine : child.kind <;> cases htheirs : parent.kind <;>
    simp [filledFrom, hmine, htheirs, ColumnSettings.filledFrom_filledFrom, AsOfSettings.filledFrom_filledFrom,
      EnumerationSettings.filledFrom_filledFrom]

/-- What a merge of `child` with `parent` makes of `child`, with the conflicts it finds. -/
structure Redeclares (child parent : Attribute) (merged : Attribute × List String) : Prop where
  conflict_iff : merged.2 = [] ↔ child.AgreesWith parent
  unchanged : merged.2 ≠ [] → merged.1 = child
  filled : merged.2 = [] → child.kind.FilledWith parent.kind merged.1.kind
  others : merged.1 = { child with kind := merged.1.kind }
  again : merged.1.mergedWith parent = merged

theorem redeclares_mergedWith (child parent : Attribute) : child.Redeclares parent (child.mergedWith parent) := by
  refine ⟨mergedWith_eq_nil_iff, mergedWith_of_ne_nil, fun hnone => ?_, mergedWith_eq .., ?_⟩
  · rw [(mergedWith_of_conflicts_eq_nil hnone).2]
    exact filledWith_filledFrom (mergedWith_eq_nil_iff.1 hnone).kind
  · by_cases hagrees : child.AgreesWith parent
    · have hfilled := (child.agreesWith_filledFrom parent).trans hagrees
      rw [mergedWith_of_agreesWith hagrees, mergedWith_of_agreesWith hfilled, filledFrom_filledFrom]
    · rw [mergedWith_of_ne_nil (mt mergedWith_eq_nil_iff.1 hagrees)]

end Attribute

end Metamodel
