import Metamodel.Attribute.Stream
import Metamodel.Proofs.Resolution.Provenance

/-!
# Streams along a hierarchy

An object is written to a stream attribute by attribute, and may be read back as its superclass.  What the statement
that writes an attribute depends on, inheritance hands down: a copy is written like its original
(`writeStatement_inheritedBy`), and an attribute that is declared again, with nothing but what the superclass must
agree on, is filled with the rest (`writeStatement_filledFrom`).  Whether infinity is null is no setting that is filled
in, so the two agree if it is declared alike (`writeStatement_of_resolve`), and may differ if not.
-/

namespace Metamodel

namespace Attribute

/-! ### What a statement depends on -/

/-- Infinity is null, for an attribute that is a period of validity. -/
def infinityIsNull (a : Attribute) : Bool :=
  a.asOfSettings?.any (·.infinityIsNull)

/-- The class that converts the values of an enumeration attribute. -/
def enumerationClass? (a : Attribute) : Option String :=
  match a.kind with
  | .enumeration s => some (enumerationClass s)
  | _ => none

variable {a b t : Attribute}

private theorem writeStatement_congr (hname : a.name = b.name) (hkind : a.kind.name = b.kind.name)
    (htype : a.dataType = b.dataType) (htimezone : a.timezone = b.timezone)
    (hinfinity : a.infinityExpression = b.infinityExpression) (hclass : a.enumerationClass? = b.enumerationClass?) :
    a.writeStatement = b.writeStatement := by
  have hfield : a.field = b.field := by rw [field, field, hname]
  have hprefix : a.timezonePrefix = b.timezonePrefix := by rw [timezonePrefix, timezonePrefix, htimezone]
  have hinfinity : a.infinity = b.infinity := by rw [infinity, infinity, hinfinity]
  unfold writeStatement
  rw [hfield, hprefix, hinfinity, htype]
  unfold enumerationClass? at hclass
  cases ha : a.kind <;> cases hb : b.kind <;> simp_all [AttributeKind.name]

/-! ### Copies and attributes that are declared again -/

/-- A copy is written like its original, if both owners have the same default timezone. -/
theorem writeStatement_inheritedBy {heir : EntityId} {defaults : MemberDefaults}
    (htimezone : defaults.timezone = a.defaults.timezone) :
    (a.inheritedBy heir defaults).writeStatement = a.writeStatement := by
  refine writeStatement_congr rfl rfl rfl ?_ rfl rfl
  simp only [timezone, inheritedBy, htimezone]

/-- The attribute leaves open what the statement that writes it depends on, but for the flag that says whether infinity
is null. -/
structure IsOpen (a : Attribute) (infinityIsNull : Bool) : Prop where
  column : ∀ s, a.kind = .column s → s.timezone = none
  asOf : ∀ s, a.kind = .asOf s → s.timezone = none ∧ s.infinityDate = none ∧ s.infinityIsNull = infinityIsNull

private theorem name_filledFrom (a t : Attribute) : (a.filledFrom t).name = a.name := by
  unfold filledFrom
  split <;> rfl

/-- The class comes with the enumeration and is not filled in. -/
private theorem enumerationClass?_filledFrom (a t : Attribute) :
    (a.filledFrom t).enumerationClass? = a.enumerationClass? := by
  unfold filledFrom
  split <;> simp [enumerationClass?, enumerationClass, EnumerationSettings.filledFrom, *]

private theorem timezone_filledFrom (hopen : a.IsOpen t.infinityIsNull) (hkind : a.kind.name = t.kind.name)
    (htimezone : a.defaults.timezone = t.defaults.timezone) : (a.filledFrom t).timezone = t.timezone := by
  cases ha : a.kind with
  | column mine =>
    have hnone := hopen.column mine ha
    cases ht : t.kind <;> simp_all [filledFrom, timezone, AttributeKind.name, ColumnSettings.filledFrom]
  | asOf mine =>
    obtain ⟨hnone, -⟩ := hopen.asOf mine ha
    cases ht : t.kind <;> simp_all [filledFrom, timezone, AttributeKind.name, AsOfSettings.filledFrom]
  | _ => cases ht : t.kind <;> simp_all [filledFrom, timezone, AttributeKind.name]

private theorem infinityExpression_filledFrom (hopen : a.IsOpen t.infinityIsNull) (hkind : a.kind.name = t.kind.name) :
    (a.filledFrom t).infinityExpression = t.infinityExpression := by
  cases ha : a.kind with
  | asOf mine =>
    obtain ⟨-, hdate, hflag⟩ := hopen.asOf mine ha
    cases ht : t.kind <;>
      simp_all [filledFrom, infinityExpression, asOfSettings?, infinityIsNull, AttributeKind.name,
        AsOfSettings.filledFrom]
  | _ => cases ht : t.kind <;> simp_all [filledFrom, infinityExpression, asOfSettings?, AttributeKind.name]

/-- Filled from an attribute that it agrees with, it is written like that. -/
theorem writeStatement_filledFrom (hopen : a.IsOpen t.infinityIsNull) (hname : a.name = t.name)
    (hagrees : a.AgreesWith t) (htimezone : a.defaults.timezone = t.defaults.timezone)
    (hclass : a.enumerationClass? = t.enumerationClass?) : (a.filledFrom t).writeStatement = t.writeStatement := by
  have hfilled := (a.agreesWith_filledFrom t).trans hagrees
  exact writeStatement_congr ((a.name_filledFrom t).trans hname) hfilled.kind hfilled.dataType
    (timezone_filledFrom hopen hagrees.kind htimezone) (infinityExpression_filledFrom hopen hagrees.kind)
    ((a.enumerationClass?_filledFrom t).trans hclass)

end Attribute

/-! ### Bare declarations -/

/-- What the object declares under the name is what a superclass must agree on, and nothing else; of a period of
validity, infinity is null as told. -/
structure ObjectDeclaration.Restates (d : ObjectDeclaration) (name : String) (infinityIsNull : Bool) : Prop where
  attributes : ∀ a ∈ d.attributes, a.name = name → a.column = { primaryKey := a.column.primaryKey }
  asOfAttributes : ∀ a ∈ d.asOfAttributes, a.name = name →
    a.settings = { isProcessingDate := a.settings.isProcessingDate, infinityIsNull := infinityIsNull }
  enumerationAttributes : ∀ a ∈ d.enumerationAttributes, a.name = name →
    a = { name := a.name, enumeration := a.enumeration }

namespace Graph

variable {d : Declarations} {g₀ g : Graph} {o p : EntityId}

private theorem isOpen_of_restates {a : Attribute} (ha : a.IsTraced d g) {infinityIsNull : Bool}
    (hbare : ∀ entry ∈ d.objects.entries, entry.2.name = (g.entity a.owner).name →
      entry.2.Restates a.name infinityIsNull) : a.IsOpen infinityIsNull where
  column s hs := by
    obtain ⟨entry, hentry, hname, y, hy, hsame, rfl⟩ := ha.column s hs
    rw [(hbare entry hentry hname).attributes y hy hsame]
  asOf s hs := by
    obtain ⟨entry, hentry, hname, y, hy, hsame, rfl⟩ := ha.asOf s hs
    rw [(hbare entry hentry hname).asOfAttributes y hy hsame]
    exact ⟨rfl, rfl, rfl⟩

/-- Attributes that agree are bound to one enumeration, and so converted by one class. -/
private theorem enumerationClass?_eq {a t : Attribute} (ha : IsBackedBy g o a) (ht : IsBackedBy g p t)
    (hagrees : a.AgreesWith t) (hproblems : t.problems = []) : a.enumerationClass? = t.enumerationClass? := by
  have hkind := hagrees.kind
  unfold Attribute.enumerationClass?
  cases hmine : a.kind with
  | enumeration mine =>
    cases htheirs : t.kind with
    | enumeration theirs =>
      have htarget : mine.target = theirs.target := by
        simpa [Attribute.enumerationTarget, hmine, htheirs] using hagrees.enumerationTarget
      obtain ⟨e, he⟩ := Option.isSome_iff_exists.1 (isSome_target_of_problems htheirs hproblems)
      have hfirst := (ha.enumeration mine hmine).className
      have hsecond := (ht.enumeration theirs htheirs).className
      rw [htarget, he] at hfirst
      rw [he] at hsecond
      simp [Attribute.enumerationClass, hfirst, hsecond]
    | _ => simp [hmine, htheirs, AttributeKind.name] at hkind
  | _ => cases htheirs : t.kind <;> simp [hmine, htheirs, AttributeKind.name] at hkind ⊢

namespace Completes

variable (c : Completes g₀ g)

include c

/-- After inheritance, an attribute of the superclass is written alike in an object that does no more than restate it. -/
private theorem writeStatement_below {config : Config} (hdeclares : Declares config d g₀)
    (ho : o ∈ g₀.idsOfKind .object)
    (hup : g₀.superOf o = some p) {m t : MarkedAttribute} (hm : m ∈ (g₀.settled.membersOf o).attributes)
    (ht : t ∈ (g₀.settled.membersOf p).attributes) (hname : m.value.name = t.value.name)
    (hbare : ∀ entry ∈ d.objects.entries, entry.2.name = (g₀.entity o).name →
      entry.2.Restates t.value.name t.value.infinityIsNull) : m.value.writeStatement = t.value.writeStatement := by
  have hp := mem_objects_of_superOf hup
  have htheirs := c.isBackedBy hdeclares.traced hp t ht
  have htimezone : (g₀.entity o).defaults.timezone = t.value.defaults.timezone := by
    rw [htheirs.defaults, hdeclares.timezone o ho, hdeclares.timezone p hp]
  rcases c.attribute_below ho hup hm ht hname with hcopy | ⟨a, ha, hagrees, hfilled⟩
  · rw [hcopy]
    exact Attribute.writeStatement_inheritedBy htimezone
  · obtain ⟨hatraced, howner⟩ := c.isTraced_of_mem hdeclares.traced ho ha
    have hmine := c.isBackedBy_of_mem hdeclares.traced ho ha
    rw [hfilled] at hname ⊢
    rw [Attribute.name_filledFrom] at hname
    refine Attribute.writeStatement_filledFrom (isOpen_of_restates hatraced ?_) hname hagrees ?_
      (enumerationClass?_eq hmine htheirs hagrees (c.problems_eq_nil hp t ht))
    · rw [howner, hname]
      exact hbare
    · rw [hmine.defaults, htimezone]

end Completes

/-! ### A sample -/

/-- A lease is a contract.  It has one attribute that it inherits, and restates the others; whether it restates that
the end of a contract may be null is left to the argument. -/
def contracts (restatesNull : Bool) : Declarations where
  enumerations := ⟨[("law.Stage",
    { name := ⟨"law", "Stage"⟩, persistedType := .int, members := [⟨"DRAFT", "1"⟩, ⟨"FINAL", "2"⟩] })], by decide⟩
  objects := ⟨[
    ("law.Contract",
      { name := ⟨"law", "Contract"⟩
        attributes := [{ name := "id", dataType := .int, column := { primaryKey := true } },
          { name := "signed", dataType := .timestamp, column := { timezone := some .toUtc } }]
        asOfAttributes := [{
          name := "valid"
          settings := { fromColumn := some "FROM_Z", toColumn := some "THRU_Z", infinityIsNull := true } }]
        enumerationAttributes := [{ name := "stage", enumeration := "Stage", columnName := some "STAGE" }] }),
    ("law.Lease",
      { name := ⟨"law", "Lease"⟩
        superClass := some "Contract"
        attributes := [{ name := "signed", dataType := .timestamp }]
        asOfAttributes := [{ name := "valid", settings := { infinityIsNull := restatesNull } }]
        enumerationAttributes := [{ name := "stage", enumeration := "Stage" }] })], by decide +revert⟩

/-- The graph that the sample resolves to. -/
def contractGraph (restatesNull : Bool) : Graph :=
  ((contracts restatesNull).resolve .default).1.toOption.getD empty

private theorem resolve_contracts (restatesNull : Bool) :
    ((contracts restatesNull).resolve .default).1 = .ok (contractGraph restatesNull) := by
  cases restatesNull
  · exact eq_ok_of_isOk (by decide +kernel) empty
  · exact eq_ok_of_isOk (by decide +kernel) empty

/-- The lease restates the attribute that is a period of validity, in its own way. -/
private theorem restates_contracts (restatesNull : Bool) : ∀ entry ∈ (contracts restatesNull).objects.entries,
    entry.2.name = ((contractGraph restatesNull).entity 2).name → entry.2.Restates "valid" restatesNull := by
  have hcontract : (⟨"law", "Contract"⟩ : TypeName) ≠ ((contractGraph restatesNull).entity 2).name := by
    cases restatesNull <;> decide +kernel
  intro entry hentry hname
  simp only [contracts, List.mem_cons, List.not_mem_nil, or_false] at hentry
  rcases hentry with rfl | rfl
  · exact absurd hname hcontract
  · constructor <;> simp

/-! ### Resolution -/

/-- In a resolved graph, an object has an attribute for each attribute of its superclass, and it is written to a stream
like that: whether it is inherited, or declared again with nothing but what the two must agree on, and with the same
flag for an infinity that is null. -/
theorem writeStatement_of_resolve {config : Config} (hresolve : (d.resolve config).1 = .ok g)
    (ho : o ∈ g.idsOfKind .object) (hsuper : (g.entity o).superEntity = some p) {t : Attribute}
    (ht : t ∈ g.attributesOf p) (hbare : ∀ entry ∈ d.objects.entries, entry.2.name = (g.entity o).name →
      entry.2.Restates t.name t.infinityIsNull) :
    (∃ a ∈ g.attributesOf o, a.name = t.name) ∧
      ∀ a ∈ g.attributesOf o, a.name = t.name → a.writeStatement = t.writeStatement := by
  obtain ⟨g₀, c, hdeclares⟩ := exists_traced_of_resolve hresolve
  rw [c.idsOfKind_eq] at ho
  rw [c.superEntity_eq ho] at hsuper
  obtain ⟨i, hi, rfl⟩ := List.mem_map.1 ht
  rw [c.attributeList_eq] at hi
  have hmarked : g₀.settled.marked p i ∈ (g₀.settled.membersOf p).attributes := List.mem_map_of_mem hi
  rw [c.name_attributeAt] at hbare ⊢
  constructor
  · obtain ⟨m, hm, hname, -⟩ := c.exists_attribute_below ho hsuper hmarked
    obtain ⟨j, hj, rfl⟩ := List.mem_map.1 hm
    rw [← c.attributeList_eq] at hj
    exact ⟨g.attributeAt j, List.mem_map_of_mem hj, (c.name_attributeAt j).trans hname⟩
  · intro a ha hname
    obtain ⟨j, hj, rfl⟩ := List.mem_map.1 ha
    rw [c.attributeList_eq] at hj
    rw [c.name_attributeAt] at hname
    rw [c.read_attributeAt Attribute.writeStatement fun _ => rfl,
      c.read_attributeAt Attribute.writeStatement fun _ => rfl]
    refine c.writeStatement_below hdeclares ho hsuper (List.mem_map_of_mem hj) hmarked hname fun entry hentry hdecl => ?_
    have hrestates := hbare entry hentry (hdecl.trans (name_of_outline_eq c.outline_eq o).symm)
    rwa [c.read_attributeAt Attribute.infinityIsNull fun _ => rfl] at hrestates

/-- The period of validity in the sample, restated with its flag. -/
theorem writeStatement_of_contracts :
    ((contracts true).resolve .default).1 = .ok (contractGraph true) ∧
      2 ∈ (contractGraph true).idsOfKind .object ∧ ((contractGraph true).entity 2).superEntity = some 1 ∧
      (contractGraph true).attributeAt 2 ∈ (contractGraph true).attributesOf 1 ∧
      (∃ a ∈ (contractGraph true).attributesOf 2, a.name = ((contractGraph true).attributeAt 2).name) ∧
      ∀ a ∈ (contractGraph true).attributesOf 2, a.name = ((contractGraph true).attributeAt 2).name →
        a.writeStatement = ((contractGraph true).attributeAt 2).writeStatement := by
  obtain ⟨hobject, hsuper, hlisted, hname, hnull⟩ : 2 ∈ (contractGraph true).idsOfKind .object ∧
      ((contractGraph true).entity 2).superEntity = some 1 ∧ 2 ∈ ((contractGraph true).entity 1).attributes ∧
      ((contractGraph true).attributeAt 2).name = "valid" ∧
      ((contractGraph true).attributeAt 2).infinityIsNull = true := by
    decide +kernel
  refine ⟨resolve_contracts true, hobject, hsuper, List.mem_map_of_mem hlisted,
    writeStatement_of_resolve (resolve_contracts true) hobject hsuper (List.mem_map_of_mem hlisted) ?_⟩
  rw [hname, hnull]
  exact restates_contracts true

/-- With the flag left as it is when unset, the lease of the sample writes what cannot be read back as a contract. -/
theorem writeStatement_ne_of_unset_flag :
    ¬ ∀ (d : Declarations) (config : Config) (g : Graph) (o p : EntityId) (t : Attribute),
      (d.resolve config).1 = .ok g → o ∈ g.idsOfKind .object → (g.entity o).superEntity = some p →
      t ∈ g.attributesOf p → (∀ entry ∈ d.objects.entries, entry.2.name = (g.entity o).name →
        entry.2.Restates t.name false) →
      ∀ a ∈ g.attributesOf o, a.name = t.name → a.writeStatement = t.writeStatement := by
  intro hclaim
  obtain ⟨hobject, hsuper, habove, hbelow, hname, hname', hdiffer⟩ : 2 ∈ (contractGraph false).idsOfKind .object ∧
      ((contractGraph false).entity 2).superEntity = some 1 ∧ 2 ∈ ((contractGraph false).entity 1).attributes ∧
      5 ∈ ((contractGraph false).entity 2).attributes ∧ ((contractGraph false).attributeAt 2).name = "valid" ∧
      ((contractGraph false).attributeAt 5).name = "valid" ∧
      ((contractGraph false).attributeAt 5).writeStatement ≠ ((contractGraph false).attributeAt 2).writeStatement := by
    decide +kernel
  have hequal := hclaim (contracts false) .default (contractGraph false) 2 1 ((contractGraph false).attributeAt 2)
    (resolve_contracts false) hobject hsuper (List.mem_map_of_mem habove)
    (by rw [hname]; exact restates_contracts false) ((contractGraph false).attributeAt 5)
    (List.mem_map_of_mem hbelow) (hname'.trans hname.symm)
  exact hdiffer hequal

end Graph

end Metamodel
