import Mathlib.Data.List.Nodup
import Metamodel.Proofs.Hierarchy.Agreement
import Metamodel.Proofs.Join.Reading
import Metamodel.Proofs.Resolution.Success

/-!
# Members of a resolved graph

In a graph that is resolved without an error, what an object has inherited are exact copies of what its
superclass has. So what holds of all members that are not inherited, and of a copy with its original, holds of
all members (`attribute_induction`, `relationship_induction`).
-/

namespace Metamodel.Graph

private theorem nodup_of_repeated_eq_nil {seen names : List String} (h : repeated seen names = []) :
    (∀ n ∈ names, n ∉ seen) ∧ names.Nodup := by
  induction names generalizing seen with
  | nil => exact ⟨fun _ hn => absurd hn List.not_mem_nil, List.nodup_nil⟩
  | cons n names ih =>
    rw [repeated] at h
    split at h
    · cases h
    · rename_i hfresh
      obtain ⟨hrest, hnodup⟩ := ih h
      have hfresh : n ∉ seen := by simpa using hfresh
      refine ⟨fun m hm => ?_, List.nodup_cons.2 ⟨fun hn => hrest n hn List.mem_cons_self, hnodup⟩⟩
      rcases List.mem_cons.1 hm with rfl | hm
      · exact hfresh
      · exact fun hseen => hrest m hm (List.mem_cons_of_mem _ hseen)

theorem attributesOf_eq_map (g : Graph) (o : EntityId) :
    g.attributesOf o = (g.membersOf o).attributes.map (·.value) := by
  simp only [attributesOf, membersOf, List.map_map]
  rfl

private theorem isSome_attributeNamed?_iff (g : Graph) (o : EntityId) (name : String) :
    (g.attributeNamed? o name).isSome ↔ ∃ m ∈ (g.membersOf o).attributes, m.value.name = name := by
  simp [attributeNamed?, membersOf, marked]

namespace Pristine

variable {g : Graph} (hg : g.Pristine)

include hg

private theorem asWrapped : g.AsWrapped where
  sound := hg.sound
  unresolved id hid := hg.unresolved id (kind_of_mem_idsOfKind g hid)
  uninherited id _ a ha := by
    obtain ⟨i, -, rfl⟩ := List.mem_map.1 ha
    rw [Attribute.isInherited, hg.attributes]
    rfl

/-- Inheritance settles every object of a pristine graph. -/
theorem settled_spec :
    Settling g g.settled ∧ (∀ o ∈ g.idsOfKind .object, g.settled.IsSettled o) ∧
      (g.resolveInheritance.2 = [] → ∀ o ∈ g.idsOfKind .object, g.settled.stateOf o = .resolved) :=
  inheritInOrder_spec hg.asWrapped (.refl (g.idsOfKind .object))

end Pristine

namespace Completes

variable {g₀ g : Graph} {o p : EntityId} (c : Completes g₀ g)

include c

/-! ### After inheritance -/

private theorem settled_spec :
    Settling g₀ g₀.settled ∧ ∀ o ∈ g₀.idsOfKind .object, g₀.settled.stateOf o = .resolved := by
  obtain ⟨hs, -, hresolved⟩ := c.pristine.settled_spec
  exact ⟨hs, hresolved c.inherited⟩

theorem settling : Settling g₀ g₀.settled :=
  c.settled_spec.1

theorem resolved (ho : o ∈ g₀.idsOfKind .object) : g₀.settled.stateOf o = .resolved :=
  c.settled_spec.2 o ho

theorem idsOfKind_settled (kind : EntityKind) : g₀.settled.idsOfKind kind = g₀.idsOfKind kind :=
  idsOfKind_of_outline_eq c.settling.outline kind

theorem not_failed (ho : o ∈ g₀.idsOfKind .object) : g₀.settled.isFailed o = false := by
  show (g₀.settled.stateOf o == .failed) = false
  rw [c.resolved ho]
  rfl

theorem exists_chain (ho : o ∈ g₀.idsOfKind .object) : ∃ chain, SuperChain g₀ o chain := by
  have houtcome := (c.settling.object o ho).outcome (.inl (c.resolved ho))
  rw [c.resolved ho] at houtcome
  obtain ⟨chain, hchain, -⟩ := houtcome.exists_chain
  exact ⟨chain, hchain⟩

theorem membersOf_of_top (ho : o ∈ g₀.idsOfKind .object) (htop : (g₀.entity o).superName = none) :
    g₀.settled.membersOf o = g₀.membersOf o :=
  (((c.settling.object o ho).outcome (.inl (c.resolved ho))).unique (.below (.top htop))).2

private theorem membersOf_of_super (ho : o ∈ g₀.idsOfKind .object) (hup : g₀.superOf o = some p) :
    Members.inherit o (g₀.entity o).defaults (g₀.membersOf o) (g₀.settled.membersOf p) =
      (g₀.settled.membersOf o, []) :=
  (inherit_membersOf c.settling ho (c.resolved ho) hup (.inl (c.resolved (mem_objects_of_superOf hup)))).2

/-- The superclass that is recorded is the one that is named. -/
theorem superEntity_settled (ho : o ∈ g₀.idsOfKind .object) : (g₀.settled.entity o).superEntity = g₀.superOf o := by
  rw [(c.settling.object o ho).linked (by rw [c.resolved ho]; decide), c.pristine.superEntity, Option.or_none]

/-! ### After relationships were read -/

theorem reading : Reading g₀.settled g₀.joined :=
  reading_resolveRelationships c.settling.sound

theorem read (ho : o ∈ g₀.idsOfKind .object) :
    ∀ r ∈ (g₀.settled.entity o).relationships, IsRead g₀.settled g₀.joined o r ∧ IsSoundlyRead g₀.settled o r := by
  refine read_of_clean c.settling.sound (fun o ho => ?_) c.relationships o (by rwa [c.idsOfKind_settled])
  rw [c.idsOfKind_settled] at ho
  exact c.not_failed ho

/-! ### In the end -/

theorem entity_eq (o : EntityId) : g.entity o = g₀.joined.entity o :=
  entity_of_disowned_eq c.disowned o

theorem relationshipAt_eq (r : RelationshipId) : g.relationshipAt r = g₀.joined.relationshipAt r :=
  relationshipAt_of_disowned_eq c.disowned r

theorem attributeList_eq (o : EntityId) : (g.entity o).attributes = (g₀.settled.entity o).attributes := by
  rw [c.entity_eq, c.reading.attributeList]

/-- An attribute is what it was after inheritance, but for its ownership. -/
theorem read_attributeAt {α : Type} (read : Attribute → α) (hread : ∀ a, read a.disowned = read a) (a : AttributeId) :
    read (g.attributeAt a) = read (g₀.settled.attributeAt a) := by
  rw [read_of_disowned_eq c.disowned read hread, c.reading.attributeAt]

theorem name_attributeAt (a : AttributeId) : (g.attributeAt a).name = (g₀.settled.attributeAt a).name :=
  c.read_attributeAt Attribute.name (fun _ => rfl) a

theorem agreesWith_attributeAt (a : AttributeId) : (g.attributeAt a).AgreesWith (g₀.settled.attributeAt a) where
  kind := c.read_attributeAt (·.kind.name) (fun _ => rfl) a
  dataType := c.read_attributeAt (·.dataType) (fun _ => rfl) a
  isPrimaryKey := c.read_attributeAt (·.isPrimaryKey) (fun _ => rfl) a
  isProcessingDate := c.read_attributeAt (·.isProcessingDate) (fun _ => rfl) a
  enumerationTarget := c.read_attributeAt (·.enumerationTarget) (fun _ => rfl) a

theorem outline_eq : g.outline = g₀.outline :=
  (outline_of_disowned_eq c.disowned).trans (c.reading.outline.trans c.settling.outline)

theorem idsOfKind_eq (kind : EntityKind) : g.idsOfKind kind = g₀.idsOfKind kind :=
  idsOfKind_of_outline_eq c.outline_eq kind

theorem superEntity_eq (ho : o ∈ g₀.idsOfKind .object) : (g.entity o).superEntity = g₀.superOf o := by
  rw [c.entity_eq, c.reading.superEntity, c.superEntity_settled ho]

theorem attributeNamed?_eq (o : EntityId) (name : String) :
    g.attributeNamed? o name = g₀.settled.attributeNamed? o name := by
  rw [attributeNamed?_of_disowned_eq c.disowned, c.reading.attributeNamed?]

theorem isFailed_eq_false (ho : o ∈ g₀.idsOfKind .object) : g.isFailed o = false := by
  rw [isFailed, c.entity_eq, ← isFailed, c.reading.isFailed, c.not_failed ho]

/-- The members of an object have distinct names. -/
theorem memberNames_nodup (ho : o ∈ g₀.idsOfKind .object) : (g.memberNames o).Nodup := by
  obtain ⟨key, hclean⟩ := c.members o ho
  simp only [memberIssues, c.isFailed_eq_false ho, Bool.false_eq_true, if_false, clean_append] at hclean
  exact (nodup_of_repeated_eq_nil (eq_nil_of_clean_map (fun _ => rfl) hclean.1.1)).2

/-- So have they after inheritance. -/
theorem names_nodup (ho : o ∈ g₀.idsOfKind .object) :
    ((g₀.settled.membersOf o).attributes.map (·.value.name)).Nodup ∧
      ((g₀.settled.membersOf o).relationships.map (·.name)).Nodup := by
  have hnodup := c.memberNames_nodup ho
  obtain ⟨hattributes, hrelationships, -⟩ := List.nodup_append'.1 hnodup
  constructor
  · rw [names_membersOf]
    have hsame : (g₀.settled.attributesOf o).map (·.name) = (g.attributesOf o).map (·.name) := by
      rw [attributesOf, attributesOf, c.attributeList_eq, List.map_map, List.map_map]
      exact List.map_congr_left fun a _ => (c.name_attributeAt a).symm
    rw [hsame]
    exact hattributes
  · obtain ⟨added, hlist, -⟩ := c.reading.lists o
    rw [relationshipsOf, c.entity_eq, hlist, List.map_append, List.map_append] at hrelationships
    -- Counterparts come after the relationships of inheritance, so the names of these are a part of the names checked.
    have hsame : (g₀.settled.membersOf o).relationships.map (·.name) =
        ((g₀.settled.entity o).relationships.map g.relationshipAt).map (·.name) := by
      rw [membersOf, relationshipsOf, List.map_map, List.map_map]
      refine List.map_congr_left fun r hr => ?_
      obtain ⟨a, ha⟩ := c.reading.old r (c.settling.sound.relationship_owned o r hr).1
      show (g₀.settled.relationshipAt r).name = (g.relationshipAt r).name
      rw [c.relationshipAt_eq, ha]
      rfl
    rw [hsame]
    exact (List.nodup_append'.1 hrelationships).1

/-! ### Induction along superclasses -/

/-- An attribute of an object below a superclass is one that the object declares, filled from there, or a copy. -/
theorem attribute_own_or_copy (ho : o ∈ g₀.idsOfKind .object) (hup : g₀.superOf o = some p) {m : MarkedAttribute}
    (hm : m ∈ (g₀.settled.membersOf o).attributes) :
    (∃ x ∈ (g₀.membersOf o).attributes, (attributeBequest o (g₀.entity o).defaults (g₀.entity o).source.isSome).Filled
      (g₀.settled.membersOf p).attributes x m) ∨
    ∃ t ∈ (g₀.settled.membersOf p).attributes, m = ⟨t.value.inheritedBy o (g₀.entity o).defaults, t.isSource⟩ := by
  obtain ⟨mine, added, hall, hmine, -, hexact⟩ := attributes_inherit c.pristine.sound o (g₀.settled.membersOf p)
  have hcopies := hexact (c.names_nodup (mem_objects_of_superOf hup)).1
  rw [c.membersOf_of_super ho hup] at hall
  rw [hall] at hm
  rcases List.mem_append.1 hm with hmem | hmem
  · exact .inl (exists_of_mem_right hmine hmem)
  · rw [hcopies] at hmem
    obtain ⟨t, ht, rfl⟩ := List.mem_map.1 hmem
    exact .inr ⟨t, (Bequest.mem_picked _ ht).1, rfl⟩

/-- What holds of whatever merges make of the attributes that an object declares, and of a copy with its original, holds
of all attributes. -/
theorem attribute_induction_of_filled {q : EntityId → MarkedAttribute → Prop}
    (own : ∀ o ∈ g₀.idsOfKind .object, ∀ m ∈ (g₀.settled.membersOf o).attributes, ∀ x ∈ (g₀.membersOf o).attributes,
      ∀ theirs, (attributeBequest o (g₀.entity o).defaults (g₀.entity o).source.isSome).Filled theirs x m → q o m)
    (copy : ∀ o p t, o ∈ g₀.idsOfKind .object → g₀.superOf o = some p → q p t →
      q o ⟨t.value.inheritedBy o (g₀.entity o).defaults, t.isSource⟩)
    (ho : o ∈ g₀.idsOfKind .object) : ∀ m ∈ (g₀.settled.membersOf o).attributes, q o m := by
  obtain ⟨chain, hchain⟩ := c.exists_chain ho
  induction hchain with
  | top htop =>
    intro m hm
    have hdeclared := hm
    rw [c.membersOf_of_top ho htop] at hdeclared
    exact own _ ho m hm m hdeclared [] (.refl m)
  | @up o p chain hup rest ih =>
    intro m hm
    rcases c.attribute_own_or_copy ho hup hm with ⟨x, hx, hfilled⟩ | ⟨t, ht, rfl⟩
    · exact own _ ho m hm x hx _ hfilled
    · exact copy o p t ho hup (ih (mem_objects_of_superOf hup) t ht)

/-- What holds of the attributes that an object declares, and of a copy with its original, holds of all attributes. -/
theorem attribute_induction {q : EntityId → MarkedAttribute → Prop}
    (own : ∀ o ∈ g₀.idsOfKind .object, ∀ m ∈ (g₀.settled.membersOf o).attributes, m.value.isInherited = false → q o m)
    (copy : ∀ o p t, g₀.superOf o = some p → q p t →
      q o ⟨t.value.inheritedBy o (g₀.entity o).defaults, t.isSource⟩)
    (ho : o ∈ g₀.idsOfKind .object) : ∀ m ∈ (g₀.settled.membersOf o).attributes, q o m := by
  refine c.attribute_induction_of_filled (fun o ho m hm x hx theirs hfilled => own o ho m hm ?_)
    (fun o p t _ => copy o p t) ho
  obtain ⟨a, -, rfl⟩ := List.mem_map.1 hx
  have hdeclared : (g₀.marked o a).value.originalOwner = none := c.pristine.attributes a
  rw [Attribute.isInherited, (attributeBequest_filled hfilled).2.1, hdeclared]
  rfl

/-- What holds of the relationships that an object declares, and of a copy with its original, holds of all relationships
before counterparts are added. -/
theorem relationship_induction {q : EntityId → Relationship → Prop}
    (own : ∀ o ∈ g₀.idsOfKind .object, ∀ r ∈ (g₀.settled.membersOf o).relationships,
      r.isInherited = false → r.isReverse = false → r.related.isSome → q o r)
    (copy : ∀ o p t, o ∈ g₀.idsOfKind .object → g₀.superOf o = some p → q p t → q o (t.inheritedBy o))
    (ho : o ∈ g₀.idsOfKind .object) : ∀ r ∈ (g₀.settled.membersOf o).relationships, q o r := by
  have declared : ∀ {o}, o ∈ g₀.idsOfKind .object → ∀ r ∈ (g₀.membersOf o).relationships,
      r.originalOwner = none ∧ r.reversal = none ∧ r.related.isSome := by
    intro o ho r hr
    obtain ⟨i, hi, rfl⟩ := List.mem_map.1 hr
    exact ⟨(c.pristine.relationships i).1, (c.pristine.relationships i).2, c.related o ho i hi⟩
  have keep : ∀ {o}, o ∈ g₀.idsOfKind .object → ∀ r ∈ (g₀.settled.membersOf o).relationships,
      r.originalOwner = none ∧ r.reversal = none ∧ r.related.isSome → q o r := by
    intro o ho r hr hown
    refine own o ho r hr ?_ ?_ hown.2.2
    · rw [Relationship.isInherited, hown.1]
      rfl
    · rw [Relationship.isReverse, hown.2.1]
      rfl
  obtain ⟨chain, hchain⟩ := c.exists_chain ho
  induction hchain with
  | top htop =>
    intro r hr
    refine keep ho r hr ?_
    rw [c.membersOf_of_top ho htop] at hr
    exact declared ho r hr
  | @up o p chain hup rest ih =>
    intro r hr
    have hp := mem_objects_of_superOf hup
    obtain ⟨mine, added, hall, hmine, -, hexact⟩ := (relationshipBequest o).handAll_shape
      (g₀.membersOf o).relationships (g₀.settled.membersOf p).relationships
    have hcopies := hexact (c.names_nodup hp).2
    have hinherit : (g₀.settled.membersOf o).relationships = ((relationshipBequest o).handAll
        (g₀.membersOf o).relationships (g₀.settled.membersOf p).relationships).1 :=
      (congrArg (·.1.relationships) (c.membersOf_of_super ho hup)).symm
    have hr' := hr
    rw [hinherit, hall] at hr'
    rcases List.mem_append.1 hr' with hmem | hmem
    · obtain ⟨own', hown', hfilled⟩ := exists_of_mem_right hmine hmem
      -- A merge fills in nothing that tells a declared relationship from a copy or a counterpart.
      have hread := hfilled.read_eq (fun r => (r.originalOwner, r.reversal, r.related)) fun _ _ => rfl
      simp only [Prod.mk.injEq] at hread
      refine keep ho r hr ?_
      rw [hread.1, hread.2.1, hread.2.2]
      exact declared ho own' hown'
    · rw [hcopies] at hmem
      obtain ⟨t, ht, rfl⟩ := List.mem_map.1 hmem
      exact copy o p t ho hup (ih hp t (Bequest.mem_picked _ ht).1)

/-- Every relationship after inheritance is one that an object declares, or a copy of it.  The object is the owner or
one above it. -/
theorem exists_declared (ho : o ∈ g₀.idsOfKind .object) :
    ∀ x ∈ (g₀.settled.membersOf o).relationships, ∃ f < g₀.settled.relationships.size,
      (g₀.settled.relationshipAt f).isInherited = false ∧
        x = { g₀.settled.relationshipAt f with owner := x.owner, originalOwner := x.originalOwner } ∧
        (g₀.settled.relationshipAt f).owner = x.originalOwner.getD x.owner ∧
        Relation.ReflTransGen (fun o p => (g.entity o).superEntity = some p) o (x.originalOwner.getD x.owner) := by
  refine c.relationship_induction (q := fun o x => ∃ f < g₀.settled.relationships.size,
    (g₀.settled.relationshipAt f).isInherited = false ∧
      x = { g₀.settled.relationshipAt f with owner := x.owner, originalOwner := x.originalOwner } ∧
      (g₀.settled.relationshipAt f).owner = x.originalOwner.getD x.owner ∧
      Relation.ReflTransGen (fun o p => (g.entity o).superEntity = some p) o (x.originalOwner.getD x.owner))
    (fun o _ x hx hown _ _ => ?_) (fun o p t ho hup ht => ?_) ho
  · obtain ⟨f, hf, rfl⟩ := List.mem_map.1 hx
    obtain ⟨hlt, howner⟩ := c.settling.sound.relationship_owned o f hf
    have hnone : (g₀.settled.relationshipAt f).originalOwner = none := by
      simpa [Relationship.isInherited] using hown
    refine ⟨f, hlt, hown, rfl, by rw [hnone]; rfl, ?_⟩
    rw [hnone, Option.getD_none, howner]
  · obtain ⟨f, hlt, hown, heq, howner, habove⟩ := ht
    have hstep : (g.entity o).superEntity = some p := (c.superEntity_eq ho).trans hup
    exact ⟨f, hlt, hown, congrArg (·.inheritedBy o) heq, howner, habove.head hstep⟩

/-! ### Members above and below -/

/-- An object has an attribute for each attribute of its superclass. -/
theorem exists_attribute_below (ho : o ∈ g₀.idsOfKind .object) (hup : g₀.superOf o = some p) {t : MarkedAttribute}
    (ht : t ∈ (g₀.settled.membersOf p).attributes) :
    ∃ m ∈ (g₀.settled.membersOf o).attributes,
      m.value.name = t.value.name ∧ m.value.AgreesWith t.value ∧ (t.isSource = true → m.isSource = true) := by
  have hinherit := c.membersOf_of_super ho hup
  have h := Members.exists_attribute_of_inherit (congrArg Prod.snd hinherit) ht
  rwa [hinherit] at h

/-- An attribute of a name from above is a copy, or declared again and filled with what it leaves open. -/
theorem attribute_below (ho : o ∈ g₀.idsOfKind .object) (hup : g₀.superOf o = some p) {m t : MarkedAttribute}
    (hm : m ∈ (g₀.settled.membersOf o).attributes) (ht : t ∈ (g₀.settled.membersOf p).attributes)
    (hname : m.value.name = t.value.name) :
    m.value = t.value.inheritedBy o (g₀.entity o).defaults ∨
      ∃ a ∈ g₀.attributesOf o, a.AgreesWith t.value ∧ m.value = a.filledFrom t.value := by
  have hinherit := c.membersOf_of_super ho hup
  have hattributes := congrArg (·.1.attributes) hinherit
  have hconflicts := congrArg (·.2) hinherit
  have hpass := Members.passage_ne_stays hconflicts ht
  simp only [Members.inherit] at hattributes hconflicts
  have hclean := (List.append_eq_nil_iff.1 (List.append_eq_nil_iff.1 hconflicts).1).2
  have hnames := (c.names_nodup ho).1
  rw [← hattributes] at hm hnames
  have hp := mem_objects_of_superOf hup
  rcases Bequest.eq_copy_or_merge _ (c.names_nodup hp).1 hnames hclean ht hpass hm hname with rfl | hmerged
  · exact .inl rfl
  · obtain ⟨x, hx, hnone, rfl⟩ := hmerged
    obtain ⟨i, hi, rfl⟩ := List.mem_map.1 hx
    obtain ⟨hagrees, hfilled⟩ := Attribute.mergedWith_of_conflicts_eq_nil hnone
    exact .inr ⟨g₀.attributeAt i, List.mem_map_of_mem hi, Attribute.agreesWith_of_conflicts_eq_nil hagrees, hfilled⟩

theorem exists_relationship_below (ho : o ∈ g₀.idsOfKind .object) (hup : g₀.superOf o = some p) {t : Relationship}
    (ht : t ∈ (g₀.settled.membersOf p).relationships) (hforward : t.isReverse = false) :
    ∃ r ∈ (g₀.settled.membersOf o).relationships, r.name = t.name ∧ r.AgreesWith t := by
  have hinherit := c.membersOf_of_super ho hup
  have h := Members.exists_relationship_of_inherit (congrArg Prod.snd hinherit) ht hforward
  rwa [hinherit] at h

/-! ### What the checks leave out -/

/-- Inherited attributes are not checked, and have no problems either. -/
theorem problems_eq_nil (ho : o ∈ g₀.idsOfKind .object) :
    ∀ m ∈ (g₀.settled.membersOf o).attributes, m.value.problems = [] := by
  refine c.attribute_induction (q := fun _ m => m.value.problems = []) (fun o ho m hm hown => ?_)
    (fun _ _ t _ ht => ht) ho
  obtain ⟨key, hclean⟩ := c.attributes o ho
  simp only [attributeIssues, c.not_failed ho, Bool.false_eq_true, if_false] at hclean
  have hmem : m.value ∈ (g₀.settled.attributesOf o).filter (! ·.isInherited) := by
    rw [attributesOf_eq_map]
    exact List.mem_filter.2 ⟨List.mem_map_of_mem hm, by rw [hown]; rfl⟩
  exact eq_nil_of_clean_map (fun _ => rfl) (clean_flatMap.1 hclean m.value hmem)

/-- Errors of inherited relationships are not reported, and there are none: each would be an error of the relationship
above, since the heir has an attribute for each attribute there. -/
theorem errors_eq_nil (ho : o ∈ g₀.idsOfKind .object) :
    ∀ r ∈ (g₀.settled.membersOf o).relationships, r.isReverse = false ∧
      ∃ related, r.related = some related ∧ (g₀.settled.analysis o related r).errors = [] := by
  refine c.relationship_induction (q := fun o r => r.isReverse = false ∧
    ∃ related, r.related = some related ∧ (g₀.settled.analysis o related r).errors = [])
    (fun o ho r hr hown hforward hrelated => ⟨hforward, ?_⟩) (fun o p t ho hup ht => ⟨ht.1, ?_⟩) ho
  · obtain ⟨related, hrelated⟩ := Option.isSome_iff_exists.1 hrelated
    obtain ⟨i, hi, rfl⟩ := List.mem_map.1 hr
    exact ⟨related, hrelated, (c.read ho i hi).2 related hrelated hforward hown⟩
  · obtain ⟨related, hrelated, herrors⟩ := ht.2
    obtain ⟨hkey, ⟨query, hquery, hrelates, hthis, hpairs⟩, hparameters⟩ :=
      (errors_eq_nil_iff g₀.settled p related t).1 herrors
    refine ⟨related, hrelated, (errors_eq_nil_iff g₀.settled o related (t.inheritedBy o)).2
      ⟨hkey, ⟨query, hquery, hrelates, hthis, fun pair hpair => ⟨?_, (hpairs pair hpair).2⟩⟩, hparameters⟩⟩
    obtain ⟨m, hm, hname⟩ := (isSome_attributeNamed?_iff ..).1 (hpairs pair hpair).1
    obtain ⟨m', hm', hname', -⟩ := c.exists_attribute_below ho hup hm
    exact (isSome_attributeNamed?_iff ..).2 ⟨m', hm', hname'.trans hname⟩

end Completes

end Metamodel.Graph
