import Metamodel.Proofs.Graph.Soundness
import Metamodel.Proofs.Hierarchy.Bequest

/-!
# Members of an entity

The members of an entity as values: its attributes, each with a mark on the source attribute, and its
relationships. `Members.inherit` merges the members of a superclass into those of a subclass without a graph, and
merging in a sound graph does the same (`mergeMembers_spec`): it changes the subclass alone, and gives it those
members and those conflicts.
-/

namespace Metamodel

open Metamodel.Graph (MemberConflict)

structure MarkedAttribute where
  value : Attribute
  isSource : Bool
deriving DecidableEq

structure Members where
  attributes : List MarkedAttribute
  relationships : List Relationship
deriving DecidableEq

/-! ### What an heir does with members of its superclass -/

/-- A merge changes no more of an attribute than the settings of its kind. -/
theorem Attribute.mergedWith_eq (a t : Attribute) :
    (a.mergedWith t).1 = { a with kind := (a.mergedWith t).1.kind } := by
  unfold mergedWith
  split
  · unfold filledFrom
    split <;> rfl
  · rfl

/-- A source attribute is copied whatever names the heir has, or stays if the heir declares one. -/
def attributeBequest (heir : EntityId) (defaults : MemberDefaults) (ownSource : Bool) : Bequest MarkedAttribute where
  name m := m.value.name
  passage t := if t.isSource then if ownSource then .stays else .copied else .meets
  copy t := ⟨t.value.inheritedBy heir defaults, t.isSource⟩
  merge m t := (⟨(m.value.mergedWith t.value).1, m.isSource⟩, (m.value.mergedWith t.value).2)
  name_copy _ := rfl
  name_merge m t := by rw [Attribute.mergedWith_eq]

/-- A counterpart stays with the object that it was made for. -/
def relationshipBequest (heir : EntityId) : Bequest Relationship where
  name r := r.name
  passage t := if t.isReverse then .stays else .meets
  copy t := t.inheritedBy heir
  merge r t := r.mergedWith t
  name_copy _ := rfl
  name_merge _ _ := rfl

namespace Members

def source? (m : Members) : Option Attribute :=
  (m.attributes.find? (·.isSource)).map (·.value)

/-- The members of an heir that declares `mine`, below a superclass with the members `theirs`. -/
def inherit (heir : EntityId) (defaults : MemberDefaults) (mine theirs : Members) : Members × List MemberConflict :=
  let (attributes, found) :=
    (attributeBequest heir defaults mine.source?.isSome).handAll mine.attributes theirs.attributes
  let (relationships, more) := (relationshipBequest heir).handAll mine.relationships theirs.relationships
  let overridden := match theirs.source?, mine.source? with
    | some _, some own => [Graph.overriddenSource own]
    | _, _ => []
  (⟨attributes, relationships⟩, overridden ++ found ++ more)

end Members

namespace Graph

/-! ### Members in a graph -/

def marked (g : Graph) (id : EntityId) (a : AttributeId) : MarkedAttribute :=
  ⟨g.attributeAt a, some a == (g.entity id).source⟩

def membersOf (g : Graph) (id : EntityId) : Members where
  attributes := (g.entity id).attributes.map (g.marked id)
  relationships := g.relationshipsOf id

variable {g h : Graph} {c p : EntityId}

private theorem membersOf_congr {o : EntityId} (hlists : (h.entity o).attributes = (g.entity o).attributes ∧
    (h.entity o).relationships = (g.entity o).relationships ∧ (h.entity o).source = (g.entity o).source)
    (hattributes : ∀ a ∈ (g.entity o).attributes, h.attributeAt a = g.attributeAt a)
    (hrelationships : ∀ r ∈ (g.entity o).relationships, h.relationshipAt r = g.relationshipAt r) :
    h.membersOf o = g.membersOf o := by
  obtain ⟨has, hrs, hsource⟩ := hlists
  have attributes : (h.entity o).attributes.map (h.marked o) = (g.entity o).attributes.map (g.marked o) := by
    rw [has]
    refine List.map_congr_left fun a ha => ?_
    simp only [marked, hattributes a ha, hsource]
  have relationships : h.relationshipsOf o = g.relationshipsOf o := by
    rw [relationshipsOf, relationshipsOf, hrs]
    exact List.map_congr_left hrelationships
  rw [membersOf, membersOf, attributes, relationships]

theorem membersOf_modifyEntity (g : Graph) (id : EntityId) (f : Entity → Entity)
    (hf : ∀ e, (f e).attributes = e.attributes ∧ (f e).relationships = e.relationships ∧ (f e).source = e.source)
    (o : EntityId) : (g.modifyEntity id f).membersOf o = g.membersOf o := by
  refine membersOf_congr ?_ (fun _ _ => rfl) fun _ _ => rfl
  rw [entity_modifyEntity]
  split
  · exact hf _
  · exact ⟨rfl, rfl, rfl⟩

theorem membersOf_setState (g : Graph) (id : EntityId) (state : EntityState) (o : EntityId) :
    (g.setState id state).membersOf o = g.membersOf o :=
  membersOf_modifyEntity g id (fun e => { e with state := state }) (fun _ => ⟨rfl, rfl, rfl⟩) o

theorem OnlyChanges.membersOf (hgh : OnlyChanges c g h) (hg : g.Sound) {o : EntityId} (ho : o ≠ c) :
    h.membersOf o = g.membersOf o := by
  have he := hgh.entity o ho
  refine membersOf_congr (by rw [he]; exact ⟨rfl, rfl, rfl⟩) (fun a ha => ?_) fun r hr => ?_
  · obtain ⟨hlt, howner⟩ := hg.attribute_owned o a ha
    exact hgh.attributeAt a hlt (by rwa [howner])
  · obtain ⟨hlt, howner⟩ := hg.relationship_owned o r hr
    exact hgh.relationshipAt r hlt (by rwa [howner])

/-- In a sound graph the marks find the source attribute. -/
theorem source?_membersOf (hg : g.Sound) (o : EntityId) :
    (g.membersOf o).source? = (g.entity o).source.map g.attributeAt := by
  have hfind : (g.membersOf o).attributes.find? (·.isSource) =
      ((g.entity o).attributes.find? fun a => some a == (g.entity o).source).map (g.marked o) := by
    rw [Graph.membersOf, List.find?_map]
    rfl
  rw [Members.source?, hfind, Option.map_map]
  cases hs : (g.entity o).source with
  | none =>
    have : (g.entity o).attributes.find? (fun a => some a == none) = none := by simp
    rw [this]
    rfl
  | some s =>
    have : (g.entity o).attributes.find? (fun a => some a == some s) = some s := by
      cases hf : (g.entity o).attributes.find? fun a => some a == some s with
      | none =>
        have := List.find?_eq_none.1 hf s (hg.source_listed o s hs)
        simp at this
      | some t => simpa using List.find?_some hf
    rw [this]
    rfl

private theorem sourceConflicts_eq (hg : g.Sound) (p c : EntityId) :
    g.sourceConflicts p c = match (g.membersOf p).source?, (g.membersOf c).source? with
      | some _, some own => [overriddenSource own]
      | _, _ => [] := by
  rw [source?_membersOf hg, source?_membersOf hg, sourceConflicts]
  cases (g.entity p).source <;> cases (g.entity c).source <;> rfl

/-! ### Merging in a graph -/

private theorem map_attributeNamed? (g : Graph) (c : EntityId) (name : String) :
    (g.attributeNamed? c name).map (g.marked c) = (g.membersOf c).attributes.find? (·.value.name == name) := by
  rw [attributeNamed?, Graph.membersOf, List.find?_map]
  rfl

/-- `h` is a sound graph that differs from `g` in the members of `c`, which are `m` now. -/
structure Gives (c : EntityId) (m : Members) (g h : Graph) : Prop where
  sound : h.Sound
  change : OnlyChanges c g h
  members : h.membersOf c = m

/-- A copy for the heir is one more attribute at the end of its list; `source` says whether it becomes the source. -/
private theorem gives_addInheritedAttribute (hg : g.Sound) (hc : c < g.entities.size) (a : Attribute) {source : Bool}
    (hsource : source = true → (g.entity c).source = none) {h : Graph}
    (hh : h = if source then
        (addInheritedAttribute c g a).modifyEntity c fun e => { e with source := some g.attributes.size }
      else addInheritedAttribute c g a) :
    Gives c { g.membersOf c with
      attributes := (g.membersOf c).attributes ++ [⟨a.inheritedBy c (g.entity c).defaults, source⟩] } g h := by
  have hsound := hg.addAttribute (a.inheritedBy c (g.entity c).defaults)
  have hchange := OnlyChanges.addAttribute g (a.inheritedBy c (g.entity c).defaults)
  have hentity : (addInheritedAttribute c g a).entity c =
      { g.entity c with attributes := (g.entity c).attributes ++ [g.attributes.size] } := by
    rw [addInheritedAttribute, entity_addAttribute, if_pos ⟨rfl, hc⟩]
  -- The new attribute has an index that no attribute has had, so that the others read and mark as before.
  have hold : ∀ b ∈ (g.entity c).attributes, b ≠ g.attributes.size :=
    fun b hb => Nat.ne_of_lt (hg.attribute_owned c b hb).1
  have hread : ∀ b, (addInheritedAttribute c g a).attributeAt b =
      if b = g.attributes.size then a.inheritedBy c (g.entity c).defaults else g.attributeAt b := by
    intro b
    rw [addInheritedAttribute, attributeAt_addAttribute]
  subst hh
  cases source with
  | true =>
    have hnone := hsource rfl
    have hentity' : ((addInheritedAttribute c g a).modifyEntity c
        fun e => { e with source := some g.attributes.size }).entity c =
        { g.entity c with
          attributes := (g.entity c).attributes ++ [g.attributes.size], source := some g.attributes.size } := by
      rw [entity_modifyEntity_self _ _ (by simpa [addInheritedAttribute] using hc), hentity]
    refine ⟨hsound.setSource ?_, hchange.trans (.setSource c _ _), ?_⟩
    · rw [← addInheritedAttribute, hentity]
      simp
    · simp only [if_true, Graph.membersOf, relationshipsOf, hentity', List.map_append, List.map_cons, List.map_nil]
      congr 2
      · refine List.map_congr_left fun b hb => ?_
        simp [marked, hread, hold b hb, hentity', hnone]
      · simp [marked, hread, hentity']
  | false =>
    have hfresh : (g.entity c).source ≠ some g.attributes.size := fun h => Nat.lt_irrefl _ (hg.source_lt h)
    refine ⟨hsound, hchange, ?_⟩
    simp only [Graph.membersOf, relationshipsOf, hentity, List.map_append, List.map_cons, List.map_nil,
      Bool.false_eq_true, if_false]
    congr 2
    · refine List.map_congr_left fun b hb => ?_
      simp [marked, hread, hold b hb, hentity]
    · simp [marked, hread, hentity, Ne.symm hfresh]

/-- A merged attribute takes the place of the heir's first attribute of its name. -/
private theorem gives_modifyAttribute (hg : g.Sound) {name : String} {own : AttributeId}
    (hown : g.attributeNamed? c name = some own) (f : Attribute → Attribute)
    (howner : (f (g.attributeAt own)).owner = (g.attributeAt own).owner) :
    Gives c { g.membersOf c with
        attributes := updateFirst (·.value.name == name) (fun m => ⟨f m.value, m.isSource⟩)
          (g.membersOf c).attributes } g
      (g.modifyAttribute own fun _ => f (g.attributeAt own)) := by
  have hmem : own ∈ (g.entity c).attributes := List.mem_of_find?_eq_some hown
  obtain ⟨hlt, hc⟩ := hg.attribute_owned c own hmem
  refine ⟨hg.modifyAttribute own howner, hc ▸ OnlyChanges.modifyAttribute g own _, ?_⟩
  have hplaces := map_ite_eq_updateFirst (hg.attributes_nodup c) (g.marked c) (·.value.name == name)
    (fun m => ⟨f m.value, m.isSource⟩) hown
  simp only [Graph.membersOf, ← hplaces]
  congr 1
  refine List.map_congr_left fun b hb => ?_
  by_cases hb' : b = own
  · subst hb'
    simp [marked, attributeAt_modifyAttribute, hlt]
  · simp [marked, attributeAt_modifyAttribute, hb', Ne.symm hb']

/-- One attribute of the superclass. -/
private theorem inheritAttribute_spec (hg : g.Sound) (hc : c < g.entities.size) {source : Option AttributeId}
    {ownSource : Bool} {id : AttributeId} (hfree : some id = source → ownSource = false → (g.entity c).source = none) :
    Gives c { g.membersOf c with
        attributes := ((attributeBequest c (g.entity c).defaults ownSource).hand (g.membersOf c).attributes
          ⟨g.attributeAt id, some id == source⟩).1 } g (inheritAttribute c source ownSource g id).1 ∧
      (inheritAttribute c source ownSource g id).2 =
        ((attributeBequest c (g.entity c).defaults ownSource).hand (g.membersOf c).attributes
          ⟨g.attributeAt id, some id == source⟩).2 := by
  by_cases hsource : some id = source
  · cases ownSource with
    | true =>
      simp only [inheritAttribute, if_pos hsource, if_true]
      simp only [Bequest.hand, attributeBequest, hsource, beq_self_eq_true, if_true]
      exact ⟨⟨hg, .refl c g, rfl⟩, trivial⟩
    | false =>
      simp only [inheritAttribute, if_pos hsource, Bool.false_eq_true, if_false]
      simp only [Bequest.hand, attributeBequest, hsource, beq_self_eq_true, if_true, Bool.false_eq_true, if_false,
        and_true]
      exact gives_addInheritedAttribute hg hc _ (fun _ => hfree hsource rfl) rfl
  · have hmap := g.map_attributeNamed? c (g.attributeAt id).name
    simp only [inheritAttribute, if_neg hsource]
    simp only [Bequest.hand, attributeBequest, beq_false_of_ne hsource, Bool.false_eq_true, if_false, ← hmap]
    cases hown : g.attributeNamed? c (g.attributeAt id).name with
    | none =>
      simp only [Option.map_none, and_true]
      exact gives_addInheritedAttribute hg hc _ (fun h : false = true => by cases h) rfl
    | some own =>
      refine ⟨gives_modifyAttribute hg hown (fun a => (a.mergedWith (g.attributeAt id)).1) ?_, rfl⟩
      rw [Attribute.mergedWith_eq]

/-- Only the source attribute of the superclass can become that of the heir. -/
private theorem source_inheritAttribute (g : Graph) {source : Option AttributeId} (ownSource : Bool) {id : AttributeId}
    (hsource : some id ≠ source) :
    ((inheritAttribute c source ownSource g id).1.entity c).source = (g.entity c).source := by
  simp only [inheritAttribute, if_neg hsource]
  split
  · rw [addInheritedAttribute, entity_addAttribute]
    split <;> rfl
  · rfl

private theorem gives_addRelationship (hg : g.Sound) (hc : c < g.entities.size) (r : Relationship) :
    Gives c { g.membersOf c with relationships := (g.membersOf c).relationships ++ [r.inheritedBy c] } g
      (g.addRelationship (r.inheritedBy c)) := by
  have hentity : (g.addRelationship (r.inheritedBy c)).entity c =
      { g.entity c with relationships := (g.entity c).relationships ++ [g.relationships.size] } := by
    rw [entity_addRelationship, if_pos ⟨rfl, hc⟩]
  refine ⟨hg.addRelationship _, OnlyChanges.addRelationship g (r.inheritedBy c), ?_⟩
  simp only [Graph.membersOf, relationshipsOf, hentity, List.map_append, List.map_cons, List.map_nil]
  congr 1
  · refine List.map_congr_left fun a _ => ?_
    simp [marked, hentity]
  · congr 1
    · refine List.map_congr_left fun s hs => ?_
      rw [relationshipAt_addRelationship, if_neg (Nat.ne_of_lt (hg.relationship_owned c s hs).1)]
    · rw [relationshipAt_addRelationship, if_pos rfl]

private theorem gives_modifyRelationship (hg : g.Sound) {name : String} {own : RelationshipId}
    (hown : g.relationshipNamed? c name = some own) (f : Relationship → Relationship)
    (howner : (f (g.relationshipAt own)).owner = (g.relationshipAt own).owner) :
    Gives c { g.membersOf c with relationships := updateFirst (·.name == name) f (g.membersOf c).relationships } g
      (g.modifyRelationship own fun _ => f (g.relationshipAt own)) := by
  have hmem : own ∈ (g.entity c).relationships := List.mem_of_find?_eq_some hown
  obtain ⟨hlt, hc⟩ := hg.relationship_owned c own hmem
  refine ⟨hg.modifyRelationship own howner, hc ▸ OnlyChanges.modifyRelationship g own _, ?_⟩
  have hplaces := map_ite_eq_updateFirst (hg.relationships_nodup c) g.relationshipAt (·.name == name) f hown
  simp only [Graph.membersOf, relationshipsOf, ← hplaces]
  congr 1
  refine List.map_congr_left fun s hs => ?_
  by_cases hs' : s = own
  · subst hs'
    simp [relationshipAt_modifyRelationship, hlt]
  · simp [relationshipAt_modifyRelationship, hs', Ne.symm hs']

/-- One relationship of the superclass. -/
private theorem inheritRelationship_spec (hg : g.Sound) (hc : c < g.entities.size) (id : RelationshipId) :
    Gives c { g.membersOf c with
        relationships := ((relationshipBequest c).hand (g.membersOf c).relationships (g.relationshipAt id)).1 } g
      (inheritRelationship c g id).1 ∧
      (inheritRelationship c g id).2 =
        ((relationshipBequest c).hand (g.membersOf c).relationships (g.relationshipAt id)).2 := by
  have hmap : (g.relationshipNamed? c (g.relationshipAt id).name).map g.relationshipAt =
      (g.membersOf c).relationships.find? (·.name == (g.relationshipAt id).name) := by
    rw [relationshipNamed?, Graph.membersOf, relationshipsOf, List.find?_map]
    rfl
  unfold inheritRelationship
  by_cases hreverse : (g.relationshipAt id).isReverse
  · simp only [Bequest.hand, relationshipBequest, hreverse, if_true]
    exact ⟨⟨hg, .refl c g, rfl⟩, trivial⟩
  · simp only [Bequest.hand, relationshipBequest, hreverse, Bool.false_eq_true, if_false, ← hmap]
    cases hown : g.relationshipNamed? c (g.relationshipAt id).name with
    | none =>
      simp only [Option.map_none, and_true]
      exact gives_addRelationship hg hc _
    | some own => exact ⟨gives_modifyRelationship hg hown (fun r => (r.mergedWith (g.relationshipAt id)).1) rfl, rfl⟩

/-! ### All members -/

private theorem inheritAttributes_spec (hg : g.Sound) (hc : c < g.entities.size) {source : Option AttributeId}
    {ownSource : Bool} {ids : List AttributeId} (hnodup : ids.Nodup)
    (hids : ∀ id ∈ ids, id < g.attributes.size ∧ (g.attributeAt id).owner ≠ c)
    (hfree : ∀ id ∈ ids, some id = source → ownSource = false → (g.entity c).source = none) :
    let b := attributeBequest c (g.entity c).defaults ownSource
    let theirs := ids.map fun id => (⟨g.attributeAt id, some id == source⟩ : MarkedAttribute)
    let r := collect (inheritAttribute c source ownSource) g ids
    Gives c { g.membersOf c with attributes := (b.handAll (g.membersOf c).attributes theirs).1 } g r.1 ∧
      r.2 = (b.handAll (g.membersOf c).attributes theirs).2 := by
  induction ids generalizing g with
  | nil => exact ⟨⟨hg, .refl c g, rfl⟩, rfl⟩
  | cons id ids ih =>
    obtain ⟨hid, hnodup⟩ := List.nodup_cons.1 hnodup
    obtain ⟨hstep, hconflicts⟩ := inheritAttribute_spec hg hc (hfree id List.mem_cons_self)
    have hsize := size_of_outline_eq hstep.change.outline
    have hdefaults := defaults_of_outline_eq hstep.change.outline c
    -- The step changes attributes of `c` alone, and those to come are not among them.
    have hread : ∀ i ∈ ids, (inheritAttribute c source ownSource g id).1.attributeAt i = g.attributeAt i := fun i hi =>
      hstep.change.attributeAt i (hids i (List.mem_cons_of_mem _ hi)).1 (hids i (List.mem_cons_of_mem _ hi)).2
    have hids' : ∀ i ∈ ids, i < (inheritAttribute c source ownSource g id).1.attributes.size ∧
        ((inheritAttribute c source ownSource g id).1.attributeAt i).owner ≠ c := by
      intro i hi
      rw [hread i hi]
      obtain ⟨hlt, howner⟩ := hids i (List.mem_cons_of_mem _ hi)
      exact ⟨Nat.lt_of_lt_of_le hlt hstep.change.size_attributes, howner⟩
    -- There is one source attribute: after it has come, none of those that follow is the source.
    have hfree' : ∀ i ∈ ids, some i = source → ownSource = false →
        ((inheritAttribute c source ownSource g id).1.entity c).source = none := by
      intro i hi hsource hown
      have hne : some id ≠ source := by
        rintro rfl
        exact hid (Option.some.inj hsource ▸ hi)
      rw [source_inheritAttribute g ownSource hne]
      exact hfree i (List.mem_cons_of_mem _ hi) hsource hown
    obtain ⟨hrest, hmore⟩ := ih hstep.sound (by rwa [hsize]) hnodup hids' hfree'
    have htheirs : (ids.map fun i =>
        (⟨(inheritAttribute c source ownSource g id).1.attributeAt i, some i == source⟩ : MarkedAttribute)) =
        ids.map fun i => ⟨g.attributeAt i, some i == source⟩ :=
      List.map_congr_left fun i hi => by rw [hread i hi]
    rw [htheirs, hdefaults, hstep.members] at hrest hmore
    simp only [collect, List.map_cons, Bequest.handAll_cons]
    exact ⟨⟨hrest.sound, hstep.change.trans hrest.change, hrest.members⟩, by rw [hconflicts, hmore]⟩

private theorem inheritRelationships_spec (hg : g.Sound) (hc : c < g.entities.size) {ids : List RelationshipId}
    (hids : ∀ id ∈ ids, id < g.relationships.size ∧ (g.relationshipAt id).owner ≠ c) :
    let theirs := ids.map g.relationshipAt
    let r := collect (inheritRelationship c) g ids
    Gives c { g.membersOf c with
        relationships := ((relationshipBequest c).handAll (g.membersOf c).relationships theirs).1 } g r.1 ∧
      r.2 = ((relationshipBequest c).handAll (g.membersOf c).relationships theirs).2 := by
  induction ids generalizing g with
  | nil => exact ⟨⟨hg, .refl c g, rfl⟩, rfl⟩
  | cons id ids ih =>
    obtain ⟨hstep, hconflicts⟩ := inheritRelationship_spec hg hc id
    have hsize := size_of_outline_eq hstep.change.outline
    have hread : ∀ i ∈ ids, (inheritRelationship c g id).1.relationshipAt i = g.relationshipAt i := fun i hi =>
      hstep.change.relationshipAt i (hids i (List.mem_cons_of_mem _ hi)).1 (hids i (List.mem_cons_of_mem _ hi)).2
    have hids' : ∀ i ∈ ids, i < (inheritRelationship c g id).1.relationships.size ∧
        ((inheritRelationship c g id).1.relationshipAt i).owner ≠ c := by
      intro i hi
      rw [hread i hi]
      obtain ⟨hlt, howner⟩ := hids i (List.mem_cons_of_mem _ hi)
      exact ⟨Nat.lt_of_lt_of_le hlt hstep.change.size_relationships, howner⟩
    obtain ⟨hrest, hmore⟩ := ih hstep.sound (by rwa [hsize]) hids'
    rw [List.map_congr_left hread, hstep.members] at hrest hmore
    simp only [collect, List.map_cons, Bequest.handAll_cons]
    exact ⟨⟨hrest.sound, hstep.change.trans hrest.change, hrest.members⟩, by rw [hconflicts, hmore]⟩

/-- Merging the members of a superclass into a subclass of a sound graph. -/
theorem mergeMembers_spec (hg : g.Sound) (hc : c < g.entities.size) (hne : p ≠ c) :
    let inherited := Members.inherit c (g.entity c).defaults (g.membersOf c) (g.membersOf p)
    Gives c inherited.1 g (g.mergeMembers p c).1 ∧ (g.mergeMembers p c).2 = inherited.2 := by
  have hown : (g.membersOf c).source?.isSome = (g.entity c).source.isSome := by
    rw [source?_membersOf hg, Option.isSome_map]
  have hids : ∀ id ∈ (g.entity p).attributes, id < g.attributes.size ∧ (g.attributeAt id).owner ≠ c := by
    intro id hid
    obtain ⟨hlt, howner⟩ := hg.attribute_owned p id hid
    exact ⟨hlt, by rwa [howner]⟩
  have hfree : ∀ id ∈ (g.entity p).attributes, some id = (g.entity p).source → (g.entity c).source.isSome = false →
      (g.entity c).source = none := fun _ _ _ hfalse => by simpa using hfalse
  obtain ⟨hattributes, hfound⟩ := inheritAttributes_spec hg hc (hg.attributes_nodup p) hids hfree
  generalize hk : collect (inheritAttribute c (g.entity p).source (g.entity c).source.isSome) g
    (g.entity p).attributes = k at hattributes hfound
  have hrels : k.1.entity p = g.entity p := hattributes.change.entity p hne
  have hids' : ∀ id ∈ (g.entity p).relationships,
      id < k.1.relationships.size ∧ (k.1.relationshipAt id).owner ≠ c := by
    intro id hid
    rw [← hrels] at hid
    obtain ⟨hlt, howner⟩ := hattributes.sound.relationship_owned p id hid
    exact ⟨hlt, by rwa [howner]⟩
  obtain ⟨hrelationships, hmore⟩ := inheritRelationships_spec hattributes.sound
    (by rwa [size_of_outline_eq hattributes.change.outline]) hids'
  have htheirs : (g.entity p).relationships.map k.1.relationshipAt = (g.membersOf p).relationships := by
    have := congrArg Members.relationships (hattributes.change.membersOf hg hne)
    simpa [Graph.membersOf, relationshipsOf, hrels] using this
  rw [htheirs, hattributes.members] at hrelationships hmore
  simp only [mergeMembers, hk, hrels, Members.inherit, hown]
  refine ⟨⟨hrelationships.sound, hattributes.change.trans hrelationships.change, hrelationships.members⟩, ?_⟩
  rw [hmore, hfound, sourceConflicts_eq hg]
  rfl

end Graph

end Metamodel
