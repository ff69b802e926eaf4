import Metamodel.Proofs.Embedded.Termination
import Metamodel.Proofs.Resolution.Completion
import Metamodel.Proofs.Resolution.Integrity

/-!
# Where attributes come from

The attributes that an object has before inheritance are those that it declares and those that embedded values are
mapped to.  The settings of a column or of a period of validity are still those of a declaration, an attribute of an
enumeration is described by the enumeration that it is bound to, and all fall back on the defaults of their object
(`Attribute.IsTraced`).  Every step before inheritance keeps this (`exists_traced_of_resolve`), and of the last two
facts inheritance does, too (`Completes.isBackedBy`).

An attribute of an enumeration gets its type while objects are still being declared, and its enumeration later.  All
enumerations are there before the first object, and a name that denotes one in the end denoted the same one before
(`lookup_of_lookup_push`); so the type fits the enumeration that is found.
-/

namespace Metamodel

/-- The settings of an enumeration attribute of type `t`: `t` is what the enumeration of their name is stored as, and
class and members are those of the enumeration that they are bound to. -/
structure EnumerationSettings.IsBacked (g : Graph) (t : DataType) (s : EnumerationSettings) : Prop where
  typed : ∀ e, g.lookup s.enumeration .enumeration = some e → (g.entity e).persistedType = some t
  className : s.className = s.target.map fun e => (g.entity e).name.simple
  bound : ∀ e, s.target = some e → e ∈ g.idsOfKind .enumeration ∧
    (g.entity e).persistedType = some t ∧ s.members = (g.entity e).members

/-- The attribute has the settings of its declaration, the backing of its enumeration and the defaults of its owner. -/
structure Attribute.IsTraced (d : Declarations) (g : Graph) (a : Attribute) : Prop where
  defaults : a.defaults = (g.entity a.owner).defaults
  column : ∀ s, a.kind = .column s → ∃ entry ∈ d.objects.entries, entry.2.name = (g.entity a.owner).name ∧
    ∃ y ∈ entry.2.attributes, y.name = a.name ∧ y.column = s
  asOf : ∀ s, a.kind = .asOf s → ∃ entry ∈ d.objects.entries, entry.2.name = (g.entity a.owner).name ∧
    ∃ y ∈ entry.2.asOfAttributes, y.name = a.name ∧ y.settings = s
  enumeration : ∀ s, a.kind = .enumeration s → s.IsBacked g a.dataType

/-- The entity is stored as the enumeration is declared to be, with the members that are declared. -/
structure Entity.Reflects (e : Entity) (decl : EnumerationDeclaration) : Prop where
  persistedType : e.persistedType = some decl.persistedType
  members : e.members = decl.members

namespace Graph

variable {d : Declarations} {g h : Graph}

theorem reflects_of_outline_eq (eq : h.outline = g.outline) {e : EntityId} {decl : EnumerationDeclaration}
    (he : (g.entity e).Reflects decl) : (h.entity e).Reflects decl :=
  ⟨(persistedType_of_outline_eq eq e).trans he.persistedType, (members_of_outline_eq eq e).trans he.members⟩

theorem isBacked_of_outline_eq (eq : h.outline = g.outline) {t : DataType} {s : EnumerationSettings}
    (hs : s.IsBacked g t) : s.IsBacked h t := by
  constructor
  · intro e he
    rw [lookup_congr eq] at he
    rw [persistedType_of_outline_eq eq]
    exact hs.typed e he
  · simp only [name_of_outline_eq eq]
    exact hs.className
  · intro e he
    rw [idsOfKind_of_outline_eq eq, persistedType_of_outline_eq eq, members_of_outline_eq eq]
    exact hs.bound e he

/-- Settings that are backed stay so when another entity is added that is no enumeration. -/
private theorem isBacked_push {e : Entity} (hkind : e.kind ≠ .enumeration) {t : DataType} {s : EnumerationSettings}
    (hs : s.IsBacked g t) : s.IsBacked (g.push e) t := by
  have hold : ∀ o ∈ g.idsOfKind .enumeration,
      (g.push e).entity o = g.entity o := fun o ho => by
    rw [entity_push, if_neg (Nat.ne_of_lt (g.lt_size_of_mem_idsOfKind ho))]
  constructor
  · intro o ho
    have hearlier := g.lookup_of_lookup_push hkind ho
    rw [hold o (g.mem_idsOfKind_of_lookup hearlier)]
    exact hs.typed o hearlier
  · rw [hs.className]
    cases htarget : s.target with
    | none => rfl
    | some o => rw [Option.map_some, Option.map_some, hold o (hs.bound o htarget).1]
  · intro o htarget
    obtain ⟨hmem, hbound⟩ := hs.bound o htarget
    rw [idsOfKind_push, if_neg hkind, List.append_nil, hold o hmem]
    exact ⟨hmem, hbound⟩

private theorem isTraced_of_outline_eq (eq : h.outline = g.outline) {a : Attribute} (ha : a.IsTraced d g) :
    a.IsTraced d h := by
  constructor
  · rw [defaults_of_outline_eq eq]
    exact ha.defaults
  · rw [name_of_outline_eq eq]
    exact ha.column
  · rw [name_of_outline_eq eq]
    exact ha.asOf
  · exact fun s hs => isBacked_of_outline_eq eq (ha.enumeration s hs)

/-- The attributes of objects are traced. -/
def Traced (d : Declarations) (g : Graph) : Prop :=
  ∀ a < g.attributes.size, (g.entity (g.attributeAt a).owner).kind = .object → (g.attributeAt a).IsTraced d g

namespace Traced

theorem congr (hg : Traced d g) (ha : h.attributes = g.attributes) (eq : h.outline = g.outline) : Traced d h := by
  intro a hlt hkind
  have hsame : h.attributeAt a = g.attributeAt a := by rw [attributeAt, attributeAt, ha]
  rw [hsame, kind_of_outline_eq eq] at hkind
  rw [ha] at hlt
  rw [hsame]
  exact isTraced_of_outline_eq eq (hg a hlt hkind)

theorem addAttribute (hg : Traced d g) {a : Attribute} (ha : (g.entity a.owner).kind = .object → a.IsTraced d g) :
    Traced d (g.addAttribute a) := by
  have eq := g.outline_addAttribute a
  intro b hlt hkind
  rw [size_attributes_addAttribute] at hlt
  rw [kind_of_outline_eq eq] at hkind
  rw [attributeAt_addAttribute] at hkind ⊢
  split
  · rename_i hnew
    rw [if_pos hnew] at hkind
    exact isTraced_of_outline_eq eq (ha hkind)
  · rename_i hold
    rw [if_neg hold] at hkind
    exact isTraced_of_outline_eq eq (hg b (Nat.lt_of_le_of_ne (Nat.le_of_lt_succ hlt) hold) hkind)

theorem addAttributes {α : Type} (hg : Traced d g) (make : α → Attribute) (ds : List α)
    (hmake : ∀ x ∈ ds, (g.entity (make x).owner).kind = .object → (make x).IsTraced d g) :
    Traced d (g.addAttributes make ds) ∧ (g.addAttributes make ds).outline = g.outline := by
  refine List.foldlRecOn ds _ (motive := fun h => Traced d h ∧ h.outline = g.outline) ⟨hg, rfl⟩ ?_
  rintro h ⟨hh, eq⟩ x hx
  refine ⟨hh.addAttribute fun hkind => isTraced_of_outline_eq eq (hmake x hx ?_), (outline_addAttribute ..).trans eq⟩
  rwa [kind_of_outline_eq eq] at hkind

/-- Attributes refer to entities that are there already, and enumerations are there before all attributes. -/
theorem addEntity (hg : Traced d g) {n : Nat} (hs : Standing n g) {e : Entity} (he : e.kind ≠ .enumeration) :
    Traced d (g.push e) := by
  have hold : ∀ o < g.entities.size, (g.push e).entity o = g.entity o :=
    fun o ho => by rw [entity_push, if_neg (Nat.ne_of_lt ho)]
  intro a ha hkind
  have howner := hold _ (g.lt_size_of_mem_attributes (hs.intact.attribute_listed a ha))
  have hat : (g.push e).attributeAt a = g.attributeAt a := rfl
  rw [hat] at hkind ⊢
  rw [howner] at hkind
  have htraced := hg a ha hkind
  constructor
  · rw [howner]
    exact htraced.defaults
  · rw [howner]
    exact htraced.column
  · rw [howner]
    exact htraced.asOf
  · exact fun s hs' => isBacked_push he (htraced.enumeration s hs')

end Traced

/-! ### The kinds of attributes -/

variable {id : EntityId} {defaults : MemberDefaults} (hdefaults : defaults = (g.entity id).defaults)

include hdefaults

private theorem isTraced_ofDeclaration {entry : String × ObjectDeclaration} (hentry : entry ∈ d.objects.entries)
    (hname : entry.2.name = (g.entity id).name) {y : AttributeDeclaration} (hy : y ∈ entry.2.attributes) :
    (Attribute.ofDeclaration y id defaults).IsTraced d g where
  defaults := hdefaults
  column _ hs := ⟨entry, hentry, hname, y, hy, rfl, AttributeKind.column.inj hs⟩
  asOf _ hs := by cases hs
  enumeration _ hs := by cases hs

private theorem isTraced_ofAsOf {entry : String × ObjectDeclaration} (hentry : entry ∈ d.objects.entries)
    (hname : entry.2.name = (g.entity id).name) {y : AsOfDeclaration} (hy : y ∈ entry.2.asOfAttributes) :
    (Attribute.ofAsOf y id defaults).IsTraced d g where
  defaults := hdefaults
  column _ hs := by cases hs
  asOf _ hs := ⟨entry, hentry, hname, y, hy, rfl, AttributeKind.asOf.inj hs⟩
  enumeration _ hs := by cases hs

/-- It has the type of the enumeration that it names, and is bound to none yet. -/
private theorem isTraced_enumerationAttribute
    (hstored : ∀ e ∈ g.idsOfKind .enumeration, ((g.entity e).persistedType).isSome)
    (y : EnumerationAttributeDeclaration) : (g.enumerationAttribute id defaults y).IsTraced d g where
  defaults := hdefaults
  column _ hs := by cases hs
  asOf _ hs := by cases hs
  enumeration s hs := by
    obtain rfl := AttributeKind.enumeration.inj hs
    refine ⟨fun e he => ?_, rfl, fun _ htarget => ?_⟩
    · obtain ⟨t, ht⟩ := Option.isSome_iff_exists.1 (hstored e (g.mem_idsOfKind_of_lookup he))
      have hnamed : g.lookup y.enumeration .enumeration = some e := he
      simp [enumerationAttribute, Attribute.ofEnumeration, hnamed, ht]
    · cases htarget

private theorem isTraced_ofSource (y : SourceDeclaration) : (Attribute.ofSource y id defaults).IsTraced d g where
  defaults := hdefaults
  column _ hs := by cases hs
  asOf _ hs := by cases hs
  enumeration _ hs := by cases hs

private theorem isTraced_ofMapping (name : String) (t : DataType) (settings : MappedSettings) :
    (Attribute.ofMapping name t settings id defaults).IsTraced d g where
  defaults := hdefaults
  column _ hs := by cases hs
  asOf _ hs := by cases hs
  enumeration _ hs := by cases hs

omit hdefaults

/-! ### Declarations -/

private theorem traced_addSource (hg : Traced d g) (hdefaults : defaults = (g.entity id).defaults)
    (source : Option SourceDeclaration) :
    Traced d (g.addSource id defaults source) ∧ (g.addSource id defaults source).outline = g.outline := by
  cases source with
  | none => exact ⟨hg, rfl⟩
  | some s =>
    have hadded := hg.addAttribute fun _ => isTraced_ofSource hdefaults s
    have eq := outline_modifyEntity (g.addAttribute (.ofSource s id defaults)) id
      (f := fun e => { e with source := some g.attributes.size }) fun _ => rfl
    exact ⟨hadded.congr rfl eq, eq.trans (outline_addAttribute ..)⟩

/-- The members that an object declares are traced to the declaration. -/
private theorem traced_addMembers (hg : Traced d g) (hdefaults : defaults = (g.entity id).defaults)
    (hstored : ∀ e ∈ g.idsOfKind .enumeration, ((g.entity e).persistedType).isSome)
    {entry : String × ObjectDeclaration} (hentry : entry ∈ d.objects.entries)
    (hname : entry.2.name = (g.entity id).name) :
    Traced d (g.addMembers id defaults entry.2) ∧ (g.addMembers id defaults entry.2).outline = g.outline := by
  have same : ∀ {h : Graph}, h.outline = g.outline → defaults = (h.entity id).defaults ∧
      entry.2.name = (h.entity id).name := fun eq =>
    ⟨hdefaults.trans (defaults_of_outline_eq eq id).symm, hname.trans (name_of_outline_eq eq id).symm⟩
  let g₁ := g.addAttributes (Attribute.ofDeclaration · id defaults) entry.2.attributes
  obtain ⟨h₁, eq₁⟩ : Traced d g₁ ∧ g₁.outline = g.outline :=
    hg.addAttributes _ _ fun y hy _ => isTraced_ofDeclaration hdefaults hentry hname hy
  let g₂ := g₁.addAttributes (Attribute.ofAsOf · id defaults) entry.2.asOfAttributes
  obtain ⟨h₂, eq₂⟩ : Traced d g₂ ∧ g₂.outline = g₁.outline :=
    h₁.addAttributes _ _ fun y hy _ => isTraced_ofAsOf (same eq₁).1 hentry (same eq₁).2 hy
  replace eq₂ := eq₂.trans eq₁
  have hstored₂ : ∀ e ∈ g₂.idsOfKind .enumeration, ((g₂.entity e).persistedType).isSome := by
    intro e he
    rw [idsOfKind_of_outline_eq eq₂] at he
    rw [persistedType_of_outline_eq eq₂]
    exact hstored e he
  let g₃ := g₂.addAttributes (g₂.enumerationAttribute id defaults) entry.2.enumerationAttributes
  obtain ⟨h₃, eq₃⟩ : Traced d g₃ ∧ g₃.outline = g₂.outline :=
    h₂.addAttributes _ _ fun y _ _ => isTraced_enumerationAttribute (same eq₂).1 hstored₂ y
  replace eq₃ := eq₃.trans eq₂
  obtain ⟨h₄, eq₄⟩ := traced_addSource h₃ (same eq₃).1 entry.2.sourceAttribute
  exact List.foldlRecOn entry.2.relationships _ (motive := fun h => Traced d h ∧ h.outline = g.outline)
    ⟨h₄, eq₄.trans eq₃⟩ fun h hh r _ =>
      ⟨hh.1.congr rfl (outline_addRelationship ..), (outline_addRelationship ..).trans hh.2⟩

/-- The graph of declarations, while it grows. -/
structure Declares (config : Config) (d : Declarations) (g : Graph) : Prop where
  traced : Traced d g
  timezone : ∀ o ∈ g.idsOfKind .object, (g.entity o).defaults.timezone = config.defaultTimezone
  declared : ∀ o ∈ g.idsOfKind .enumeration, ∃ entry ∈ d.enumerations.entries, (g.entity o).Reflects entry.2

section Declares

variable {config : Config}

theorem Declares.stored (hg : Declares config d g) : ∀ o ∈ g.idsOfKind .enumeration, ∃ entry ∈ d.enumerations.entries,
    (g.entity o).persistedType = some entry.2.persistedType := by
  intro o ho
  obtain ⟨entry, hentry, hreflects⟩ := hg.declared o ho
  exact ⟨entry, hentry, hreflects.persistedType⟩

/-- One more type, with members that are traced. -/
private theorem Declares.push (hg : Declares config d g) {e : Entity}
    (hobject : e.kind = .object → e.defaults.timezone = config.defaultTimezone)
    (henumeration : e.kind = .enumeration → ∃ entry ∈ d.enumerations.entries, e.Reflects entry.2)
    (htraced : Traced d h) (eq : h.outline = (g.push e).outline) :
    Declares config d h := by
  refine ⟨htraced, fun o ho => ?_, fun o ho => ?_⟩
  · rw [idsOfKind_of_outline_eq eq] at ho
    rw [defaults_of_outline_eq eq]
    exact forall_idsOfKind_push (q := fun e => e.defaults.timezone = config.defaultTimezone) hg.timezone hobject o ho
  · rw [idsOfKind_of_outline_eq eq] at ho
    have hnew : e.kind = .enumeration → ∃ entry ∈ d.enumerations.entries,
        ({ e with id := g.entities.size } : Entity).Reflects entry.2 := fun hkind => by
      obtain ⟨entry, hentry, hreflects⟩ := henumeration hkind
      exact ⟨entry, hentry, hreflects.persistedType, hreflects.members⟩
    obtain ⟨entry, hentry, hreflects⟩ := forall_idsOfKind_push
      (q := fun e => ∃ entry ∈ d.enumerations.entries, e.Reflects entry.2) hg.declared hnew o ho
    exact ⟨entry, hentry, reflects_of_outline_eq eq hreflects⟩

/-- No attribute is there yet that an enumeration could be for. -/
private theorem declares_declareEnumeration (hnone : g.attributes.size = 0) (hg : Declares config d g)
    {entry : String × EnumerationDeclaration} (hentry : entry ∈ d.enumerations.entries) :
    (declareEnumeration g entry).1.attributes.size = 0 ∧ Declares config d (declareEnumeration g entry).1 := by
  obtain ⟨key, decl⟩ := entry
  simp only [declareEnumeration]
  split
  · exact ⟨hnone, hg⟩
  · rename_i h id hadd
    obtain ⟨rfl, -⟩ := eq_of_addEntity? hadd
    refine ⟨hnone, hg.push (fun hkind => ?_) (fun _ => ⟨_, hentry, rfl, rfl⟩) (fun a ha => ?_) rfl⟩
    · cases hkind
    · exact absurd (hnone ▸ ha) (Nat.not_lt_zero a)

private theorem declares_declareEmbedded (hs : Standing 0 g) (hg : Declares config d g)
    (entry : String × EmbeddedObjectDeclaration) : Declares config d (declareEmbedded g entry).1 := by
  obtain ⟨key, decl⟩ := entry
  simp only [declareEmbedded]
  split
  · exact hg
  · rename_i h id hadd
    generalize he : Entity.mk 0 decl.name _ _ _ _ _ _ _ _ _ _ _ _ _ _ = e at hadd
    have hkind : e.kind = .embeddedValue := by
      subst he
      rfl
    obtain ⟨rfl, rfl⟩ := eq_of_addEntity? hadd
    have hobject : e.kind ≠ .object := by rw [hkind]; decide
    have henumeration : e.kind ≠ .enumeration := by rw [hkind]; decide
    -- What an embedded value declares is no attribute of an object.
    obtain ⟨htraced, eq⟩ := (hg.traced.addEntity hs henumeration).addAttributes (embeddedAttribute g.entities.size)
      decl.attributes fun y _ howned => by
        have howner : (embeddedAttribute g.entities.size y).owner = g.entities.size := rfl
        rw [howner, entity_push, if_pos rfl] at howned
        exact absurd howned hobject
    exact hg.push (absurd · hobject) (absurd · henumeration) htraced eq

private theorem declares_declareObject {s : WithKeys} (hs : Standing 0 s.1) (hg : Declares config d s.1)
    {entry : String × ObjectDeclaration} (hentry : entry ∈ d.objects.entries) :
    Declares config d (declareObject config s entry).1.1 := by
  obtain ⟨key, decl⟩ := entry
  simp only [declareObject]
  split
  · exact hg
  · rename_i h id hadd
    generalize hdefaults : MemberDefaults.mk (decl.defaultFinalGetters.getD config.defaultFinalGetters)
      config.defaultTimezone = defaults at hadd ⊢
    generalize he : Entity.mk 0 decl.name _ _ _ _ _ _ _ _ _ _ _ _ _ _ = e at hadd
    obtain ⟨hname, hfallback, hkind⟩ : decl.name = e.name ∧ defaults = e.defaults ∧ e.kind ≠ .enumeration := by
      subst he
      exact ⟨rfl, rfl, by simp⟩
    obtain ⟨rfl, rfl⟩ := eq_of_addEntity? hadd
    have hnew := (s.1.entity_push e s.1.entities.size).trans (if_pos rfl)
    replace hname : decl.name = ((s.1.push e).entity s.1.entities.size).name := by
      rw [hnew]
      exact hname
    have hfallback' : defaults = ((s.1.push e).entity s.1.entities.size).defaults := by
      rw [hnew]
      exact hfallback
    have hstored := forall_idsOfKind_push (e := e) (q := fun e => (e.persistedType).isSome) (fun o ho => by
      obtain ⟨entry, -, hstored⟩ := hg.stored o ho
      simp [hstored]) (absurd · hkind)
    obtain ⟨htraced, eq⟩ := traced_addMembers (hg.traced.addEntity hs hkind) hfallback' hstored hentry hname
    refine hg.push (fun _ => ?_) (absurd · hkind) htraced eq
    rw [← hfallback, ← hdefaults]

private theorem declares_ofDeclarations (config : Config) (d : Declarations) :
    Declares config d (ofDeclarations config d).1.1 := by
  let P (g : Graph) : Prop := Standing 0 g ∧ Declares config d g
  have hempty : Declares config d empty :=
    ⟨fun a ha => absurd ha (Nat.not_lt_zero a), fun o ho => absurd ho List.not_mem_nil,
      fun o ho => absurd ho List.not_mem_nil⟩
  have henumerations : P (gather declareEnumeration empty d.enumerations.entries).1 := by
    obtain ⟨hstanding, -, hdeclares⟩ := gather_invariant
      (fun g : Graph => Standing 0 g ∧ g.attributes.size = 0 ∧ Declares config d g) (fun _ entry hentry hg =>
        ⟨standing_declareEnumeration hg.1 entry, declares_declareEnumeration hg.2.1 hg.2.2 hentry⟩)
      ⟨standing_empty, rfl, hempty⟩
    exact ⟨hstanding, hdeclares⟩
  have hembedded : P (gather declareEmbedded (gather declareEnumeration empty d.enumerations.entries).1
      d.embeddedObjects.entries).1 :=
    gather_invariant P (fun _ entry _ hg =>
      ⟨standing_declareEmbedded hg.1 entry, declares_declareEmbedded hg.1 hg.2 entry⟩) henumerations
  exact (gather_invariant (fun s : WithKeys => P s.1) (fun _ entry hentry hs =>
    ⟨standing_declareObject hs.1 entry, declares_declareObject hs.1 hs.2 hentry⟩) hembedded).2

end Declares

/-! ### Stages before inheritance -/

private theorem attributes_registerInterfaces (g : Graph) (d : Declarations) :
    (g.registerInterfaces d).1.attributes = g.attributes := by
  refine gather_invariant (fun h : Graph => h.attributes = g.attributes) (fun h entry _ hh => ?_) rfl
  unfold registerInterface
  dsimp only
  split
  · exact hh
  · split <;> exact hh

private theorem attributes_resolveEmbeddedValues (g : Graph) : g.resolveEmbeddedValues.1.attributes = g.attributes := by
  have hchecked : (gather checkNested g (g.idsOfKind .embeddedValue)).1.attributes = g.attributes :=
    gather_invariant (fun h : Graph => h.attributes = g.attributes) (fun _ _ _ hh => hh) rfl
  exact gather_invariant (fun h : Graph => h.attributes = g.attributes)
    (fun h id _ hh => (unfolds_visitNested _ _ h id).attributes.trans hh) hchecked

private theorem attributes_bindRelationships (g : Graph) (object : EntityId × String) :
    (g.bindRelationships object).1.attributes = g.attributes := by
  refine gather_invariant (fun h : Graph => h.attributes = g.attributes) (fun h r _ hh => ?_) rfl
  unfold bindRelated
  dsimp only
  split <;> exact hh

/-- An attribute gets the class and the members of the enumeration that it is bound to; it had its type before. -/
private theorem traced_bindEnumeration (hg : Traced d g) (a : AttributeId) : Traced d (g.bindEnumeration a) := by
  unfold bindEnumeration
  split
  · rename_i settings hbefore
    split
    · exact hg
    · rename_i target hfound
      intro b hlt hkind
      rw [size_modifyAttribute] at hlt
      rw [attributeAt_modifyAttribute] at hkind ⊢
      split
      · rename_i hsame
        rw [if_pos hsame] at hkind
        have htraced := hg b hlt hkind
        refine { htraced with column := ?_, asOf := ?_, enumeration := ?_ }
        all_goals
          intro s hs
          cases hs
        obtain ⟨rfl, -⟩ := hsame
        refine ⟨(htraced.enumeration _ hbefore).typed, rfl, fun e he => ?_⟩
        obtain rfl := Option.some.inj he
        exact ⟨g.mem_idsOfKind_of_lookup hfound, (htraced.enumeration _ hbefore).typed _ hfound, rfl⟩
      · rename_i hother
        rw [if_neg hother] at hkind
        exact isTraced_of_outline_eq (outline_modifyAttribute ..) (hg b hlt hkind)
  · exact hg

private theorem keptByMapping_traced (owner : EntityId) : KeptByMapping owner (Traced d) :=
  fun _ hh name type settings => hh.addAttribute fun _ => isTraced_ofMapping rfl name type settings

/-- Names are bound and embedded values expanded. -/
private theorem traced_prepared (hg : Traced d g) (hpristine : g.Pristine) (declared : List (EntityId × String)) :
    Traced d (g.prepared d declared) := by
  have hsame : (gather bindRelationships g declared).1.attributes = g.attributes :=
    gather_invariant (fun h : Graph => h.attributes = g.attributes)
      (fun h object _ hh => (attributes_bindRelationships h object).trans hh) rfl
  have hbound := hg.congr hsame (prepared_spec hpristine d declared).1.outline
  have hlinked : Traced d ((declared.map (·.1)).foldl bindEnumerations (gather bindRelationships g declared).1) :=
    List.foldlRecOn _ bindEnumerations (motive := Traced d) hbound fun h hh o _ =>
      List.foldlRecOn _ bindEnumeration (motive := Traced d) hh fun _ hk a _ => traced_bindEnumeration hk a
  exact gather_invariant (Traced d)
    (fun _ object _ hh => (keptByMapping_traced object.1).expandDeclared hh d object.2) hlinked

/-- A graph is resolved by way of one whose attributes are traced. -/
theorem exists_traced_of_resolve {config : Config} (hresolve : (d.resolve config).1 = .ok g) :
    ∃ g₀, Completes g₀ g ∧ Declares config d g₀ := by
  obtain ⟨-, hclean, rfl⟩ := clean_of_resolve hresolve
  obtain ⟨hpristine, hdeclared⟩ := staged_spec config d
  obtain ⟨htraced, htimezone, hreflects⟩ := declares_ofDeclarations config d
  have hstaged := follows_staged config d
  have hattributes : (staged config d).attributes = (ofDeclarations config d).1.1.attributes :=
    (attributes_resolveEmbeddedValues _).trans (attributes_registerInterfaces ..)
  have hprepared := prepared_spec hpristine d (ofDeclarations config d).1.2
  have eq := (hstaged.trans (hprepared.1.toFollows.trans hprepared.2.toFollows)).outline
  refine ⟨_, completes_of_clean hpristine hdeclared hclean,
    traced_prepared (htraced.congr hattributes hstaged.outline) hpristine _, fun o ho => ?_, fun o ho => ?_⟩
  · rw [idsOfKind_of_outline_eq eq] at ho
    rw [defaults_of_outline_eq eq]
    exact htimezone o ho
  · rw [idsOfKind_of_outline_eq eq] at ho
    obtain ⟨entry, hentry, hsame⟩ := hreflects o ho
    exact ⟨entry, hentry, reflects_of_outline_eq eq hsame⟩

/-! ### Inheritance -/

variable {g₀ : Graph} {o p : EntityId}

/-- The attribute has the defaults of the object and the backing of its enumeration. -/
structure IsBackedBy (g : Graph) (o : EntityId) (a : Attribute) : Prop where
  defaults : a.defaults = (g.entity o).defaults
  enumeration : ∀ s, a.kind = .enumeration s → s.IsBacked g a.dataType

/-- What is filled in from a superclass has nothing to do with the enumeration. -/
theorem IsBackedBy.mergedWith {a : Attribute} (ha : IsBackedBy g o a) (t : Attribute) :
    IsBackedBy g o (a.mergedWith t).1 := by
  refine ⟨by rw [Attribute.mergedWith_eq]; exact ha.defaults, fun s hs => ?_⟩
  rw [show (a.mergedWith t).1.dataType = a.dataType by rw [Attribute.mergedWith_eq]]
  unfold Attribute.mergedWith at hs
  split at hs
  · unfold Attribute.filledFrom at hs
    split at hs
    · cases hs
    · cases hs
    · rename_i mine theirs hmine _
      obtain rfl := AttributeKind.enumeration.inj hs
      obtain ⟨htyped, hclass, hbound⟩ := ha.enumeration mine hmine
      exact ⟨htyped, hclass, hbound⟩
    · exact ha.enumeration s hs
  · exact ha.enumeration s hs

namespace Completes

variable (c : Completes g₀ g)

include c

/-- Objects have attributes of their own before inheritance, and all are traced. -/
theorem isTraced_of_mem (htraced : Traced d g₀) (ho : o ∈ g₀.idsOfKind .object) {a : Attribute}
    (ha : a ∈ g₀.attributesOf o) : a.IsTraced d g₀ ∧ a.owner = o := by
  obtain ⟨i, hi, rfl⟩ := List.mem_map.1 ha
  obtain ⟨hlt, howner⟩ := c.pristine.sound.attribute_owned o i hi
  exact ⟨htraced i hlt (by rw [howner]; exact g₀.kind_of_mem_idsOfKind ho), howner⟩

theorem isBackedBy_of_mem (htraced : Traced d g₀) (ho : o ∈ g₀.idsOfKind .object) {a : Attribute}
    (ha : a ∈ g₀.attributesOf o) : IsBackedBy g₀ o a := by
  obtain ⟨htraced, rfl⟩ := c.isTraced_of_mem htraced ho ha
  exact ⟨htraced.defaults, htraced.enumeration⟩

/-- Inheritance keeps the defaults of the object and the backing of the enumeration. -/
theorem isBackedBy (htraced : Traced d g₀) (ho : o ∈ g₀.idsOfKind .object) :
    ∀ m ∈ (g₀.settled.membersOf o).attributes, IsBackedBy g₀ o m.value := by
  refine c.attribute_induction_of_filled (q := fun o m => IsBackedBy g₀ o m.value)
    (fun o ho m hm x hx theirs hfilled => ?_) (fun o p t ho hup ht => ⟨rfl, ht.enumeration⟩) ho
  have hown : IsBackedBy g₀ o x.value := by
    obtain ⟨i, hi, rfl⟩ := List.mem_map.1 hx
    exact c.isBackedBy_of_mem htraced ho (List.mem_map_of_mem hi)
  clear hm hx
  induction hfilled with
  | refl => exact hown
  | merge _ _ _ _ ih => exact ih (hown.mergedWith _)

end Completes

/-- An enumeration attribute without a problem is bound. -/
theorem isSome_target_of_problems {a : Attribute} {s : EnumerationSettings} (hkind : a.kind = .enumeration s)
    (hproblems : a.problems = []) : s.target.isSome := by
  simp only [Attribute.problems, hkind] at hproblems
  obtain ⟨hdefined, -⟩ := List.append_eq_nil_iff.1 hproblems
  by_contra hnone
  rw [Bool.not_eq_true] at hnone
  rw [hnone] at hdefined
  cases hdefined

end Graph

end Metamodel
