import Metamodel.Proofs.Graph.Soundness
import Metamodel.Proofs.Issue.Clean
import Metamodel.Resolution.Session

/-!
# Graphs before inheritance

In a pristine graph nothing is inherited or reversed yet, no object has been visited, and nested values lead to
embedded values only.  The graph of declarations is pristine (`wraps_ofDeclarations`), and so it stays until
inheritance: every earlier step of resolution keeps it so, with its outline.
-/

namespace Metamodel.Graph

structure Pristine (g : Graph) : Prop where
  sound : g.Sound
  attributes : ∀ a, (g.attributeAt a).originalOwner = none
  relationships : ∀ r, (g.relationshipAt r).originalOwner = none ∧ (g.relationshipAt r).reversal = none
  superEntity : ∀ o, (g.entity o).superEntity = none
  unresolved : ∀ o, (g.entity o).kind = .object → g.stateOf o = .unresolved
  nested : ∀ o, ∀ t ∈ g.nestedTargets o, (g.entity t).kind = .embeddedValue

variable {g h : Graph}

private theorem pristine_empty : empty.Pristine where
  sound := by
    constructor
    · intro o a ha
      cases ha
    · intro o
      exact List.nodup_nil
    · intro o r hr
      cases hr
    · intro o
      exact List.nodup_nil
    · intro o s hs
      cases hs
  attributes _ := rfl
  relationships _ := ⟨rfl, rfl⟩
  superEntity _ := rfl
  unresolved _ _ := rfl
  nested o t ht := by cases ht

namespace Pristine

/-- A sound graph whose members are as they should be, with entities as they were up to their members. -/
private theorem update (hg : g.Pristine) (hsound : h.Sound) (hattributes : ∀ a, (h.attributeAt a).originalOwner = none)
    (hrelationships : ∀ r, (h.relationshipAt r).originalOwner = none ∧ (h.relationshipAt r).reversal = none)
    (hentity : ∀ o, (h.entity o).superEntity = (g.entity o).superEntity ∧ (h.entity o).kind = (g.entity o).kind ∧
      h.stateOf o = g.stateOf o ∧ (h.entity o).nested = (g.entity o).nested) : h.Pristine := by
  refine ⟨hsound, hattributes, hrelationships, fun o => ?_, fun o => ?_, fun o t => ?_⟩
  · rw [(hentity o).1]
    exact hg.superEntity o
  · rw [(hentity o).2.1, (hentity o).2.2.1]
    exact hg.unresolved o
  · rw [nestedTargets, (hentity o).2.2.2, (hentity t).2.1]
    exact hg.nested o t

/-- Interfaces do not matter. -/
theorem congr (hg : g.Pristine) (he : h.entities = g.entities) (ha : h.attributes = g.attributes)
    (hr : h.relationships = g.relationships) : h.Pristine := by
  obtain ⟨entities, attributes, relationships, interfaces, numbered⟩ := h
  obtain ⟨entities', attributes', relationships', interfaces', numbered'⟩ := g
  dsimp only at he ha hr
  subst he ha hr
  obtain ⟨h1, h2, h3, h4, h5⟩ := hg.sound
  exact hg.update ⟨h1, h2, h3, h4, h5⟩ hg.attributes hg.relationships fun _ => ⟨rfl, rfl, rfl, rfl⟩

theorem addAttribute (hg : g.Pristine) {a : Attribute} (ha : a.originalOwner = none) : (g.addAttribute a).Pristine := by
  refine hg.update (hg.sound.addAttribute a) (fun b => ?_) hg.relationships fun o => ?_
  · rw [attributeAt_addAttribute]
    split
    · exact ha
    · exact hg.attributes b
  · rw [stateOf, entity_addAttribute]
    split <;> exact ⟨rfl, rfl, rfl, rfl⟩

theorem addRelationship (hg : g.Pristine) {r : Relationship} (hr : r.originalOwner = none ∧ r.reversal = none) :
    (g.addRelationship r).Pristine := by
  refine hg.update (hg.sound.addRelationship r) hg.attributes (fun s => ?_) fun o => ?_
  · rw [relationshipAt_addRelationship]
    split
    · exact hr
    · exact hg.relationships s
  · rw [stateOf, entity_addRelationship]
    split <;> exact ⟨rfl, rfl, rfl, rfl⟩

theorem modifyAttribute (hg : g.Pristine) (a : AttributeId) {f : Attribute → Attribute}
    (hf : ∀ x, (f x).owner = x.owner ∧ (f x).originalOwner = x.originalOwner) : (g.modifyAttribute a f).Pristine := by
  refine hg.update (hg.sound.modifyAttribute a (hf _).1) (fun b => ?_) hg.relationships fun _ => ⟨rfl, rfl, rfl, rfl⟩
  rw [attributeAt_modifyAttribute]
  split
  · rw [(hf _).2]
    exact hg.attributes b
  · exact hg.attributes b

theorem modifyRelationship (hg : g.Pristine) (r : RelationshipId) {f : Relationship → Relationship}
    (hf : ∀ x, (f x).owner = x.owner ∧ (f x).originalOwner = x.originalOwner ∧ (f x).reversal = x.reversal) :
    (g.modifyRelationship r f).Pristine := by
  refine hg.update (hg.sound.modifyRelationship r (hf _).1) hg.attributes (fun s => ?_) fun _ => ⟨rfl, rfl, rfl, rfl⟩
  rw [relationshipAt_modifyRelationship]
  split
  · rw [(hf _).2.1, (hf _).2.2]
    exact hg.relationships s
  · exact hg.relationships s

/-- A change of an entity that keeps it as it should be. -/
theorem modifyEntity (hg : g.Pristine) (id : EntityId) {f : Entity → Entity}
    (hsound : (g.modifyEntity id f).Sound) (hf : ∀ e, (f e).superEntity = e.superEntity ∧ (f e).kind = e.kind)
    (hstate : (g.entity id).kind = .object → (f (g.entity id)).state = .unresolved)
    (hnested : ∀ t ∈ (f (g.entity id)).nested.filterMap (·.target), (g.entity t).kind = .embeddedValue) :
    (g.modifyEntity id f).Pristine := by
  have hentity : ∀ o, ((g.modifyEntity id f).entity o).superEntity = (g.entity o).superEntity ∧
      ((g.modifyEntity id f).entity o).kind = (g.entity o).kind := by
    intro o
    rw [entity_modifyEntity]
    split
    · exact hf _
    · exact ⟨rfl, rfl⟩
  refine ⟨hsound, hg.attributes, hg.relationships, fun o => ?_, fun o ho => ?_, fun o t ht => ?_⟩
  · rw [(hentity o).1]
    exact hg.superEntity o
  · rw [(hentity o).2] at ho
    rw [stateOf, entity_modifyEntity]
    split
    · rename_i h
      rw [← h.1] at ho ⊢
      exact hstate ho
    · exact hg.unresolved o ho
  · rw [(hentity t).2]
    rw [nestedTargets, entity_modifyEntity] at ht
    split at ht
    · rename_i h
      rw [← h.1] at ht
      exact hnested t ht
    · exact hg.nested o t ht

/-- Only objects need to be unresolved. -/
theorem setState (hg : g.Pristine) {id : EntityId} (hid : (g.entity id).kind = .embeddedValue) (state : EntityState) :
    (g.setState id state).Pristine := by
  refine hg.modifyEntity id (hg.sound.setState id state) (fun _ => ⟨rfl, rfl⟩) (fun hobject => ?_) (hg.nested id)
  rw [hid] at hobject
  cases hobject

end Pristine

/-! ### Declarations -/

theorem Pristine.addEntity (hg : g.Pristine) {e : Entity} (he : IsBare e) :
    (g.push e).Pristine := by
  have hentity := g.entity_push e
  refine ⟨hg.sound.addEntity he, hg.attributes, hg.relationships, fun o => ?_, fun o ho => ?_, fun o t ht => ?_⟩
  · rw [hentity]
    split
    · exact he.superEntity
    · exact hg.superEntity o
  · rw [hentity] at ho
    rw [stateOf, hentity]
    by_cases h : o = g.entities.size
    · rw [if_pos h]
      exact he.state
    · rw [if_neg h] at ho ⊢
      exact hg.unresolved o ho
  · rw [nestedTargets, hentity] at ht
    split at ht
    · rw [he.nested] at ht
      cases ht
    · have hold := hg.nested o t ht
      -- An index beyond the end reads the default entity, which is no embedded value.
      rw [hentity, if_neg]
      · exact hold
      · rintro rfl
        simp [entity] at hold
        cases hold

/-- A later graph is pristine and has the same entities up to their members. -/
structure Follows (g h : Graph) : Prop where
  pristine : h.Pristine
  outline : h.outline = g.outline

theorem Follows.trans {k : Graph} (first : Follows g h) (second : Follows h k) : Follows g k :=
  ⟨second.pristine, second.outline.trans first.outline⟩

private theorem follows_foldl {α : Type} {step : Graph → α → Graph} {as : List α} (hg : g.Pristine)
    (hstep : ∀ h, Follows g h → ∀ a ∈ as, Follows h (step h a)) : Follows g (as.foldl step g) := by
  induction as generalizing g with
  | nil => exact ⟨hg, rfl⟩
  | cons a as ih =>
    have hfirst := hstep g ⟨hg, rfl⟩ a List.mem_cons_self
    exact hfirst.trans (ih hfirst.pristine fun h hh b hb => hstep h (hfirst.trans hh) b (List.mem_cons_of_mem _ hb))

private theorem follows_gather {α : Type} {step : Graph → α → Found Graph} {as : List α} (hg : g.Pristine)
    (hstep : ∀ h, Follows g h → ∀ a ∈ as, Follows h (step h a).1) : Follows g (gather step g as).1 :=
  gather_invariant (Follows g) (fun h a ha hh => hh.trans (hstep h hh a ha)) ⟨hg, rfl⟩

private theorem follows_addAttribute (hg : g.Pristine) {a : Attribute} (ha : a.originalOwner = none) :
    Follows g (g.addAttribute a) :=
  ⟨hg.addAttribute ha, outline_addAttribute ..⟩

private theorem follows_addAttributes {α : Type} (hg : g.Pristine) (make : α → Attribute)
    (hmake : ∀ d, (make d).originalOwner = none) (ds : List α) : Follows g (g.addAttributes make ds) :=
  follows_foldl hg fun _ hh d _ => follows_addAttribute hh.pristine (hmake d)

private theorem follows_addSource (hg : g.Pristine) {id : EntityId} (hid : id < g.entities.size)
    (defaults : MemberDefaults) (source : Option SourceDeclaration) : Follows g (g.addSource id defaults source) := by
  cases source with
  | none => exact ⟨hg, rfl⟩
  | some d =>
    have hadded := hg.addAttribute (a := .ofSource d id defaults) rfl
    have hlisted : g.attributes.size ∈ ((g.addAttribute (.ofSource d id defaults)).entity id).attributes := by
      rw [entity_addAttribute, if_pos ⟨rfl, hid⟩]
      simp
    refine ⟨hadded.modifyEntity id (hadded.sound.setSource hlisted) (fun _ => ⟨rfl, rfl⟩) (hadded.unresolved id)
      (hadded.nested id), ?_⟩
    have hsource := outline_modifyEntity (g.addAttribute (.ofSource d id defaults)) id
      (f := fun e => { e with source := some g.attributes.size }) fun _ => rfl
    exact hsource.trans (outline_addAttribute ..)

private theorem follows_addMembers (hg : g.Pristine) {id : EntityId} (hid : id < g.entities.size)
    (defaults : MemberDefaults) (d : ObjectDeclaration) : Follows g (g.addMembers id defaults d) := by
  have h₁ := follows_addAttributes hg (Attribute.ofDeclaration · id defaults) (fun _ => rfl) d.attributes
  let g₁ := g.addAttributes (Attribute.ofDeclaration · id defaults) d.attributes
  have h₂ := h₁.trans
    (follows_addAttributes h₁.pristine (Attribute.ofAsOf · id defaults) (fun _ => rfl) d.asOfAttributes)
  let g₂ := g₁.addAttributes (Attribute.ofAsOf · id defaults) d.asOfAttributes
  have h₃ := h₂.trans (follows_addAttributes h₂.pristine (g₂.enumerationAttribute id defaults) (fun _ => rfl)
    d.enumerationAttributes)
  have hid₃ := size_of_outline_eq h₃.outline ▸ hid
  have h₄ := h₃.trans (follows_addSource h₃.pristine hid₃ defaults d.sourceAttribute)
  refine h₄.trans (follows_foldl h₄.pristine fun h hh r _ => ?_)
  exact ⟨hh.pristine.addRelationship (r := .ofDeclaration r id) ⟨rfl, rfl⟩, outline_addRelationship ..⟩

/-- The entity has the name and the interfaces of an object that is declared. -/
def StemsFrom (d : Declarations) (g : Graph) (o : EntityId) : Prop :=
  ∃ entry ∈ d.objects.entries, (g.entity o).name = entry.2.name ∧ (g.entity o).interfaces = entry.2.interfaces

theorem StemsFrom.of_outline_eq {d : Declarations} {g h : Graph} {o : EntityId} (eq : h.outline = g.outline)
    (ho : StemsFrom d g o) : StemsFrom d h o := by
  unfold StemsFrom
  rw [name_of_outline_eq eq, interfaces_of_outline_eq eq]
  exact ho

theorem StemsFrom.push {d : Declarations} {g : Graph} {o : EntityId} (ho : StemsFrom d g o)
    (hlt : o < g.entities.size) (e : Entity) : StemsFrom d (g.push e) o := by
  unfold StemsFrom
  rw [entity_push, if_neg (Nat.ne_of_lt hlt)]
  exact ho

/-- Declared types are wrapped as they are, and the objects are those noted with their keys. -/
structure Wraps (d : Declarations) (s : WithKeys) : Prop where
  pristine : s.1.Pristine
  objects : s.2.map (·.1) = s.1.idsOfKind .object
  stems : ∀ o ∈ s.1.idsOfKind .object, StemsFrom d s.1 o

variable {d : Declarations}

/-- Other types can be added, with their members. -/
private theorem Wraps.stems_of_push {s : WithKeys} (hs : Wraps d s) {e : Entity} (hkind : e.kind ≠ .object) {h : Graph}
    (eq : h.outline = (s.1.push e).outline) :
    h.idsOfKind .object = s.1.idsOfKind .object ∧ ∀ o ∈ h.idsOfKind .object, StemsFrom d h o := by
  have hids : h.idsOfKind .object = s.1.idsOfKind .object := by
    rw [idsOfKind_of_outline_eq eq, idsOfKind_push, if_neg hkind, List.append_nil]
  refine ⟨hids, fun o ho => ?_⟩
  rw [hids] at ho
  exact ((hs.stems o ho).push (s.1.lt_size_of_mem_idsOfKind ho) e).of_outline_eq eq

private theorem wraps_declareObject {config : Config} {s : WithKeys} (hs : Wraps d s)
    {entry : String × ObjectDeclaration}
    (hentry : entry ∈ d.objects.entries) : Wraps d (declareObject config s entry).1 := by
  obtain ⟨key, decl⟩ := entry
  simp only [declareObject]
  split
  · exact hs
  · rename_i h id hadd
    generalize hdefaults : MemberDefaults.mk (decl.defaultFinalGetters.getD config.defaultFinalGetters)
      config.defaultTimezone = defaults at hadd ⊢
    generalize he : Entity.mk 0 decl.name _ _ _ _ _ _ _ _ _ _ _ _ _ _ = e at hadd
    have hbare : IsBare e := by
      subst he
      exact ⟨rfl, rfl, rfl, rfl, rfl, rfl⟩
    have hkind : e.kind = .object := by
      subst he
      rfl
    have hstems : e.name = decl.name ∧ e.interfaces = decl.interfaces := by
      subst he
      exact ⟨rfl, rfl⟩
    obtain ⟨rfl, rfl⟩ := eq_of_addEntity? hadd
    have hmembers := follows_addMembers (hs.pristine.addEntity hbare) (by simp : s.1.entities.size < _) defaults decl
    have hids := (idsOfKind_of_outline_eq hmembers.outline .object).trans (s.1.idsOfKind_push e .object)
    rw [if_pos hkind] at hids
    refine ⟨hmembers.pristine, ?_, fun o ho => ?_⟩
    · rw [hids, List.map_append, hs.objects]
      rfl
    · refine StemsFrom.of_outline_eq hmembers.outline ?_
      rw [hids] at ho
      rcases List.mem_append.1 ho with ho | ho
      · exact (hs.stems o ho).push (s.1.lt_size_of_mem_idsOfKind ho) e
      · refine ⟨_, hentry, ?_⟩
        rw [entity_push, if_pos (List.mem_singleton.1 ho)]
        exact hstems

private theorem wraps_declareEmbedded {g : Graph} (hg : Wraps d (g, [])) (entry : String × EmbeddedObjectDeclaration) :
    Wraps d ((declareEmbedded g entry).1, []) := by
  obtain ⟨key, decl⟩ := entry
  simp only [declareEmbedded]
  split
  · exact hg
  · rename_i h id hadd
    generalize he : Entity.mk 0 decl.name _ _ _ _ _ _ _ _ _ _ _ _ _ _ = e at hadd
    have hbare : IsBare e := by
      subst he
      refine ⟨rfl, rfl, rfl, rfl, rfl, ?_⟩
      simp
    have hkind : e.kind = .embeddedValue := by
      subst he
      rfl
    obtain ⟨rfl, rfl⟩ := eq_of_addEntity? hadd
    have hattributes := follows_addAttributes (hg.pristine.addEntity hbare) (embeddedAttribute g.entities.size)
      (fun _ => rfl) decl.attributes
    obtain ⟨hids, hstems⟩ := hg.stems_of_push (by rw [hkind]; decide) hattributes.outline
    exact ⟨hattributes.pristine, hg.objects.trans hids.symm, hstems⟩

private theorem wraps_declareEnumeration {g : Graph} (hg : Wraps d (g, [])) (entry : String × EnumerationDeclaration) :
    Wraps d ((declareEnumeration g entry).1, []) := by
  obtain ⟨key, decl⟩ := entry
  simp only [declareEnumeration]
  split
  · exact hg
  · rename_i h id hadd
    generalize he : Entity.mk 0 decl.name _ _ _ _ _ _ _ _ _ _ _ _ _ _ = e at hadd
    have hbare : IsBare e := by
      subst he
      exact ⟨rfl, rfl, rfl, rfl, rfl, rfl⟩
    have hkind : e.kind = .enumeration := by
      subst he
      rfl
    obtain ⟨rfl, -⟩ := eq_of_addEntity? hadd
    obtain ⟨hids, hstems⟩ := hg.stems_of_push (by rw [hkind]; decide) rfl
    exact ⟨hg.pristine.addEntity hbare, hg.objects.trans hids.symm, hstems⟩

/-- The graph of declarations. -/
theorem wraps_ofDeclarations (config : Config) (d : Declarations) : Wraps d (ofDeclarations config d).1 := by
  have hempty : Wraps d (empty, []) := ⟨pristine_empty, rfl, fun o ho => absurd ho List.not_mem_nil⟩
  have henumerations : Wraps d ((gather declareEnumeration empty d.enumerations.entries).1, []) :=
    gather_invariant (fun g => Wraps d (g, [])) (fun _ entry _ hg => wraps_declareEnumeration hg entry) hempty
  have hembedded : Wraps d ((gather declareEmbedded (gather declareEnumeration empty d.enumerations.entries).1
      d.embeddedObjects.entries).1, []) :=
    gather_invariant (fun g => Wraps d (g, [])) (fun _ entry _ hg => wraps_declareEmbedded hg entry) henumerations
  exact gather_invariant (Wraps d) (fun _ _ hentry hs => wraps_declareObject hs hentry) hembedded

/-! ### Stages before objects -/

theorem follows_registerInterfaces (hg : g.Pristine) (d : Declarations) : Follows g (g.registerInterfaces d).1 := by
  have hstep : ∀ (cyclic : List String) (h : Graph) (entry : String × InterfaceDeclaration), h.Pristine →
      Follows h (registerInterface d cyclic h entry).1 := by
    intro cyclic h entry hh
    unfold registerInterface
    dsimp only
    split
    · exact ⟨hh, rfl⟩
    · split
      · exact ⟨hh.congr rfl rfl rfl, rfl⟩
      · exact ⟨hh, rfl⟩
  exact follows_gather hg fun h hh entry _ => hstep _ h entry hh.pristine

private theorem follows_checkNested (hg : g.Pristine) (id : EntityId) : Follows g (g.checkNested id).1 := by
  refine ⟨hg.modifyEntity id (hg.sound.modifyEntity id fun _ => ⟨rfl, rfl, rfl⟩) (fun _ => ⟨rfl, rfl⟩)
    (hg.unresolved id) fun t ht => ?_, outline_modifyEntity _ _ fun _ => rfl⟩
  obtain ⟨n, hn, hlookup⟩ := List.mem_filterMap.1 ht
  obtain ⟨m, -, rfl⟩ := List.mem_map.1 hn
  exact kind_of_mem_idsOfKind g (g.mem_idsOfKind_of_lookup hlookup)

private theorem follows_setState (hg : g.Pristine) {id : EntityId} (hid : (g.entity id).kind = .embeddedValue)
    (state : EntityState) : Follows g (g.setState id state) :=
  ⟨hg.setState hid state, outline_setState ..⟩

/-- A visit changes states of embedded values only. -/
private theorem follows_visitNested (hg : g.Pristine) {steps : Nat} {path : List EntityId} {id : EntityId}
    (hpath : ∀ o ∈ path, (g.entity o).kind = .embeddedValue) (hid : (g.entity id).kind = .embeddedValue) :
    Follows g (visitNested steps path g id).1 := by
  induction steps generalizing path g id with
  | zero => exact ⟨hg, rfl⟩
  | succ steps ih =>
    rw [visitNested]
    split
    · exact ⟨hg, rfl⟩
    · exact ⟨hg, rfl⟩
    · refine follows_foldl hg fun h hh o ho => follows_setState hh.pristine ?_ .failed
      rw [kind_of_outline_eq hh.outline]
      exact hpath o ((List.dropWhile_suffix _).subset ho)
    · have hentered := follows_setState hg hid .inProgress
      have hvisited : Follows g (gather (visitNested steps (path ++ [id])) (g.setState id .inProgress)
          (g.nestedTargets id)).1 := by
        refine hentered.trans (follows_gather hentered.pristine fun h hh t ht => ?_)
        have hkind := kind_of_outline_eq (hentered.trans hh).outline
        refine ih hh.pristine (fun o ho => ?_) ?_
        · rw [hkind]
          rcases List.mem_append.1 ho with ho | ho
          · exact hpath o ho
          · rw [List.mem_singleton.1 ho]
            exact hid
        · rw [hkind]
          exact hg.nested id t ht
      dsimp only
      split
      · refine hvisited.trans (follows_setState hvisited.pristine ?_ _)
        rw [kind_of_outline_eq hvisited.outline, hid]
      · exact hvisited

theorem follows_resolveEmbeddedValues (hg : g.Pristine) : Follows g g.resolveEmbeddedValues.1 := by
  have hchecked : Follows g (gather checkNested g (g.idsOfKind .embeddedValue)).1 :=
    follows_gather hg fun h hh id _ => follows_checkNested hh.pristine id
  refine hchecked.trans (follows_gather hchecked.pristine fun h hh id hid => ?_)
  refine follows_visitNested hh.pristine (fun o ho => absurd ho List.not_mem_nil) ?_
  rw [kind_of_outline_eq (hchecked.trans hh).outline]
  exact kind_of_mem_idsOfKind g hid

end Metamodel.Graph
