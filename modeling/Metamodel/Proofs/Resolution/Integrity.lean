import Metamodel.Proofs.Graph.Standing
import Metamodel.Proofs.Join.Reading
import Metamodel.Proofs.Resolution.Success

/-!
# Integrity through resolution

Every step of resolution keeps the graph intact, whether the step finds errors or not: steps before the claims advance
it at the stage that they belong to, and claims refer to relationships that exist.  So the graph is intact from the
declarations to the end (`Session.intact_graph`).
-/

namespace Metamodel

namespace Graph

variable {g h k : Graph} {n : Nat}

/-! ### Declarations -/

/-- The attribute is declared by the entity, and refers to no other. -/
structure IsDeclaredBy (id : EntityId) (a : Attribute) : Prop where
  owner : a.owner = id
  originalOwner : a.originalOwner = none
  isMapped : a.isMapped = false
  enumerationTarget : a.enumerationTarget = none
  ownership : a.ownership = none

private theorem advances_addDeclared (hg : Standing 0 g) {id : EntityId} (hid : id < g.entities.size) {a : Attribute}
    (ha : IsDeclaredBy id a) : Advances 0 g (g.addAttribute a) := by
  have hlinked : a.LinkedIn g := by
    constructor
    · intro o ho
      rw [ha.originalOwner] at ho
      cases ho
    · intro t ht
      rw [ha.enumerationTarget] at ht
      cases ht
    · intro w hw
      rw [ha.ownership] at hw
      cases hw
  refine .addAttribute hg (by rwa [ha.owner]) hlinked ?_ ha.ownership
  simp [Attribute.stage, Attribute.isInherited, ha.originalOwner, ha.isMapped]

private theorem advances_addAttributes {α : Type} (hg : Standing 0 g) {id : EntityId} (hid : id < g.entities.size)
    (make : α → Attribute) (hmake : ∀ d, IsDeclaredBy id (make d)) (ds : List α) :
    Advances 0 g (g.addAttributes make ds) := by
  refine .foldl hg fun h hh d _ => ?_
  exact advances_addDeclared hh.standing (size_of_outline_eq hh.outline ▸ hid) (hmake d)

private theorem advances_addSource (hg : Standing 0 g) {id : EntityId} (hid : id < g.entities.size)
    (defaults : MemberDefaults)
    (source : Option SourceDeclaration) : Advances 0 g (g.addSource id defaults source) := by
  cases source with
  | none => exact .refl hg
  | some d =>
    have hadded := advances_addDeclared hg hid (a := .ofSource d id defaults) ⟨rfl, rfl, rfl, rfl, rfl⟩
    have hlisted : g.attributes.size ∈ ((g.addAttribute (.ofSource d id defaults)).entity id).attributes := by
      rw [entity_addAttribute, if_pos ⟨rfl, hid⟩]
      simp
    have hsource : ((g.addAttribute (.ofSource d id defaults)).attributeAt g.attributes.size).isSource = true := by
      rw [attributeAt_addAttribute, if_pos rfl]
      rfl
    exact hadded.trans (.setSource hadded.standing hlisted hsource)

private theorem advances_addDeclaredRelationship (hg : Standing 0 g) {id : EntityId} (hid : id ∈ g.idsOfKind .object)
    (d : RelationshipDeclaration) : Advances 0 g (g.addRelationship (.ofDeclaration d id)) := by
  refine .addRelationship hg ⟨hid, ?_, ?_, ?_⟩ rfl
  all_goals
    intro x hx
    cases hx

private theorem advances_addMembers (hg : Standing 0 g) {id : EntityId} (hid : id ∈ g.idsOfKind .object)
    (defaults : MemberDefaults) (d : ObjectDeclaration) : Advances 0 g (g.addMembers id defaults d) := by
  have index : ∀ {h}, Advances 0 g h → id < h.entities.size := fun hh =>
    lt_size_of_mem_idsOfKind _ (hh.mem_idsOfKind hid)
  let g₁ := g.addAttributes (Attribute.ofDeclaration · id defaults) d.attributes
  have h₁ : Advances 0 g g₁ := advances_addAttributes hg (index (.refl hg)) (Attribute.ofDeclaration · id defaults)
    (fun _ => ⟨rfl, rfl, rfl, rfl, rfl⟩) d.attributes
  let g₂ := g₁.addAttributes (Attribute.ofAsOf · id defaults) d.asOfAttributes
  have h₂ : Advances 0 g g₂ := h₁.trans (advances_addAttributes h₁.standing (index h₁) (Attribute.ofAsOf · id defaults)
    (fun _ => ⟨rfl, rfl, rfl, rfl, rfl⟩) d.asOfAttributes)
  let g₃ := g₂.addAttributes (g₂.enumerationAttribute id defaults) d.enumerationAttributes
  have h₃ : Advances 0 g g₃ := h₂.trans (advances_addAttributes h₂.standing (index h₂)
    (g₂.enumerationAttribute id defaults) (fun _ => ⟨rfl, rfl, rfl, rfl, rfl⟩) d.enumerationAttributes)
  have h₄ : Advances 0 g (g₃.addSource id defaults d.sourceAttribute) :=
    h₃.trans (advances_addSource h₃.standing (index h₃) defaults d.sourceAttribute)
  refine h₄.trans (.foldl h₄.standing fun h hh r _ => ?_)
  exact advances_addDeclaredRelationship hh.standing (hh.mem_idsOfKind (h₄.mem_idsOfKind hid)) r

theorem standing_declareEnumeration (hg : Standing 0 g) (entry : String × EnumerationDeclaration) :
    Standing 0 (declareEnumeration g entry).1 := by
  obtain ⟨key, d⟩ := entry
  simp only [declareEnumeration]
  split
  · exact hg
  · rename_i h id hadd
    exact (hg.addEntity ⟨rfl, rfl, rfl, rfl, rfl, rfl⟩ hadd).1

theorem standing_declareEmbedded (hg : Standing 0 g) (entry : String × EmbeddedObjectDeclaration) :
    Standing 0 (declareEmbedded g entry).1 := by
  obtain ⟨key, d⟩ := entry
  simp only [declareEmbedded]
  split
  · exact hg
  · rename_i h id hadd
    obtain ⟨hstanding, hid, -⟩ := hg.addEntity ⟨rfl, rfl, rfl, rfl, rfl, by simp⟩ hadd
    exact (advances_addAttributes hstanding hid (embeddedAttribute id) (fun _ => ⟨rfl, rfl, rfl, rfl, rfl⟩)
      d.attributes).standing

theorem standing_declareObject {config : Config} {s : WithKeys} (hs : Standing 0 s.1)
    (entry : String × ObjectDeclaration) : Standing 0 (declareObject config s entry).1.1 := by
  obtain ⟨key, d⟩ := entry
  simp only [declareObject]
  split
  · exact hs
  · rename_i h id hadd
    obtain ⟨hstanding, hid, hkind⟩ := hs.addEntity ⟨rfl, rfl, rfl, rfl, rfl, rfl⟩ hadd
    have hobject : id ∈ h.idsOfKind .object :=
      h.mem_idsOfKind.2 ⟨hid, hkind⟩
    exact (advances_addMembers hstanding hobject _ d).standing

theorem standing_ofDeclarations (config : Config) (d : Declarations) : Standing 0 (ofDeclarations config d).1.1 := by
  have henumerations : Standing 0 (gather declareEnumeration empty d.enumerations.entries).1 :=
    gather_invariant (Standing 0) (fun _ entry _ hg => standing_declareEnumeration hg entry) standing_empty
  have hembedded : Standing 0 (gather declareEmbedded (gather declareEnumeration empty d.enumerations.entries).1
      d.embeddedObjects.entries).1 :=
    gather_invariant (Standing 0) (fun _ entry _ hg => standing_declareEmbedded hg entry) henumerations
  exact gather_invariant (fun s : WithKeys => Standing 0 s.1) (fun _ entry _ hs => standing_declareObject hs entry)
    hembedded

/-! ### Interfaces and embedded values -/

theorem standing_registerInterfaces (hg : Standing n g) (d : Declarations) : Standing n (g.registerInterfaces d).1 := by
  have hstep : ∀ (cyclic : List String) (h : Graph) (entry : String × InterfaceDeclaration), Standing n h →
      Standing n (registerInterface d cyclic h entry).1 := by
    intro cyclic h entry hh
    unfold registerInterface
    dsimp only
    split
    · exact hh
    · split
      · exact hh.addInterface _
      · exact hh
  exact gather_invariant (Standing n) (fun h entry _ hh => hstep _ h entry hh) hg

theorem advances_checkNested (hg : Standing n g) (id : EntityId) : Advances n g (g.checkNested id).1 := by
  refine .modifyEntity hg id (fun _ => rfl) (fun _ => ⟨rfl, rfl, rfl⟩) ⟨(hg.intact.entity_linked id).superEntity, ?_⟩
  intro t ht
  obtain ⟨v, hv, hlookup⟩ := List.mem_filterMap.1 ht
  obtain ⟨m, -, rfl⟩ := List.mem_map.1 hv
  exact g.mem_idsOfKind_of_lookup hlookup

theorem advances_visitNested (hg : Standing n g) {steps : Nat} {path : List EntityId} {id : EntityId} :
    Advances n g (visitNested steps path g id).1 := by
  induction steps generalizing path g id with
  | zero => exact .refl hg
  | succ steps ih =>
    rw [visitNested]
    split
    · exact .refl hg
    · exact .refl hg
    · exact .setStates hg _ _
    · have hentered := Advances.setState hg id .inProgress
      have hvisited : Advances n g (gather (visitNested steps (path ++ [id])) (g.setState id .inProgress)
          (g.nestedTargets id)).1 :=
        hentered.trans (.gather hentered.standing fun h hh t _ => ih hh.standing)
      dsimp only
      split
      · exact hvisited.trans (.setState hvisited.standing id _)
      · exact hvisited

theorem advances_resolveEmbeddedValues (hg : Standing n g) : Advances n g g.resolveEmbeddedValues.1 := by
  have hchecked : Advances n g (gather checkNested g (g.idsOfKind .embeddedValue)).1 :=
    .gather hg fun h hh id _ => advances_checkNested hh.standing id
  exact hchecked.trans (.gather hchecked.standing fun h hh id _ => advances_visitNested hh.standing)

/-! ### Names and embedded values of objects -/

theorem advances_bindRelated (hg : Standing n g) (key : String) (r : RelationshipId) :
    Advances n g (bindRelated key g r).1 := by
  unfold bindRelated
  dsimp only
  split
  · rename_i related hlookup
    refine .modifyRelationship hg r rfl rfl rfl fun e he => .inr ?_
    obtain rfl := Option.some.inj he
    exact g.mem_idsOfKind_of_lookup hlookup
  · exact .refl hg

theorem advances_bindRelationships (hg : Standing n g) (object : EntityId × String) :
    Advances n g (g.bindRelationships object).1 :=
  .gather hg fun _ hh r _ => advances_bindRelated hh.standing object.2 r

theorem advances_bindEnumeration (hg : Standing n g) (a : AttributeId) : Advances n g (g.bindEnumeration a) := by
  unfold bindEnumeration
  split
  · rename_i s hkind
    split
    · exact .refl hg
    · rename_i target hlookup
      refine .setKind hg a rfl (by rw [hkind]; rfl) fun t ht => .inr ?_
      obtain rfl := Option.some.inj ht
      exact g.mem_idsOfKind_of_lookup hlookup
  · exact .refl hg

theorem advances_bindEnumerations (hg : Standing n g) (owner : EntityId) : Advances n g (g.bindEnumerations owner) :=
  .foldl hg fun _ hh a _ => advances_bindEnumeration hh.standing a

theorem keptByMapping_advances {owner : EntityId} (howner : owner < g.entities.size) :
    KeptByMapping owner (Advances 1 g) := by
  intro h hh name type settings
  refine hh.trans (.addAttribute hh.standing (size_of_outline_eq hh.outline ▸ howner) ⟨?_, ?_, ?_⟩ rfl rfl)
  all_goals
    intro x hx
    cases hx

theorem advances_expandDeclared (d : Declarations) (hg : Standing 1 g) {object : EntityId × String}
    (howner : object.1 < g.entities.size) : Advances 1 g (expandDeclared d g object).1 :=
  (keptByMapping_advances howner).expandDeclared (.refl hg) d object.2

/-! ### Inheritance -/

section Inheritance

variable {child : EntityId}

private theorem advances_addInheritedAttribute (hg : Standing 2 g) (hchild : child < g.entities.size) {a : AttributeId}
    (ha : a < g.attributes.size) : Advances 2 g (addInheritedAttribute child g (g.attributeAt a)) := by
  have hold := hg.intact.attribute_linked a ha
  refine .addAttribute hg hchild ⟨fun o ho => ?_, hold.enumeration, fun w hw => ?_⟩ rfl rfl
  · obtain rfl := Option.some.inj ho
    cases horiginal : (g.attributeAt a).originalOwner with
    | none => exact g.lt_size_of_mem_attributes (hg.intact.attribute_listed a ha)
    | some o => exact hold.originalOwner o horiginal
  · cases hw

/-- A merge leaves the enumeration of an attribute as it is. -/
private theorem mergedWith_agrees (a t : Attribute) : (a.mergedWith t).1.AgreesWith a := by
  unfold Attribute.mergedWith
  split
  · exact Attribute.agreesWith_filledFrom a t
  · exact ⟨rfl, rfl, rfl, rfl, rfl⟩

theorem advances_inheritAttribute (hg : Standing 2 g) (hchild : child < g.entities.size) {source : Option AttributeId}
    {ownSource : Bool} {a : AttributeId} (ha : a < g.attributes.size)
    (hsource : some a = source → (g.attributeAt a).isSource = true) :
    Advances 2 g (inheritAttribute child source ownSource g a).1 := by
  unfold inheritAttribute
  dsimp only
  split
  · rename_i his
    split
    · exact .refl hg
    · have hadded := advances_addInheritedAttribute hg hchild ha
      refine hadded.trans (.setSource hadded.standing ?_ ?_)
      · rw [addInheritedAttribute, entity_addAttribute, if_pos ⟨rfl, hchild⟩]
        simp
      · rw [addInheritedAttribute, attributeAt_addAttribute, if_pos rfl]
        exact hsource his
  · split
    · exact advances_addInheritedAttribute hg hchild ha
    · rename_i own hown
      have hagrees := mergedWith_agrees (g.attributeAt own) (g.attributeAt a)
      refine .setKind hg own (Attribute.mergedWith_eq _ _) hagrees.kind fun t ht => .inl ?_
      rwa [← hagrees.enumerationTarget]

theorem advances_inheritRelationship (hg : Standing 2 g) (hchild : child ∈ g.idsOfKind .object) {r : RelationshipId}
    (hr : r < g.relationships.size) : Advances 2 g (inheritRelationship child g r).1 := by
  have hold := hg.intact.relationship_linked r hr
  unfold inheritRelationship
  dsimp only
  split
  · exact .refl hg
  · rename_i hforward
    split
    · refine .addRelationship hg ⟨hchild, fun o ho => ?_, hold.related, hold.reversal⟩ ?_
      · obtain rfl := Option.some.inj ho
        cases horiginal : (g.relationshipAt r).originalOwner with
        | none => exact hold.owner
        | some o => exact hold.originalOwner o horiginal
      · show (if (g.relationshipAt r).isReverse then 3 else 2) = 2
        rw [if_neg hforward]
    · rename_i own _
      exact .modifyRelationship hg own rfl rfl rfl fun _ he => .inl he

/-- The members of an object, merged into another. -/
theorem advances_mergeMembers (hg : Standing 2 g) (parent : EntityId) (hchild : child ∈ g.idsOfKind .object) :
    Advances 2 g (g.mergeMembers parent child).1 := by
  have hindex := g.lt_size_of_mem_idsOfKind hchild
  have hattributes : Advances 2 g (collect (inheritAttribute child (g.entity parent).source
      (g.entity child).source.isSome) g (g.entity parent).attributes).1 := by
    refine .collect hg fun h hh a ha => ?_
    obtain ⟨hlt, hsame⟩ := hh.attributes a (hg.intact.attribute_owned parent a ha).1
    refine advances_inheritAttribute hh.standing (size_of_outline_eq hh.outline ▸ hindex) hlt fun hsource => ?_
    rw [hsame]
    exact hg.intact.source_isSource parent a hsource.symm
  refine hattributes.trans (.collect hattributes.standing fun h hh r hr => ?_)
  have hlt := (hattributes.standing.intact.relationship_owned parent r hr).1
  exact advances_inheritRelationship hh.standing (hh.mem_idsOfKind (hattributes.mem_idsOfKind hchild))
    (Nat.lt_of_lt_of_le hlt hh.relationships)

private theorem advances_inheritFrom (hg : Standing 2 g) (superName : String) (parent : EntityId)
    (hchild : child ∈ g.idsOfKind .object) : Advances 2 g (g.inheritFrom superName parent child).1 := by
  unfold inheritFrom
  split
  · split
    · exact .refl hg
    · exact .setState hg child _
  · have hmerged := advances_mergeMembers hg parent hchild
    exact hmerged.trans (.setState hmerged.standing child _)

/-- The way up from an object to its superclass. -/
theorem advances_enter (hg : Standing n g) (id : EntityId) {parent : EntityId}
    (hparent : parent ∈ g.idsOfKind .object) :
    Advances n g (g.modifyEntity id fun e => { e with superEntity := some parent, state := .inProgress }) := by
  refine .modifyEntity hg id (fun _ => rfl) (fun _ => ⟨rfl, rfl, rfl⟩)
    ⟨fun p hp => ?_, (hg.intact.entity_linked id).nested⟩
  obtain rfl := Option.some.inj hp
  exact hparent

theorem advances_settle (hg : Standing 2 g) {steps : Nat} {path : List EntityId} {id : EntityId}
    (hid : id ∈ g.idsOfKind .object) : Advances 2 g (settle steps path g id).1 := by
  induction steps generalizing path g id with
  | zero => exact .refl hg
  | succ steps ih =>
    rw [settle]
    split
    · exact .refl hg
    · exact .refl hg
    · exact .setStates hg _ _
    · split
      · exact .setState hg id _
      · split
        · exact .setState hg id _
        · rename_i superName _ _ parent hlookup
          have hparent := g.mem_idsOfKind_of_lookup hlookup
          have hentered := advances_enter hg id hparent
          have habove := hentered.trans (@ih _ hentered.standing (path ++ [id]) _ (hentered.mem_idsOfKind hparent))
          rw [Found.andThen_eq]
          exact habove.trans (advances_inheritFrom habove.standing superName parent (habove.mem_idsOfKind hid))

private theorem advances_resolveInheritance (hg : Standing 2 g) : Advances 2 g g.resolveInheritance.1 :=
  .gather hg fun _ hh _ hid => advances_settle hh.standing (hh.mem_idsOfKind hid)

end Inheritance

/-! ### Counterparts -/

private theorem advances_addReverse (hg : Standing 3 g) {r : RelationshipId} (hr : r < g.relationships.size)
    (ownerName : String) : Advances 3 g (g.addReverse r ownerName).1 := by
  unfold addReverse
  dsimp only
  split
  · exact .refl hg
  · rename_i x hx
    split
    · exact .refl hg
    · split
      · exact .refl hg
      · split
        · exact .refl hg
        · have hold := hg.intact.relationship_linked r hr
          unfold Relationship.reverse? at hx
          split at hx
          · rename_i name related _ hrelated
            obtain rfl := Option.some.inj hx
            refine .addRelationship hg
              ⟨hold.related related hrelated, fun o ho => ?_, fun e he => ?_, fun v hv => ?_⟩ rfl
            · cases ho
            · obtain rfl := Option.some.inj he
              exact hold.owner
            · obtain rfl := Option.some.inj hv
              exact hr
          · cases hx

theorem advances_analyse (hg : Standing 3 g) (owner : EntityId) {r : RelationshipId} (hr : r < g.relationships.size) :
    Advances 3 g (analyse owner g r).1 := by
  unfold analyse
  dsimp only
  split
  · exact .refl hg
  · split
    · exact .refl hg
    · rename_i related _ _
      have hread : Advances 3 g (g.modifyRelationship r
          (·.readAs (g.analysis owner related (g.relationshipAt r)))) :=
        .modifyRelationship hg r rfl rfl rfl fun _ he => .inl he
      split
      · exact hread
      · split
        · exact hread.trans (advances_addReverse hread.standing (Nat.lt_of_lt_of_le hr hread.relationships) _)
        · exact hread

theorem advances_analyseEntity (hg : Standing 3 g) (owner : EntityId) : Advances 3 g (g.analyseEntity owner).1 := by
  unfold analyseEntity
  split
  · exact .refl hg
  · refine .gather hg fun h hh r hr => ?_
    have hlt := (hg.intact.relationship_owned owner r hr).1
    exact advances_analyse hh.standing owner (Nat.lt_of_lt_of_le hlt hh.relationships)

private theorem advances_resolveRelationships (hg : Standing 3 g) : Advances 3 g g.resolveRelationships.1 :=
  .gather hg fun _ hh o _ => advances_analyseEntity hh.standing o

/-! ### Claims -/

/-- A claim is made on an attribute that exists, by a relationship that does. -/
theorem inRange_of_mem_claimsOf (hg : g.Intact) {owner : EntityId} {c : Claim} (hc : c ∈ g.claimsOf owner) :
    c.target < g.attributes.size ∧ c.ownership.relationship < g.relationships.size := by
  obtain ⟨-, r, hr, hclaim⟩ := mem_claimsOf.1 hc
  rw [relationship_of_mem_claims hclaim]
  refine ⟨?_, (hg.relationship_owned owner r hr).1⟩
  obtain ⟨related, -, -, ⟨hmem, -⟩ | ⟨hmem, -⟩⟩ := sides_of_mem_claims hclaim
  · exact (hg.attribute_owned related _ hmem).1
  · exact (hg.attribute_owned owner _ hmem).1

theorem intact_applyClaim (hg : g.Intact) {c : Claim} (hc : c.ownership.relationship < g.relationships.size) :
    (g.applyClaim c).Intact := by
  unfold applyClaim
  split
  · refine hg.modifyAttribute c.target rfl rfl rfl fun hold => ⟨hold.originalOwner, hold.enumeration, fun w hw => ?_⟩
    obtain rfl := Option.some.inj hw
    exact hc
  · exact hg

theorem intact_claimOwnership (hg : g.Intact) (owner : EntityId) : (g.claimOwnership owner).Intact := by
  have hall : ∀ c ∈ g.claimsOf owner, c.ownership.relationship < g.relationships.size := fun c hc =>
    (inRange_of_mem_claimsOf hg hc).2
  rw [claimOwnership_eq_foldl]
  generalize g.claimsOf owner = cs at hall
  induction cs generalizing g with
  | nil => exact hg
  | cons c cs ih =>
    refine ih (intact_applyClaim hg (hall c List.mem_cons_self)) fun d hd => ?_
    have hsame : (g.applyClaim c).relationships = g.relationships := by
      unfold applyClaim
      split <;> rfl
    rw [hsame]
    exact hall d (List.mem_cons_of_mem _ hd)

theorem intact_foldl_claimOwnership (hg : g.Intact) (owners : List EntityId) :
    (owners.foldl claimOwnership g).Intact :=
  List.foldlRecOn owners claimOwnership (motive := Intact) hg fun _ hh o _ => intact_claimOwnership hh o

/-! ### All stages -/

/-- Names are bound. -/
theorem advances_linked (hg : Standing n g) (declared : List (EntityId × String)) :
    Advances n g ((declared.map (·.1)).foldl bindEnumerations (gather bindRelationships g declared).1) := by
  have hbound : Advances n g (gather bindRelationships g declared).1 :=
    .gather hg fun h hh object _ => advances_bindRelationships hh.standing object
  exact hbound.trans (.foldl hbound.standing fun h hh o _ => advances_bindEnumerations hh.standing o)

/-- Objects go into inheritance as they come out of the stages before, with bound names and mapped attributes. -/
theorem advances_prepared (d : Declarations) {declared : List (EntityId × String)} (hg : Standing 1 g)
    (hdeclared : declared.map (·.1) = g.idsOfKind .object) : Advances 1 g (g.prepared d declared) := by
  have hlinked := advances_linked hg declared
  refine hlinked.trans (.gather hlinked.standing fun h hh object hobject => ?_)
  have hid : object.1 ∈ g.idsOfKind .object := hdeclared ▸ List.mem_map_of_mem hobject
  have hid' := h.lt_size_of_mem_idsOfKind (hh.mem_idsOfKind (hlinked.mem_idsOfKind hid))
  exact advances_expandDeclared d hh.standing hid'

/-- So do the objects of declarations, after the stages before. -/
theorem advances_prepared_staged (config : Config) (d : Declarations) :
    Advances 1 (staged config d) ((staged config d).prepared d (ofDeclarations config d).1.2) := by
  have hinterfaces := standing_registerInterfaces (standing_ofDeclarations config d) d
  have hstaged : Standing 0 (staged config d) := (advances_resolveEmbeddedValues hinterfaces).standing
  exact advances_prepared d (hstaged.mono (Nat.le_succ 0)) (staged_spec config d).2

theorem advances_settled (hg : Standing 1 g) : Advances 2 g g.settled :=
  advances_resolveInheritance (hg.mono (Nat.le_succ 1))

theorem advances_joined (hg : Standing 1 g) : Advances 3 g g.joined := by
  have hsettled := advances_settled hg
  exact (hsettled.mono (Nat.le_succ 2)).trans
    (advances_resolveRelationships (hsettled.standing.mono (Nat.le_succ 2)))

/-! ### Resolution without errors -/

/-- `g` is what declarations resolve to by way of `g₀`, the graph as it goes into inheritance. -/
structure ResolvesTo (d : Declarations) (g₀ g : Graph) : Prop extends Completes g₀ g where
  standing : Standing 1 g₀
  claimed : g = (g₀.idsOfKind .object).foldl claimOwnership g₀.joined
  registered : ∃ k : Graph, Clean (k.registerInterfaces d).2 ∧ (k.registerInterfaces d).1.interfaces = g₀.interfaces
  conforming : ∀ o ∈ g₀.idsOfKind .object, Clean (conformanceGaps d g o)

theorem resolvesTo_of_resolve {d : Declarations} {config : Config} (h : (d.resolve config).1 = .ok g) :
    ResolvesTo d ((staged config d).prepared d (ofDeclarations config d).1.2) g := by
  obtain ⟨hinterfaces, hclean, rfl⟩ := clean_of_resolve h
  obtain ⟨hpristine, hdeclared⟩ := staged_spec config d
  have hcompletes := completes_of_clean hpristine hdeclared hclean
  have hembedded := advances_resolveEmbeddedValues (standing_registerInterfaces (standing_ofDeclarations config d) d)
  have hprepared := advances_prepared_staged config d
  have hids : (ofDeclarations config d).1.2.map (·.1) =
      ((staged config d).prepared d (ofDeclarations config d).1.2).idsOfKind .object :=
    hdeclared.trans (idsOfKind_of_outline_eq hprepared.outline .object).symm
  refine ⟨hcompletes, hprepared.standing, ?_, ⟨(ofDeclarations config d).1.1, hinterfaces, ?_⟩, ?_⟩
  · rw [← hids]
    exact graph_of_resolveObjects ..
  · exact (hprepared.interfaces.trans hembedded.interfaces).symm
  · intro o ho
    rw [← hids] at ho
    exact conforming_of_clean hclean o ho

theorem exists_resolvesTo_of_resolve {d : Declarations} {config : Config} (h : (d.resolve config).1 = .ok g) :
    ∃ g₀, ResolvesTo d g₀ g :=
  ⟨_, resolvesTo_of_resolve h⟩

end Graph

/-- The sessions of a run: the one that it starts with, and one after each stage. -/
def Session.stages (d : Declarations) (config : Config) : List Session :=
  let started := start d config
  let interfaces := started.resolveInterfaces.2
  let embedded := interfaces.resolveEmbeddedValues.2
  [started, interfaces, embedded, embedded.resolveObjects.2]

theorem Session.intact_graph {d : Declarations} {config : Config} {s : Session} (hs : s ∈ stages d config) :
    s.graph.Intact := by
  have hstarted := Graph.standing_ofDeclarations config d
  have hinterfaces := Graph.standing_registerInterfaces hstarted d
  have hembedded := Graph.advances_resolveEmbeddedValues hinterfaces
  have hprepared := Graph.advances_prepared_staged config d
  simp only [stages, List.mem_cons, List.not_mem_nil, or_false] at hs
  obtain rfl | rfl | rfl | rfl := hs
  · exact hstarted.intact
  · exact hinterfaces.intact
  · exact hembedded.standing.intact
  · rw [graph_resolveObjects, Graph.graph_of_resolveObjects]
    exact Graph.intact_foldl_claimOwnership (Graph.advances_joined hprepared.standing).standing.intact _

/-- The declared objects of a session are the objects of its graph. -/
theorem Session.map_declared {d : Declarations} {config : Config} {s : Session} (hs : s ∈ stages d config) :
    s.declared.map (·.1) = s.graph.idsOfKind .object := by
  have hstarted := Graph.wraps_ofDeclarations config d
  have hinterfaces := Graph.follows_registerInterfaces hstarted.pristine d
  have hstaged := (Graph.staged_spec config d).2
  simp only [stages, List.mem_cons, List.not_mem_nil, or_false] at hs
  obtain rfl | rfl | rfl | rfl := hs
  · exact hstarted.objects
  · exact hstarted.objects.trans (Graph.idsOfKind_of_outline_eq hinterfaces.outline .object).symm
  · exact hstaged
  · have hprepared := Graph.advances_prepared_staged config d
    have hjoined := (Graph.advances_joined hprepared.standing).outline.trans hprepared.outline
    rw [declared_resolveObjects, graph_resolveObjects, Graph.graph_of_resolveObjects]
    refine hstaged.trans (Graph.idsOfKind_of_outline_eq ?_ .object).symm
    exact (Graph.outline_of_disowned_eq (Graph.disowned_foldl_claimOwnership _ _)).trans hjoined

/-- In the graph of a session, entities are told apart by their names and relationships are listed by their owner. -/
theorem Session.distinguished {d : Declarations} {config : Config} {s : Session} (hs : s ∈ stages d config)
    (hnames : ∀ o, ((s.graph.relationshipsOf o).map (·.name)).Nodup) : s.graph.Distinguished where
  qualifiedNames := (intact_graph hs).distinct
  relationshipNames := hnames
  owners o r hr := ((intact_graph hs).relationship_owned o r hr).2

end Metamodel
