import Metamodel.Hierarchy.Inheritance
import Metamodel.Proofs.Graph.Integrity
import Metamodel.Proofs.Issue.Clean

/-!
# Graphs at a stage

Members come to be stage by stage.  While a graph stands at a stage, all its members come from this stage or an
earlier one, so that a new one may go to the end of its list (`Standing`).  `Advances` is what a change at a stage
keeps; every change that a graph offers advances it, if what it puts in belongs to the stage.
-/

namespace Metamodel.Graph

variable {g h k : Graph} {n : Nat}

/-- An intact graph with no member of a stage after `n`, in which no attribute is owned yet. -/
structure Standing (n : Nat) (g : Graph) : Prop where
  intact : g.Intact
  attribute_stage : ∀ a, (g.attributeAt a).stage ≤ n
  relationship_stage : ∀ r, (g.relationshipAt r).stage ≤ n
  unowned : ∀ a, (g.attributeAt a).ownership = none

/-- `h` stands at stage `n`, and still has all that `g` had: the outline, the interfaces and the members. -/
structure Advances (n : Nat) (g h : Graph) : Prop where
  standing : Standing n h
  outline : h.outline = g.outline
  interfaces : h.interfaces = g.interfaces
  attributes : ∀ a < g.attributes.size, a < h.attributes.size ∧ (h.attributeAt a).isSource = (g.attributeAt a).isSource
  relationships : g.relationships.size ≤ h.relationships.size

theorem standing_empty : Standing 0 empty where
  intact := intact_empty
  attribute_stage _ := Nat.le_refl _
  relationship_stage _ := Nat.le_refl _
  unowned _ := rfl

namespace Standing

theorem mono {m : Nat} (hg : Standing n g) (hnm : n ≤ m) : Standing m g where
  intact := hg.intact
  attribute_stage a := Nat.le_trans (hg.attribute_stage a) hnm
  relationship_stage r := Nat.le_trans (hg.relationship_stage r) hnm
  unowned := hg.unowned

/-- Interfaces do not matter. -/
theorem addInterface (hg : Standing n g) (i : Interface) : Standing n (g.addInterface i) where
  intact := hg.intact.congr rfl rfl rfl
  attribute_stage := hg.attribute_stage
  relationship_stage := hg.relationship_stage
  unowned := hg.unowned

theorem addEntity (hg : Standing n g) {e : Entity} (hbare : IsBare e) {id : EntityId}
    (hadd : g.addEntity? e = some (h, id)) :
    Standing n h ∧ id < h.entities.size ∧ (h.entity id).kind = e.kind := by
  have hnew := idNamed?_of_addEntity? hadd
  obtain ⟨rfl, rfl⟩ := eq_of_addEntity? hadd
  refine ⟨⟨hg.intact.addEntity hbare hnew, hg.attribute_stage, hg.relationship_stage, hg.unowned⟩, by simp, ?_⟩
  rw [entity_push, if_pos rfl]

end Standing

/-! ### Single changes -/

namespace Advances

theorem refl (hg : Standing n g) : Advances n g g where
  standing := hg
  outline := rfl
  interfaces := rfl
  attributes _ ha := ⟨ha, rfl⟩
  relationships := Nat.le_refl _

theorem mono {m : Nat} (hgh : Advances n g h) (hnm : n ≤ m) : Advances m g h where
  standing := hgh.standing.mono hnm
  outline := hgh.outline
  interfaces := hgh.interfaces
  attributes := hgh.attributes
  relationships := hgh.relationships

theorem trans (first : Advances n g h) (second : Advances n h k) : Advances n g k where
  standing := second.standing
  outline := second.outline.trans first.outline
  interfaces := second.interfaces.trans first.interfaces
  attributes := by
    intro a ha
    obtain ⟨hlt, hsource⟩ := first.attributes a ha
    obtain ⟨hlt', hsource'⟩ := second.attributes a hlt
    exact ⟨hlt', hsource'.trans hsource⟩
  relationships := Nat.le_trans first.relationships second.relationships

theorem mem_idsOfKind (hgh : Advances n g h) {kind : EntityKind} {id : EntityId} (hid : id ∈ g.idsOfKind kind) :
    id ∈ h.idsOfKind kind := by
  rwa [idsOfKind_of_outline_eq hgh.outline]

theorem foldl {α : Type} {step : Graph → α → Graph} {as : List α} (hg : Standing n g)
    (hstep : ∀ h, Advances n g h → ∀ a ∈ as, Advances n h (step h a)) : Advances n g (as.foldl step g) :=
  List.foldlRecOn as step (motive := Advances n g) (.refl hg) fun h hh a ha => hh.trans (hstep h hh a ha)

theorem gather {α : Type} {step : Graph → α → Found Graph} {as : List α} (hg : Standing n g)
    (hstep : ∀ h, Advances n g h → ∀ a ∈ as, Advances n h (step h a).1) :
    Advances n g (Metamodel.gather step g as).1 :=
  gather_invariant (Advances n g) (fun h a ha hh => hh.trans (hstep h hh a ha)) (.refl hg)

theorem collect {α : Type} {step : Graph → α → Graph × List MemberConflict} {as : List α} (hg : Standing n g)
    (hstep : ∀ h, Advances n g h → ∀ a ∈ as, Advances n h (step h a).1) :
    Advances n g (Graph.collect step g as).1 := by
  induction as generalizing g with
  | nil => exact .refl hg
  | cons a as ih =>
    have hfirst := hstep g (.refl hg) a List.mem_cons_self
    exact hfirst.trans (ih hfirst.standing fun h hh b hb => hstep h (hfirst.trans hh) b (List.mem_cons_of_mem _ hb))

theorem modifyEntity (hg : Standing n g) (id : EntityId) {f : Entity → Entity}
    (houtline : ∀ e, (f e).outline = e.outline)
    (hf : ∀ e, (f e).attributes = e.attributes ∧ (f e).relationships = e.relationships ∧ (f e).source = e.source)
    (hlinked : (f (g.entity id)).LinkedIn g) : Advances n g (g.modifyEntity id f) where
  standing := ⟨hg.intact.modifyEntity id houtline hf hlinked, hg.attribute_stage, hg.relationship_stage, hg.unowned⟩
  outline := outline_modifyEntity _ _ houtline
  interfaces := rfl
  attributes _ ha := ⟨ha, rfl⟩
  relationships := Nat.le_refl _

theorem setState (hg : Standing n g) (id : EntityId) (state : EntityState) : Advances n g (g.setState id state) := by
  have hlinked := hg.intact.entity_linked id
  exact modifyEntity hg id (fun _ => rfl) (fun _ => ⟨rfl, rfl, rfl⟩) ⟨hlinked.superEntity, hlinked.nested⟩

theorem setStates (hg : Standing n g) (ids : List EntityId) (state : EntityState) :
    Advances n g (g.setStates ids state) :=
  foldl hg fun _ hh id _ => setState hh.standing id state

theorem setSource (hg : Standing n g) {id : EntityId} {s : AttributeId} (hs : s ∈ (g.entity id).attributes)
    (hsource : (g.attributeAt s).isSource = true) :
    Advances n g (g.modifyEntity id fun e => { e with source := some s }) where
  standing := ⟨hg.intact.setSource hs hsource, hg.attribute_stage, hg.relationship_stage, hg.unowned⟩
  outline := outline_modifyEntity _ _ fun _ => rfl
  interfaces := rfl
  attributes _ ha := ⟨ha, rfl⟩
  relationships := Nat.le_refl _

/-- An attribute may get other settings, but no other kind. -/
theorem setKind (hg : Standing n g) (a : AttributeId) {f : Attribute → Attribute} {kind : AttributeKind}
    (hf : f (g.attributeAt a) = { g.attributeAt a with kind := kind })
    (hkind : kind.name = (g.attributeAt a).kind.name)
    (htarget : ∀ t, (f (g.attributeAt a)).enumerationTarget = some t →
      (g.attributeAt a).enumerationTarget = some t ∨ t ∈ g.idsOfKind .enumeration) :
    Advances n g (g.modifyAttribute a f) := by
  have hkind' : (f (g.attributeAt a)).kind.name = (g.attributeAt a).kind.name := by
    rw [hf]
    exact hkind
  have hread : ∀ {α : Type} (read : Attribute → α), read (f (g.attributeAt a)) = read (g.attributeAt a) →
      ∀ b, read ((g.modifyAttribute a f).attributeAt b) = read (g.attributeAt b) := by
    intro α read hsame b
    rw [attributeAt_modifyAttribute]
    split
    · rename_i h
      rw [← h.1, hsame]
    · rfl
  have hlinked : (g.attributeAt a).LinkedIn g → (f (g.attributeAt a)).LinkedIn g := by
    intro hold
    constructor
    · rw [hf]
      exact hold.originalOwner
    · intro t ht
      rcases htarget t ht with hkept | hnew
      · exact hold.enumeration t hkept
      · exact hnew
    · rw [hf]
      exact hold.ownership
  have hstage := Attribute.stage_congr (a := f (g.attributeAt a)) (b := g.attributeAt a) (by rw [hf]) hkind'
  exact {
    standing := {
      intact := hg.intact.modifyAttribute a (by rw [hf]) (by rw [hf]) hkind' hlinked
      attribute_stage := fun b => by
        rw [hread (·.stage) hstage]
        exact hg.attribute_stage b
      relationship_stage := hg.relationship_stage
      unowned := fun b => by
        rw [hread (·.ownership) (by rw [hf])]
        exact hg.unowned b }
    outline := rfl
    interfaces := rfl
    attributes := fun b hb => ⟨by simpa using hb, hread (·.isSource) (Attribute.isSource_congr hkind') b⟩
    relationships := Nat.le_refl _ }

theorem modifyRelationship (hg : Standing n g) (r : RelationshipId) {f : Relationship → Relationship}
    (howner : (f (g.relationshipAt r)).owner = (g.relationshipAt r).owner)
    (horiginal : (f (g.relationshipAt r)).originalOwner = (g.relationshipAt r).originalOwner)
    (hreversal : (f (g.relationshipAt r)).reversal = (g.relationshipAt r).reversal)
    (hrelated : ∀ e, (f (g.relationshipAt r)).related = some e →
      (g.relationshipAt r).related = some e ∨ e ∈ g.idsOfKind .object) :
    Advances n g (g.modifyRelationship r f) := by
  have hlinked : (g.relationshipAt r).LinkedIn g → (f (g.relationshipAt r)).LinkedIn g := by
    intro hold
    constructor
    · rw [howner]
      exact hold.owner
    · rw [horiginal]
      exact hold.originalOwner
    · intro e he
      rcases hrelated e he with hkept | hnew
      · exact hold.related e hkept
      · exact hnew
    · rw [hreversal]
      exact hold.reversal
  exact {
    standing := {
      intact := hg.intact.modifyRelationship r howner horiginal hreversal hlinked
      attribute_stage := hg.attribute_stage
      relationship_stage := by
        intro s
        rw [relationshipAt_modifyRelationship]
        split
        · rename_i h
          rw [← h.1, Relationship.stage_congr horiginal hreversal]
          exact hg.relationship_stage r
        · exact hg.relationship_stage s
      unowned := hg.unowned }
    outline := rfl
    interfaces := rfl
    attributes := fun a ha => ⟨ha, rfl⟩
    relationships := by simp }

theorem addAttribute (hg : Standing n g) {a : Attribute} (howner : a.owner < g.entities.size) (hlinked : a.LinkedIn g)
    (hstage : a.stage = n) (hunowned : a.ownership = none) : Advances n g (g.addAttribute a) where
  standing := {
    intact := by
      refine hg.intact.addAttribute howner hlinked fun b hb => ?_
      obtain ⟨i, -, rfl⟩ := List.mem_map.1 hb
      exact hstage ▸ hg.attribute_stage i
    attribute_stage := by
      intro b
      rw [attributeAt_addAttribute]
      split
      · exact Nat.le_of_eq hstage
      · exact hg.attribute_stage b
    relationship_stage := hg.relationship_stage
    unowned := by
      intro b
      rw [attributeAt_addAttribute]
      split
      · exact hunowned
      · exact hg.unowned b }
  outline := outline_addAttribute ..
  interfaces := rfl
  attributes := by
    intro b hb
    rw [size_attributes_addAttribute, attributeAt_addAttribute, if_neg (Nat.ne_of_lt hb)]
    exact ⟨Nat.lt_succ_of_lt hb, rfl⟩
  relationships := Nat.le_refl _

theorem addRelationship (hg : Standing n g) {r : Relationship} (hlinked : r.LinkedIn g) (hstage : r.stage = n) :
    Advances n g (g.addRelationship r) where
  standing := {
    intact := by
      refine hg.intact.addRelationship hlinked fun s hs => ?_
      obtain ⟨i, -, rfl⟩ := List.mem_map.1 hs
      exact hstage ▸ hg.relationship_stage i
    attribute_stage := hg.attribute_stage
    relationship_stage := by
      intro s
      rw [relationshipAt_addRelationship]
      split
      · exact Nat.le_of_eq hstage
      · exact hg.relationship_stage s
    unowned := hg.unowned }
  outline := outline_addRelationship ..
  interfaces := rfl
  attributes _ ha := ⟨ha, rfl⟩
  relationships := by simp

end Advances

end Metamodel.Graph
