import Metamodel.Proofs.Hierarchy.Members

/-!
# Superclass chains

The chain of an object goes up by the names of superclasses to an object that has none.  There is at most one, it
never comes back (`SuperChain.nodup`), and there is none where the way up is closed
(`not_superChain_of_closed`).  `settledBelow` is what inheritance makes of an object below a chain, by recursion
on the chain; `mergeAlong` does the merges of the chain alone, in the graph, and finds no conflict just if the
object is resolved below it.
-/

namespace Metamodel.Graph

/-- The object that the superclass name of an entity denotes. -/
def superOf (g : Graph) (id : EntityId) : Option EntityId :=
  (g.entity id).superName.bind (g.lookup · .object)

/-- The objects above `id`, nearest first, up to one without superclass. -/
inductive SuperChain (g : Graph) : EntityId → List EntityId → Prop
  | top {id : EntityId} (h : (g.entity id).superName = none) : SuperChain g id []
  | up {id p : EntityId} {chain : List EntityId} (h : g.superOf id = some p) (rest : SuperChain g p chain) :
      SuperChain g id (p :: chain)

variable {g h : Graph} {id p : EntityId} {chain : List EntityId}

theorem superName_ne_none_of_superOf (h : g.superOf id = some p) : (g.entity id).superName ≠ none := by
  intro hnone
  rw [superOf, hnone] at h
  cases h

theorem mem_objects_of_superOf (h : g.superOf id = some p) : p ∈ g.idsOfKind .object := by
  obtain ⟨name, -, hlookup⟩ := Option.bind_eq_some_iff.1 h
  exact g.mem_idsOfKind_of_lookup hlookup

namespace SuperChain

theorem unique {chain' : List EntityId} (hc : SuperChain g id chain) (hc' : SuperChain g id chain') :
    chain = chain' := by
  induction hc generalizing chain' with
  | top htop =>
    cases hc' with
    | top => rfl
    | up hup => exact absurd htop (superName_ne_none_of_superOf hup)
  | up hup _ ih =>
    cases hc' with
    | top htop => exact absurd htop (superName_ne_none_of_superOf hup)
    | up hup' rest' =>
      obtain rfl := Option.some.inj (hup.symm.trans hup')
      rw [ih rest']

/-- Above an object of the chain lies a shorter chain. -/
private theorem exists_above (hc : SuperChain g id chain) {o : EntityId} (ho : o ∈ chain) :
    ∃ rest, SuperChain g o rest ∧ rest.length < chain.length := by
  induction hc with
  | top => cases ho
  | up _ rest ih =>
    rcases List.mem_cons.1 ho with rfl | ho
    · exact ⟨_, rest, Nat.lt_succ_self _⟩
    · obtain ⟨above, habove, hlt⟩ := ih ho
      exact ⟨above, habove, Nat.lt_succ_of_lt hlt⟩

theorem nodup (hc : SuperChain g id chain) : (id :: chain).Nodup := by
  induction hc with
  | top => simp
  | up hup rest ih =>
    refine List.nodup_cons.2 ⟨fun hmem => ?_, ih⟩
    obtain ⟨above, habove, hlt⟩ := exists_above (.up hup rest) hmem
    rw [habove.unique (.up hup rest)] at hlt
    exact Nat.lt_irrefl _ hlt

end SuperChain

/-- No chain starts among objects whose superclasses are among them again. -/
theorem not_superChain_of_closed {s : List EntityId} (closed : ∀ o ∈ s, ∃ p ∈ s, g.superOf o = some p) (hid : id ∈ s) :
    ¬ SuperChain g id chain := by
  intro hc
  induction hc with
  | top htop =>
    obtain ⟨p, -, hp⟩ := closed _ hid
    exact superName_ne_none_of_superOf hp htop
  | up hup _ ih =>
    obtain ⟨p, hmem, hp⟩ := closed _ hid
    obtain rfl := Option.some.inj (hup.symm.trans hp)
    exact ih hmem

/-! ### Outcomes -/

/-- How an object ends up below a chain: it inherits if the object above it is resolved. -/
def settledBelow (g : Graph) (id : EntityId) : List EntityId → EntityState × Members
  | [] => (.resolved, g.membersOf id)
  | p :: chain =>
    match g.settledBelow p chain with
    | (.resolved, above) =>
      let (members, conflicts) := Members.inherit id (g.entity id).defaults (g.membersOf id) above
      (if conflicts.isEmpty then .resolved else .failed, members)
    | _ => (.failed, g.membersOf id)

/-- How an object ends up.  Without a chain it fails and keeps its own members. -/
inductive Outcome (g : Graph) (id : EntityId) : EntityState → Members → Prop
  | below {chain : List EntityId} (h : SuperChain g id chain) :
      Outcome g id (g.settledBelow id chain).1 (g.settledBelow id chain).2
  | unfounded (h : ∀ chain, ¬ SuperChain g id chain) : Outcome g id .failed (g.membersOf id)

theorem settledBelow_of_resolved {above : Members} (hp : g.settledBelow p chain = (.resolved, above)) :
    g.settledBelow id (p :: chain) =
      (if (Members.inherit id (g.entity id).defaults (g.membersOf id) above).2.isEmpty then .resolved else .failed,
        (Members.inherit id (g.entity id).defaults (g.membersOf id) above).1) := by
  rw [settledBelow, hp]

theorem settledBelow_of_ne_resolved (hp : (g.settledBelow p chain).1 ≠ .resolved) :
    g.settledBelow id (p :: chain) = (.failed, g.membersOf id) := by
  rw [settledBelow]
  split
  · rename_i heq
    rw [heq] at hp
    exact absurd rfl hp
  · rfl

namespace Outcome

variable {s s' : EntityState} {m m' : Members}

theorem unique (ho : Outcome g id s m) (ho' : Outcome g id s' m') : s = s' ∧ m = m' := by
  cases ho with
  | below hc =>
    cases ho' with
    | below hc' =>
      rw [hc.unique hc']
      exact ⟨rfl, rfl⟩
    | unfounded hnone => exact absurd hc (hnone _)
  | unfounded hnone =>
    cases ho' with
    | below hc' => exact absurd hc' (hnone _)
    | unfounded => exact ⟨rfl, rfl⟩

/-- A resolved object lies below a chain. -/
theorem exists_chain (ho : Outcome g id .resolved m) :
    ∃ chain, SuperChain g id chain ∧ g.settledBelow id chain = (.resolved, m) := by
  generalize hs : EntityState.resolved = s at ho
  cases ho with
  | below hc => exact ⟨_, hc, rfl⟩
  | unfounded => cases hs

/-- A resolved object has inherited without conflicts from a resolved one. -/
theorem inherited (ho : Outcome g id .resolved m) (hup : g.superOf id = some p) :
    ∃ above, Outcome g p .resolved above ∧
      Members.inherit id (g.entity id).defaults (g.membersOf id) above = (m, []) := by
  obtain ⟨chain, hc, hbelow⟩ := ho.exists_chain
  cases hc with
  | top htop => exact absurd htop (superName_ne_none_of_superOf hup)
  | @up _ _ chain hup' rest =>
    obtain rfl := Option.some.inj (hup.symm.trans hup')
    have habove := Outcome.below rest
    by_cases hp : (g.settledBelow p chain).1 = .resolved
    · rw [hp] at habove
      refine ⟨_, habove, ?_⟩
      rw [settledBelow_of_resolved (Prod.ext hp rfl)] at hbelow
      obtain ⟨hstate, hmembers⟩ := Prod.ext_iff.1 hbelow
      refine Prod.ext hmembers ?_
      dsimp only at hstate
      split at hstate
      · exact List.isEmpty_iff.1 ‹_›
      · cases hstate
    · rw [settledBelow_of_ne_resolved hp] at hbelow
      cases hbelow

/-- Below an object that failed, all fail. -/
theorem of_failed (hup : g.superOf id = some p) (ho : Outcome g p .failed m) :
    Outcome g id .failed (g.membersOf id) := by
  generalize hs : EntityState.failed = s at ho
  cases ho with
  | below hc =>
    have hfailed := Outcome.below (.up hup hc)
    rw [settledBelow_of_ne_resolved (by rw [← hs]; decide)] at hfailed
    rw [← hs]
    exact hfailed
  | unfounded hnone =>
    refine .unfounded fun chain hc => ?_
    cases hc with
    | top htop => exact superName_ne_none_of_superOf hup htop
    | up hup' rest =>
      obtain rfl := Option.some.inj (hup.symm.trans hup')
      exact hnone _ rest

end Outcome

/-! ### The merges of one chain -/

/-- The graph after the merges along a chain, from the top down to `id`, and the conflicts of all of them. -/
def mergeAlong (g : Graph) (id : EntityId) : List EntityId → Graph × List MemberConflict
  | [] => (g, [])
  | p :: chain =>
    let (above, earlier) := g.mergeAlong p chain
    let (merged, here) := above.mergeMembers p id
    (merged, earlier ++ here)

/-- The merges along a chain leave other objects alone, and as long as there is no conflict, they give the object what
it has below the chain. -/
private theorem mergeAlong_spec (hg : g.Sound) (hid : id < g.entities.size) (hc : SuperChain g id chain) :
    (g.mergeAlong id chain).1.Sound ∧ (g.mergeAlong id chain).1.outline = g.outline ∧
      (∀ o, o ∉ id :: chain → (g.mergeAlong id chain).1.membersOf o = g.membersOf o) ∧
      ((g.mergeAlong id chain).2 = [] ↔ (g.settledBelow id chain).1 = .resolved) ∧
      ((g.mergeAlong id chain).2 = [] → (g.mergeAlong id chain).1.membersOf id = (g.settledBelow id chain).2) := by
  induction hc with
  | top => exact ⟨hg, rfl, fun _ _ => rfl, by simp [mergeAlong, settledBelow], fun _ => rfl⟩
  | @up id p chain hup rest ih =>
    have hp := lt_size_of_mem_idsOfKind g (mem_objects_of_superOf hup)
    obtain ⟨hsound, houtline, hothers, hclean, hmembers⟩ := ih hp
    -- The merges further up leave `id` alone, since no chain comes back.
    obtain ⟨hfresh, -⟩ := List.nodup_cons.1 (SuperChain.up hup rest).nodup
    have hne : p ≠ id := fun h => hfresh (h ▸ List.mem_cons_self)
    obtain ⟨hgives, hfound⟩ := mergeMembers_spec hsound (by rwa [size_of_outline_eq houtline]) hne
    rw [hothers id hfresh, defaults_of_outline_eq houtline] at hgives hfound
    simp only [mergeAlong]
    refine ⟨hgives.sound, hgives.change.outline.trans houtline, fun o ho => ?_, ?_, fun hnone => ?_⟩
    · rw [hgives.change.membersOf hsound (fun h => ho (h ▸ List.mem_cons_self)),
        hothers o fun h => ho (List.mem_cons_of_mem _ h)]
    · rw [List.append_eq_nil_iff, hclean]
      constructor
      · rintro ⟨hresolved, hnone⟩
        rw [hmembers (hclean.2 hresolved)] at hfound
        rw [settledBelow_of_resolved (Prod.ext hresolved rfl), ← hfound, hnone]
        rfl
      · intro hresolved
        by_cases hp' : (g.settledBelow p chain).1 = .resolved
        · rw [hmembers (hclean.2 hp')] at hfound
          rw [settledBelow_of_resolved (Prod.ext hp' rfl), ← hfound] at hresolved
          refine ⟨hp', ?_⟩
          cases hl : ((g.mergeAlong p chain).1.mergeMembers p id).2 with
          | nil => rfl
          | cons c cs =>
            rw [hl] at hresolved
            cases hresolved
        · rw [settledBelow_of_ne_resolved hp'] at hresolved
          cases hresolved
    · obtain ⟨hearlier, -⟩ := List.append_eq_nil_iff.1 hnone
      rw [hgives.members, hmembers hearlier, settledBelow_of_resolved (Prod.ext (hclean.1 hearlier) rfl)]

/-- An object is resolved below a chain just if the merges along the chain find no conflict. -/
theorem mergeAlong_eq_nil_iff (hg : g.Sound) (hid : id < g.entities.size) (hc : SuperChain g id chain) :
    (g.mergeAlong id chain).2 = [] ↔ (g.settledBelow id chain).1 = .resolved :=
  (mergeAlong_spec hg hid hc).2.2.2.1

end Metamodel.Graph
