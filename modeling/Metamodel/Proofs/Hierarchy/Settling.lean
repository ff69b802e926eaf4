import Metamodel.Proofs.Cycles
import Metamodel.Proofs.Graph.States
import Metamodel.Proofs.Hierarchy.Chain

/-!
# The way up

The visit of an object goes up from it, with the objects that it came from as its `path`.  While inheritance is
under way (`Settling`), objects not visited have what they had at first, objects on the path have not inherited
yet, and all others have their outcome.  A visit settles its object and keeps this (`settle_spec`); a visit that
reaches its own path has closed a cycle, from which no chain leads up.
-/

namespace Metamodel.Graph

/-- How far `g` has come with an object since `g₀`. -/
structure Underway (g₀ g : Graph) (o : EntityId) : Prop where
  attributes : (g₀.entity o).attributes <+: (g.entity o).attributes
  untouched : g.stateOf o = .unresolved → (g.entity o).superEntity = (g₀.entity o).superEntity
  members : g.stateOf o = .unresolved ∨ g.stateOf o = .inProgress → g.membersOf o = g₀.membersOf o
  linked : g.stateOf o ≠ .unresolved → (g.entity o).superEntity = (g₀.superOf o).or (g₀.entity o).superEntity
  outcome : g.IsSettled o → Outcome g₀ o (g.stateOf o) (g.membersOf o)

/-- `g` is on the way from `g₀` to the end of inheritance. -/
structure Settling (g₀ g : Graph) : Prop where
  outline : g.outline = g₀.outline
  sound : g.Sound
  object : ∀ o ∈ g₀.idsOfKind .object, Underway g₀ g o

variable {g₀ g h : Graph} {id o p : EntityId} {path : List EntityId}

theorem Underway.congr (hu : Underway g₀ g o) (he : h.entity o = g.entity o) (hm : h.membersOf o = g.membersOf o) :
    Underway g₀ h o := by
  have hstate : h.stateOf o = g.stateOf o := by rw [stateOf, he, stateOf]
  constructor
  · rw [he]
    exact hu.attributes
  · rw [he, hstate]
    exact hu.untouched
  · rw [hm, hstate]
    exact hu.members
  · rw [he, hstate]
    exact hu.linked
  · rw [IsSettled, hm, hstate]
    exact hu.outcome

namespace Settling

theorem lt_size (hs : Settling g₀ g) (ho : o ∈ g₀.idsOfKind .object) : o < g.entities.size := by
  rw [size_of_outline_eq hs.outline]
  exact lt_size_of_mem_idsOfKind g₀ ho

/-- A change of one object, in members and state. -/
theorem change (hs : Settling g₀ g) (id : EntityId) (houtline : h.outline = g.outline) (hsound : h.Sound)
    (hothers : ∀ o, o ≠ id → h.entity o = g.entity o ∧ h.membersOf o = g.membersOf o) (hid : Underway g₀ h id) :
    Settling g₀ h where
  outline := houtline.trans hs.outline
  sound := hsound
  object o ho := by
    by_cases h : o = id
    · exact h ▸ hid
    · exact (hs.object o ho).congr (hothers o h).1 (hothers o h).2

end Settling

/-! ### Changes of state -/

private theorem membersOf_setStates (g : Graph) (ids : List EntityId) (state : EntityState) (o : EntityId) :
    (g.setStates ids state).membersOf o = g.membersOf o :=
  List.foldlRecOn ids _ (motive := fun h : Graph => h.membersOf o = g.membersOf o) rfl fun h hh id _ =>
    (membersOf_setState h id state o).trans hh

/-- The graph once the way up goes on from `id` to its superclass. -/
def enter (g : Graph) (id p : EntityId) : Graph :=
  g.modifyEntity id fun e => { e with superEntity := some p, state := .inProgress }

theorem stateOf_enter (hid : id < g.entities.size) (o : EntityId) :
    (g.enter id p).stateOf o = if o = id then .inProgress else g.stateOf o := by
  by_cases ho : o = id
  · subst ho
    rw [stateOf, enter, entity_modifyEntity_self _ _ hid, if_pos rfl]
  · rw [stateOf, enter, entity_modifyEntity_of_ne _ _ ho, if_neg ho, stateOf]

namespace Settling

/-- An object gets its outcome, after a change of its members. -/
theorem setState (hs : Settling g₀ g) (hid : id ∈ g₀.idsOfKind .object) (hh : OnlyChanges id g h) (hsound : h.Sound)
    {state : EntityState} (hstate : state = .resolved ∨ state = .failed)
    (hlinked : (g.entity id).superEntity = (g₀.superOf id).or (g₀.entity id).superEntity)
    (houtcome : Outcome g₀ id state (h.membersOf id)) : Settling g₀ (h.setState id state) := by
  have hlt : id < h.entities.size := by
    rw [size_of_outline_eq hh.outline]
    exact hs.lt_size hid
  have hnow : (h.setState id state).stateOf id = state := by rw [stateOf_setState h state hlt, if_pos rfl]
  have hentity := entity_setState h state hlt id
  rw [if_pos rfl] at hentity
  refine hs.change id (by rw [outline_setState, hh.outline]) (hsound.setState id state) (fun o ho => ⟨?_, ?_⟩) ?_
  · rw [entity_setState h state hlt, if_neg ho, hh.entity o ho]
  · rw [membersOf_setState, hh.membersOf hs.sound ho]
  · constructor
    · rw [hentity]
      exact (hs.object id hid).attributes.trans hh.attributes
    · intro hopen
      rw [hnow] at hopen
      rcases hstate with rfl | rfl <;> cases hopen
    · intro hopen
      rw [hnow] at hopen
      rcases hstate with rfl | rfl <;> rcases hopen with hopen | hopen <;> cases hopen
    · intro _
      rw [hentity, ← hlinked]
      exact hh.progress.2
    · intro _
      rw [hnow, membersOf_setState]
      exact houtcome

/-- Objects on a cycle fail together. -/
theorem setStates (hs : Settling g₀ g) {cycle : List EntityId}
    (hcycle : ∀ o ∈ cycle, o ∈ g₀.idsOfKind .object ∧ g.stateOf o = .inProgress ∧ ∀ chain, ¬ SuperChain g₀ o chain) :
    Settling g₀ (g.setStates cycle .failed) := by
  have hentity := entity_setStates g .failed fun o ho => hs.lt_size (hcycle o ho).1
  have hmembers := membersOf_setStates g cycle .failed
  refine ⟨(outline_setStates ..).trans hs.outline, hs.sound.setStates _ _, fun o ho => ?_⟩
  by_cases h : o ∈ cycle
  · obtain ⟨-, hstate, hnone⟩ := hcycle o h
    have hu := hs.object o ho
    have hnow : (g.setStates cycle .failed).stateOf o = .failed := by rw [stateOf, hentity, if_pos h]
    constructor
    · rw [hentity, if_pos h]
      exact hu.attributes
    · intro hopen
      rw [hnow] at hopen
      cases hopen
    · intro hopen
      rw [hnow] at hopen
      rcases hopen with hopen | hopen <;> cases hopen
    · intro _
      rw [hentity, if_pos h]
      exact hu.linked (by rw [hstate]; decide)
    · intro _
      rw [hnow, hmembers, hu.members (.inr hstate)]
      exact .unfounded hnone
  · exact (hs.object o ho).congr (by rw [hentity, if_neg h]) (hmembers o)

/-- The way up goes on from an object that was not visited. -/
theorem enter (hs : Settling g₀ g) (hid : id ∈ g₀.idsOfKind .object) (hstate : g.stateOf id = .unresolved)
    (hup : g₀.superOf id = some p) : Settling g₀ (g.enter id p) := by
  have hu := hs.object id hid
  have hmembers := fun o => membersOf_modifyEntity g id
    (fun e => { e with superEntity := some p, state := .inProgress }) (fun _ => ⟨rfl, rfl, rfl⟩) o
  have hentity := g.entity_modifyEntity_self (fun e => { e with superEntity := some p, state := .inProgress })
    (hs.lt_size hid)
  have hnow : (g.enter id p).stateOf id = .inProgress := by rw [stateOf_enter (hs.lt_size hid), if_pos rfl]
  refine hs.change id (outline_modifyEntity _ _ fun _ => rfl) (hs.sound.modifyEntity id fun _ => ⟨rfl, rfl, rfl⟩)
    (fun o ho => ⟨entity_modifyEntity_of_ne _ _ ho, hmembers o⟩) ⟨?_, ?_, ?_, ?_, ?_⟩
  · rw [Graph.enter, hentity]
    exact hu.attributes
  · intro hopen
    rw [hnow] at hopen
    cases hopen
  · intro _
    rw [Graph.enter, hmembers]
    exact hu.members (.inl hstate)
  · intro _
    rw [Graph.enter, hentity, hup]
    rfl
  · rw [IsSettled, hnow]
    rintro (h | h) <;> cases h

end Settling

/-! ### Visits -/

/-- The objects of the path are those that are in progress, and each is the superclass of the one before it. -/
structure OnWay (g₀ g : Graph) (path : List EntityId) : Prop where
  nodup : path.Nodup
  object : ∀ o ∈ path, o ∈ g₀.idsOfKind .object ∧ g.stateOf o = .inProgress
  complete : ∀ o ∈ g₀.idsOfKind .object, g.stateOf o = .inProgress → o ∈ path

theorem OnWay.not_mem (hw : OnWay g₀ g path) (hstate : g.stateOf id = .unresolved) : id ∉ path := by
  intro hmem
  rw [(hw.object id hmem).2] at hstate
  cases hstate

theorem OnWay.enter (hw : OnWay g₀ g path) (hlt : id < g.entities.size) (hid : id ∈ g₀.idsOfKind .object)
    (hstate : g.stateOf id = .unresolved) (p : EntityId) : OnWay g₀ (g.enter id p) (path ++ [id]) := by
  constructor
  · exact List.nodup_append'.2 ⟨hw.nodup, by simp, by simpa using hw.not_mem hstate⟩
  · intro o ho
    rw [stateOf_enter hlt]
    by_cases h : o = id
    · exact ⟨h ▸ hid, if_pos h⟩
    · rw [if_neg h]
      exact hw.object o (by simpa [h] using ho)
  · intro o ho hopen
    rw [stateOf_enter hlt] at hopen
    by_cases h : o = id
    · simp [h]
    · rw [if_neg h] at hopen
      exact List.mem_append_left _ (hw.complete o ho hopen)

/-- What the visit of `id` from `path` has done when it ends with `h`.  Objects of the path fail just if they are on a
cycle, and none fails without an issue. -/
structure Visited (g₀ : Graph) (path : List EntityId) (id : EntityId) (g : Graph) (x : Found Graph) : Prop where
  settling : Settling g₀ x.1
  settled : x.1.IsSettled id
  kept : ∀ o ∈ g₀.idsOfKind .object, g.IsSettled o → x.1.IsSettled o
  onPath : ∀ o ∈ path, x.1.stateOf o = .inProgress ∨ x.1.stateOf o = .failed ∧ ∀ chain, ¬ SuperChain g₀ o chain
  complete : ∀ o ∈ g₀.idsOfKind .object, x.1.stateOf o = .inProgress → o ∈ path
  clean : x.2 = [] → ∀ o ∈ g₀.idsOfKind .object, x.1.stateOf o = .failed → g.stateOf o = .failed

/-- A visit that reaches its own path: the cycle fails. -/
private theorem visited_cycle (hs : Settling g₀ g) (hw : OnWay g₀ g path)
    (hway : (path ++ [id]).IsChain fun a b => g₀.superOf a = some b) (hid : id ∈ path) (issue : Issue) :
    Visited g₀ path id g (g.setStates (superCycle path id) .failed, [issue]) := by
  obtain ⟨rest, hfound, hsuffix, hchain⟩ := exists_cycle_of_mem hway hid
  have hfound : superCycle path id = id :: rest := hfound
  rw [← hfound] at hsuffix hchain
  have hmem : id ∈ superCycle path id := by simp [hfound]
  have hclosed : ∀ o ∈ superCycle path id, ∃ p ∈ superCycle path id, g₀.superOf o = some p :=
    fun o ho => exists_next_of_chain hchain ho
  have hcycle : ∀ o ∈ superCycle path id,
      o ∈ g₀.idsOfKind .object ∧ g.stateOf o = .inProgress ∧ ∀ chain, ¬ SuperChain g₀ o chain := fun o ho =>
    ⟨(hw.object o (hsuffix.subset ho)).1, (hw.object o (hsuffix.subset ho)).2,
      fun _ => not_superChain_of_closed hclosed ho⟩
  have hstate := stateOf_setStates _ .failed fun o ho => hs.lt_size (hcycle o ho).1
  refine ⟨hs.setStates hcycle, .inr (by rw [hstate, if_pos hmem]), fun o _ hold => ?_, fun o ho => ?_,
    fun o ho hopen => ?_, fun hnone => by cases hnone⟩
  · rw [IsSettled, hstate]
    split
    · exact .inr rfl
    · exact hold
  · rw [hstate]
    split
    · exact .inr ⟨rfl, fun _ => not_superChain_of_closed hclosed ‹_›⟩
    · exact .inl (hw.object o ho).2
  · dsimp only at hopen
    rw [hstate] at hopen
    split at hopen
    · cases hopen
    · exact hw.complete o ho hopen

/-- `h` is on the way back to `id` from what lies above it.  In `g` the visit had come to `id` from `path`. -/
structure OnWayBack (g₀ : Graph) (path : List EntityId) (id : EntityId) (g h : Graph) : Prop where
  settling : Settling g₀ h
  kept : ∀ o ∈ g₀.idsOfKind .object, o ≠ id → g.IsSettled o → h.IsSettled o
  onPath : ∀ o ∈ path, h.stateOf o = .inProgress ∨ h.stateOf o = .failed ∧ ∀ chain, ¬ SuperChain g₀ o chain
  complete : ∀ o ∈ g₀.idsOfKind .object, o ≠ id → h.stateOf o = .inProgress → o ∈ path

/-- Besides `id`, nothing fails in `h` that had not failed in `g`. -/
def FailsNoOther (g₀ : Graph) (id : EntityId) (g h : Graph) : Prop :=
  ∀ o ∈ g₀.idsOfKind .object, o ≠ id → h.stateOf o = .failed → g.stateOf o = .failed

/-- Nothing lies above an object that is settled right away. -/
theorem OnWayBack.refl (hs : Settling g₀ g) (hw : OnWay g₀ g path) (id : EntityId) : OnWayBack g₀ path id g g :=
  ⟨hs, fun _ _ _ h => h, fun o ho => .inl (hw.object o ho).2, fun o ho _ => hw.complete o ho⟩

/-- After the visit of its superclass the way leads back to an object. -/
private theorem Visited.onWayBack {x : Found Graph} (hx : Visited g₀ (path ++ [id]) p (g.enter id p) x)
    (hlt : id < g.entities.size) : OnWayBack g₀ path id g x.1 ∧ (x.2 = [] → FailsNoOther g₀ id g x.1) := by
  have hentered : ∀ o, o ≠ id → (g.enter id p).stateOf o = g.stateOf o := by
    intro o ho
    rw [stateOf_enter hlt, if_neg ho]
  refine ⟨⟨hx.settling, fun o ho hne hold => ?_, fun o ho => hx.onPath o (List.mem_append_left _ ho),
    fun o ho hne hopen => ?_⟩, fun hnone o ho hne hfailed => ?_⟩
  · refine hx.kept o ho ?_
    rwa [IsSettled, hentered o hne]
  · simpa [hne] using hx.complete o ho hopen
  · rw [← hentered o hne]
    exact hx.clean hnone o ho hfailed

/-- A visit ends by settling its object, in a graph `k` that differs from the one before in that object alone. -/
private theorem visited_setState {k : Graph} {state : EntityState} {found : List Issue}
    (hb : OnWayBack g₀ path id g h) (hid : id ∈ g₀.idsOfKind .object) (hpath : id ∉ path) (hk : OnlyChanges id h k)
    (hsound : k.Sound) (hstate : state = .resolved ∨ state = .failed)
    (hlinked : (h.entity id).superEntity = (g₀.superOf id).or (g₀.entity id).superEntity)
    (houtcome : Outcome g₀ id state (k.membersOf id))
    (clean : found = [] → state = .resolved ∧ FailsNoOther g₀ id g h) :
    Visited g₀ path id g (k.setState id state, found) := by
  have hlt : id < k.entities.size := by
    rw [size_of_outline_eq hk.outline]
    exact hb.settling.lt_size hid
  have hnow : ∀ o, (k.setState id state).stateOf o = if o = id then state else h.stateOf o := by
    intro o
    rw [stateOf_setState k state hlt]
    split
    · rfl
    · rename_i ho
      rw [stateOf, hk.entity o ho, stateOf]
  refine ⟨hb.settling.setState hid hk hsound hstate hlinked houtcome, ?_, fun o ho hold => ?_, fun o ho => ?_,
    fun o ho hopen => ?_, fun hfound o ho hfailed => ?_⟩
  · rw [IsSettled, hnow, if_pos rfl]
    exact hstate
  · rw [IsSettled, hnow]
    split
    · exact hstate
    · exact hb.kept o ho ‹_› hold
  · rw [hnow, if_neg (by rintro rfl; exact hpath ho)]
    exact hb.onPath o ho
  · dsimp only at hopen
    rw [hnow] at hopen
    split at hopen
    · rcases hstate with rfl | rfl <;> cases hopen
    · exact hb.complete o ho ‹_› hopen
  · dsimp only at hfailed
    obtain ⟨rfl, hclean⟩ := clean hfound
    rw [hnow] at hfailed
    split at hfailed
    · cases hfailed
    · exact hclean o ho ‹_› hfailed

/-- An object with nothing above it is settled right away. -/
private theorem visited_alone {state : EntityState} (hs : Settling g₀ g) (hw : OnWay g₀ g path)
    (hid : id ∈ g₀.idsOfKind .object) (hstate : g.stateOf id = .unresolved) (found : List Issue)
    (hfinal : state = .resolved ∨ state = .failed) (hup : g₀.superOf id = none)
    (houtcome : Outcome g₀ id state (g₀.membersOf id)) (hclean : found = [] → state = .resolved) :
    Visited g₀ path id g (g.setState id state, found) := by
  have hu := hs.object id hid
  rw [← hu.members (.inl hstate)] at houtcome
  refine visited_setState (.refl hs hw id) hid (hw.not_mem hstate) (.refl id g) hs.sound hfinal ?_ houtcome
    fun hnone => ⟨hclean hnone, fun _ _ _ h => h⟩
  rw [hu.untouched hstate, hup]
  rfl

theorem Visited.linked {x : Found Graph} (hx : Visited g₀ (path ++ [id]) p g x) (hid : id ∈ g₀.idsOfKind .object) :
    (x.1.entity id).superEntity = (g₀.superOf id).or (g₀.entity id).superEntity := by
  refine (hx.settling.object id hid).linked ?_
  rcases hx.onPath id (by simp) with h | ⟨h, -⟩ <;> rw [h] <;> decide

/-! ### The way back -/

/-- Below a resolved superclass the members are merged. -/
theorem inheritFrom_of_resolved (superName : String) (id : EntityId) (hp : g.stateOf p = .resolved) :
    g.inheritFrom superName p id =
      ((g.mergeMembers p id).1.setState id (if (g.mergeMembers p id).2.isEmpty then .resolved else .failed),
        (g.mergeMembers p id).2.map fun (member, message) => inheritanceIssue g .schema id (some member) message) := by
  simp [inheritFrom, hp]

/-- Below a superclass that failed the object fails. -/
theorem inheritFrom_of_failed (superName : String) (hp : g.stateOf p = .failed) (hid : g.stateOf id = .inProgress) :
    g.inheritFrom superName p id = (g.setState id .failed, [inheritanceIssue g .consistency id none
      ("superclass '" ++ superName ++ "' of '" ++ g.qualifiedName id ++ "' failed resolution")]) := by
  have hnot : g.isFailed id = false := by
    rw [isFailed, Entity.isFailed, ← stateOf, hid]
    rfl
  simp [inheritFrom, hp, hnot]

/-- An object that a cycle has made fail stays as it is. -/
theorem inheritFrom_of_cycle (superName : String) (hp : g.stateOf p = .failed) (hid : g.stateOf id = .failed) :
    g.inheritFrom superName p id = (g, []) := by
  have hyes : g.isFailed id = true := by
    rw [isFailed, Entity.isFailed, ← stateOf, hid]
    rfl
  simp [inheritFrom, hp, hyes]

section AfterSuperclass

variable {x : Found Graph} (hid : id ∈ g₀.idsOfKind .object) (hlt : id < g.entities.size)
  (hup : g₀.superOf id = some p) (hpath : id ∉ path) (hx : Visited g₀ (path ++ [id]) p (g.enter id p) x)

include hid hlt hup hpath hx

/-- The superclass is resolved: its members are merged into those of the object. -/
private theorem visited_of_resolved (superName : String) (hresolved : x.1.stateOf p = .resolved) :
    Visited g₀ path id g (x.andThen fun g => g.inheritFrom superName p id) := by
  obtain ⟨hback, hclean⟩ := hx.onWayBack hlt
  have hu := hx.settling.object id hid
  have hp := mem_objects_of_superOf hup
  obtain ⟨chain, hc, hbelow⟩ := (hresolved ▸ (hx.settling.object p hp).outcome hx.settled).exists_chain
  -- An object with a chain is on no cycle, so that it is still in progress.
  have hopen : x.1.stateOf id = .inProgress := (hx.onPath id (by simp)).resolve_right fun h => h.2 _ (.up hup hc)
  have hne : p ≠ id := by
    rintro rfl
    rw [hopen] at hresolved
    cases hresolved
  obtain ⟨hgives, hconflicts⟩ := mergeMembers_spec hx.settling.sound (hx.settling.lt_size hid) hne
  rw [defaults_of_outline_eq hx.settling.outline, hu.members (.inr hopen)] at hgives hconflicts
  have houtcome := Outcome.below (.up hup hc)
  rw [settledBelow_of_resolved hbelow, ← hconflicts, ← hgives.members] at houtcome
  rw [Found.andThen_eq, inheritFrom_of_resolved superName id hresolved]
  refine visited_setState hback hid hpath hgives.change hgives.sound ?_ (hx.linked hid)
    houtcome fun hnone => ?_
  · split
    · exact .inl rfl
    · exact .inr rfl
  · obtain ⟨hbefore, hhere⟩ := List.append_eq_nil_iff.1 hnone
    rw [List.map_eq_nil_iff.1 hhere]
    exact ⟨rfl, hclean hbefore⟩

/-- The superclass failed: so does the object, unless a cycle made it fail already. -/
private theorem visited_of_failed (superName : String) (hfailed : x.1.stateOf p = .failed) :
    Visited g₀ path id g (x.andThen fun g => g.inheritFrom superName p id) := by
  obtain ⟨hback, hclean⟩ := hx.onWayBack hlt
  have hu := hx.settling.object id hid
  have hp := mem_objects_of_superOf hup
  have houtcome := Outcome.of_failed hup (hfailed ▸ (hx.settling.object p hp).outcome hx.settled)
  -- A cycle that the visit of the superclass has closed may go through `id`, which has failed then already.
  rcases hx.onPath id (by simp) with hopen | ⟨hfailed', -⟩
  · rw [Found.andThen_eq, inheritFrom_of_failed superName hfailed hopen]
    rw [← hu.members (.inr hopen)] at houtcome
    refine visited_setState hback hid hpath (.refl id x.1) hx.settling.sound (.inr rfl)
      (hx.linked hid) houtcome fun hnone => ?_
    cases (List.append_eq_nil_iff.1 hnone).2
  · rw [Found.andThen_eq, inheritFrom_of_cycle superName hfailed hfailed']
    refine ⟨hx.settling, .inr hfailed', fun o ho hold => ?_, hback.onPath, fun o ho hopen => ?_,
      fun hnone o ho hof => ?_⟩
    · by_cases hne : o = id
      · exact hne ▸ .inr hfailed'
      · exact hback.kept o ho hne hold
    · refine hback.complete o ho ?_ hopen
      rintro rfl
      rw [hfailed'] at hopen
      cases hopen
    · dsimp only at hnone hof
      rw [List.append_nil] at hnone
      by_cases hne : o = id
      · -- An object that is entered is in progress, and without an issue no visit makes it fail.
        subst hne
        have := hx.clean hnone o ho hof
        rw [stateOf_enter hlt, if_pos rfl] at this
        cases this
      · exact hclean hnone o ho hne hof

end AfterSuperclass

/-- A visit settles its object.  There are steps enough, since a path has no more objects than there are. -/
theorem settle_spec {steps : Nat} (hs : Settling g₀ g) (hw : OnWay g₀ g path)
    (hway : (path ++ [id]).IsChain fun a b => g₀.superOf a = some b) (hid : id ∈ g₀.idsOfKind .object)
    (hsteps : (g₀.idsOfKind .object).length + 1 ≤ steps + path.length) :
    Visited g₀ path id g (settle steps path g id) := by
  -- `Settling` and `OnWay` hold again where the visit goes up, with one step less and one object more on the path.
  induction steps generalizing path g id with
  | zero =>
    have := hw.nodup.length_le_of_subset fun o ho => (hw.object o ho).1
    omega
  | succ steps ih =>
    have stay (hsettled : g.IsSettled id) : Visited g₀ path id g (g, []) :=
      ⟨hs, hsettled, fun _ _ h => h, fun o ho => .inl (hw.object o ho).2, hw.complete, fun _ _ _ h => h⟩
    cases hstate : g.stateOf id with
    | resolved =>
      rw [settle, hstate]
      exact stay (.inl hstate)
    | failed =>
      rw [settle, hstate]
      exact stay (.inr hstate)
    | inProgress =>
      rw [settle, hstate]
      exact visited_cycle hs hw hway (hw.complete id hid hstate) _
    | unresolved =>
      have hpath := hw.not_mem hstate
      have hname := superName_of_outline_eq hs.outline id
      cases hsuper : (g₀.entity id).superName with
      | none =>
        rw [hsuper] at hname
        simp only [settle, hstate, hname]
        have hup : g₀.superOf id = none := by rw [superOf, hsuper]; rfl
        exact visited_alone hs hw hid hstate [] (.inl rfl) hup (.below (.top hsuper)) fun _ => rfl
      | some superName =>
        rw [hsuper] at hname
        have hlookup := lookup_congr hs.outline superName .object
        have hup : g₀.superOf id = g₀.lookup superName .object := by rw [superOf, hsuper]; rfl
        cases hparent : g₀.lookup superName .object with
        | none =>
          rw [hparent] at hlookup hup
          simp only [settle, hstate, hname, hlookup]
          refine visited_alone hs hw hid hstate _ (.inr rfl) hup (.unfounded fun chain hc => ?_)
            fun hnone => by cases hnone
          cases hc with
          | top htop =>
            rw [hsuper] at htop
            cases htop
          | up hup' =>
            rw [hup] at hup'
            cases hup'
        | some p =>
          rw [hparent] at hlookup hup
          simp only [settle, hstate, hname, hlookup]
          have hlt := hs.lt_size hid
          have habove : Visited g₀ (path ++ [id]) p (g.enter id p) (settle steps (path ++ [id]) (g.enter id p) p) := by
            refine ih (hs.enter hid hstate hup) (hw.enter hlt hid hstate p) (isChain_concat_concat hway hup)
              (mem_objects_of_superOf hup) ?_
            simp only [List.length_append, List.length_cons, List.length_nil]
            omega
          rcases habove.settled with hresolved | hfailed
          · exact visited_of_resolved hid hlt hup hpath habove superName hresolved
          · exact visited_of_failed hid hlt hup hpath habove superName hfailed

end Metamodel.Graph
