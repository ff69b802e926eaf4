import Metamodel.Proofs.Cycles
import Metamodel.Proofs.Embedded.Termination
import Metamodel.Proofs.Graph.States

/-!
# Cycles of nesting

An embedded value has many others nested in it, so a visit goes on after it has closed a cycle, from values that have
failed already.  Of the values that are settled, though, the resolved ones are those from which every way down ends,
and the failed ones those from which a way leads to a cycle (`Sorts`).  A visit keeps that and settles its value
(`sorts_visitNested`), so in the end it is exactly the values which reach a cycle that have failed.
-/

namespace Metamodel.Graph

/-- A value nested in `o` is of the type `t`. -/
def Nests (g : Graph) (o t : EntityId) : Prop :=
  ∃ n ∈ (g.entity o).nested, g.lookup n.typeName .embeddedValue = some t

variable {g h : Graph} {id o t : EntityId} {path cycle : List EntityId} {issues : List Issue}

private theorem mem_values_of_nests (h : g.Nests o t) : t ∈ g.idsOfKind .embeddedValue := by
  obtain ⟨n, -, hn⟩ := h
  exact g.mem_idsOfKind_of_lookup hn

/-- The issue says that values are nested in a cycle. -/
def IsCyclicNesting (i : Issue) : Prop :=
  i.message.startsWith "cyclic nesting"

private theorem isCyclicNesting_cyclicNesting (g : Graph) (cycle : List EntityId) (id : EntityId) :
    IsCyclicNesting (g.cyclicNesting cycle id) := by
  simp [IsCyclicNesting, cyclicNesting, Issue.error]

/-! ### The checks -/

private theorem not_isCyclicNesting_nestedIssues (object : String) (seen : List String) (nested : List NestedValue) :
    ∀ i ∈ nestedIssues object seen nested, ¬ IsCyclicNesting i := by
  induction nested generalizing seen with
  | nil => exact fun _ hi => absurd hi List.not_mem_nil
  | cons n nested ih =>
    intro i hi
    rw [nestedIssues] at hi
    rcases List.mem_append.1 hi with hi | hi
    · rcases List.mem_append.1 hi with hi | hi
      · split at hi
        · rw [List.mem_singleton.1 hi]
          show ¬ ("duplicate member name '" ++ n.name ++ "'").startsWith "cyclic nesting"
          simp
        · cases hi
      · split at hi
        · rw [List.mem_singleton.1 hi]
          show ¬ ("nested object type '" ++ n.typeName ++ "' is not a defined embedded value object").startsWith
            "cyclic nesting"
          simp
        · cases hi
    · exact ih _ i hi

/-- The checks before the visits say nothing about cycles. -/
private theorem not_isCyclicNesting_checkNested (g : Graph) (id : EntityId) :
    ∀ i ∈ (g.checkNested id).2, ¬ IsCyclicNesting i := by
  intro i hi
  rcases List.mem_append.1 hi with hi | hi
  · obtain ⟨name, -, rfl⟩ := List.mem_map.1 hi
    show ¬ ("duplicate member name '" ++ name ++ "'").startsWith "cyclic nesting"
    simp
  · exact not_isCyclicNesting_nestedIssues _ _ _ i hi

/-- From `g` to `h` nothing but the targets of nested values has changed. -/
structure OnlyTargets (g h : Graph) : Prop where
  outline : h.outline = g.outline
  stateOf : ∀ o, h.stateOf o = g.stateOf o
  typeNames : ∀ o, (h.entity o).nested.map (·.typeName) = (g.entity o).nested.map (·.typeName)

theorem OnlyTargets.checkNested (hh : OnlyTargets g h) (id : EntityId) : OnlyTargets g (h.checkNested id).1 where
  outline := (outline_checkNested h id).trans hh.outline
  stateOf o := by
    rw [← hh.stateOf, Graph.stateOf, Graph.checkNested, entity_modifyEntity]
    split <;> rfl
  typeNames o := by
    rw [← hh.typeNames, Graph.checkNested, entity_modifyEntity]
    split
    · rename_i heq
      rw [← heq.1, List.map_map]
      rfl
    · rfl

/-- The check of an embedded value finds what is nested in it. -/
private theorem OnlyTargets.mem_nestedTargets_iff (hh : OnlyTargets g h) (hid : id < h.entities.size) :
    t ∈ (h.checkNested id).1.nestedTargets id ↔ g.Nests id t := by
  have hlookup : ∀ n : NestedValue, h.lookup n.typeName .embeddedValue = g.lookup n.typeName .embeddedValue :=
    fun n => lookup_congr hh.outline n.typeName .embeddedValue
  have hnames : ((h.entity id).nested.filterMap fun n => g.lookup n.typeName .embeddedValue) =
      (g.entity id).nested.filterMap fun n => g.lookup n.typeName .embeddedValue := by
    have := congrArg (List.filterMap fun name => g.lookup name .embeddedValue) (hh.typeNames id)
    rwa [List.filterMap_map, List.filterMap_map] at this
  rw [nestedTargets_checkNested h hid, if_pos rfl]
  simp only [hlookup]
  rw [hnames, List.mem_filterMap]
  rfl

/-- After the checks the targets of the embedded values are what is nested in them. -/
private theorem nests_checked (g : Graph) :
    let h := (gather checkNested g (g.idsOfKind .embeddedValue)).1
    OnlyTargets g h ∧ ∀ o ∈ g.idsOfKind .embeddedValue, ∀ t, t ∈ h.nestedTargets o ↔ g.Nests o t := by
  have hstart : OnlyTargets g g := ⟨rfl, fun _ => rfl, fun _ => rfl⟩
  have hstep : ∀ h : Graph, ∀ id ∈ g.idsOfKind .embeddedValue, OnlyTargets g h → OnlyTargets g (h.checkNested id).1 :=
    fun h id _ hh => hh.checkNested id
  have hlt : ∀ h : Graph, OnlyTargets g h → ∀ id ∈ g.idsOfKind .embeddedValue, id < h.entities.size := by
    intro h hh id hid
    rw [size_of_outline_eq hh.outline]
    exact g.lt_size_of_mem_idsOfKind hid
  refine ⟨gather_invariant (OnlyTargets g) hstep hstart, ?_⟩
  refine forall_gather (OnlyTargets g) (fun o h => ∀ t, t ∈ h.nestedTargets o ↔ g.Nests o t) hstep
    (fun h id hid o hh ho t => ?_) (fun h id hid hh t => hh.mem_nestedTargets_iff (hlt h hh id hid)) hstart
  by_cases heq : o = id
  · subst heq
    exact hh.mem_nestedTargets_iff (hlt h hh o hid)
  · rw [nestedTargets_checkNested h (hlt h hh id hid), if_neg heq]
    exact ho t

/-! ### Visits -/

/-- A visit leaves what is settled. -/
private theorem isSettled_visitNested (steps : Nat) (path : List EntityId) (id : EntityId) (ho : h.IsSettled o) :
    (visitNested steps path h id).1.IsSettled o := by
  induction steps generalizing path h id with
  | zero => exact ho
  | succ steps ih =>
    cases hstate : h.stateOf id with
    | resolved => rwa [visitNested, hstate]
    | failed => rwa [visitNested, hstate]
    | inProgress =>
      rw [visitNested, hstate]
      exact List.foldlRecOn (cycleAt path id) _ (motive := fun k : Graph => k.IsSettled o) ho fun k hk c _ =>
        hk.setState c (.inr rfl)
    | unresolved =>
      have hne : o ≠ id := fun heq => ho.ne_unresolved (heq ▸ hstate)
      have hbelow : (gather (visitNested steps (path ++ [id])) (h.setState id .inProgress)
          (h.nestedTargets id)).1.IsSettled o :=
        gather_invariant (fun k : Graph => k.IsSettled o) (fun k t _ hk => ih (path ++ [id]) t hk)
          (ho.setState_of_ne hne .inProgress)
      simp only [visitNested, hstate]
      split
      · exact hbelow.setState_of_ne hne _
      · exact hbelow

/-- What visits have found out about the nesting of `g`, while those of the values of `path` are under way. -/
structure Sorts (g : Graph) (path : List EntityId) (h : Graph) (issues : List Issue) : Prop where
  outline : h.outline = g.outline
  targets : ∀ o ∈ g.idsOfKind .embeddedValue, ∀ t, t ∈ h.nestedTargets o ↔ g.Nests o t
  resolved : ∀ o ∈ g.idsOfKind .embeddedValue, h.stateOf o = .resolved → Acc (fun t o => g.Nests o t) o
  failed : ∀ o ∈ g.idsOfKind .embeddedValue, h.stateOf o = .failed →
    ReachesCycle g.Nests o ∧ ∃ i ∈ issues, IsCyclicNesting i
  cyclic : ∀ i ∈ issues, IsCyclicNesting i →
    ∃ first rest, (first :: rest ++ [first]).IsChain g.Nests ∧ i = g.cyclicNesting (first :: rest) first
  complete : ∀ o ∈ g.idsOfKind .embeddedValue, h.stateOf o = .inProgress → o ∈ path
  onPath : ∀ o ∈ path, o ∈ g.idsOfKind .embeddedValue ∧ (h.stateOf o = .inProgress ∨ h.stateOf o = .failed)

namespace Sorts

theorem lt_size (hs : Sorts g path h issues) (ho : o ∈ g.idsOfKind .embeddedValue) : o < h.entities.size := by
  rw [size_of_outline_eq hs.outline]
  exact g.lt_size_of_mem_idsOfKind ho

private theorem not_mem_path (hs : Sorts g path h issues) (hstate : h.stateOf id = .unresolved) : id ∉ path := by
  intro hmem
  rcases (hs.onPath id hmem).2 with h | h <;> rw [hstate] at h <;> cases h

/-- The visit goes down from a value that was not visited. -/
theorem enter (hs : Sorts g path h issues) (hid : id ∈ g.idsOfKind .embeddedValue)
    (hnew : h.stateOf id = .unresolved) : Sorts g (path ++ [id]) (h.setState id .inProgress) issues := by
  have hstate := stateOf_setState h .inProgress (hs.lt_size hid)
  have hunfolds : Unfolds h (h.setState id .inProgress) := .setState h id (by decide)
  refine ⟨hunfolds.outline.trans hs.outline, fun o ho t => ?_, fun o ho hr => ?_, fun o ho hf => ?_, hs.cyclic,
    fun o ho hopen => ?_, fun o ho => ?_⟩
  · rw [hunfolds.nestedTargets]
    exact hs.targets o ho t
  · rw [hstate] at hr
    split at hr
    · cases hr
    · exact hs.resolved o ho hr
  · rw [hstate] at hf
    split at hf
    · cases hf
    · exact hs.failed o ho hf
  · rw [hstate] at hopen
    split at hopen
    · rename_i heq
      simp [heq]
    · exact List.mem_append_left _ (hs.complete o ho hopen)
  · rw [hstate]
    rcases List.mem_append.1 ho with hold | hlast
    · have hne : o ≠ id := fun heq => hs.not_mem_path hnew (heq ▸ hold)
      rw [if_neg hne]
      exact hs.onPath o hold
    · obtain rfl := List.mem_singleton.1 hlast
      rw [if_pos rfl]
      exact ⟨hid, .inl rfl⟩

/-- The visit comes to its path again: the values from there on form a cycle and fail. -/
private theorem close (hs : Sorts g path h issues) (hway : (path ++ [id]).IsChain g.Nests) (hid : id ∈ path) :
    Sorts g path (h.setStates (cycleAt path id) .failed) (issues ++ [g.cyclicNesting (cycleAt path id) id]) ∧
      (h.setStates (cycleAt path id) .failed).stateOf id = .failed := by
  obtain ⟨rest, hfound, hsuffix, hchain⟩ := exists_cycle_of_mem hway hid
  have hfound : cycleAt path id = id :: rest := hfound
  have hunfolds : Unfolds h (h.setStates (id :: rest) .failed) := .setStates h _ (by decide)
  have hstate := stateOf_setStates h .failed fun o ho => hs.lt_size (hs.onPath o (hsuffix.subset ho)).1
  rw [hfound]
  refine ⟨⟨hunfolds.outline.trans hs.outline, fun o ho t => ?_, fun o ho hr => ?_, fun o ho hf => ?_,
    fun i hi hcyclic => ?_, fun o ho hopen => ?_, fun o ho => ⟨(hs.onPath o ho).1, ?_⟩⟩, ?_⟩
  · rw [hunfolds.nestedTargets]
    exact hs.targets o ho t
  · rw [hstate] at hr
    split at hr
    · cases hr
    · exact hs.resolved o ho hr
  · have hreported : ∃ i ∈ issues ++ [g.cyclicNesting (id :: rest) id], IsCyclicNesting i :=
      ⟨_, by simp, isCyclicNesting_cyclicNesting g (id :: rest) id⟩
    rw [hstate] at hf
    split at hf
    · rename_i hmem
      exact ⟨.of_self (transGen_self_of_chain hchain (Cycle.mem_coe_iff.2 hmem)), hreported⟩
    · exact ⟨(hs.failed o ho hf).1, hreported⟩
  · rcases List.mem_append.1 hi with hold | hlast
    · exact hs.cyclic i hold hcyclic
    · exact ⟨id, rest, isChain_of_chain hchain, List.mem_singleton.1 hlast⟩
  · rw [hstate] at hopen
    split at hopen
    · cases hopen
    · exact hs.complete o ho hopen
  · rw [hstate]
    split
    · exact .inr rfl
    · exact (hs.onPath o ho).2
  · rw [hstate, if_pos List.mem_cons_self]

/-- The visit comes back from a value that a cycle has made fail. -/
private theorem leave (hs : Sorts g (path ++ [id]) h issues) (hf : h.stateOf id = .failed) : Sorts g path h issues where
  outline := hs.outline
  targets := hs.targets
  resolved := hs.resolved
  failed := hs.failed
  cyclic := hs.cyclic
  complete o ho hopen := by
    refine (List.mem_append.1 (hs.complete o ho hopen)).resolve_right fun hlast => ?_
    rw [List.mem_singleton.1 hlast, hf] at hopen
    cases hopen
  onPath o ho := hs.onPath o (List.mem_append_left _ ho)

/-- The visit comes back from a value and settles it. -/
theorem settle (hs : Sorts g (path ++ [id]) h issues) (hpath : id ∉ path) {state : EntityState}
    (hresolved : state = .resolved → Acc (fun t o => g.Nests o t) id)
    (hfailed : state = .failed → ReachesCycle g.Nests id ∧ ∃ i ∈ issues, IsCyclicNesting i)
    (hsettled : state = .resolved ∨ state = .failed) : Sorts g path (h.setState id state) issues := by
  have hid : id ∈ g.idsOfKind .embeddedValue := (hs.onPath id (by simp)).1
  have hstate := stateOf_setState h state (hs.lt_size hid)
  have hunfolds : Unfolds h (h.setState id state) := .setState h id (by rcases hsettled with h | h <;> simp [h])
  refine ⟨hunfolds.outline.trans hs.outline, fun o ho t => ?_, fun o ho hr => ?_, fun o ho hf => ?_, hs.cyclic,
    fun o ho hopen => ?_, fun o ho => ?_⟩
  · rw [hunfolds.nestedTargets]
    exact hs.targets o ho t
  · rw [hstate] at hr
    split at hr
    · rename_i heq
      exact heq ▸ hresolved hr
    · exact hs.resolved o ho hr
  · rw [hstate] at hf
    split at hf
    · rename_i heq
      exact heq ▸ hfailed hf
    · exact hs.failed o ho hf
  · rw [hstate] at hopen
    split at hopen
    · rcases hsettled with h | h <;> rw [h] at hopen <;> cases hopen
    · rename_i hne
      exact (List.mem_append.1 (hs.complete o ho hopen)).resolve_right fun h => hne (List.mem_singleton.1 h)
  · have hne : o ≠ id := fun heq => hpath (heq ▸ ho)
    rw [hstate, if_neg hne]
    exact hs.onPath o (List.mem_append_left _ ho)

end Sorts

/-- All that is nested in a value has been visited, and the visit comes back from it. -/
private theorem sorts_return (hs : Sorts g (path ++ [id]) h issues) (hpath : id ∉ path) {targets : List EntityId}
    (htargets : ∀ t, t ∈ targets ↔ g.Nests id t) (hsettled : ∀ t ∈ targets, h.IsSettled t) :
    let settled := if targets.all fun t => h.stateOf t == .resolved then EntityState.resolved else .failed
    let k := if h.stateOf id == .inProgress then h.setState id settled else h
    Sorts g path k issues ∧ k.IsSettled id := by
  dsimp only
  obtain ⟨hid, hopen | hf⟩ := hs.onPath id (by simp)
  · have hstate := fun state => stateOf_setState h state (hs.lt_size hid) id
    rw [if_pos (by rw [hopen]; rfl)]
    by_cases hall : ∀ t ∈ targets, h.stateOf t = .resolved
    · have hacc : Acc (fun t o => g.Nests o t) id :=
        .intro id fun t ht => hs.resolved t (mem_values_of_nests ht) (hall t ((htargets t).2 ht))
      rw [if_pos (by simpa using hall)]
      exact ⟨hs.settle hpath (fun _ => hacc) nofun (.inl rfl), .inl (by rw [hstate, if_pos rfl])⟩
    · obtain ⟨t, ht, hne⟩ : ∃ t ∈ targets, h.stateOf t ≠ .resolved := by simpa using hall
      have hnests := (htargets t).1 ht
      have hfailed := hs.failed t (mem_values_of_nests hnests) ((hsettled t ht).resolve_left hne)
      rw [if_neg (by simpa using hall)]
      exact ⟨hs.settle hpath nofun (fun _ => ⟨hfailed.1.head hnests, hfailed.2⟩) (.inr rfl),
        .inr (by rw [hstate, if_pos rfl])⟩
  · rw [if_neg (by rw [hf]; decide)]
    exact ⟨hs.leave hf, .inr hf⟩

/-- A visit keeps the values sorted, and settles its own. -/
theorem sorts_visitNested {steps : Nat} (hs : Sorts g path h issues) (hway : (path ++ [id]).IsChain g.Nests)
    (hid : id ∈ g.idsOfKind .embeddedValue) (hsteps : Suffices (g.idsOfKind .embeddedValue) steps path) :
    Sorts g path (visitNested steps path h id).1 (issues ++ (visitNested steps path h id).2) ∧
      (visitNested steps path h id).1.IsSettled id := by
  induction steps generalizing path h id issues with
  | zero => exact absurd hsteps not_suffices_zero
  | succ steps ih =>
    cases hstate : h.stateOf id with
    | resolved =>
      rw [visitNested, hstate, List.append_nil]
      exact ⟨hs, .inl hstate⟩
    | failed =>
      rw [visitNested, hstate, List.append_nil]
      exact ⟨hs, .inr hstate⟩
    | inProgress =>
      have hnames : h.qualifiedName = g.qualifiedName := funext (qualifiedName_of_outline_eq hs.outline)
      obtain ⟨hclosed, hf⟩ := hs.close hway (hs.complete id hid hstate)
      rw [visitNested, hstate]
      simp only [cyclicNesting, hnames] at hclosed ⊢
      exact ⟨hclosed, .inr hf⟩
    | unresolved =>
      have hpath := hs.not_mem_path hstate
      have hdown : ∀ k issues', ∀ t ∈ h.nestedTargets id, Sorts g (path ++ [id]) k issues' →
          Sorts g (path ++ [id]) (visitNested steps (path ++ [id]) k t).1
              (issues' ++ (visitNested steps (path ++ [id]) k t).2) ∧
            (visitNested steps (path ++ [id]) k t).1.IsSettled t := by
        intro k issues' t ht hk
        have hnests := (hs.targets id hid t).1 ht
        exact ih hk (isChain_concat_concat hway hnests) (mem_values_of_nests hnests) (hsteps.concat hid hpath)
      have hkeep := fun k issues' t ht hk => (hdown k issues' t ht hk).1
      have hbelow := gather_invariant_found (Sorts g (path ++ [id])) hkeep (hs.enter hid hstate)
      have hsettled := forall_gather_found (Sorts g (path ++ [id])) (fun t k => k.IsSettled t) hkeep
        (fun _ _ t _ _ _ ho => isSettled_visitNested steps (path ++ [id]) t ho)
        (fun k issues' t ht hk => (hdown k issues' t ht hk).2) issues (hs.enter hid hstate)
      simp only [visitNested, hstate]
      exact sorts_return hbelow hpath (hs.targets id hid) hsettled

/-! ### All embedded values -/

/-- After the resolution of embedded values each is resolved or failed, and failed are those from which a way through
nested values leads to a cycle.  Whether there is one can be told from the issues, and each that says so names one. -/
theorem nesting_of_resolveEmbeddedValues (hg : ∀ o ∈ g.idsOfKind .embeddedValue, g.stateOf o = .unresolved) :
    let h := g.resolveEmbeddedValues.1
    let issues := g.resolveEmbeddedValues.2
    (∀ o ∈ g.idsOfKind .embeddedValue, ∀ t, t ∈ h.nestedTargets o ↔ g.Nests o t) ∧
    (∀ o ∈ g.idsOfKind .embeddedValue, h.stateOf o = .resolved ∨ h.stateOf o = .failed) ∧
    (∀ o ∈ g.idsOfKind .embeddedValue, h.stateOf o = .failed ↔ ReachesCycle g.Nests o) ∧
    ((∃ i ∈ issues, IsCyclicNesting i) ↔ ∃ o, Relation.TransGen g.Nests o o) ∧
    ∀ i ∈ issues, IsCyclicNesting i →
      ∃ first rest, (first :: rest ++ [first]).IsChain g.Nests ∧ i = g.cyclicNesting (first :: rest) first := by
  obtain ⟨hchecked, htargets⟩ := nests_checked g
  have hquiet : ∀ i ∈ (gather checkNested g (g.idsOfKind .embeddedValue)).2, ¬ IsCyclicNesting i :=
    forall_issue_gather (fun h id _ => not_isCyclicNesting_checkNested h id) g
  have hopen := fun o ho => (hchecked.stateOf o).trans (hg o ho)
  have hstart : Sorts g [] (gather checkNested g (g.idsOfKind .embeddedValue)).1
      (gather checkNested g (g.idsOfKind .embeddedValue)).2 := by
    refine ⟨hchecked.outline, htargets, fun o ho hr => ?_, fun o ho hf => ?_,
      fun i hi hcyclic => absurd hcyclic (hquiet i hi), fun o ho hp => ?_, fun o ho => absurd ho List.not_mem_nil⟩
    · rw [hopen o ho] at hr
      cases hr
    · rw [hopen o ho] at hf
      cases hf
    · rw [hopen o ho] at hp
      cases hp
  have hvisit := fun h issues id hid (hs : Sorts g [] h issues) =>
    sorts_visitNested hs (.singleton id) hid (suffices_nil (g.idsOfKind .embeddedValue) 0)
  have hsorts := gather_invariant_found (Sorts g []) (fun h issues id hid hs => (hvisit h issues id hid hs).1) hstart
  have hsettled := forall_gather_found (Sorts g []) (fun o k => k.IsSettled o)
    (fun h issues id hid hs => (hvisit h issues id hid hs).1)
    (fun _ _ id _ _ _ ho => isSettled_visitNested _ [] id ho)
    (fun h issues id hid hs => (hvisit h issues id hid hs).2) _ hstart
  change Sorts g [] g.resolveEmbeddedValues.1 g.resolveEmbeddedValues.2 at hsorts
  change ∀ o ∈ g.idsOfKind .embeddedValue, g.resolveEmbeddedValues.1.IsSettled o at hsettled
  have hfails : ∀ o ∈ g.idsOfKind .embeddedValue,
      g.resolveEmbeddedValues.1.stateOf o = .failed ↔ ReachesCycle g.Nests o := by
    refine fun o ho => ⟨fun hf => (hsorts.failed o ho hf).1, fun hreaches => ?_⟩
    exact (hsettled o ho).resolve_left fun hr => not_reachesCycle_of_acc (hsorts.resolved o ho hr) hreaches
  refine ⟨hsorts.targets, hsettled, hfails, ⟨fun ⟨i, hi, hcyclic⟩ => ?_, fun ⟨o, ho⟩ => ?_⟩, hsorts.cyclic⟩
  · obtain ⟨first, rest, hchain, -⟩ := hsorts.cyclic i hi hcyclic
    exact ⟨first, reaches_of_isChain hchain first (by simp)⟩
  · obtain ⟨before, -, hlast⟩ := Relation.TransGen.tail'_iff.1 ho
    have hid := mem_values_of_nests hlast
    exact (hsorts.failed o hid ((hfails o hid).2 (.of_self ho))).2

/-- Orders and items nested in each other, items in themselves too, boxes with orders, bags with notes. -/
def boxes : Graph where
  entities :=
    #[{ name := ⟨"shop", "Order"⟩, kind := .embeddedValue, nested := [⟨"item", "Item", none⟩, ⟨"note", "Note", none⟩] },
      { id := 1, name := ⟨"shop", "Item"⟩, kind := .embeddedValue,
        nested := [⟨"order", "Order", none⟩, ⟨"part", "Item", none⟩] },
      { id := 2, name := ⟨"shop", "Note"⟩, kind := .embeddedValue },
      { id := 3, name := ⟨"shop", "Box"⟩, kind := .embeddedValue, nested := [⟨"order", "Order", none⟩] },
      { id := 4, name := ⟨"shop", "Bag"⟩, kind := .embeddedValue, nested := [⟨"note", "shop.Note", none⟩] }]

/-- Two cycles go through the items, which have failed with the first when the second is closed, so that it is not
reported.  Notes and bags reach none. -/
theorem nesting_of_boxes :
    (∀ o ∈ boxes.idsOfKind .embeddedValue, boxes.stateOf o = .unresolved) ∧
      ReachesCycle boxes.Nests 0 ∧ ReachesCycle boxes.Nests 3 ∧ ¬ ReachesCycle boxes.Nests 4 ∧
      (∃ o, Relation.TransGen boxes.Nests o o) ∧
      boxes.resolveEmbeddedValues.2.map (·.message) =
        ["cyclic nesting of embedded value objects: shop.Order -> shop.Item -> shop.Order"] := by
  have hopen : ∀ o ∈ boxes.idsOfKind .embeddedValue, boxes.stateOf o = .unresolved := by decide
  have hmessages : boxes.resolveEmbeddedValues.2.map (·.message) =
      ["cyclic nesting of embedded value objects: shop.Order -> shop.Item -> shop.Order"] := by decide +kernel
  obtain ⟨-, -, hfails, hcycle, -⟩ := nesting_of_resolveEmbeddedValues hopen
  refine ⟨hopen, (hfails 0 (by decide)).1 (by decide +kernel), (hfails 3 (by decide)).1 (by decide +kernel),
    fun h => ?_, hcycle.1 ?_, hmessages⟩
  · have hf := (hfails 4 (by decide)).2 h
    revert hf
    decide +kernel
  · obtain ⟨i, hi, hmessage⟩ := List.mem_map.1 (hmessages ▸ List.mem_cons_self)
    exact ⟨i, hi, by rw [IsCyclicNesting, hmessage]; decide +kernel⟩

end Metamodel.Graph
