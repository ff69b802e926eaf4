import Metamodel.Proofs.Cycles
import Metamodel.Proofs.Hierarchy.Termination

/-!
# Cycles of superclasses

Inheritance reports each cycle of superclasses once, from wherever it comes to it.  While it is under way (`Tracks`),
the objects of the cycles that are reported have failed, any other object that failed is to blame for an issue and lies
on no cycle, and a resolved object lies below a chain.  A visit keeps this (`tracks_settle`): it reports a cycle when it
comes to an object of its own path, and then no object of that cycle had failed before.
-/

namespace Metamodel.Graph

/-- On a cycle of superclasses each object has the next one as its superclass, and comes once. -/
structure SuperCycle (g : Graph) (c : Cycle EntityId) : Prop where
  ne_nil : c ≠ .nil
  nodup : c.Nodup
  chain : c.Chain fun o p => g.superOf o = some p

/-- The error for a cycle, named from its first object round to the same. -/
def cyclicChain (g : Graph) (cycle : List EntityId) : Issue :=
  inheritanceIssue g .consistency cycle.headI none
    ("cyclic superclass chain " ++ " -> ".intercalate ((cycle ++ [cycle.headI]).map g.qualifiedName))

/-- The issue is an error of inheritance with an object, and not that the object is on a cycle. -/
structure Blames (g : Graph) (id : EntityId) (i : Issue) : Prop where
  phase : i.phase = .inheritance
  isError : i.isError = true
  object : i.object = g.qualifiedName id
  message : i.message.startsWith "cyclic superclass chain " = false

variable {g h k : Graph} {id o p : EntityId} {path : List EntityId} {c c' : Cycle EntityId}
  {reported : List (List EntityId)} {issues found : List Issue}

namespace SuperCycle

private theorem eq_of_mem (hc : g.SuperCycle c) (hc' : g.SuperCycle c') (ho : o ∈ c) (ho' : o ∈ c') : c = c' :=
  eq_of_mem_of_mem (fun _ _ _ hy hz => Option.some.inj (hy.symm.trans hz)) hc.chain hc.nodup ho hc'.chain hc'.nodup ho'

private theorem mem_super (hc : g.SuperCycle c) (ho : o ∈ c) (hup : g.superOf o = some p) : p ∈ c := by
  obtain ⟨q, hq, hstep⟩ := exists_next_of_chain hc.chain ho
  rw [hup] at hstep
  exact Option.some.inj hstep ▸ hq

private theorem not_superChain (hc : g.SuperCycle c) (ho : o ∈ c) (chain : List EntityId) : ¬ SuperChain g o chain := by
  obtain ⟨rest, rfl⟩ := exists_eq_coe_cons ho
  refine not_superChain_of_closed (s := o :: rest) (fun q hq => ?_) List.mem_cons_self
  obtain ⟨p, hp, hup⟩ := exists_next_of_chain hc.chain (Cycle.mem_coe_iff.2 hq)
  exact ⟨p, Cycle.mem_coe_iff.1 hp, hup⟩

/-- Objects on a cycle are superclasses of each other. -/
private theorem mem_objects (hc : g.SuperCycle c) (ho : o ∈ c) : o ∈ g.idsOfKind .object := by
  obtain ⟨q, -, hup⟩ := Relation.TransGen.tail'_iff.1 (transGen_self_of_chain hc.chain ho)
  exact mem_objects_of_superOf hup

end SuperCycle

/-! ### States and issues of one merge -/

private theorem stateOf_collect {α : Type} {step : Graph → α → Graph × List MemberConflict}
    (hstep : ∀ g a o, (step g a).1.stateOf o = g.stateOf o) (g : Graph) (as : List α) (o : EntityId) :
    (collect step g as).1.stateOf o = g.stateOf o := by
  induction as generalizing g with
  | nil => rfl
  | cons a as ih => exact (ih (step g a).1).trans (hstep g a o)

private theorem stateOf_mergeMembers (g : Graph) (parent child o : EntityId) :
    (g.mergeMembers parent child).1.stateOf o = g.stateOf o := by
  refine (stateOf_collect (fun g r o => ?_) _ _ o).trans (stateOf_collect (fun g a o => ?_) g _ o)
  · unfold inheritRelationship
    dsimp only
    split
    · rfl
    · split
      · exact stateOf_addRelationship ..
      · rfl
  · unfold inheritAttribute
    dsimp only
    split
    · split
      · rfl
      · rw [stateOf, entity_modifyEntity]
        split <;> exact stateOf_addAttribute ..
    · split
      · exact stateOf_addAttribute ..
      · rfl

/-- A conflict is told in other words than a cycle. -/
private def OtherWords (message : String) : Prop :=
  message.startsWith "cyclic superclass chain " = false

private theorem otherWords_attribute (child parent : Attribute) :
    ∀ m ∈ (child.mergedWith parent).2, OtherWords m := by
  have hconflicts : ∀ m ∈ child.conflicts parent, OtherWords m := by
    intro m hm
    unfold OtherWords
    unfold Attribute.conflicts at hm
    split at hm
    · rw [List.mem_singleton.1 hm]
      simp
    · rcases List.mem_append.1 hm with hm | hm
      · split at hm
        · cases hm
        · rw [List.mem_singleton.1 hm]
          simp
      · split at hm
        · split at hm
          · cases hm
          · split at hm <;> (rw [List.mem_singleton.1 hm]; simp)
        · split at hm
          · cases hm
          · rw [List.mem_singleton.1 hm]
            simp
        · split at hm
          · cases hm
          · rw [List.mem_singleton.1 hm]
            simp
        · cases hm
  unfold Attribute.mergedWith
  split
  · exact fun m hm => absurd hm List.not_mem_nil
  · exact hconflicts

private theorem otherWords_relationship (child parent : Relationship) :
    ∀ m ∈ (child.mergedWith parent).2, OtherWords m := by
  intro m hm
  unfold OtherWords
  rcases List.mem_append.1 hm with hm | hm
  · split at hm
    · cases hm
    · rw [List.mem_singleton.1 hm]
      simp
  · split at hm
    · split at hm
      · cases hm
      · rw [List.mem_singleton.1 hm]
        simp
    · cases hm

private theorem otherWords_collect {α : Type} {step : Graph → α → Graph × List MemberConflict}
    (hstep : ∀ g a, ∀ m ∈ (step g a).2, OtherWords m.2) (g : Graph) (as : List α) :
    ∀ m ∈ (collect step g as).2, OtherWords m.2 := by
  induction as generalizing g with
  | nil => exact fun m hm => absurd hm List.not_mem_nil
  | cons a as ih => exact List.forall_mem_append.2 ⟨hstep g a, ih (step g a).1⟩

private theorem otherWords_mergeMembers (g : Graph) (parent child : EntityId) :
    ∀ m ∈ (g.mergeMembers parent child).2, OtherWords m.2 := by
  refine List.forall_mem_append.2 ⟨List.forall_mem_append.2 ⟨fun m hm => ?_, ?_⟩, ?_⟩
  · unfold sourceConflicts at hm
    split at hm
    · rw [List.mem_singleton.1 hm]
      simp [OtherWords, overriddenSource]
    · cases hm
  · refine otherWords_collect (fun g a m hm => ?_) _ _
    unfold inheritAttribute at hm
    dsimp only at hm
    split at hm
    · split at hm <;> cases hm
    · split at hm
      · cases hm
      · obtain ⟨message, hmessage, rfl⟩ := List.mem_map.1 hm
        exact otherWords_attribute _ _ message hmessage
  · refine otherWords_collect (fun g r m hm => ?_) _ _
    unfold inheritRelationship at hm
    dsimp only at hm
    split at hm
    · cases hm
    · split at hm
      · cases hm
      · obtain ⟨message, hmessage, rfl⟩ := List.mem_map.1 hm
        exact otherWords_relationship _ _ message hmessage

/-! ### What is known on the way -/

/-- What holds while inheritance is under way from `g`, in `h` with the issues so far.  The cycles that it has come to
are those in `reported`. -/
structure Tracks (g : Graph) (reported : List (List EntityId)) (h : Graph) (issues : List Issue) : Prop where
  outline : h.outline = g.outline
  resolved : ∀ o ∈ g.idsOfKind .object, h.stateOf o = .resolved → ∃ chain, SuperChain g o chain
  failed : ∀ o ∈ g.idsOfKind .object, h.stateOf o = .failed →
    (∃ c ∈ reported, o ∈ c) ∨ (∀ c, g.SuperCycle c → o ∉ c) ∧ ∃ i ∈ issues, g.Blames o i
  cycles : ∀ c ∈ reported, g.SuperCycle (c : Cycle EntityId) ∧ ∀ o ∈ c, h.stateOf o = .failed
  distinct : (reported.map ((↑) : List EntityId → Cycle EntityId)).Nodup
  chains : issues.filter (·.message.startsWith "cyclic superclass chain ") = reported.map g.cyclicChain
  blamed : ∀ i ∈ issues, ∃ o ∈ g.idsOfKind .object, h.stateOf o = .failed ∧ i.object = g.qualifiedName o

namespace Tracks

theorem lt_size (ht : Tracks g reported h issues) (ho : o ∈ g.idsOfKind .object) : o < h.entities.size := by
  rw [size_of_outline_eq ht.outline]
  exact g.lt_size_of_mem_idsOfKind ho

/-- On the way no failure is undone, and what is newly resolved or fails has its reason. -/
private theorem advance (ht : Tracks g reported h issues) (houtline : k.outline = h.outline)
    (hkept : ∀ o, h.stateOf o = .failed → k.stateOf o = .failed)
    (hresolved : ∀ o, k.stateOf o = .resolved → h.stateOf o = .resolved ∨ ∃ chain, SuperChain g o chain)
    (hfailed : ∀ o, k.stateOf o = .failed →
      h.stateOf o = .failed ∨ (∀ c, g.SuperCycle c → o ∉ c) ∧ ∃ i ∈ found, g.Blames o i)
    (hfound : ∀ i ∈ found, ∃ o ∈ g.idsOfKind .object, k.stateOf o = .failed ∧ g.Blames o i) :
    Tracks g reported k (issues ++ found) where
  outline := houtline.trans ht.outline
  resolved o ho hr := (hresolved o hr).elim (ht.resolved o ho) id
  failed o ho hf := by
    rcases hfailed o hf with hf | ⟨hoff, i, hi, hblames⟩
    · refine (ht.failed o ho hf).imp_right fun ⟨hoff, i, hi, hblames⟩ => ?_
      exact ⟨hoff, i, List.mem_append_left _ hi, hblames⟩
    · exact .inr ⟨hoff, i, List.mem_append_right _ hi, hblames⟩
  cycles c hc := ⟨(ht.cycles c hc).1, fun o ho => hkept o ((ht.cycles c hc).2 o ho)⟩
  distinct := ht.distinct
  chains := by
    have hnone : found.filter (·.message.startsWith "cyclic superclass chain ") = [] := by
      refine List.filter_eq_nil_iff.2 fun i hi => ?_
      obtain ⟨o, -, -, hblames⟩ := hfound i hi
      rw [hblames.message]
      decide
    rw [List.filter_append, ht.chains, hnone, List.append_nil]
  blamed i hi := by
    rcases List.mem_append.1 hi with hi | hi
    · obtain ⟨o, ho, hf, hobject⟩ := ht.blamed i hi
      exact ⟨o, ho, hkept o hf, hobject⟩
    · obtain ⟨o, ho, hf, hblames⟩ := hfound i hi
      exact ⟨o, ho, hf, hblames.object⟩

/-- Without an issue nothing new fails. -/
private theorem advance_silent (ht : Tracks g reported h issues) (houtline : k.outline = h.outline)
    (hfailed : ∀ o, k.stateOf o = .failed ↔ h.stateOf o = .failed)
    (hresolved : ∀ o, k.stateOf o = .resolved → h.stateOf o = .resolved ∨ ∃ chain, SuperChain g o chain) :
    Tracks g reported k issues := by
  have hsame : Tracks g reported k (issues ++ []) :=
    ht.advance houtline (fun o => (hfailed o).2) hresolved (fun o hf => .inl ((hfailed o).1 hf))
      fun i hi => absurd hi List.not_mem_nil
  rwa [List.append_nil] at hsame

/-- Merges leave all states alone. -/
theorem mergeMembers (ht : Tracks g reported h issues) (parent child : EntityId) :
    Tracks g reported (h.mergeMembers parent child).1 issues :=
  ht.advance_silent (outline_mergeMembers ..) (fun o => by rw [stateOf_mergeMembers])
    fun o hr => .inl (by rwa [stateOf_mergeMembers] at hr)

/-- The way up goes on from an object that was not visited. -/
theorem enter (ht : Tracks g reported h issues) (hid : id ∈ g.idsOfKind .object) (hstate : h.stateOf id = .unresolved)
    (p : EntityId) : Tracks g reported (h.enter id p) issues := by
  have hentered := fun o => stateOf_enter (p := p) (ht.lt_size hid) o
  refine ht.advance_silent (outline_enter ..) (fun o => ?_) fun o hr => ?_
  · rw [hentered]
    split
    · simp [*]
    · rfl
  · rw [hentered] at hr
    split at hr
    · cases hr
    · exact .inl hr

/-- An object below a chain is resolved. -/
private theorem setResolved (ht : Tracks g reported h issues) (hid : id ∈ g.idsOfKind .object)
    (hopen : h.stateOf id ≠ .failed) {chain : List EntityId} (hc : SuperChain g id chain) :
    Tracks g reported (h.setState id .resolved) issues := by
  have hstate := stateOf_setState h .resolved (ht.lt_size hid)
  refine ht.advance_silent (outline_setState ..) (fun o => ?_) fun o hr => ?_
  · rw [hstate]
    split
    · simp [*]
    · rfl
  · rw [hstate] at hr
    split at hr
    · rename_i heq
      exact .inr ⟨chain, heq ▸ hc⟩
    · exact .inl hr

/-- An object off all cycles fails, and is to blame. -/
private theorem setFailed (ht : Tracks g reported h issues) (hid : id ∈ g.idsOfKind .object)
    (hoff : ∀ c, g.SuperCycle c → id ∉ c) (hsome : found ≠ []) (hblames : ∀ i ∈ found, g.Blames id i) :
    Tracks g reported (h.setState id .failed) (issues ++ found) := by
  have hstate := stateOf_setState h .failed (ht.lt_size hid)
  refine ht.advance (outline_setState ..) (fun o hf => by rw [hstate, hf, ite_self]) (fun o hr => ?_) (fun o hf => ?_)
    fun i hi => ⟨id, hid, by rw [hstate, if_pos rfl], hblames i hi⟩
  · rw [hstate] at hr
    split at hr
    · cases hr
    · exact .inl hr
  · rw [hstate] at hf
    split at hf
    · rename_i heq
      obtain ⟨i, hi⟩ := List.exists_mem_of_ne_nil found hsome
      exact .inr ⟨heq ▸ hoff, i, hi, heq ▸ hblames i hi⟩
    · exact .inl hf

/-- The objects of a cycle, none of which has failed yet, fail together. -/
private theorem setCycle (ht : Tracks g reported h issues) {rest : List EntityId}
    (hc : g.SuperCycle ((id :: rest : List EntityId) : Cycle EntityId))
    (hopen : ∀ o ∈ id :: rest, h.stateOf o ≠ .failed) :
    Tracks g (reported ++ [id :: rest]) (h.setStates (id :: rest) .failed)
      (issues ++ [g.cyclicChain (id :: rest)]) := by
  have hobjects : ∀ o ∈ id :: rest, o ∈ g.idsOfKind .object := fun o ho => hc.mem_objects (Cycle.mem_coe_iff.2 ho)
  have hstate := stateOf_setStates _ .failed fun o ho => ht.lt_size (hobjects o ho)
  have hfailed : ∀ o, h.stateOf o = .failed → (h.setStates (id :: rest) .failed).stateOf o = .failed := by
    intro o ho
    rw [hstate, ho, ite_self]
  refine ⟨(outline_setStates ..).trans ht.outline, fun o ho hr => ?_, fun o ho hf => ?_, fun c hmem => ?_, ?_, ?_,
    fun i hi => ?_⟩
  · rw [hstate] at hr
    split at hr
    · cases hr
    · exact ht.resolved o ho hr
  · by_cases hmem : o ∈ id :: rest
    · exact .inl ⟨id :: rest, by simp, hmem⟩
    · rw [hstate, if_neg hmem] at hf
      rcases ht.failed o ho hf with ⟨c, hc, ho⟩ | ⟨hoff, i, hi, hblames⟩
      · exact .inl ⟨c, List.mem_append_left _ hc, ho⟩
      · exact .inr ⟨hoff, i, List.mem_append_left _ hi, hblames⟩
  · rcases List.mem_append.1 hmem with hmem | hmem
    · exact ⟨(ht.cycles c hmem).1, fun o ho => hfailed o ((ht.cycles c hmem).2 o ho)⟩
    · obtain rfl := List.mem_singleton.1 hmem
      exact ⟨hc, fun o ho => by rw [hstate, if_pos ho]⟩
  · -- The objects of a cycle that is reported have failed, and `id` has not.
    rw [List.map_append, List.nodup_append]
    refine ⟨ht.distinct, by simp, ?_⟩
    intro c hc' d hd heq
    obtain ⟨l, hl, rfl⟩ := List.mem_map.1 hc'
    obtain rfl := List.mem_singleton.1 hd
    have hmem : id ∈ (l : Cycle EntityId) := by simp [heq]
    exact hopen id List.mem_cons_self ((ht.cycles l hl).2 id (Cycle.mem_coe_iff.1 hmem))
  · rw [List.filter_append, ht.chains, List.map_append]
    simp [cyclicChain, inheritanceIssue, Issue.error]
  · rcases List.mem_append.1 hi with hi | hi
    · obtain ⟨o, ho, hf, hobject⟩ := ht.blamed i hi
      exact ⟨o, ho, hfailed o hf, hobject⟩
    · rw [List.mem_singleton.1 hi]
      exact ⟨id, hobjects id List.mem_cons_self, by rw [hstate, if_pos List.mem_cons_self], rfl⟩

end Tracks

/-! ### Visits -/

/-- From `h` to `k` a visit from `path` has left alone what was settled.  Besides `id` only objects of the path are in
progress, and those that are no longer have turned out to be on a cycle. -/
structure Returns (g : Graph) (path : List EntityId) (id : EntityId) (h : Graph) (reported : List (List EntityId))
    (k : Graph) : Prop where
  kept : ∀ o ∈ g.idsOfKind .object, o ≠ id → h.IsSettled o → k.IsSettled o
  onPath : ∀ o ∈ path, k.stateOf o = .inProgress ∨ ∃ c ∈ reported, o ∈ c
  complete : ∀ o ∈ g.idsOfKind .object, o ≠ id → k.stateOf o = .inProgress → o ∈ path

/-- The visit of `id` from `path` has settled it. -/
structure Arrives (g : Graph) (path : List EntityId) (id : EntityId) (h : Graph) (reported : List (List EntityId))
    (k : Graph) (issues : List Issue) : Prop extends Tracks g reported k issues, Returns g path id h reported k where
  settled : k.IsSettled id

theorem Returns.refl (hw : OnWay g h path) (id : EntityId) (reported : List (List EntityId)) :
    Returns g path id h reported h :=
  ⟨fun _ _ _ h => h, fun o ho => .inl (hw.object o ho).2, fun o ho _ => hw.complete o ho⟩

/-- From what the superclass leads to, the way goes back to the object itself. -/
private theorem Arrives.returns (ha : Arrives g (path ++ [id]) p (h.enter id p) reported k issues)
    (hlt : id < h.entities.size) : Returns g path id h reported k := by
  refine ⟨fun o ho hne hold => ?_, fun o ho => ha.onPath o (List.mem_append_left _ ho), fun o ho hne hopen => ?_⟩
  · by_cases heq : o = p
    · exact heq ▸ ha.settled
    · refine ha.kept o ho heq ?_
      rwa [IsSettled, stateOf_enter hlt, if_neg hne]
  · have hnot : o ≠ p := fun heq => ha.settled.ne_inProgress (heq ▸ hopen)
    simpa [hne] using ha.complete o ho hnot hopen

/-- A visit ends by settling its object. -/
private theorem Returns.arrives {state : EntityState} (hr : Returns g path id h reported k)
    (ht : Tracks g reported (k.setState id state) issues) (hid : id ∈ g.idsOfKind .object) (hpath : id ∉ path)
    (hstate : state = .resolved ∨ state = .failed) :
    Arrives g path id h reported (k.setState id state) issues := by
  have hlt : id < k.entities.size := by
    have := ht.lt_size hid
    rwa [setState, size_modifyEntity] at this
  have hother : ∀ o, o ≠ id → (k.setState id state).stateOf o = k.stateOf o := by
    intro o ho
    rw [stateOf_setState k state hlt, if_neg ho]
  refine ⟨ht, ⟨fun o ho hne hold => ?_, fun o ho => ?_, fun o ho hne hopen => ?_⟩, ?_⟩
  · rw [IsSettled, hother o hne]
    exact hr.kept o ho hne hold
  · rw [hother o (by rintro rfl; exact hpath ho)]
    exact hr.onPath o ho
  · rw [hother o hne] at hopen
    exact hr.complete o ho hne hopen
  · rw [IsSettled, stateOf_setState k state hlt, if_pos rfl]
    exact hstate

/-- Objects on a cycle fail when the visit comes to its path again, and nothing else changes. -/
private theorem arrives_cycle (ht : Tracks g reported h issues) (hw : OnWay g h path)
    (hway : (path ++ [id]).IsChain fun a b => g.superOf a = some b) (hid : id ∈ path) :
    ∃ rest, superCycle path id = id :: rest ∧
      Arrives g path id h (reported ++ [id :: rest]) (h.setStates (id :: rest) .failed)
        (issues ++ [g.cyclicChain (id :: rest)]) := by
  obtain ⟨rest, hfound, hsuffix, hchain⟩ := exists_cycle_of_mem hway hid
  have hopen : ∀ o ∈ id :: rest, h.stateOf o = .inProgress := fun o ho => (hw.object o (hsuffix.subset ho)).2
  have hc : g.SuperCycle ((id :: rest : List EntityId) : Cycle EntityId) :=
    ⟨by simp, hw.nodup.sublist hsuffix.sublist, hchain⟩
  have htracks := ht.setCycle hc fun o ho => by
    rw [hopen o ho]
    decide
  have hstate := stateOf_setStates _ .failed fun o ho => ht.lt_size (hw.object o (hsuffix.subset ho)).1
  refine ⟨rest, hfound, htracks, ⟨fun o ho _ hold => ?_, fun o ho => ?_, fun o ho _ hopen => ?_⟩, ?_⟩
  · rw [IsSettled, hstate]
    split
    · exact .inr rfl
    · exact hold
  · by_cases hmem : o ∈ id :: rest
    · exact .inr ⟨id :: rest, by simp, hmem⟩
    · rw [hstate, if_neg hmem]
      exact .inl (hw.object o ho).2
  · rw [hstate] at hopen
    split at hopen
    · cases hopen
    · exact hw.complete o ho hopen
  · exact .inr (by rw [hstate, if_pos List.mem_cons_self])

/-- On the way back the object is settled, unless a cycle made it fail. -/
private theorem arrives_inheritFrom (ha : Arrives g (path ++ [id]) p (h.enter id p) reported k issues)
    (hid : id ∈ g.idsOfKind .object) (hlt : id < h.entities.size) (hpath : id ∉ path) (hup : g.superOf id = some p)
    (superName : String) :
    Arrives g path id h reported (k.inheritFrom superName p id).1 (issues ++ (k.inheritFrom superName p id).2) := by
  have hp := mem_objects_of_superOf hup
  have hname := qualifiedName_of_outline_eq ha.outline
  have hreturns := ha.returns hlt
  have hopen : k.stateOf id = .inProgress ∨ ∃ c ∈ reported, id ∈ c := ha.onPath id (by simp)
  rcases ha.settled with hresolved | hfailed
  · obtain ⟨chain, hc⟩ := ha.resolved p hp hresolved
    have hchain : SuperChain g id (p :: chain) := .up hup hc
    -- The superclass would have failed with the rest of a cycle.
    have hopen : k.stateOf id = .inProgress := hopen.resolve_right fun ⟨c, hmem, ho⟩ =>
      (ha.cycles c hmem).1.not_superChain (Cycle.mem_coe_iff.2 ho) _ hchain
    have hmerged := ha.toTracks.mergeMembers p id
    have hreturns : Returns g path id h reported (k.mergeMembers p id).1 := by
      refine ⟨fun o ho hne hold => ?_, fun o ho => ?_, fun o ho hne ho' => ?_⟩
      · rw [IsSettled, stateOf_mergeMembers]
        exact hreturns.kept o ho hne hold
      · rw [stateOf_mergeMembers]
        exact hreturns.onPath o ho
      · rw [stateOf_mergeMembers] at ho'
        exact hreturns.complete o ho hne ho'
    rw [inheritFrom_of_resolved superName id hresolved]
    cases hconflicts : (k.mergeMembers p id).2 with
    | nil =>
      simp only [List.isEmpty_nil, if_true, List.map_nil, List.append_nil]
      refine hreturns.arrives (hmerged.setResolved hid ?_ hchain) hid hpath (.inl rfl)
      rw [stateOf_mergeMembers, hopen]
      decide
    | cons m ms =>
      simp only [List.isEmpty_cons, Bool.false_eq_true, if_false]
      refine hreturns.arrives (hmerged.setFailed hid (fun c hc ho => hc.not_superChain ho _ hchain) ?_ ?_) hid hpath
        (.inr rfl)
      · simp
      · intro i hi
        obtain ⟨⟨member, message⟩, hm, rfl⟩ := List.mem_map.1 hi
        have hwords := otherWords_mergeMembers k p id (member, message) (hconflicts ▸ hm)
        exact ⟨rfl, rfl, hname id, hwords⟩
  · rcases hopen with hopen | ⟨c, hc, ho⟩
    · -- A cycle through the object goes through its superclass, which has failed without one or with the whole of it.
      have hoff : ∀ c, g.SuperCycle c → id ∉ c := by
        intro c hc ho
        rcases ha.failed p hp hfailed with ⟨c', hc', hp'⟩ | ⟨hoff, -⟩
        · obtain ⟨hcycle', hall⟩ := ha.cycles c' hc'
          obtain rfl := hc.eq_of_mem hcycle' (hc.mem_super ho hup) (Cycle.mem_coe_iff.2 hp')
          rw [hall id (Cycle.mem_coe_iff.1 ho)] at hopen
          cases hopen
        · exact hoff c hc (hc.mem_super ho hup)
      rw [inheritFrom_of_failed superName hfailed hopen]
      refine hreturns.arrives (ha.toTracks.setFailed hid hoff (List.cons_ne_nil _ _) fun i hi => ?_) hid hpath
        (.inr rfl)
      rw [List.mem_singleton.1 hi]
      exact ⟨rfl, rfl, hname id, by simp [inheritanceIssue, Issue.error]⟩
    · have hfailed' : k.stateOf id = .failed := (ha.cycles c hc).2 id ho
      rw [inheritFrom_of_cycle superName hfailed hfailed', List.append_nil]
      exact ⟨ha.toTracks, hreturns, .inr hfailed'⟩

/-- A visit keeps track, and adds at most the one cycle that it closes. -/
theorem tracks_settle {steps : Nat} (ht : Tracks g reported h issues) (hw : OnWay g h path)
    (hway : (path ++ [id]).IsChain fun a b => g.superOf a = some b) (hid : id ∈ g.idsOfKind .object)
    (hsteps : Suffices (g.idsOfKind .object) steps path) :
    ∃ reported', Arrives g path id h reported' (settle steps path h id).1 (issues ++ (settle steps path h id).2) := by
  induction steps generalizing path h id reported issues with
  | zero => exact absurd hsteps not_suffices_zero
  | succ steps ih =>
    have hreturns := Returns.refl hw id reported
    cases hstate : h.stateOf id with
    | resolved =>
      rw [settle, hstate, List.append_nil]
      exact ⟨reported, ht, hreturns, .inl hstate⟩
    | failed =>
      rw [settle, hstate, List.append_nil]
      exact ⟨reported, ht, hreturns, .inr hstate⟩
    | inProgress =>
      obtain ⟨rest, hfound, harrives⟩ := arrives_cycle ht hw hway (hw.complete id hid hstate)
      have hnames : h.qualifiedName = g.qualifiedName := funext (qualifiedName_of_outline_eq ht.outline)
      rw [settle, hstate]
      simp only [hfound, inheritanceIssue, hnames]
      exact ⟨_, harrives⟩
    | unresolved =>
      have hpath := hw.not_mem hstate
      have hopen : h.stateOf id ≠ .failed := by
        rw [hstate]
        decide
      have hname := superName_of_outline_eq ht.outline id
      cases hsuper : (g.entity id).superName with
      | none =>
        rw [hsuper] at hname
        simp only [settle, hstate, hname, List.append_nil]
        exact ⟨reported, hreturns.arrives (ht.setResolved hid hopen (.top hsuper)) hid hpath (.inl rfl)⟩
      | some superName =>
        rw [hsuper] at hname
        have hlookup := lookup_congr ht.outline superName .object
        have hup : g.superOf id = g.lookup superName .object := by
          rw [superOf, hsuper]
          rfl
        cases hparent : g.lookup superName .object with
        | none =>
          rw [hparent] at hlookup hup
          have hoff : ∀ c, g.SuperCycle c → id ∉ c := by
            intro c hc ho
            obtain ⟨p, -, hstep⟩ := exists_next_of_chain hc.chain ho
            rw [hup] at hstep
            cases hstep
          simp only [settle, hstate, hname, hlookup]
          refine ⟨reported, hreturns.arrives (ht.setFailed hid hoff (List.cons_ne_nil _ _) fun i hi => ?_) hid hpath
            (.inr rfl)⟩
          rw [List.mem_singleton.1 hi]
          exact ⟨rfl, rfl, qualifiedName_of_outline_eq ht.outline id, by simp [inheritanceIssue, Issue.error]⟩
        | some p =>
          rw [hparent] at hlookup hup
          have hlt := ht.lt_size hid
          obtain ⟨reported', habove⟩ := ih (ht.enter hid hstate p) (hw.enter hlt hid hstate p)
            (isChain_concat_concat hway hup) (mem_objects_of_superOf hup) (hsteps.concat hid hpath)
          have harrives := arrives_inheritFrom habove hid hlt hpath hup superName
          simp only [settle, hstate, hname, hlookup, Found.andThen_eq]
          rw [← List.append_assoc]
          exact ⟨reported', harrives⟩

/-! ### All objects -/

/-- Visits from objects with nothing in progress keep track, and settle the objects. -/
private theorem tracks_gather {order : List EntityId} (ht : Tracks g reported h issues)
    (horder : ∀ o ∈ order, o ∈ g.idsOfKind .object) (hidle : ∀ o ∈ g.idsOfKind .object, h.stateOf o ≠ .inProgress) :
    let x := gather (settle ((g.idsOfKind .object).length + 1) []) h order
    (∃ reported', Tracks g reported' x.1 (issues ++ x.2)) ∧
      ∀ o ∈ g.idsOfKind .object, o ∈ order ∨ h.IsSettled o → x.1.IsSettled o := by
  induction order generalizing h reported issues with
  | nil =>
    refine ⟨⟨reported, ?_⟩, fun o _ hor => hor.resolve_left List.not_mem_nil⟩
    rw [show gather (settle ((g.idsOfKind .object).length + 1) []) h [] = (h, []) from rfl, List.append_nil]
    exact ht
  | cons id order ih =>
    have hid := horder id List.mem_cons_self
    have hw : OnWay g h [] := ⟨List.nodup_nil, fun _ ho => absurd ho List.not_mem_nil,
      fun o ho hopen => absurd hopen (hidle o ho)⟩
    obtain ⟨reported', ha⟩ := tracks_settle ht hw (.singleton id) hid (suffices_nil _ 0)
    have hidle' : ∀ o ∈ g.idsOfKind .object,
        (settle ((g.idsOfKind .object).length + 1) [] h id).1.stateOf o ≠ .inProgress := by
      intro o ho hopen
      by_cases heq : o = id
      · exact ha.settled.ne_inProgress (heq ▸ hopen)
      · exact absurd (ha.complete o ho heq hopen) List.not_mem_nil
    obtain ⟨hrest, hsettled⟩ := ih ha.toTracks (fun o ho => horder o (List.mem_cons_of_mem _ ho)) hidle'
    rw [gather_cons]
    refine ⟨?_, fun o ho hor => hsettled o ho ?_⟩
    · rwa [← List.append_assoc]
    · by_cases heq : o = id
      · exact .inr (heq ▸ ha.settled)
      · rcases hor with hmem | hold
        · exact .inl ((List.mem_cons.1 hmem).resolve_left heq)
        · exact .inr (ha.kept o ho heq hold)

/-- Inheritance reports each cycle of superclasses once, with its objects in the order of superclasses and the first one
again at the end, and all of them fail.  Any other object that fails is to blame for an error of its own, and none is
reported with a resolved object, where no two entities share a name. -/
theorem cycles_of_resolveInheritance (hg : ∀ id ∈ g.idsOfKind .object, g.stateOf id = .unresolved) :
    let h := g.resolveInheritance.1
    let issues := g.resolveInheritance.2
    (∃ reported : List (List EntityId),
      issues.filter (·.message.startsWith "cyclic superclass chain ") = reported.map g.cyclicChain ∧
      (reported.map ((↑) : List EntityId → Cycle EntityId)).Nodup ∧
      ∀ c : Cycle EntityId, c ∈ reported.map ((↑) : List EntityId → Cycle EntityId) ↔ g.SuperCycle c) ∧
    (∀ c, g.SuperCycle c → ∀ o ∈ c, h.stateOf o = .failed) ∧
    (∀ o ∈ g.idsOfKind .object, h.stateOf o = .failed → (∀ c, g.SuperCycle c → o ∉ c) →
      ∃ i ∈ issues, i.phase = .inheritance ∧ i.isError = true ∧ i.object = g.qualifiedName o) ∧
    ((g.entityIds.map g.qualifiedName).Nodup →
      ∀ o ∈ g.entityIds, h.stateOf o = .resolved → ∀ i ∈ issues, i.object ≠ g.qualifiedName o) := by
  have hstart : Tracks g [] g [] := by
    refine ⟨rfl, fun o ho hr => ?_, fun o ho hf => ?_, fun c hc => absurd hc List.not_mem_nil, List.nodup_nil, rfl,
      fun i hi => absurd hi List.not_mem_nil⟩
    · rw [hg o ho] at hr
      cases hr
    · rw [hg o ho] at hf
      cases hf
  obtain ⟨⟨reported, ht⟩, hsettled⟩ := tracks_gather hstart (fun o ho => ho) fun o ho => by
    rw [hg o ho]
    decide
  have hsettled := fun o ho => hsettled o ho (.inl ho)
  rw [List.nil_append] at ht
  change Tracks g reported g.resolveInheritance.1 g.resolveInheritance.2 at ht
  have hfails : ∀ c, g.SuperCycle c → ∀ o ∈ c, g.resolveInheritance.1.stateOf o = .failed := by
    intro c hc o ho
    refine (hsettled o (hc.mem_objects ho)).resolve_left fun hresolved => ?_
    obtain ⟨chain, hchain⟩ := ht.resolved o (hc.mem_objects ho) hresolved
    exact hc.not_superChain ho chain hchain
  refine ⟨⟨reported, ht.chains, ht.distinct, fun c => ⟨fun hc => ?_, fun hc => ?_⟩⟩, hfails, fun o ho hf hoff => ?_,
    fun hnames o ho hresolved i hi hobject => ?_⟩
  · obtain ⟨l, hl, rfl⟩ := List.mem_map.1 hc
    exact (ht.cycles l hl).1
  · -- An object of the cycle has failed with a cycle that is reported, and it is on no other.
    obtain ⟨o, ho⟩ : ∃ o, o ∈ c := by
      induction c using Quotient.inductionOn' with
      | _ l => exact List.exists_mem_of_ne_nil l fun hnil => hc.ne_nil (by rw [hnil]; rfl)
    rcases ht.failed o (hc.mem_objects ho) (hfails c hc o ho) with ⟨l, hl, hmem⟩ | ⟨hoff, -⟩
    · rw [hc.eq_of_mem (ht.cycles l hl).1 ho (Cycle.mem_coe_iff.2 hmem)]
      exact List.mem_map_of_mem hl
    · exact absurd ho (hoff c hc)
  · rcases ht.failed o ho hf with ⟨l, hl, hmem⟩ | ⟨-, i, hi, hblames⟩
    · exact absurd (Cycle.mem_coe_iff.2 hmem) (hoff _ (ht.cycles l hl).1)
    · exact ⟨i, hi, hblames.phase, hblames.isError, hblames.object⟩
  · obtain ⟨p, hp, hf, hblamed⟩ := ht.blamed i hi
    have hp' := List.mem_range.2 (g.lt_size_of_mem_idsOfKind hp)
    have hsame : p = o := List.inj_on_of_nodup_map hnames hp' ho (hblamed.symm.trans hobject)
    rw [← hsame, hf] at hresolved
    cases hresolved

/-- Two classes above each other with one more below them, a class above itself, and one without superclass. -/
def rings : Graph where
  entities :=
    #[{ name := ⟨"shop", "Order"⟩, kind := .object, superName := some "Cart" },
      { id := 1, name := ⟨"shop", "Rush"⟩, kind := .object, superName := some "Order" },
      { id := 2, name := ⟨"shop", "Cart"⟩, kind := .object, superName := some "Order" },
      { id := 3, name := ⟨"shop", "Loop"⟩, kind := .object, superName := some "Loop" },
      { id := 4, name := ⟨"shop", "Base"⟩, kind := .object }]

/-- Both cycles fail, with one error each, and the class below one of them is to blame for an error of its own. -/
theorem cycles_of_rings :
    (∀ id ∈ rings.idsOfKind .object, rings.stateOf id = .unresolved) ∧
      rings.SuperCycle ([0, 2] : List EntityId) ∧ rings.SuperCycle ([3] : List EntityId) ∧
      rings.resolveInheritance.1.stateOf 2 = .failed ∧ rings.resolveInheritance.1.stateOf 3 = .failed ∧
      (∃ i ∈ rings.resolveInheritance.2, i.phase = .inheritance ∧ i.isError = true ∧ i.object = "shop.Rush") ∧
      (∀ i ∈ rings.resolveInheritance.2, i.object ≠ "shop.Base") ∧
      rings.resolveInheritance.2.map (·.message) =
        ["cyclic superclass chain shop.Order -> shop.Cart -> shop.Order",
          "superclass 'Order' of 'shop.Rush' failed resolution",
          "cyclic superclass chain shop.Loop -> shop.Loop"] := by
  have hopen : ∀ id ∈ rings.idsOfKind .object, rings.stateOf id = .unresolved := by decide
  have hpair : rings.SuperCycle ([0, 2] : List EntityId) :=
    ⟨by simp, by decide, (Cycle.chain_coe_cons _ _ _).2 (by decide)⟩
  have hself : rings.SuperCycle ([3] : List EntityId) :=
    ⟨by simp, by decide, (Cycle.chain_coe_cons _ _ _).2 (by decide)⟩
  obtain ⟨-, hfails, hblamed, hclear⟩ := cycles_of_resolveInheritance hopen
  -- `Rush` leads to a cycle and is on none, since nothing has it as its superclass.
  have hoff : ∀ c, rings.SuperCycle c → 1 ∉ c := by
    intro c hc hmem
    obtain ⟨o, -, hup⟩ := Relation.TransGen.tail'_iff.1 (transGen_self_of_chain hc.chain hmem)
    have hall : ∀ o ∈ rings.entityIds, rings.superOf o ≠ some 1 := by decide
    by_cases ho : o < rings.entities.size
    · exact hall o (List.mem_range.2 ho) hup
    · have hnone : rings.entity o = default := by simp [entity, Array.getD, ho]
      rw [superOf, hnone] at hup
      cases hup
  refine ⟨hopen, hpair, hself, hfails _ hpair 2 (by decide), hfails _ hself 3 (by decide), ?_, ?_, by decide +kernel⟩
  · exact hblamed 1 (by decide) (by decide +kernel) hoff
  · exact hclear (by decide +kernel) 4 (by decide) (by decide +kernel)

end Metamodel.Graph
