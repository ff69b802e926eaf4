import Metamodel.Emission.Description
import Metamodel.Proofs.Emission.Slots
import Metamodel.Proofs.Emission.Turns
import Metamodel.Proofs.Resolution.Success

/-!
# Emission in any order of turns

Nothing but the slots of a graph goes into the pool at the start, so what has been emitted when nothing is left are the
objects to emit, each of them once (`Pool.perm_history`).  Failures are sorted in the end, and so the outcome of a run
is the same for all numbers of workers and all orders of their turns (`emission_of_every_schedule`).
-/

namespace Metamodel

namespace Pool

variable {α : Type} {emit : Emitter α} {g : Graph}

private theorem workers_start (g : Graph) (workers : Nat) : ∀ l ∈ (start g workers : Pool α).workers, l = [] :=
  fun _ hl => List.eq_of_mem_replicate hl

private theorem left_start (g : Graph) (workers : Nat) : (start g workers : Pool α).left = g.slots.flatten := by
  rw [left, List.flatten_eq_nil_iff.2 (workers_start g workers)]
  rfl

private theorem due_start (g : Graph) (workers : Nat) :
    (start g workers : Pool α).due = g.slots.length + g.emittedObjects.length := by
  rw [due, left_start, g.flatten_slots.length_eq]
  rfl

private theorem records_start (g : Graph) (workers : Nat) : Records emit g [] (start g workers) :=
  ⟨rfl, rfl, rfl⟩

/-- A schedule that leaves nothing emits the objects to emit. -/
theorem perm_history {workers : Nat} {schedule : List Nat} (hdone : ((start g workers).play emit g schedule).isDone) :
    ((start g workers).history emit g schedule).Perm g.emittedObjects := by
  have hall := perm_history_append_left emit g (start g workers) schedule
  rw [left_eq_nil_of_isDone hdone, List.append_nil, left_start] at hall
  exact hall.trans g.flatten_slots

end Pool

/-- The numbers of objects and of slots in a summary. -/
def EmissionSummary.counts (s : EmissionSummary) : Nat × Nat :=
  (s.emitted, s.slots)

namespace Graph

variable {α : Type} {emit : Emitter α} {g : Graph}

/-- What a run comes to: the numbers of objects and of slots, or the failures of all objects that fail, in order. -/
def emissionOutcome (g : Graph) (emit : Emitter α) : Except Error (Nat × Nat) :=
  let failures := g.emittedObjects.filterMap (emit.failure? g)
  if failures.isEmpty then .ok (g.emittedObjects.length, g.slots.length)
  else .error (.emissions (failures.mergeSort fun a b => decide (a ≤ b)))

private theorem mergeSort_eq_of_perm {a b : List String} (h : a.Perm b) :
    a.mergeSort (fun x y => decide (x ≤ y)) = b.mergeSort fun x y => decide (x ≤ y) := by
  have hsorted : ∀ l : List String, (l.mergeSort fun x y => decide (x ≤ y)).Pairwise (· ≤ ·) := fun l =>
    (List.pairwise_mergeSort (fun x y z hxy hyz => by simp only [decide_eq_true_eq] at *; exact String.le_trans hxy hyz)
      (fun x y => by simpa using String.le_total x y) l).imp fun h => by simpa using h
  refine List.Perm.eq_of_pairwise (fun x y _ _ => String.le_antisymm) (hsorted a) (hsorted b) ?_
  exact (List.mergeSort_perm a _).trans (h.trans (List.mergeSort_perm b _).symm)

/-- The result of a pool that recorded the objects to emit, in whatever order. -/
private theorem emissionResult_of_records {p : Pool α} {ids : List EntityId} (h : Pool.Records emit g ids p)
    (hids : ids.Perm g.emittedObjects) : (g.emissionResult p).map EmissionSummary.counts = g.emissionOutcome emit := by
  have hfailures : p.failures.Perm (g.emittedObjects.filterMap (emit.failure? g)) := by
    rw [h.failures]
    exact hids.filterMap _
  unfold emissionResult emissionOutcome
  by_cases hnone : p.failures = []
  · have hnone' : g.emittedObjects.filterMap (emit.failure? g) = [] := List.nil_perm.1 (hnone ▸ hfailures)
    have hlength := emit.length_outputs_add_failures g ids
    rw [← h.emitted, ← h.failures, hnone, hids.length_eq] at hlength
    rw [if_pos (by simp [hnone]), hnone']
    show Except.ok (p.emitted.length, g.slots.length) = Except.ok (g.emittedObjects.length, g.slots.length)
    rw [← hlength]
    rfl
  · have hsome : g.emittedObjects.filterMap (emit.failure? g) ≠ [] := fun heq =>
      hnone (List.perm_nil.1 (heq ▸ hfailures))
    rw [if_neg (by simpa using hnone)]
    simp only [List.isEmpty_iff, if_neg hsome]
    rw [← mergeSort_eq_of_perm hfailures]
    rfl

/-- The rounds of a run are a schedule that leaves nothing. -/
private theorem exists_schedule_runPool (g : Graph) (workers : Nat) (emit : Emitter α) :
    ∃ schedule, g.runPool workers emit = (Pool.start g workers).play emit g schedule ∧
      ((Pool.start g workers).play emit g schedule).isDone := by
  refine Pool.exists_schedule_rounds ?_ (Nat.le_of_eq (Pool.due_start g workers))
  simp only [Pool.start, List.length_replicate]
  omega

/-- The number of workers does not matter to the outcome of a run. -/
private theorem emissionResult_runPool (huniform : emit.IsUniform g) (workers : Nat) :
    (g.emissionResult (g.runPool workers emit)).map EmissionSummary.counts = g.emissionOutcome emit := by
  obtain ⟨schedule, hrun, hdone⟩ := g.exists_schedule_runPool workers emit
  rw [hrun]
  exact emissionResult_of_records ((Pool.records_start g workers).play huniform schedule) (Pool.perm_history hdone)

/-- Descriptions depend on their objects only: the first one loads all templates, and the others use these. -/
theorem isUniform_describe (g : Graph) : describe.IsUniform g := by
  have hloaded : ∀ id ids, describe.cacheAfter g (id :: ids) = (describe g id .empty).2 := by
    intro id ids
    induction ids generalizing id with
    | nil => rfl
    | cons next ids ih => exact ih id
  intro ids id
  cases ids with
  | nil => rfl
  | cons first ids =>
    rw [hloaded]
    rfl

/-- So the number of workers does not matter to the descriptions of a graph. -/
theorem emissionResult_descriptions (g : Graph) (workers : Nat) :
    (g.descriptions workers).2.map EmissionSummary.counts = g.emissionOutcome describe :=
  emissionResult_runPool g.isUniform_describe workers

/-! ### Samples -/

/-- A bus is a car; a port is imported. -/
def fleet : Declarations where
  objects := ⟨[
    ("fleet.Boat", { name := ⟨"fleet", "Boat"⟩ }),
    ("fleet.Bus", { name := ⟨"fleet", "Bus"⟩, superClass := some "Car" }),
    ("fleet.Car",
      { name := ⟨"fleet", "Car"⟩
        attributes := [{ name := "id", dataType := .int, column := { primaryKey := true } }] }),
    ("fleet.Port", { name := ⟨"fleet", "Port"⟩, imported := true }),
    ("fleet.Raft", { name := ⟨"fleet", "Raft"⟩ })], by decide⟩

/-- The graph that the sample resolves to. -/
def fleetGraph : Graph :=
  (fleet.resolve .default).1.toOption.getD empty

/-- Emits the name of the finder of an object, and fails if the object has no attributes. -/
def finderNames : Emitter String := fun g id cache =>
  if (g.attributesOf id).isEmpty then (.error (.emission "no attributes"), cache)
  else (.ok (g.entity id).finderName, cache)

private theorem slots_fleetGraph : fleetGraph.slots = [[0], [2, 1], [4]] := by
  have hgroups : fleetGraph.hierarchies.values = [[0], [1, 2], [4]] := by decide +kernel
  have horder : fleetGraph.slotOrder 1 2 = false := by decide +kernel
  simp [slots, hgroups, List.mergeSort, horder]

/-! ### Runs -/

/-- Whoever's turn it is, as soon as nothing is left every object that is not imported has been emitted once, and no
other; the objects of a slot were emitted in their order; what is recorded comes of that history; and the run has the
outcome of a run of one worker. -/
theorem emission_of_every_schedule (huniform : emit.IsUniform g) (workers : Nat) (schedule : List Nat)
    (hdone : ((Pool.start g workers).play emit g schedule).isDone) :
    (∀ id, ((Pool.start g workers).history emit g schedule).count id =
        if id ∈ g.idsOfKind .object ∧ (g.entity id).imported = false then 1 else 0) ∧
      (∀ slot ∈ g.slots, slot.Sublist ((Pool.start g workers).history emit g schedule)) ∧
      Pool.Records emit g ((Pool.start g workers).history emit g schedule)
        ((Pool.start g workers).play emit g schedule) ∧
      (g.emissionResult ((Pool.start g workers).play emit g schedule)).map EmissionSummary.counts =
        g.emissionOutcome emit ∧
      (g.emissionResult (g.runPool 1 emit)).map EmissionSummary.counts = g.emissionOutcome emit := by
  have hperm := Pool.perm_history hdone
  have hrecords := (Pool.records_start g workers).play huniform schedule
  refine ⟨fun id => ?_, fun slot hslot => ?_, hrecords, emissionResult_of_records hrecords hperm,
    emissionResult_runPool huniform 1⟩
  · rw [hperm.count_eq, g.nodup_emittedObjects.count]
    exact if_congr g.mem_emittedObjects rfl rfl
  · exact Pool.sublist_history hdone slot (List.mem_append_right _ hslot)

/-- Three workers on the sample: the raft fails before the boat, and comes after it in the list of failures. -/
theorem emission_of_fleet :
    (fleet.resolve .default).1 = .ok fleetGraph ∧ finderNames.IsUniform fleetGraph ∧
      ((Pool.start fleetGraph 8).play finderNames fleetGraph [1, 2, 0, 2, 0, 2, 1]).isDone ∧
      (Pool.start fleetGraph 8).history finderNames fleetGraph [1, 2, 0, 2, 0, 2, 1] = [2, 4, 1, 0] ∧
      (fleetGraph.emissionResult
          ((Pool.start fleetGraph 8).play finderNames fleetGraph [1, 2, 0, 2, 0, 2, 1])).map EmissionSummary.counts =
        (fleetGraph.emissionResult (fleetGraph.runPool 1 finderNames)).map EmissionSummary.counts := by
  have hresolve : (fleet.resolve .default).1 = .ok fleetGraph := eq_ok_of_isOk (by decide +kernel) empty
  have huniform : finderNames.IsUniform fleetGraph := by
    intro ids id
    unfold finderNames
    split <;> rfl
  have hstart : (Pool.start fleetGraph 8 : Pool String) =
      { queue := [[0], [2, 1], [4]], workers := [[], [], []] } := by
    simp [Pool.start, slots_fleetGraph]
  have hdone : ((Pool.start fleetGraph 8).play finderNames fleetGraph [1, 2, 0, 2, 0, 2, 1]).isDone := by
    rw [hstart]
    decide +kernel
  have hhistory :
      (Pool.start fleetGraph 8).history finderNames fleetGraph [1, 2, 0, 2, 0, 2, 1] = [2, 4, 1, 0] := by
    rw [hstart]
    decide +kernel
  obtain ⟨-, -, -, hresult, hsingle⟩ := emission_of_every_schedule huniform 8 _ hdone
  exact ⟨hresolve, huniform, hdone, hhistory, hresult.trans hsingle.symm⟩

end Graph

end Metamodel
