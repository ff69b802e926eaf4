import Mathlib.Data.List.Perm.Basic
import Metamodel.Emission.Pool

/-!
# Turns of the workers of a pool

The workers of a pool may take their turns in any order.  A *schedule* is the list of the workers whose turn it is, and
the *history* of a schedule is the list of the objects emitted in it.  No turn loses an object: those that have been
emitted and those that are left stay the same together (`perm_history_append_left`), and when nothing is left, every
list of objects has been emitted in its order (`sublist_history`).  What the pool records is what comes of its history,
if the result of an object does not depend on what was emitted before (`Records.play`).  Turns in rounds leave nothing
in the end, since every round brings it nearer (`exists_schedule_rounds`).
-/

namespace Metamodel

namespace Emitter

variable {α : Type}

/-- The cache of templates after objects have been emitted one after another. -/
def cacheAfter (emit : Emitter α) (g : Graph) (ids : List EntityId) : TemplateCache :=
  ids.foldl (fun cache id => (emit g id cache).2) .empty

/-- The result for an object depends on this object only: it is the same whatever was emitted before. -/
def IsUniform (emit : Emitter α) (g : Graph) : Prop :=
  ∀ ids id, (emit g id (emit.cacheAfter g ids)).1 = (emit g id .empty).1

private theorem cacheAfter_append (emit : Emitter α) (g : Graph) (ids : List EntityId) (id : EntityId) :
    emit.cacheAfter g (ids ++ [id]) = (emit g id (emit.cacheAfter g ids)).2 := by
  simp [cacheAfter]

/-- What is emitted for the object. -/
def output? (emit : Emitter α) (g : Graph) (id : EntityId) : Option α :=
  (emit g id .empty).1.toOption

/-- The record of the failure, if the object fails. -/
def failure? (emit : Emitter α) (g : Graph) (id : EntityId) : Option String :=
  match (emit g id .empty).1 with
  | .ok _ => none
  | .error e => some (g.qualifiedName id ++ ": " ++ e.message)

/-- Every object has an output or a failure. -/
theorem length_outputs_add_failures (emit : Emitter α) (g : Graph) (ids : List EntityId) :
    (ids.filterMap (emit.output? g)).length + (ids.filterMap (emit.failure? g)).length = ids.length := by
  induction ids with
  | nil => rfl
  | cons id ids ih =>
    cases h : (emit g id .empty).1 with
    | ok a =>
      simp [output?, failure?, h, Except.toOption] at ih ⊢
      omega
    | error e =>
      simp [output?, failure?, h, Except.toOption] at ih ⊢
      omega

end Emitter

namespace Pool

variable {α : Type} {emit : Emitter α} {g : Graph} {p : Pool α}

/-! ### One turn -/

/-- The object that worker `w` emits if it is its turn. -/
def next? (p : Pool α) (w : Nat) : Option EntityId :=
  p.workers[w]?.bind List.head?

/-- The pool after the turns of a schedule. -/
def play (emit : Emitter α) (g : Graph) (p : Pool α) (schedule : List Nat) : Pool α :=
  schedule.foldl (turn emit g) p

/-- The objects that are emitted in the turns of a schedule. -/
def history (emit : Emitter α) (g : Graph) : Pool α → List Nat → List EntityId
  | _, [] => []
  | p, w :: schedule => (p.next? w).toList ++ history emit g (p.turn emit g w) schedule

/-- The objects that are still to be emitted. -/
def left (p : Pool α) : List EntityId :=
  p.workers.flatten ++ p.queue.flatten

@[simp] theorem queue_emitOne (p : Pool α) (id : EntityId) : (p.emitOne emit g id).queue = p.queue := by
  unfold emitOne
  split <;> rfl

@[simp] theorem workers_emitOne (p : Pool α) (id : EntityId) : (p.emitOne emit g id).workers = p.workers := by
  unfold emitOne
  split <;> rfl

/-- A worker emits an object of its slot, or takes a slot, or has nothing to do. -/
private theorem turn_cases (emit : Emitter α) (g : Graph) (p : Pool α) (w : Nat) :
    (∃ id rest, p.workers[w]? = some (id :: rest) ∧ p.next? w = some id ∧
      p.turn emit g w = { p with workers := p.workers.set w rest }.emitOne emit g id) ∨
    (∃ slot queue, p.workers[w]? = some [] ∧ p.queue = slot :: queue ∧ p.next? w = none ∧
      p.turn emit g w = { p with queue := queue, workers := p.workers.set w slot }) ∨
    ((p.workers[w]? = none ∨ p.workers[w]? = some [] ∧ p.queue = []) ∧ p.next? w = none ∧ p.turn emit g w = p) := by
  unfold turn next?
  rcases hworker : p.workers[w]? with _ | ⟨_ | ⟨id, rest⟩⟩
  · exact .inr (.inr ⟨.inl rfl, rfl, rfl⟩)
  · rcases hqueue : p.queue with _ | ⟨slot, queue⟩
    · exact .inr (.inr ⟨.inr ⟨rfl, rfl⟩, rfl, rfl⟩)
    · exact .inr (.inl ⟨slot, queue, rfl, rfl, rfl, rfl⟩)
  · exact .inl ⟨id, rest, rfl, rfl, rfl⟩

private theorem length_workers_turn (emit : Emitter α) (g : Graph) (p : Pool α) (w : Nat) :
    (p.turn emit g w).workers.length = p.workers.length := by
  rcases turn_cases emit g p w with ⟨id, rest, -, -, h⟩ | ⟨slot, queue, -, -, -, h⟩ | ⟨-, -, h⟩ <;> simp [h]

private theorem length_workers_play (emit : Emitter α) (g : Graph) (p : Pool α) (schedule : List Nat) :
    (p.play emit g schedule).workers.length = p.workers.length := by
  induction schedule generalizing p with
  | nil => rfl
  | cons w schedule ih => exact (ih (p.turn emit g w)).trans (length_workers_turn emit g p w)

/-! ### No object is lost -/

/-- A list that takes the place of another in a list of lists. -/
private theorem perm_flatten_set {ls : List (List EntityId)} {w : Nat} {l : List EntityId} (h : ls[w]? = some l)
    (l' : List EntityId) : ((ls.set w l').flatten ++ l).Perm (ls.flatten ++ l') := by
  obtain ⟨hw, rfl⟩ := List.getElem?_eq_some_iff.1 h
  have hsplit : ls = ls.take w ++ ls[w] :: ls.drop (w + 1) := by
    rw [← List.drop_eq_getElem_cons hw, List.take_append_drop]
  have hset : ls.set w l' = ls.take w ++ l' :: ls.drop (w + 1) := by
    rw [List.set_eq_take_append_cons_drop, if_pos hw]
  have hflat := congrArg List.flatten hsplit
  rw [List.flatten_append, List.flatten_cons] at hflat
  rw [hset, hflat]
  refine List.perm_iff_count.2 fun a => ?_
  simp only [List.flatten_append, List.flatten_cons, List.count_append]
  omega

/-- A turn emits its object, and leaves the others. -/
private theorem perm_left_turn (emit : Emitter α) (g : Graph) (p : Pool α) (w : Nat) :
    ((p.next? w).toList ++ (p.turn emit g w).left).Perm p.left := by
  rcases turn_cases emit g p w with ⟨id, rest, hworker, hnext, h⟩ | ⟨slot, queue, hworker, hqueue, hnext, h⟩ |
    ⟨-, hnext, h⟩
  · rw [h, hnext]
    have hset := perm_flatten_set hworker rest
    refine List.perm_iff_count.2 fun a => ?_
    have hcount := hset.count_eq a
    simp only [left, queue_emitOne, workers_emitOne, Option.toList_some, List.count_append, List.count_cons,
      List.count_nil] at hcount ⊢
    omega
  · rw [h, hnext]
    have hset := perm_flatten_set hworker slot
    refine List.perm_iff_count.2 fun a => ?_
    have hcount := hset.count_eq a
    simp only [left, hqueue, Option.toList_none, List.flatten_cons, List.count_append, List.count_nil] at hcount ⊢
    omega
  · rw [h, hnext]
    exact .refl _

/-- What has been emitted and what is left. -/
theorem perm_history_append_left (emit : Emitter α) (g : Graph) (p : Pool α) (schedule : List Nat) :
    (p.history emit g schedule ++ (p.play emit g schedule).left).Perm p.left := by
  induction schedule generalizing p with
  | nil => exact .refl _
  | cons w schedule ih =>
    show ((p.next? w).toList ++ history emit g (p.turn emit g w) schedule ++
      ((p.turn emit g w).play emit g schedule).left).Perm p.left
    rw [List.append_assoc]
    exact ((ih (p.turn emit g w)).append_left _).trans (perm_left_turn emit g p w)

private theorem isDone_iff (p : Pool α) : p.isDone ↔ p.queue = [] ∧ ∀ l ∈ p.workers, l = [] := by
  simp [isDone]

theorem left_eq_nil_of_isDone (h : p.isDone) : p.left = [] := by
  obtain ⟨hqueue, hworkers⟩ := p.isDone_iff.1 h
  rw [left, hqueue, List.flatten_eq_nil_iff.2 hworkers]
  rfl

/-! ### Slots are emitted in their order -/

private theorem mem_set_of_ne {ls : List (List EntityId)} {w i : Nat} {l : List EntityId} (hne : w ≠ i)
    (hi : ls[i]? = some l) (l' : List EntityId) : l ∈ ls.set w l' := by
  refine List.mem_of_getElem? (i := i) ?_
  rw [List.getElem?_set, if_neg hne]
  exact hi

/-- If all lists of objects are emitted in their order after a turn, so are they with the object of the turn. -/
private theorem sublist_turn {w : Nat} {later : List EntityId}
    (h : ∀ l ∈ (p.turn emit g w).workers ++ (p.turn emit g w).queue, l.Sublist later) :
    ∀ l ∈ p.workers ++ p.queue, l.Sublist ((p.next? w).toList ++ later) := by
  obtain ⟨hworkers, hqueue⟩ := List.forall_mem_append.1 h
  have hkept : ∀ l : List EntityId, l.Sublist later → l.Sublist ((p.next? w).toList ++ later) := fun l hl =>
    hl.trans (List.sublist_append_right _ _)
  rcases turn_cases emit g p w with ⟨id, rest, hmine, hnext, hturn⟩ | ⟨slot, queue, hmine, hslots, -, hturn⟩ |
    ⟨-, -, hturn⟩
  · have hw := (List.getElem?_eq_some_iff.1 hmine).1
    rw [hturn] at hworkers hqueue
    simp only [workers_emitOne, queue_emitOne] at hworkers hqueue
    refine List.forall_mem_append.2 ⟨fun l hl => ?_, fun l hl => hkept l (hqueue l hl)⟩
    obtain ⟨i, hi⟩ := List.mem_iff_getElem?.1 hl
    by_cases heq : w = i
    · -- The list of the worker whose turn it is, with the object that it emits.
      subst heq
      obtain rfl : id :: rest = l := Option.some.inj (hmine.symm.trans hi)
      rw [hnext]
      exact (hworkers rest (List.mem_set hw rest)).cons_cons id
    · exact hkept l (hworkers l (mem_set_of_ne heq hi rest))
  · have hw := (List.getElem?_eq_some_iff.1 hmine).1
    rw [hturn] at hworkers hqueue
    refine List.forall_mem_append.2 ⟨fun l hl => ?_, fun l hl => ?_⟩
    · obtain ⟨i, hi⟩ := List.mem_iff_getElem?.1 hl
      by_cases heq : w = i
      · subst heq
        obtain rfl : [] = l := Option.some.inj (hmine.symm.trans hi)
        exact List.nil_sublist _
      · exact hkept l (hworkers l (mem_set_of_ne heq hi slot))
    · rw [hslots] at hl
      rcases List.mem_cons.1 hl with rfl | hl
      · exact hkept l (hworkers l (List.mem_set hw l))
      · exact hkept l (hqueue l hl)
  · rw [hturn] at hworkers hqueue
    exact List.forall_mem_append.2 ⟨fun l hl => hkept l (hworkers l hl), fun l hl => hkept l (hqueue l hl)⟩

/-- When nothing is left, every list of objects that was there has been emitted in its order. -/
theorem sublist_history {schedule : List Nat} (hdone : (p.play emit g schedule).isDone) :
    ∀ l ∈ p.workers ++ p.queue, l.Sublist (p.history emit g schedule) := by
  induction schedule generalizing p with
  | nil =>
    obtain ⟨hqueue, hworkers⟩ := p.isDone_iff.1 hdone
    intro l hl
    rw [hqueue, List.append_nil] at hl
    rw [hworkers l hl]
    exact List.nil_sublist _
  | cons w schedule ih => exact sublist_turn (ih hdone)

/-! ### What is recorded -/

/-- The pool holds what comes of emitting the objects one after another. -/
structure Records (emit : Emitter α) (g : Graph) (ids : List EntityId) (p : Pool α) : Prop where
  cache : p.cache = emit.cacheAfter g ids
  emitted : p.emitted = ids.filterMap (emit.output? g)
  failures : p.failures = ids.filterMap (emit.failure? g)

theorem Records.turn (huniform : emit.IsUniform g) {ids : List EntityId} (h : Records emit g ids p) (w : Nat) :
    Records emit g (ids ++ (p.next? w).toList) (p.turn emit g w) := by
  obtain ⟨hcache, hemitted, hfailures⟩ := h
  rcases turn_cases emit g p w with ⟨id, rest, -, hnext, hturn⟩ | ⟨slot, queue, -, -, hnext, hturn⟩ | ⟨-, hnext, hturn⟩
  · rw [hturn, hnext, Option.toList_some]
    have hresult := huniform ids id
    have hgrown := emit.cacheAfter_append g ids id
    rw [← hcache] at hresult hgrown
    unfold emitOne
    cases h : emit g id p.cache with
    | mk result cache =>
      rw [h] at hresult hgrown
      cases result with
      | ok a =>
        refine ⟨hgrown.symm, ?_, ?_⟩
        · simp [hemitted, Emitter.output?, ← hresult, Except.toOption]
        · simp [hfailures, Emitter.failure?, ← hresult]
      | error e =>
        refine ⟨hgrown.symm, ?_, ?_⟩
        · simp [hemitted, Emitter.output?, ← hresult, Except.toOption]
        · simp [hfailures, Emitter.failure?, ← hresult]
  · rw [hturn, hnext, Option.toList_none, List.append_nil]
    exact ⟨hcache, hemitted, hfailures⟩
  · rw [hturn, hnext, Option.toList_none, List.append_nil]
    exact ⟨hcache, hemitted, hfailures⟩

theorem Records.play (huniform : emit.IsUniform g) {ids : List EntityId} (h : Records emit g ids p)
    (schedule : List Nat) : Records emit g (ids ++ p.history emit g schedule) (p.play emit g schedule) := by
  induction schedule generalizing p ids with
  | nil =>
    rw [history, List.append_nil]
    exact h
  | cons w schedule ih =>
    rw [history, ← List.append_assoc]
    exact ih (h.turn huniform w)

/-! ### The end is reached -/

/-- The slots still to be taken and the objects still to be emitted. -/
def due (p : Pool α) : Nat :=
  p.queue.length + p.left.length

/-- A turn in which anything is done brings the end nearer. -/
private theorem turn_eq_or_due_lt (emit : Emitter α) (g : Graph) (p : Pool α) (w : Nat) :
    p.turn emit g w = p ∨ (p.turn emit g w).due < p.due := by
  have hlength := (perm_left_turn emit g p w).length_eq
  rw [List.length_append] at hlength
  rcases turn_cases emit g p w with ⟨id, rest, -, hnext, h⟩ | ⟨slot, queue, -, hqueue, hnext, h⟩ | ⟨-, -, h⟩
  · right
    have hsame : (p.turn emit g w).queue = p.queue := by simp [h]
    rw [due, due, hsame]
    simp only [hnext, Option.toList_some, List.length_singleton] at hlength
    omega
  · right
    have hshorter : (p.turn emit g w).queue.length + 1 = p.queue.length := by simp [h, hqueue]
    rw [due, due]
    simp only [hnext, Option.toList_none, List.length_nil] at hlength
    omega
  · exact .inl h

private theorem due_play_le (emit : Emitter α) (g : Graph) (p : Pool α) (schedule : List Nat) :
    (p.play emit g schedule).due ≤ p.due := by
  induction schedule generalizing p with
  | nil => exact Nat.le_refl _
  | cons w schedule ih =>
    have hrest : (p.play emit g (w :: schedule)).due ≤ (p.turn emit g w).due := ih (p.turn emit g w)
    rcases turn_eq_or_due_lt emit g p w with h | h
    · rwa [h] at hrest
    · omega

/-- So does a schedule in which a worker gets its turn that has something to do. -/
private theorem due_play_lt {w : Nat} (hw : (p.turn emit g w).due < p.due) {schedule : List Nat} (hmem : w ∈ schedule) :
    (p.play emit g schedule).due < p.due := by
  induction schedule with
  | nil => cases hmem
  | cons v schedule ih =>
    show ((p.turn emit g v).play emit g schedule).due < p.due
    rcases turn_eq_or_due_lt emit g p v with h | h
    · rw [h]
      rcases List.mem_cons.1 hmem with rfl | hmem
      · rw [h] at hw
        omega
      · exact ih hmem
    · have hrest := due_play_le emit g (p.turn emit g v) schedule
      omega

/-- Before the end, some worker has something to do. -/
private theorem exists_due_lt (emit : Emitter α) (g : Graph) (hworkers : 0 < p.workers.length) (hdone : ¬ p.isDone) :
    ∃ w < p.workers.length, (p.turn emit g w).due < p.due := by
  have hstuck : ∀ w < p.workers.length, p.turn emit g w = p → p.workers[w]? = some [] ∧ p.queue = [] := by
    intro w hw hsame
    have hlength := (perm_left_turn emit g p w).length_eq
    rcases turn_cases emit g p w with ⟨id, rest, hmine, hnext, -⟩ | ⟨slot, queue, -, hqueue, -, hturn⟩ |
      ⟨hidle | hidle, -, -⟩
    · rw [hsame, hnext] at hlength
      simp at hlength
    · have hshorter := congrArg (·.queue.length) (hturn.symm.trans hsame)
      simp [hqueue] at hshorter
    · rw [List.getElem?_eq_none_iff] at hidle
      omega
    · exact hidle
  by_contra hnone
  have hidle : ∀ w < p.workers.length, p.workers[w]? = some [] ∧ p.queue = [] := fun w hw =>
    hstuck w hw ((turn_eq_or_due_lt emit g p w).resolve_right fun hlt => hnone ⟨w, hw, hlt⟩)
  refine hdone (p.isDone_iff.2 ⟨(hidle 0 hworkers).2, fun l hl => ?_⟩)
  obtain ⟨w, hw, rfl⟩ := List.mem_iff_getElem.1 hl
  exact Option.some.inj ((List.getElem?_eq_getElem hw).symm.trans (hidle w hw).1)

private theorem isDone_of_due_eq_zero (h : p.due = 0) : p.isDone := by
  have hqueue : p.queue.length = 0 := by unfold due at h; omega
  have hleft : p.left.length = 0 := by unfold due at h; omega
  obtain ⟨hworkers, -⟩ := List.append_eq_nil_iff.1 (List.length_eq_zero_iff.1 hleft)
  exact p.isDone_iff.2 ⟨List.length_eq_zero_iff.1 hqueue, List.flatten_eq_nil_iff.1 hworkers⟩

/-- Enough rounds are a schedule that leaves nothing. -/
theorem exists_schedule_rounds {n : Nat} (hworkers : 0 < p.workers.length) (hn : p.due ≤ n) :
    ∃ schedule, p.rounds emit g n = p.play emit g schedule ∧ (p.play emit g schedule).isDone := by
  induction n generalizing p with
  | zero => exact ⟨[], rfl, isDone_of_due_eq_zero (Nat.le_zero.1 hn)⟩
  | succ n ih =>
    rw [rounds]
    by_cases hdone : p.isDone
    · rw [if_pos hdone]
      exact ⟨[], rfl, hdone⟩
    · rw [if_neg hdone]
      obtain ⟨w, hw, hlt⟩ := exists_due_lt emit g hworkers hdone
      have hround := due_play_lt hlt (List.mem_range.2 hw)
      obtain ⟨schedule, hrounds, hend⟩ := @ih (p.play emit g (List.range p.workers.length))
        (by rwa [length_workers_play]) (by omega)
      refine ⟨List.range p.workers.length ++ schedule, ?_, ?_⟩
      · rw [play, List.foldl_append]
        exact hrounds
      · rw [play, List.foldl_append]
        exact hend

end Pool

end Metamodel
