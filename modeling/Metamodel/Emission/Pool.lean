import Metamodel.Emission.Slot
import Metamodel.Emission.TemplateCache

/-!
# Emission by a pool of workers

The slots of a graph stand in a queue.  When it is a worker's turn, it emits the next object of its slot, or takes a
slot from the queue if it has none left.  A failure is recorded and does not stop the others.  `Graph.runPool` gives the
turns in rounds until all slots are done; the number of rounds is bounded by the number of slots and objects, since every
round before the end takes a slot or emits an object.
-/

namespace Metamodel

/-- What is emitted for an object, or why nothing is; the cache may have grown in any case. -/
abbrev Emitter (α : Type) := Graph → EntityId → TemplateCache → Except Error α × TemplateCache

structure Pool (α : Type) where
  queue : List (List EntityId)
  /-- The objects that each worker has yet to emit. -/
  workers : List (List EntityId)
  cache : TemplateCache := .empty
  emitted : List α := []
  failures : List String := []

structure EmissionSummary where
  emitted : Nat
  slots : Nat
  templatesLoaded : Nat
deriving DecidableEq

namespace Pool

variable {α : Type}

/-- The pool after one object has been emitted. -/
def emitOne (emit : Emitter α) (g : Graph) (p : Pool α) (id : EntityId) : Pool α :=
  match emit g id p.cache with
  | (.ok a, cache) => { p with cache := cache, emitted := p.emitted ++ [a] }
  | (.error e, cache) =>
    { p with cache := cache, failures := p.failures ++ [g.qualifiedName id ++ ": " ++ e.message] }

/-- The pool after a turn of worker `w`. -/
def turn (emit : Emitter α) (g : Graph) (p : Pool α) (w : Nat) : Pool α :=
  match p.workers[w]?, p.queue with
  | some (id :: rest), _ => { p with workers := p.workers.set w rest }.emitOne emit g id
  | some [], slot :: queue => { p with queue := queue, workers := p.workers.set w slot }
  | _, _ => p

/-- Nothing is left to emit. -/
def isDone (p : Pool α) : Bool :=
  p.queue.isEmpty && p.workers.all (·.isEmpty)

def rounds (emit : Emitter α) (g : Graph) : Nat → Pool α → Pool α
  | 0, p => p
  | n + 1, p => if p.isDone then p else rounds emit g n ((List.range p.workers.length).foldl (turn emit g) p)

/-- At least one worker, and no more than there are slots. -/
def start (g : Graph) (workers : Nat) : Pool α :=
  { queue := g.slots, workers := List.replicate (max 1 (min workers g.slots.length)) [] }

end Pool

namespace Graph

variable {α : Type}

/-- The pool when all objects have been emitted. -/
def runPool (g : Graph) (workers : Nat) (emit : Emitter α) : Pool α :=
  Pool.rounds emit g (g.slots.length + g.emittedObjects.length) (.start g workers)

/-- The result of a run: a summary, or all failures in order. -/
def emissionResult (g : Graph) (p : Pool α) : Except Error EmissionSummary :=
  if p.failures.isEmpty then .ok ⟨p.emitted.length, g.slots.length, p.cache.loads⟩
  else .error (.emissions (p.failures.mergeSort fun a b => decide (a ≤ b)))

end Graph

end Metamodel
