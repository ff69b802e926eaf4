import Metamodel.Issue.Basic

/-!
# Steps that find issues

A step changes a state and finds issues.  `gather` runs a step for every element of a list, one after the other, and
keeps all issues in order; it splits along an append.
-/

namespace Metamodel

/-- The state after a step and the issues found in it. -/
abbrev Found (σ : Type) := σ × List Issue

variable {σ α : Type}

def gather (step : σ → α → Found σ) : σ → List α → Found σ
  | s, [] => (s, [])
  | s, a :: as =>
    let (s, here) := step s a
    let (s, later) := gather step s as
    (s, here ++ later)

/-- One step after another. -/
def Found.andThen (x : Found σ) (next : σ → Found σ) : Found σ :=
  let (s, later) := next x.1
  (s, x.2 ++ later)

theorem Found.andThen_eq (x : Found σ) (next : σ → Found σ) :
    x.andThen next = ((next x.1).1, x.2 ++ (next x.1).2) := rfl

theorem gather_append (step : σ → α → Found σ) (s : σ) (as bs : List α) :
    gather step s (as ++ bs) = (gather step s as).andThen fun s => gather step s bs := by
  induction as generalizing s with
  | nil => simp [gather, Found.andThen]
  | cons a as ih => simp [gather, ih, Found.andThen]

end Metamodel
