import Metamodel.DataType

/-!
# Configuration

Settings shared by every object of a run.  There is always at least one emission worker.
-/

namespace Metamodel

structure Config where
  defaultFinalGetters : Bool := false
  /-- The policy of as-of attributes that declare none. -/
  defaultTimezone : TimezonePolicy := .keep
  workers : Nat := 4
  warningsAreErrors : Bool := false
  one_le_workers : 1 ≤ workers := by decide

namespace Config

def default : Config := {}

def withFinalGetters (c : Config) (finalGetters : Bool) : Config :=
  { c with defaultFinalGetters := finalGetters }

def withTimezone (c : Config) (policy : TimezonePolicy) : Config :=
  { c with defaultTimezone := policy }

/-- Zero workers count as one. -/
def withWorkers (c : Config) (workers : Nat) : Config :=
  { c with workers := max 1 workers, one_le_workers := Nat.le_max_left 1 workers }

def withWarningsAsErrors (c : Config) (enabled : Bool) : Config :=
  { c with warningsAreErrors := enabled }

end Config

end Metamodel
