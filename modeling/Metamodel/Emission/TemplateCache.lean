import Metamodel.Error
import Metamodel.NameMap

/-!
# The cache of templates

Templates by name, shared by all emission of a run.  A name is loaded when it is wanted for the first time; a load that
fails leaves the cache as it was, so the next request loads again.
-/

namespace Metamodel

structure TemplateCache where
  templates : NameMap String := .empty
  /-- The number of loads that succeeded. -/
  loads : Nat := 0

/-- The answer to a request, whether the loader was run for it, and the cache afterwards. -/
structure TemplateCache.Fetch where
  answer : Except Error String
  ran : Bool
  cache : TemplateCache

namespace TemplateCache

def empty : TemplateCache := {}

def get? (c : TemplateCache) (name : String) : Option String :=
  c.templates.find? name

def size (c : TemplateCache) : Nat :=
  c.templates.size

/-- The template of that name; `load` is what the loader would give. -/
def fetch (c : TemplateCache) (name : String) (load : Except Error String) : Fetch :=
  match c.get? name with
  | some text => ⟨.ok text, false, c⟩
  | none =>
    match load with
    | .ok text => ⟨.ok text, true, ⟨c.templates.insert name text, c.loads + 1⟩⟩
    | .error e => ⟨.error e, true, c⟩

theorem get?_fetch_of_ok (c : TemplateCache) (name text : String) (h : c.get? name = none) :
    (c.fetch name (.ok text)).cache.get? name = some text := by
  rw [fetch, h]
  simp [get?, NameMap.find?_insert]

end TemplateCache

end Metamodel
