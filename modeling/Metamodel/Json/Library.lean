import Metamodel.Json.Basic
import Metamodel.NameMap

/-!
# Libraries for JSON

What it takes to write values to texts and to read values of a type from texts: a printer, a parser, and decoders for
scalars, containers and records.  Declarations are described in these terms alone (`Fields`), so that they do not
depend on the library that reads and writes them.
-/

namespace Metamodel.Json

/-- The deepest nesting that is read. -/
def maxDepth : Nat := 127

/-- The fields of a record, in their order of declaration, with the value that is made of theirs.  Each field has a
name, a decoder and, unless it must be present, the value that stands for it when it is absent. -/
inductive Fields (D : Type → Type) : Type → Type 1 where
  | const {α : Type} (a : α) : Fields D α
  | next {α β : Type} (before : Fields D (α → β)) (name : String) (decode : D α) (absent : Option α) : Fields D β

namespace Fields

variable {D : Type → Type}

def names {α : Type} : Fields D α → List String
  | .const _ => []
  | .next before name _ _ => before.names ++ [name]

def map {α β : Type} (f : α → β) : Fields D α → Fields D β
  | .const a => .const (f a)
  | .next before name decode absent => .next (before.map fun g a => f (g a)) name decode absent

/-- Fields after each other. -/
def ap {α β : Type} (f : Fields D (α → β)) : Fields D α → Fields D β
  | .const a => f.map fun g => g a
  | .next before name decode absent => .next (ap (f.map fun g h a => g (h a)) before) name decode absent

instance : Functor (Fields D) := { map := fun f x => map f x }

instance : Seq (Fields D) := ⟨fun f x => ap f (x ())⟩

end Fields

/-- A field that must be present. -/
def field {D : Type → Type} {α : Type} (name : String) (decode : D α) : Fields D α :=
  .next (.const id) name decode none

/-- A field with a default. -/
def fieldD {D : Type → Type} {α : Type} (name : String) (decode : D α) (default : α) : Fields D α :=
  .next (.const id) name decode (some default)

/-- A library whose decoders for a type `α` are of type `D α`. -/
class Library (D : Type → Type) where
  print : Json → String
  /-- The value that a text denotes. -/
  parse : String → Option Json
  /-- What a decoder makes of a value, of which at most so many containers may be open at once; otherwise what is wrong
  with it, if there are words for that. -/
  decode {α : Type} : D α → Nat → Json → Except (Option String) α
  text : D String
  bool : D Bool
  uint32 : D UInt32
  int32 : D Int32
  int64 : D Int64
  /-- Nothing is `null`. -/
  option {α : Type} : D α → D (Option α)
  /-- One of a list of names. -/
  variant {α : Type} : List (String × α) → D α
  list {α : Type} : D α → D (List α)
  nameMap {α : Type} : D α → D (NameMap α)
  /-- A record, under a name for its problems. -/
  record {α : Type} : String → Fields D α → D α
  /-- The decoder that stands for itself inside. -/
  recursive {α : Type} : (D α → D α) → D α

/-- What a decoder reads from a whole text. -/
def Library.read {D : Type → Type} [Library D] {α : Type} (decoder : D α) (s : String) : Except (Option String) α :=
  match parse D s with
  | some j => decode decoder maxDepth j
  | none => .error none

end Metamodel.Json
