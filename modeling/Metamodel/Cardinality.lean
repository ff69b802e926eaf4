import Metamodel.Error

/-!
# Cardinality

The shape of a relationship seen from its owner.  `reverse` is the shape seen from the other side: it swaps the two
questions `fromMany` and `toMany`, and it is an involution.
-/

namespace Metamodel

inductive Cardinality where
  | oneToOne | oneToMany | manyToOne | manyToMany
deriving DecidableEq, Inhabited

namespace Cardinality

def all : List Cardinality :=
  [oneToOne, oneToMany, manyToOne, manyToMany]

def key : Cardinality → String
  | oneToOne => "one-to-one"
  | oneToMany => "one-to-many"
  | manyToOne => "many-to-one"
  | manyToMany => "many-to-many"

/-- The word for the cardinality in a graph. -/
def name : Cardinality → String
  | oneToOne => "OneToOne"
  | oneToMany => "OneToMany"
  | manyToOne => "ManyToOne"
  | manyToMany => "ManyToMany"

def ofKey? (key : String) : Option Cardinality :=
  all.find? (·.key == key)

/-- The cardinality of a key, or the error that names the key. -/
def ofKey (key : String) : Except Error Cardinality :=
  match ofKey? key with
  | some c => .ok c
  | none => .error (.unknownCardinality key)

def reverse : Cardinality → Cardinality
  | oneToOne => oneToOne
  | oneToMany => manyToOne
  | manyToOne => oneToMany
  | manyToMany => manyToMany

/-- Many owners may share one related object. -/
def fromMany (c : Cardinality) : Bool :=
  c == manyToOne || c == manyToMany

/-- One owner may have many related objects. -/
def toMany (c : Cardinality) : Bool :=
  c == oneToMany || c == manyToMany

@[simp] theorem reverse_reverse (c : Cardinality) : c.reverse.reverse = c := by
  cases c <;> rfl

@[simp] theorem fromMany_reverse (c : Cardinality) : c.reverse.fromMany = c.toMany := by
  cases c <;> rfl

@[simp] theorem toMany_reverse (c : Cardinality) : c.reverse.toMany = c.fromMany := by
  cases c <;> rfl

theorem ofKey?_eq_some_iff {key : String} {c : Cardinality} : ofKey? key = some c ↔ key = c.key := by
  constructor
  · intro h
    have := List.find?_some h
    simpa using (beq_iff_eq.1 this).symm
  · rintro rfl
    cases c <;> decide

end Cardinality

end Metamodel
