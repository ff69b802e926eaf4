/-!
# Joins

A join says how the objects of a relationship find each other: by equal attributes (`pairs`) and by conditions of any
other form (`filters`).  It also records which classes its conditions mention.  `append` is the join of two conjoined
queries, and `reversed` the join seen from the related class; both directions hold the same information.
-/

namespace Metamodel

/-- An attribute of the owner that equals an attribute of the related object. -/
structure JoinPair where
  thisAttribute : String
  relatedAttribute : String
deriving DecidableEq

def JoinPair.reversed (p : JoinPair) : JoinPair :=
  ⟨p.relatedAttribute, p.thisAttribute⟩

structure Join where
  pairs : List JoinPair := []
  filters : List String := []
  referencesThis : Bool := false
  referencesRelated : Bool := false
  /-- The classes mentioned that are neither of the two, in order of their first mention. -/
  otherClasses : List String := []
deriving DecidableEq, Inhabited

namespace Join

def empty : Join := {}

def append (a b : Join) : Join where
  pairs := a.pairs ++ b.pairs
  filters := a.filters ++ b.filters
  referencesThis := a.referencesThis || b.referencesThis
  referencesRelated := a.referencesRelated || b.referencesRelated
  otherClasses := a.otherClasses ++ b.otherClasses.filter (! a.otherClasses.contains ·)

def reversed (j : Join) : Join :=
  { j with
    pairs := j.pairs.map JoinPair.reversed
    referencesThis := j.referencesRelated
    referencesRelated := j.referencesThis }

@[simp] theorem reversed_reversed (j : Join) : j.reversed.reversed = j := by
  have h : JoinPair.reversed ∘ JoinPair.reversed = id := rfl
  simp [reversed, h]

theorem append_empty (j : Join) : j.append empty = j := by
  simp [append, empty]

end Join

end Metamodel
