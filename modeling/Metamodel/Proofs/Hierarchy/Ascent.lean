import Mathlib.Data.List.Perm.Subperm
import Metamodel.Hierarchy.Ancestors
import Metamodel.Proofs.Cycles

/-!
# The way up along links

The links of a graph may lead anywhere.  If the way up from an entity comes to no entity twice, it takes no more links
than there are entities (`length_le_of_nodup`), so it is not cut: it ends at an entity without a superclass, and one
link up the rest of it begins (`ancestors_eq_cons`).  `neverRepeats_iff` says that it is cut in all other cases.  The
way up is walked in rounds that count the links (`Ascent.next?`); `runs_ascent` says how many rounds there are, and
where they end.
-/

namespace Metamodel

namespace Graph

/-- The superclass that is linked to `o` is `p`. -/
def LinksTo (g : Graph) (o p : EntityId) : Prop :=
  (g.entity o).superEntity = some p

/-- The way up from `id` comes to no entity twice. -/
def NeverRepeats (g : Graph) (id : EntityId) : Prop :=
  ∀ way, (id :: way).IsChain g.LinksTo → (id :: way).Nodup

/-- The way up from `id` ends at `top`. -/
structure EndsAt (g : Graph) (id top : EntityId) : Prop where
  reaches : Relation.ReflTransGen g.LinksTo id top
  superEntity : (g.entity top).superEntity = none

variable {g : Graph} {id o p top : EntityId} {way : List EntityId} {n : Nat}

/-! ### Ways of bounded length -/

private theorem ancestorsWithin_of_linksTo (h : g.LinksTo id p) (n : Nat) :
    g.ancestorsWithin (n + 1) id = p :: g.ancestorsWithin n p := by
  rw [ancestorsWithin, show (g.entity id).superEntity = some p from h]

private theorem ancestorsWithin_of_top (h : (g.entity id).superEntity = none) (n : Nat) : g.ancestorsWithin n id =
    [] := by
  cases n with
  | zero => rfl
  | succ n => rw [ancestorsWithin, h]

private theorem length_ancestorsWithin_le (g : Graph) (n : Nat) (id : EntityId) :
    (g.ancestorsWithin n id).length ≤ n := by
  induction n generalizing id with
  | zero => exact Nat.le_refl 0
  | succ n ih =>
    cases h : (g.entity id).superEntity with
    | none => simp [ancestorsWithin_of_top h]
    | some p => simpa [ancestorsWithin_of_linksTo h] using ih p

private theorem isChain_ancestorsWithin (g : Graph) (n : Nat) (id : EntityId) :
    (id :: g.ancestorsWithin n id).IsChain g.LinksTo := by
  induction n generalizing id with
  | zero => exact .singleton id
  | succ n ih =>
    cases h : (g.entity id).superEntity with
    | none =>
      rw [ancestorsWithin_of_top h]
      exact .singleton id
    | some p =>
      rw [ancestorsWithin_of_linksTo h]
      exact List.isChain_cons_cons.2 ⟨h, ih p⟩

/-- A way that is not cut ends at an entity without a superclass. -/
private theorem superEntity_getLastD (h : (g.ancestorsWithin n id).length < n) :
    (g.entity ((g.ancestorsWithin n id).getLastD id)).superEntity = none := by
  induction n generalizing id with
  | zero => cases h
  | succ n ih =>
    cases hup : (g.entity id).superEntity with
    | none => simpa [ancestorsWithin_of_top hup] using hup
    | some p =>
      rw [ancestorsWithin_of_linksTo hup] at h ⊢
      rw [List.getLastD_cons]
      exact ih (Nat.lt_of_succ_lt_succ h)

/-- More steps do not lengthen a way that is not cut. -/
private theorem ancestorsWithin_succ (h : (g.ancestorsWithin n id).length < n) :
    g.ancestorsWithin (n + 1) id = g.ancestorsWithin n id := by
  induction n generalizing id with
  | zero => cases h
  | succ n ih =>
    cases hup : (g.entity id).superEntity with
    | none => rw [ancestorsWithin_of_top hup, ancestorsWithin_of_top hup]
    | some p =>
      rw [ancestorsWithin_of_linksTo hup] at h
      rw [ancestorsWithin_of_linksTo hup, ancestorsWithin_of_linksTo hup, ih (Nat.lt_of_succ_lt_succ h)]

/-! ### Ways that do not repeat an entity -/

private theorem lt_size_of_linksTo (h : g.LinksTo o p) : o < g.entities.size := by
  by_contra hnot
  have hnone : g.entity o = default := by simp [entity, Array.getD, hnot]
  rw [LinksTo, hnone] at h
  cases h

/-- Only the last entity of a way may have no link, and the others are entities of the graph. -/
private theorem lt_size_of_mem_dropLast (hway : (id :: way).IsChain g.LinksTo) :
    ∀ o ∈ (id :: way).dropLast, o < g.entities.size := by
  induction way generalizing id with
  | nil => simp
  | cons p way ih =>
    obtain ⟨hup, hrest⟩ := List.isChain_cons_cons.1 hway
    rw [List.dropLast_cons_cons]
    exact List.forall_mem_cons.2 ⟨lt_size_of_linksTo hup, ih hrest⟩

/-- A way that repeats no entity takes no more links than there are entities. -/
theorem length_le_of_nodup (hway : (id :: way).IsChain g.LinksTo) (hnodup : (id :: way).Nodup) :
    way.length ≤ g.entities.size := by
  have hsub : (id :: way).dropLast ⊆ List.range g.entities.size := fun o ho =>
    List.mem_range.2 (lt_size_of_mem_dropLast hway o ho)
  have hle := (List.subperm_of_subset (hnodup.sublist (List.dropLast_sublist _)) hsub).length_le
  simpa using hle

theorem depth_le_of_neverRepeats (h : g.NeverRepeats id) : g.depth id ≤ g.entities.size :=
  length_le_of_nodup (g.isChain_ancestorsWithin _ id) (h _ (g.isChain_ancestorsWithin _ id))

/-- A way that is not cut goes on above the first link as the way from there. -/
theorem ancestors_eq_cons (hdepth : g.depth id ≤ g.entities.size) (hup : g.LinksTo id p) :
    g.ancestors id = p :: g.ancestors p := by
  have hcut : (g.ancestorsWithin g.entities.size p).length < g.entities.size := by
    rw [depth, ancestors, ancestorsWithin_of_linksTo hup] at hdepth
    exact hdepth
  rw [ancestors, ancestors, ancestorsWithin_of_linksTo hup, ancestorsWithin_succ hcut]

private theorem depth_eq_succ (hdepth : g.depth id ≤ g.entities.size) (hup : g.LinksTo id p) :
    g.depth id = g.depth p + 1 := by
  rw [depth, ancestors_eq_cons hdepth hup]
  rfl

private theorem hierarchyRoot_eq (hdepth : g.depth id ≤ g.entities.size) (hup : g.LinksTo id p) :
    g.hierarchyRoot id = g.hierarchyRoot p := by
  rw [hierarchyRoot, ancestors_eq_cons hdepth hup, List.getLastD_cons]
  rfl

private theorem superEntity_hierarchyRoot (hdepth : g.depth id ≤ g.entities.size) :
    (g.entity (g.hierarchyRoot id)).superEntity = none :=
  superEntity_getLastD (Nat.lt_succ_of_le hdepth)

theorem depth_le_of_reaches (hdepth : g.depth id ≤ g.entities.size) (h : Relation.ReflTransGen g.LinksTo id p) :
    g.depth p ≤ g.depth id ∧ g.hierarchyRoot p = g.hierarchyRoot id := by
  induction h with
  | refl => exact ⟨Nat.le_refl _, rfl⟩
  | tail _ hup ih =>
    obtain ⟨hle, hroot⟩ := ih
    have hmid := hle.trans hdepth
    have hsucc := depth_eq_succ hmid hup
    exact ⟨by omega, (hierarchyRoot_eq hmid hup).symm.trans hroot⟩

/-- What lies above an entity has a smaller depth. -/
theorem depth_lt_of_reaches (hdepth : g.depth id ≤ g.entities.size) (h : Relation.TransGen g.LinksTo id p) :
    g.depth p < g.depth id := by
  obtain ⟨o, hup, habove⟩ := Relation.TransGen.head'_iff.1 h
  have hsucc := depth_eq_succ hdepth hup
  have hle := (depth_le_of_reaches (by omega) habove).1
  omega

/-- The way up repeats no entity just if it is not cut. -/
theorem neverRepeats_iff : g.NeverRepeats id ↔ g.depth id ≤ g.entities.size := by
  refine ⟨depth_le_of_neverRepeats, fun hdepth way hway => ?_⟩
  induction way generalizing id with
  | nil => exact List.pairwise_singleton _ id
  | cons p way ih =>
    obtain ⟨hup, hrest⟩ := List.isChain_cons_cons.1 hway
    have hlt := depth_eq_succ hdepth hup
    refine List.nodup_cons.2 ⟨fun hmem => ?_, ih (by omega) hrest⟩
    exact Nat.lt_irrefl _ (depth_lt_of_reaches hdepth (reaches_of_isChain hway id hmem))

/-! ### The end of the way -/

/-- A way that is not cut ends at the topmost entity, and nowhere else. -/
theorem endsAt_iff (hdepth : g.depth id ≤ g.entities.size) : g.EndsAt id top ↔ top = g.hierarchyRoot id := by
  constructor
  · rintro ⟨hreaches, htop⟩
    rw [← (depth_le_of_reaches hdepth hreaches).2, hierarchyRoot, ancestors, ancestorsWithin_of_top htop]
    rfl
  · rintro rfl
    refine ⟨?_, superEntity_hierarchyRoot hdepth⟩
    have habove := reaches_of_isChain (g.isChain_ancestorsWithin (g.entities.size + 1) id)
    rw [hierarchyRoot, ancestors, List.getLastD_eq_getLast?]
    cases hlast : (g.ancestorsWithin (g.entities.size + 1) id).getLast? with
    | none => exact .refl
    | some last => exact (habove last (List.mem_of_getLast? hlast)).to_reflTransGen

end Graph

/-! ### The walk -/

/-- Where the way up has come to, and by how many links. -/
structure Ascent where
  here : EntityId
  links : Nat
deriving DecidableEq

namespace Ascent

/-- One round goes up by one link, if there is one, unless there have been more links than there are entities. -/
def next? (g : Graph) (a : Ascent) : Option Ascent :=
  if g.entities.size < a.links then none
  else (g.entity a.here).superEntity.map fun p => ⟨p, a.links + 1⟩

/-- From `a` there are so many rounds, and the last one comes to `b`. -/
inductive Runs (g : Graph) : Ascent → Nat → Ascent → Prop
  | stop {a : Ascent} (h : a.next? g = none) : Runs g a 0 a
  | step {a b c : Ascent} {n : Nat} (h : a.next? g = some b) (rest : Runs g b n c) : Runs g a (n + 1) c

end Ascent

namespace Graph

variable {g : Graph} {id : EntityId}

/-- The rounds that are left take as many of the links above. -/
private theorem runs_ancestorsWithin {links n : Nat} (hleft : links + n = g.entities.size + 1) :
    Ascent.Runs g ⟨id, links⟩ (g.ancestorsWithin n id).length
      ⟨(g.ancestorsWithin n id).getLastD id, links + (g.ancestorsWithin n id).length⟩ := by
  induction n generalizing id links with
  | zero =>
    have hcut : g.entities.size < links := by omega
    exact .stop (if_pos hcut)
  | succ n ih =>
    have hgoes : ¬ g.entities.size < links := by omega
    have hround : Ascent.next? g ⟨id, links⟩ = (g.entity id).superEntity.map fun p => ⟨p, links + 1⟩ := if_neg hgoes
    cases hup : (g.entity id).superEntity with
    | none =>
      rw [ancestorsWithin_of_top hup]
      exact .stop (by rw [hround, hup]; rfl)
    | some p =>
      have hrest := @ih p (links + 1) (by omega)
      rw [ancestorsWithin_of_linksTo hup, List.getLastD_cons, List.length_cons]
      rw [Nat.add_right_comm] at hrest
      exact .step (by rw [hround, hup]; rfl) hrest

/-- From any entity the walk takes as many rounds as the depth says, and ends at the topmost entity. -/
theorem runs_ascent (g : Graph) (id : EntityId) :
    Ascent.Runs g ⟨id, 0⟩ (g.depth id) ⟨g.hierarchyRoot id, g.depth id⟩ := by
  have h := @runs_ancestorsWithin g id 0 (g.entities.size + 1) (Nat.zero_add _)
  rwa [Nat.zero_add] at h

/-- If the way up from an entity repeats none, the topmost entity is the end of it, which has no superclass, the depth
is the number of its links, and both are told from the superclass; and in any case the walk takes at most one round more
than there are entities. -/
theorem ascent_of_any_links (g : Graph) (id : EntityId) :
    (g.NeverRepeats id →
      (∃ way, (id :: way).IsChain g.LinksTo ∧ (id :: way).getLast? = some (g.hierarchyRoot id) ∧
          g.depth id = way.length) ∧
        (g.entity (g.hierarchyRoot id)).superEntity = none ∧ g.depth id ≤ g.entities.size ∧
        ∀ p, g.LinksTo id p → g.hierarchyRoot id = g.hierarchyRoot p ∧ g.depth id = g.depth p + 1) ∧
      ∃ rounds ≤ g.entities.size + 1, Ascent.Runs g ⟨id, 0⟩ rounds ⟨g.hierarchyRoot id, g.depth id⟩ := by
  refine ⟨fun hnever => ?_, g.depth id, g.length_ancestorsWithin_le _ id, g.runs_ascent id⟩
  have hdepth := depth_le_of_neverRepeats hnever
  refine ⟨⟨g.ancestors id, g.isChain_ancestorsWithin _ id, ?_, rfl⟩, superEntity_hierarchyRoot hdepth, hdepth,
    fun p hup => ⟨hierarchyRoot_eq hdepth hup, depth_eq_succ hdepth hup⟩⟩
  rw [List.getLast?_cons, hierarchyRoot, List.getLastD_eq_getLast?]

/-- A chain of three, and two entities above each other. -/
def crossing : Graph where
  entities :=
    #[{ name := ⟨"shop", "Rush"⟩, kind := .object, superEntity := some 2 },
      { id := 1, name := ⟨"shop", "Loop"⟩, kind := .object, superEntity := some 4 },
      { id := 2, name := ⟨"shop", "Order"⟩, kind := .object, superEntity := some 3 },
      { id := 3, name := ⟨"shop", "Item"⟩, kind := .object },
      { id := 4, name := ⟨"shop", "Back"⟩, kind := .object, superEntity := some 1 }]

/-- The chain goes up to its end; the walk on the cycle stops after at most six rounds. -/
theorem ascent_of_crossing :
    crossing.NeverRepeats 0 ∧ crossing.LinksTo 0 2 ∧ (crossing.entity (crossing.hierarchyRoot 0)).superEntity = none ∧
      crossing.hierarchyRoot 0 = crossing.hierarchyRoot 2 ∧ crossing.depth 0 = crossing.depth 2 + 1 ∧
      ¬ crossing.NeverRepeats 1 ∧
      ∃ rounds ≤ 6, Ascent.Runs crossing ⟨1, 0⟩ rounds ⟨crossing.hierarchyRoot 1, 6⟩ := by
  have hnever : crossing.NeverRepeats 0 := neverRepeats_iff.2 (by decide)
  have hup : crossing.LinksTo 0 2 := rfl
  obtain ⟨-, htop, -, habove⟩ := (ascent_of_any_links crossing 0).1 hnever
  obtain ⟨hroot, hdepth⟩ := habove 2 hup
  exact ⟨hnever, hup, htop, hroot, hdepth, fun h => absurd (neverRepeats_iff.1 h) (by decide),
    (ascent_of_any_links crossing 1).2⟩

end Graph

end Metamodel
