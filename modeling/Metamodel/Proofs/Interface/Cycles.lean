import Metamodel.Proofs.Interface.Lineage

/-!
# Cycles of super interfaces

Where every interface stands under its qualified name, the search for cycles misses none.  An interface that is done
with is known to be cyclic, or every way up from it ends (`Detects`): the search has come back from all its super
interfaces, and a way on from one that was done with before is no other than it was then.  So in the end exactly those
interfaces are known to be cyclic from which a cycle can be reached (`mem_cyclicInterfaces_iff`), and there is an issue
that says so if there are any (`exists_circular_iff`).
-/

namespace Metamodel.Declarations

/-- The issue says that interfaces form a cycle. -/
def IsCircular (i : Issue) : Prop :=
  i.message.startsWith "Circular dependency"

private theorem isCircular_circular (name parent : String) : IsCircular (circular name parent) := by
  simp [IsCircular, circular, Issue.error]

private theorem not_isCircular_undefinedSuper (name super : String) : ¬ IsCircular (undefinedSuper name super) := by
  simp [IsCircular, undefinedSuper, Issue.error]

/-- What is known of an interface that is done with, of one that is cyclic, and from an issue. -/
structure CycleSearch.Detects (d : Declarations) (s : CycleSearch) : Prop where
  finished : ∀ key ∈ s.finished, key ∈ s.cyclic ∨
    ∀ i, d.interfaces.find? key = some i → Acc (fun j i => d.Extends i j) i
  cyclic : ∀ key ∈ s.cyclic, (∃ e ∈ s.issues, IsCircular e) ∧
    ∀ i, d.interfaces.find? key = some i → ReachesCycle d.Extends i
  issues : ∀ e ∈ s.issues, IsCircular e → ∃ i, Relation.TransGen d.Extends i i

/-- From the interfaces under the keys of the path ways lead up to `i`. -/
def Leads (d : Declarations) (path : List String) (i : InterfaceDeclaration) : Prop :=
  ∀ key ∈ path, ∃ j, d.interfaces.find? key = some j ∧ Relation.ReflTransGen d.Extends j i

variable {d : Declarations} {s : CycleSearch} {i j : InterfaceDeclaration} {name super : String} {path : List String}
  {steps : Nat}

theorem Leads.tail (h : d.Leads path i) (hij : d.Extends i j) : d.Leads path j := by
  intro key hkey
  obtain ⟨k, hk, hki⟩ := h key hkey
  exact ⟨k, hk, hki.tail hij⟩

theorem Leads.cons (h : d.Leads path i) (hname : d.interfaces.find? name = some i) : d.Leads (name :: path) i :=
  List.forall_mem_cons.2 ⟨⟨i, hname, .refl⟩, h⟩

namespace CycleSearch.Detects

theorem undefinedSuper (hs : s.Detects d) (name super : String) :
    (s.report (Declarations.undefinedSuper name super)).Detects d where
  finished := hs.finished
  cyclic key hkey := by
    obtain ⟨⟨e, he, hcircular⟩, hreaches⟩ := hs.cyclic key hkey
    exact ⟨⟨e, List.mem_append_left _ he, hcircular⟩, hreaches⟩
  issues e he hcircular := by
    rcases List.mem_append.1 he with he | he
    · exact hs.issues e he hcircular
    · rw [List.mem_singleton.1 he] at hcircular
      exact absurd hcircular (not_isCircular_undefinedSuper name super)

/-- An interface that comes before `i` on the way is above `i`, too. -/
theorem circular (hs : s.Detects d) (hname : d.interfaces.find? name = some i)
    (hparent : d.interfaces.find? super = some j) (hij : d.Extends i j) (hji : Relation.ReflTransGen d.Extends j i) :
    ((s.report (Declarations.circular name super)).mark [name, super]).Detects d := by
  have hcycle : Relation.TransGen d.Extends j j := .tail' hji hij
  have hissue : ∃ e ∈ (s.report (Declarations.circular name super)).issues, IsCircular e :=
    ⟨_, List.mem_append_right _ (List.mem_singleton_self _), isCircular_circular name super⟩
  refine ⟨fun key hkey => ?_, fun key hkey => ⟨hissue, ?_⟩, fun e he hcircular => ?_⟩
  · exact (hs.finished key hkey).imp_left (List.mem_append_left _)
  · intro k hk
    rcases List.mem_append.1 hkey with hold | hnew
    · exact (hs.cyclic key hold).2 k hk
    · rcases List.mem_pair.1 hnew with rfl | rfl
      · obtain rfl : i = k := Option.some.inj (hname.symm.trans hk)
        exact .head hij (.of_self hcycle)
      · obtain rfl : j = k := Option.some.inj (hparent.symm.trans hk)
        exact .of_self hcycle
  · rcases List.mem_append.1 he with he | he
    · exact hs.issues e he hcircular
    · exact ⟨j, hcycle⟩

theorem inherit (hs : s.Detects d) (hname : d.interfaces.find? name = some i)
    (hparent : d.interfaces.find? super = some j) (hij : d.Extends i j) : (s.inherit name super).Detects d := by
  unfold CycleSearch.inherit
  split
  · rename_i hcyclic
    obtain ⟨hissue, hreaches⟩ := hs.cyclic super (List.contains_iff_mem.1 hcyclic)
    refine ⟨fun key hkey => (hs.finished key hkey).imp_left (List.mem_append_left _), fun key hkey => ?_, hs.issues⟩
    rcases List.mem_append.1 hkey with hold | hnew
    · exact hs.cyclic key hold
    · rw [List.mem_singleton.1 hnew]
      refine ⟨hissue, fun k hk => ?_⟩
      obtain rfl : i = k := Option.some.inj (hname.symm.trans hk)
      exact .head hij (hreaches j hparent)
  · exact hs

/-- An interface is done with when it is known to be cyclic, or no way up from its super interfaces goes on for ever. -/
theorem finish (hs : s.Detects d) (hname : d.interfaces.find? name = some i)
    (hup : ∀ super ∈ i.superInterfaces, ∀ j, d.interfaceNamed? super = some j →
      name ∈ s.cyclic ∨ Acc (fun j i => d.Extends i j) j) :
    { s with finished := name :: s.finished : CycleSearch }.Detects d where
  finished key hkey := by
    rcases List.mem_cons.1 hkey with rfl | hkey
    · by_cases hcyclic : key ∈ s.cyclic
      · exact .inl hcyclic
      · refine .inr fun k hk => .intro k fun j hj => ?_
        obtain rfl : i = k := Option.some.inj (hname.symm.trans hk)
        obtain ⟨super, hsuper, hj⟩ := hj
        exact (hup super hsuper j hj).resolve_left hcyclic
    · exact hs.finished key hkey
  cyclic := hs.cyclic
  issues := hs.issues

end CycleSearch.Detects

/-- With a super interface the search goes on detecting cycles.  Then the interface below is known to be cyclic, or
every way up from the super interface ends. -/
private theorem detects_visitSuper {below : CycleSearch → String → CycleSearch} (hd : d.InterfacesByName)
    (hname : d.interfaces.find? name = some i) (hsuper : super ∈ i.superInterfaces) (hpath : d.Leads path i)
    (hbelow : ∀ j, d.Extends i j → j.qualifiedName ∉ path → (below s j.qualifiedName).Detects d ∧
      j.qualifiedName ∈ (below s j.qualifiedName).finished) (hs : s.Detects d) :
    (d.visitSuper below path name s super).Detects d ∧
      ∀ j, d.interfaceNamed? super = some j →
        name ∈ (d.visitSuper below path name s super).cyclic ∨ Acc (fun j i => d.Extends i j) j := by
  unfold visitSuper
  cases hparent : d.interfaceNamed? super with
  | none => exact ⟨hs.undefinedSuper name super, nofun⟩
  | some parent =>
    have hup : d.Extends i parent := ⟨super, hsuper, hparent⟩
    have hfind := hd.find?_qualifiedName hparent
    dsimp only
    split
    · rename_i hon
      obtain ⟨j, hj, hji⟩ := hpath _ (List.contains_iff_mem.1 hon)
      obtain rfl : j = parent := Option.some.inj (hj.symm.trans hfind)
      refine ⟨hs.circular hname hfind hup hji, fun k _ => .inl ?_⟩
      simp [CycleSearch.mark]
    · rename_i hoff
      obtain ⟨hdetects, hfinished⟩ := hbelow parent hup (by simpa using hoff)
      refine ⟨hdetects.inherit hname hfind hup, fun k hk => ?_⟩
      obtain rfl := Option.some.inj hk
      -- What is cyclic passes that on to the interface below.
      rcases hdetects.finished _ hfinished with hcyclic | hacc
      · left
        simp [CycleSearch.inherit, CycleSearch.mark, hcyclic]
      · exact .inr (hacc _ hfind)

/-- Searching from an interface goes on detecting cycles. -/
private theorem detects_searchCycles (hd : d.InterfacesByName) (hsteps : Suffices d.interfaces.keys steps path)
    (hpath : ∀ i, d.interfaces.find? name = some i → d.Leads path i) (hs : s.Detects d) :
    (d.searchCycles steps path s name).Detects d := by
  induction steps generalizing path s name with
  | zero => exact absurd hsteps not_suffices_zero
  | succ steps ih =>
    rcases d.searchCycles_cases steps path s name with hsame | ⟨hnew, i, hname, hsearch⟩
    · rwa [hsame]
    · have hnext : Suffices d.interfaces.keys steps (name :: path) :=
        hsteps.cons (List.mem_map_of_mem (d.interfaces.find?_eq_some_iff.1 hname)) hnew
      have hleads : d.Leads (name :: path) i := (hpath i hname).cons hname
      have hbelow : ∀ t : CycleSearch, t.Detects d → ∀ j, d.Extends i j → j.qualifiedName ∉ name :: path →
          (d.searchCycles steps (name :: path) t j.qualifiedName).Detects d ∧
            j.qualifiedName ∈ (d.searchCycles steps (name :: path) t j.qualifiedName).finished := by
        intro t ht j hij hoff
        have hfind := hd.find?_of_extends hij
        refine ⟨ih hnext (fun k hk => ?_) ht, ?_⟩
        · obtain rfl : j = k := Option.some.inj (hfind.symm.trans hk)
          exact hleads.tail hij
        · obtain ⟨steps, rfl⟩ := hnext.exists_succ
          exact mem_finished_searchCycles (List.mem_map_of_mem (d.interfaces.find?_eq_some_iff.1 hfind)) hoff t
      have hvisit := fun (t : CycleSearch) super (hsuper : super ∈ i.superInterfaces) ht =>
        detects_visitSuper hd hname hsuper hleads (hbelow t ht) ht
      have hcontinues : ∀ t a, CycleSearch.Continues d t (d.visitSuper _ (name :: path) name t a) :=
        .visitSuper (continues_searchCycles hnext) name
      rw [hsearch]
      refine .finish (List.foldlRecOn _ _ hs fun t ht super hsuper => (hvisit t super hsuper ht).1) hname ?_
      exact forall_foldl (fun t => t.Detects d)
        (fun super t => ∀ j, d.interfaceNamed? super = some j → name ∈ t.cyclic ∨ Acc (fun j i => d.Extends i j) j)
        (fun t super hsuper ht => (hvisit t super hsuper ht).1)
        (fun t a _ b _ hb j hj => (hb j hj).imp_left fun h => (hcontinues t a).cyclic h)
        (fun t super hsuper ht => (hvisit t super hsuper ht).2) hs

private theorem detects_cyclicInterfaces (hd : d.InterfacesByName) : d.cyclicInterfaces.Detects d := by
  have hstart : CycleSearch.Detects d {} :=
    ⟨fun _ h => absurd h List.not_mem_nil, fun _ h => absurd h List.not_mem_nil, fun _ h => absurd h List.not_mem_nil⟩
  exact List.foldlRecOn d.interfaces.keys _ hstart fun s hs key _ =>
    detects_searchCycles hd (d.suffices_keys 0) (fun _ _ _ h => absurd h List.not_mem_nil) hs

/-- Known to be cyclic are exactly the interfaces from which a cycle can be reached. -/
theorem mem_cyclicInterfaces_iff (hd : d.InterfacesByName) (hi : d.interfaces.find? name = some i) :
    name ∈ d.cyclicInterfaces.cyclic ↔ ReachesCycle d.Extends i := by
  have hdetects := detects_cyclicInterfaces hd
  refine ⟨fun h => (hdetects.cyclic name h).2 i hi, fun h => ?_⟩
  have hkey : name ∈ d.interfaces.keys := List.mem_map_of_mem (d.interfaces.find?_eq_some_iff.1 hi)
  refine (hdetects.finished name (d.mem_finished_cyclicInterfaces name hkey)).resolve_right fun hacc => ?_
  exact not_reachesCycle_of_acc (hacc i hi) h

/-- There is an issue that says so exactly if there is a cycle. -/
theorem exists_circular_iff (hd : d.InterfacesByName) :
    (∃ e ∈ d.cyclicInterfaces.issues, IsCircular e) ↔ ∃ i, Relation.TransGen d.Extends i i := by
  have hdetects := detects_cyclicInterfaces hd
  refine ⟨fun ⟨e, he, hcircular⟩ => hdetects.issues e he hcircular, fun ⟨i, hi⟩ => ?_⟩
  obtain ⟨_, -, hup⟩ := Relation.TransGen.tail'_iff.1 hi
  have hfind := hd.find?_of_extends hup
  exact (hdetects.cyclic _ ((mem_cyclicInterfaces_iff hd hfind).2 (.of_self hi))).1

end Metamodel.Declarations
