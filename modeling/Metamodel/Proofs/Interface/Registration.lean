import Metamodel.Proofs.Interface.Flattening
import Metamodel.Proofs.Interface.Levels

/-!
# Registered interfaces

An interface from which a cycle can be reached is not registered.  Any other that is registered lists the interfaces
above it, each once and the nearest first, and is an instance of itself and of those (`Lists`).
-/

namespace Metamodel

variable {d : Declarations} {i : InterfaceDeclaration} {g h : Graph} {e : String × InterfaceDeclaration}
  {cyclic : List String}

namespace Interface

/-- The interface knows what is above its declaration. -/
structure Lists (d : Declarations) (i : InterfaceDeclaration) (flat : Interface) : Prop where
  name : flat.name = i.name
  nearestFirst : ∃ above : List InterfaceDeclaration, flat.superInterfaces = above.map (·.qualifiedName) ∧
    (∀ j, j ∈ above ↔ Relation.TransGen d.Extends i j) ∧
      above.Pairwise fun j k => d.leastSteps i j ≤ d.leastSteps i k
  once : flat.superInterfaces.Nodup
  notItself : flat.qualifiedName ∉ flat.superInterfaces
  isA : ∀ name, flat.isA name = true ↔
    name = i.qualifiedName ∨ ∃ j, Relation.TransGen d.Extends i j ∧ name = j.qualifiedName

theorem Represents.lists {flat : Interface} (hflat : flat.Represents d i) (hd : d.InterfacesByName)
    (hi : d.StandsByName i) (hacyclic : ¬ ReachesCycle d.Extends i) : flat.Lists d i := by
  have hname : flat.qualifiedName = i.qualifiedName := congrArg TypeName.qualified hflat.name
  have hmem : ∀ name, name ∈ flat.superInterfaces ↔ ∃ j, Relation.TransGen d.Extends i j ∧ name = j.qualifiedName := by
    intro name
    simp only [hflat.superInterfaces, List.mem_map, Declarations.mem_superInterfacesOf_iff hd, eq_comm]
  refine ⟨hflat.name, ⟨d.superInterfacesOf i, hflat.superInterfaces, fun j => ?_, ?_⟩, ?_, fun hself => ?_,
    fun name => ?_⟩
  · exact Declarations.mem_superInterfacesOf_iff hd
  · exact Declarations.pairwise_superInterfacesOf hd i
  · rw [hflat.superInterfaces]
    exact d.nodup_superInterfacesOf i
  · -- What is above and has the name of the interface is the interface.
    obtain ⟨j, hij, hsame⟩ := (hmem _).1 hself
    obtain ⟨_, -, hup⟩ := Relation.TransGen.tail'_iff.1 hij
    have hj := hd.find?_of_extends hup
    rw [← hsame, hname, show d.interfaces.find? i.qualifiedName = some i from hi] at hj
    obtain rfl := Option.some.inj hj
    exact hacyclic (.of_self hij)
  · rw [isA, Bool.or_eq_true, beq_iff_eq, List.contains_iff_mem, hmem, hname, eq_comm]

end Interface

namespace Graph

/-- A cyclic interface is passed over. -/
private theorem registerInterface_of_cyclic (he : e.1 ∈ cyclic) (h : Graph) : registerInterface d cyclic h e =
    (h, []) := by
  unfold registerInterface
  dsimp only
  rw [if_pos (by simp [he])]

/-- No name leads to an interface that was not there before, unless that represents the declaration under the name, and
the name is not one of a cyclic interface. -/
def OnlyAcyclic (d : Declarations) (cyclic : List String) (g h : Graph) : Prop :=
  ∀ name, h.interfaces.find? name = g.interfaces.find? name ∨
    name ∉ cyclic ∧ ∃ i flat, d.interfaces.find? name = some i ∧ h.interfaces.find? name = some flat ∧
      flat.Represents d i

private theorem onlyAcyclic_registerInterface (hd : d.InterfacesByName) (he : e ∈ d.interfaces.entries)
    (hh : OnlyAcyclic d cyclic g h) : OnlyAcyclic d cyclic g (registerInterface d cyclic h e).1 := by
  by_cases hcyclic : e.1 ∈ cyclic
  · rwa [registerInterface_of_cyclic hcyclic]
  · rcases registerInterface_cases d cyclic h e with ⟨hnone, hadded⟩ | ⟨hsame, -⟩
    · intro name
      rw [hadded, addInterface, NameMap.find?_insert, qualifiedName_flatten hd he hnone]
      by_cases hname : name = e.1
      · subst hname
        rw [if_pos rfl]
        exact .inr ⟨hcyclic, e.2, _, d.interfaces.find?_eq_some_iff.2 he, rfl,
          Interface.represents_flatten (clean_flatten_of_eq_nil hnone)⟩
      · rw [if_neg hname]
        exact hh name
    · rwa [hsame]

/-- The issues of the registration itself do not speak of cycles. -/
private theorem not_isCircular_registerInterface (d : Declarations) (cyclic : List String) (h : Graph)
    (e : String × InterfaceDeclaration) : ∀ x ∈ (registerInterface d cyclic h e).2, ¬ Declarations.IsCircular x := by
  intro x hx
  unfold registerInterface at hx
  dsimp only at hx
  split at hx
  · cases hx
  · split at hx
    · cases hx
    · rename_i hflat
      exact (Interface.isFlaw_flatten x (by rw [hflat]; exact hx)).2

/-- Where every interface stands under its qualified name, there is an error about a cycle exactly if there is one, no
interface that reaches one is registered, and every other that is registered, and was not there before, knows exactly
what is above it. -/
theorem lineage_of_registerInterfaces (hd : d.InterfacesByName) (g : Graph) :
    let h := (g.registerInterfaces d).1
    let issues := (g.registerInterfaces d).2
    ((∃ x ∈ issues, x.isError = true ∧ Declarations.IsCircular x) ↔ ∃ i, Relation.TransGen d.Extends i i) ∧
    (∀ i ∈ d.interfaces.values, ReachesCycle d.Extends i →
      h.interfaces.find? i.qualifiedName = g.interfaces.find? i.qualifiedName) ∧
    ∀ name flat, h.interfaces.find? name = some flat → g.interfaces.find? name = some flat ∨
      ∃ i, d.interfaces.find? name = some i ∧ flat.Lists d i := by
  have hregistered : OnlyAcyclic d d.cyclicInterfaces.cyclic g (g.registerInterfaces d).1 :=
    gather_invariant (OnlyAcyclic d d.cyclicInterfaces.cyclic g)
      (fun h e he hh => onlyAcyclic_registerInterface hd he hh) fun _ => .inl rfl
  refine ⟨⟨fun ⟨x, hx, _, hcircular⟩ => ?_, fun hcycle => ?_⟩, fun i hi hreaches => ?_, fun name flat hflat => ?_⟩
  · refine (Declarations.exists_circular_iff hd).1 ⟨x, (List.mem_append.1 hx).resolve_right fun hlater => ?_, hcircular⟩
    exact forall_issue_gather (fun h e _ => not_isCircular_registerInterface d _ h e) g x hlater hcircular
  · obtain ⟨x, hx, hcircular⟩ := (Declarations.exists_circular_iff hd).2 hcycle
    exact ⟨x, List.mem_append_left _ hx, d.isError_cyclicInterfaces x hx, hcircular⟩
  · refine (hregistered i.qualifiedName).resolve_right fun hnew => ?_
    exact hnew.1 ((Declarations.mem_cyclicInterfaces_iff hd (hd.find?_of_mem hi)).2 hreaches)
  · rcases hregistered name with hsame | ⟨hoff, i, flat', hi, hflat', hrepresents⟩
    · exact .inl (hsame ▸ hflat)
    · obtain rfl : flat' = flat := Option.some.inj (hflat'.symm.trans hflat)
      have hmem : i ∈ d.interfaces.values := List.mem_map_of_mem (d.interfaces.find?_eq_some_iff.1 hi)
      refine .inr ⟨i, hi, hrepresents.lists hd (hd.find?_of_mem hmem) fun hreaches => ?_⟩
      exact hoff ((Declarations.mem_cyclicInterfaces_iff hd hi).2 hreaches)

/-- Squares above each other in a diamond, rings and rungs above each other, and spirals below them. -/
def shapes : Declarations where
  interfaces := ⟨[
    ("geo.Figure", { name := ⟨"geo", "Figure"⟩ }),
    ("geo.Rectangle", { name := ⟨"geo", "Rectangle"⟩, superInterfaces := ["geo.Figure"] }),
    ("geo.Rhombus", { name := ⟨"geo", "Rhombus"⟩, superInterfaces := ["Figure"] }),
    ("geo.Ring", { name := ⟨"geo", "Ring"⟩, superInterfaces := ["Figure", "Rung"] }),
    ("geo.Rung", { name := ⟨"geo", "Rung"⟩, superInterfaces := ["Ring"] }),
    ("geo.Spiral", { name := ⟨"geo", "Spiral"⟩, superInterfaces := ["Rung"] }),
    ("geo.Square", { name := ⟨"geo", "Square"⟩, superInterfaces := ["Rhombus", "geo.Rectangle"] }),
    ("geo.Tile", { name := ⟨"geo", "Tile"⟩, superInterfaces := ["Square", "Figure"] })], by decide⟩

/-- Rings, rungs and spirals are not registered, and tiles are figures before they are anything but squares. -/
theorem lineage_of_shapes :
    shapes.InterfacesByName ∧ (∃ i, Relation.TransGen shapes.Extends i i) ∧
      (empty.registerInterfaces shapes).1.interfaces.keys =
        ["geo.Figure", "geo.Rectangle", "geo.Rhombus", "geo.Square", "geo.Tile"] ∧
      ∃ i flat, shapes.interfaces.find? "geo.Tile" = some i ∧ flat.Lists shapes i ∧
        (empty.registerInterfaces shapes).1.interfaces.find? "geo.Tile" = some flat ∧
        flat.superInterfaces = ["geo.Square", "geo.Figure", "geo.Rhombus", "geo.Rectangle"] := by
  have hnames : shapes.InterfacesByName := by
    unfold Declarations.InterfacesByName
    decide
  obtain ⟨hcycle, -, hlists⟩ := lineage_of_registerInterfaces hnames empty
  have hreported : ∃ x ∈ (empty.registerInterfaces shapes).2, x.isError = true ∧
      x.message.startsWith "Circular dependency" = true := by decide +kernel
  have htile : ((empty.registerInterfaces shapes).1.interfaces.find? "geo.Tile").map (·.superInterfaces) =
      some ["geo.Square", "geo.Figure", "geo.Rhombus", "geo.Rectangle"] := by decide +kernel
  obtain ⟨flat, hflat, hsupers⟩ := Option.map_eq_some_iff.1 htile
  obtain ⟨i, hi, hknows⟩ := (hlists "geo.Tile" flat hflat).resolve_left nofun
  exact ⟨hnames, hcycle.1 hreported, by decide +kernel, i, flat, hi, hknows, hflat, hsupers⟩

end Graph

end Metamodel
