import Metamodel.Proofs.Hierarchy.Heritage
import Metamodel.Proofs.Ownership.Arbitration
import Metamodel.Proofs.Resolution.Binding

/-!
# Resolution without errors

A run that returns a graph has found no error in any step.  `Completes g₀ g` says what this means for `g`, seen
from the graph `g₀` as it goes into inheritance, and `exists_completes_of_resolve` that a graph is returned only
so.
-/

namespace Metamodel

/-- An outcome that is none of the errors is what it holds, with whatever default. -/
theorem eq_ok_of_isOk {ε α : Type} {outcome : Except ε α} (h : outcome.isOk = true) (a : α) :
    outcome = .ok (outcome.toOption.getD a) := by
  cases outcome with
  | ok b => rfl
  | error e => cases h

/-! ### Sessions -/

theorem clean_of_not_hasErrors {r : Report} (h : r.hasErrors = false) : Clean r.issues := by
  intro i hi
  by_contra herror
  have hmem : i ∈ r.errors := List.mem_filter.2 ⟨hi, by simpa using herror⟩
  rw [Report.hasErrors, List.isEmpty_eq_false_iff.2 (List.ne_nil_of_mem hmem)] at h
  cases h

/-- An issue is no graver than what becomes of it in a run. -/
private theorem isError_of_escalated {i : Issue} {b : Bool} (h : (i.escalated b).isError = false) :
    i.isError = false := by
  unfold Issue.escalated at h
  split at h
  · cases h
  · exact h

namespace Session

private theorem clean_of_clean_record {s : Session} {found : List Issue} (h : Clean (s.record found).report.issues) :
    Clean s.report.issues ∧ Clean found := by
  obtain ⟨hold, hnew⟩ := clean_append.1 h
  exact ⟨hold, fun i hi => isError_of_escalated (hnew _ (List.mem_map_of_mem hi))⟩

theorem clean_of_clean_runStage {s : Session} {stage : Graph → Found Graph}
    (h : Clean (s.runStage stage).2.report.issues) : Clean s.report.issues ∧ Clean (stage s.graph).2 :=
  clean_of_clean_record h

theorem graph_resolveObjects (s : Session) :
    s.resolveObjects.2.graph = (Graph.resolveObjects s.declarations s.declared s.graph).1 := by
  simp only [resolveObjects]
  split <;> rfl

theorem declared_resolveObjects (s : Session) : s.resolveObjects.2.declared = s.declared := by
  simp only [resolveObjects]
  split <;> rfl

theorem report_resolveObjects (s : Session) :
    s.resolveObjects.2.report = (s.runStage (Graph.resolveObjects s.declarations s.declared)).2.report := by
  simp only [resolveObjects]
  split <;> rfl

/-- A graph is returned as the last stage leaves it, if no stage found an error and there was none before. -/
private theorem stages_of_resolve {s : Session} {g : Graph} (h : s.resolve.1 = .ok g) :
    let interfaces := s.graph.registerInterfaces s.declarations
    let embedded := interfaces.1.resolveEmbeddedValues
    let objects := Graph.resolveObjects s.declarations s.declared embedded.1
    Clean s.report.issues ∧ Clean interfaces.2 ∧ Clean objects.2 ∧ objects.1 = g := by
  simp only [resolve] at h
  split at h
  · rename_i hok
    have hnone : (s.resolveInterfaces.2.resolveEmbeddedValues.2.resolveObjects.2).report.hasErrors = false := by
      simpa using (Bool.and_eq_true_iff.1 hok).2
    have hclean := clean_of_not_hasErrors hnone
    rw [report_resolveObjects] at hclean
    obtain ⟨hbefore, hobjects⟩ := clean_of_clean_runStage hclean
    obtain ⟨hstart, hinterfaces⟩ := clean_of_clean_runStage (clean_of_clean_runStage hbefore).1
    refine ⟨hstart, hinterfaces, hobjects, ?_⟩
    rw [← Except.ok.inj h, graph_resolveObjects]
    rfl
  · cases h

end Session

namespace Graph

/-! ### Objects -/

private theorem isError_inheritFrom {g : Graph} {superName : String} {p id : EntityId} :
    ∀ i ∈ (g.inheritFrom superName p id).2, i.isError = true := by
  intro i hi
  unfold inheritFrom at hi
  split at hi
  · split at hi
    · cases hi
    · rw [List.mem_singleton.1 hi]
      rfl
  · obtain ⟨c, -, rfl⟩ := List.mem_map.1 hi
    rfl

/-- Inheritance finds errors only. -/
private theorem isError_settle {steps : Nat} {path : List EntityId} {g : Graph} {id : EntityId} :
    ∀ i ∈ (settle steps path g id).2, i.isError = true := by
  induction steps generalizing path g id with
  | zero => exact fun i hi => absurd hi List.not_mem_nil
  | succ steps ih =>
    intro i hi
    rw [settle] at hi
    split at hi
    · cases hi
    · cases hi
    · rw [List.mem_singleton.1 hi]
      rfl
    · split at hi
      · cases hi
      · split at hi
        · rw [List.mem_singleton.1 hi]
          rfl
        · rw [Found.andThen_eq] at hi
          rcases List.mem_append.1 hi with hi | hi
          · exact ih i hi
          · exact isError_inheritFrom i hi

private theorem eq_nil_of_clean_resolveInheritance {g : Graph} (clean : Clean g.resolveInheritance.2) :
    g.resolveInheritance.2 = [] :=
  eq_nil_of_clean (forall_issue_gather (fun _ _ _ => isError_settle) g) clean

/-- The graph as it goes into inheritance: names are bound, and embedded values are expanded. -/
def prepared (d : Declarations) (declared : List (EntityId × String)) (g : Graph) : Graph :=
  let bound := (gather bindRelationships g declared).1
  (gather (expandDeclared d) ((declared.map (·.1)).foldl bindEnumerations bound) declared).1

/-- The graph after inheritance. -/
def settled (g : Graph) : Graph :=
  g.resolveInheritance.1

/-- The graph after inheritance, with its relationships read. -/
def joined (g : Graph) : Graph :=
  g.settled.resolveRelationships.1

/-- `g` is what `g₀`, the graph as it goes into inheritance, becomes without an error. -/
structure Completes (g₀ g : Graph) : Prop where
  pristine : g₀.Pristine
  related : ∀ o ∈ g₀.idsOfKind .object, ∀ r ∈ (g₀.entity o).relationships, ((g₀.relationshipAt r).related).isSome
  inherited : g₀.resolveInheritance.2 = []
  attributes : ∀ o ∈ g₀.idsOfKind .object, ∃ key, Clean (g₀.settled.attributeIssues o key)
  relationships : Clean g₀.settled.resolveRelationships.2
  disowned : g.disowned = g₀.joined.disowned
  members : ∀ o ∈ g₀.idsOfKind .object, ∃ key, Clean (g.memberIssues o key)

variable {g : Graph}

theorem graph_of_resolveObjects (d : Declarations) (declared : List (EntityId × String)) (g : Graph) :
    (resolveObjects d declared g).1 = (declared.map (·.1)).foldl claimOwnership (g.prepared d declared).joined := by
  simp only [resolveObjects, Found.andThen_eq, joined, settled, prepared]

/-- Relationships are bound first, and the steps between that and inheritance leave them alone. -/
theorem prepared_spec (hg : g.Pristine) (d : Declarations) (declared : List (EntityId × String)) :
    Relates g (gather bindRelationships g declared).1 ∧
      Extends (gather bindRelationships g declared).1 (g.prepared d declared) := by
  have hbound := relates_gather relates_bindRelationships hg declared
  have hlinked := extends_foldl extends_bindEnumerations hbound.pristine (declared.map (·.1))
  exact ⟨hbound, hlinked.trans (extends_gather (extends_expandDeclared d) hlinked.pristine declared)⟩

/-- What the last stage does without an error. -/
theorem completes_of_clean {d : Declarations} {declared : List (EntityId × String)} (hg : g.Pristine)
    (hdeclared : declared.map (·.1) = g.idsOfKind .object) (clean : Clean (resolveObjects d declared g).2) :
    Completes (g.prepared d declared) (resolveObjects d declared g).1 := by
  obtain ⟨hbound, hprepared⟩ := prepared_spec hg d declared
  have hobjects : ∀ o ∈ (g.prepared d declared).idsOfKind .object, ∃ object ∈ declared, object.1 = o := by
    intro o ho
    rw [idsOfKind_of_outline_eq (hbound.toFollows.trans hprepared.toFollows).outline, ← hdeclared] at ho
    exact List.mem_map.1 ho
  simp only [resolveObjects, Found.andThen_eq, clean_append] at clean ⊢
  obtain ⟨⟨⟨⟨⟨⟨-, hbind⟩, -⟩, hinherit⟩, hattributes⟩, hjoin⟩, -, hmembers⟩ := clean
  refine ⟨hprepared.pristine, fun o ho r hr => ?_, eq_nil_of_clean_resolveInheritance hinherit,
    fun o ho => ?_, hjoin, disowned_foldl_claimOwnership .., fun o ho => ?_⟩
  · obtain ⟨object, hobject, rfl⟩ := hobjects o ho
    rw [hprepared.lists, hbound.relationships_eq] at hr
    rw [relationshipAt, hprepared.relationships]
    exact related_of_clean_bindRelationships hg hbind object hobject r hr
  · obtain ⟨object, hobject, rfl⟩ := hobjects o ho
    exact ⟨object.2, clean_flatMap.1 hattributes object hobject⟩
  · obtain ⟨object, hobject, rfl⟩ := hobjects o ho
    exact ⟨object.2, clean_flatMap.1 hmembers object hobject⟩

theorem conforming_of_clean {d : Declarations} {declared : List (EntityId × String)}
    (clean : Clean (resolveObjects d declared g).2) :
    ∀ o ∈ declared.map (·.1), Clean (conformanceGaps d (resolveObjects d declared g).1 o) := by
  intro o ho
  simp only [resolveObjects, Found.andThen_eq, clean_append] at clean ⊢
  exact clean_flatMap.1 clean.2.1 o ho

/-- The graph as it goes into the last stage. -/
def staged (config : Config) (d : Declarations) : Graph :=
  ((ofDeclarations config d).1.1.registerInterfaces d).1.resolveEmbeddedValues.1

theorem follows_staged (config : Config) (d : Declarations) :
    Follows (ofDeclarations config d).1.1 (staged config d) := by
  have hinterfaces := follows_registerInterfaces (wraps_ofDeclarations config d).pristine d
  exact hinterfaces.trans (follows_resolveEmbeddedValues hinterfaces.pristine)

theorem staged_spec (config : Config) (d : Declarations) :
    (staged config d).Pristine ∧ (ofDeclarations config d).1.2.map (·.1) = (staged config d).idsOfKind .object := by
  have hstaged := follows_staged config d
  refine ⟨hstaged.pristine, (wraps_ofDeclarations config d).objects.trans ?_⟩
  exact (idsOfKind_of_outline_eq hstaged.outline .object).symm

theorem clean_of_resolve {d : Declarations} {config : Config} (h : (d.resolve config).1 = .ok g) :
    Clean ((ofDeclarations config d).1.1.registerInterfaces d).2 ∧
      Clean (resolveObjects d (ofDeclarations config d).1.2 (staged config d)).2 ∧
      (resolveObjects d (ofDeclarations config d).1.2 (staged config d)).1 = g := by
  have hstages := @Session.stages_of_resolve (Session.start d config) g h
  exact hstages.2

/-- Nor is a graph returned if the declarations have an error. -/
theorem clean_ofDeclarations_of_resolve {d : Declarations} {config : Config} (h : (d.resolve config).1 = .ok g) :
    Clean (ofDeclarations config d).2 := by
  obtain ⟨hstart, -⟩ := @Session.stages_of_resolve (Session.start d config) g h
  exact (Session.clean_of_clean_record hstart).2

/-- A graph is returned only by a run without errors. -/
theorem exists_completes_of_resolve {d : Declarations} {config : Config} (h : (d.resolve config).1 = .ok g) :
    ∃ g₀, Completes g₀ g := by
  obtain ⟨-, hclean, rfl⟩ := clean_of_resolve h
  obtain ⟨hpristine, hdeclared⟩ := staged_spec config d
  exact ⟨_, completes_of_clean hpristine hdeclared hclean⟩

end Graph

end Metamodel
