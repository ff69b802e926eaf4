import Metamodel.Issue.Gather

/-!
# Steps without errors

Issues are clean if none of them is an error.  What every step keeps, a sequence of steps keeps
(`gather_invariant`), and what a clean step establishes for its element holds of all elements after clean steps
(`forall_of_clean_gather`).
-/

namespace Metamodel

def Clean (issues : List Issue) : Prop :=
  ∀ i ∈ issues, i.isError = false

theorem not_clean_singleton {i : Issue} (h : i.isError = true) : ¬ Clean [i] := by
  intro clean
  have := clean i (List.mem_singleton_self i)
  rw [h] at this
  cases this

theorem clean_append {a b : List Issue} : Clean (a ++ b) ↔ Clean a ∧ Clean b :=
  List.forall_mem_append

theorem clean_flatMap {α : Type} {as : List α} {f : α → List Issue} :
    Clean (as.flatMap f) ↔ ∀ a ∈ as, Clean (f a) := by
  constructor
  · intro h a ha i hi
    exact h i (List.mem_flatMap.2 ⟨a, ha, hi⟩)
  · intro h i hi
    obtain ⟨a, ha, hi⟩ := List.mem_flatMap.1 hi
    exact h a ha i hi

/-- Errors alone are clean only if there are none. -/
theorem eq_nil_of_clean {issues : List Issue} (herrors : ∀ i ∈ issues, i.isError = true) (h : Clean issues) :
    issues = [] := by
  refine List.eq_nil_iff_forall_not_mem.2 fun i hi => ?_
  have := h i hi
  rw [herrors i hi] at this
  cases this

theorem eq_nil_of_clean_map {α : Type} {as : List α} {f : α → Issue} (hf : ∀ a, (f a).isError = true)
    (h : Clean (as.map f)) : as = [] := by
  refine List.map_eq_nil_iff.1 (eq_nil_of_clean (fun i hi => ?_) h)
  obtain ⟨a, -, rfl⟩ := List.mem_map.1 hi
  exact hf a

variable {σ α : Type} {step : σ → α → Found σ}

theorem gather_cons (step : σ → α → Found σ) (s : σ) (a : α) (as : List α) :
    gather step s (a :: as) =
      ((gather step (step s a).1 as).1, (step s a).2 ++ (gather step (step s a).1 as).2) := rfl

/-- Every issue of a sequence of steps comes from some step. -/
theorem forall_issue_gather {p : Issue → Prop} {as : List α} (hstep : ∀ s, ∀ a ∈ as, ∀ i ∈ (step s a).2, p i) (s : σ) :
    ∀ i ∈ (gather step s as).2, p i := by
  induction as generalizing s with
  | nil => exact fun _ h => absurd h List.not_mem_nil
  | cons a as ih =>
    intro i hi
    rw [gather_cons] at hi
    rcases List.mem_append.1 hi with hi | hi
    · exact hstep s a List.mem_cons_self i hi
    · exact ih (fun s b hb => hstep s b (List.mem_cons_of_mem _ hb)) _ i hi

theorem gather_invariant (p : σ → Prop) {as : List α} (hstep : ∀ s, ∀ a ∈ as, p s → p (step s a).1) {s : σ} (hs : p s) :
    p (gather step s as).1 := by
  induction as generalizing s with
  | nil => exact hs
  | cons a as ih =>
    rw [gather_cons]
    exact ih (fun s b hb => hstep s b (List.mem_cons_of_mem _ hb)) (hstep s a List.mem_cons_self hs)

/-- Steps that do the same wherever an invariant holds do the same one after the other. -/
theorem gather_congr {other : σ → α → Found σ} (p : σ → Prop) {as : List α}
    (hsame : ∀ s, ∀ a ∈ as, p s → step s a = other s a) (hstep : ∀ s, ∀ a ∈ as, p s → p (other s a).1) {s : σ}
    (hs : p s) : gather step s as = gather other s as := by
  induction as generalizing s with
  | nil => rfl
  | cons a as ih =>
    have hfirst := hsame s a List.mem_cons_self hs
    have hrest := ih (fun s b hb => hsame s b (List.mem_cons_of_mem _ hb))
      (fun s b hb => hstep s b (List.mem_cons_of_mem _ hb)) (hstep s a List.mem_cons_self hs)
    rw [gather_cons, gather_cons, hfirst, hrest]

/-- An invariant of the state together with the issues found so far. -/
theorem gather_invariant_found (p : σ → List Issue → Prop) {as : List α}
    (hstep : ∀ s issues, ∀ a ∈ as, p s issues → p (step s a).1 (issues ++ (step s a).2)) {s : σ} {issues : List Issue}
    (hs : p s issues) : p (gather step s as).1 (issues ++ (gather step s as).2) := by
  induction as generalizing s issues with
  | nil =>
    rw [show gather step s [] = (s, []) from rfl, List.append_nil]
    exact hs
  | cons a as ih =>
    rw [gather_cons, ← List.append_assoc]
    exact ih (fun s issues b hb => hstep s issues b (List.mem_cons_of_mem _ hb))
      (hstep s issues a List.mem_cons_self hs)

/-- What every step does for its element, under an invariant of the state and the issues so far, stays done. -/
theorem forall_gather_found (p : σ → List Issue → Prop) (q : α → σ → Prop) {as : List α}
    (hstep : ∀ s issues, ∀ a ∈ as, p s issues → p (step s a).1 (issues ++ (step s a).2))
    (keep : ∀ s issues, ∀ a ∈ as, ∀ b, p s issues → q b s → q b (step s a).1)
    (done : ∀ s issues, ∀ a ∈ as, p s issues → q a (step s a).1) {s : σ} (issues : List Issue) (hs : p s issues) :
    ∀ a ∈ as, q a (gather step s as).1 := by
  intro a ha
  obtain ⟨before, after, rfl⟩ := List.append_of_mem ha
  rw [gather_append, Found.andThen_eq, gather_cons]
  have hbefore := gather_invariant_found p (fun s issues b hb => hstep s issues b (List.mem_append_left _ hb)) hs
  have hafter : ∀ b ∈ after, b ∈ before ++ a :: after := fun b hb =>
    List.mem_append_right _ (List.mem_cons_of_mem _ hb)
  exact (gather_invariant_found (fun s issues => p s issues ∧ q a s)
    (fun s issues b hb h => ⟨hstep s issues b (hafter b hb) h.1, keep s issues b (hafter b hb) a h.1 h.2⟩)
    ⟨hstep _ _ a ha hbefore, done _ _ a ha hbefore⟩).2

/-- What every step does for its element, under an invariant, stays done. -/
theorem forall_gather (p : σ → Prop) (q : α → σ → Prop) {as : List α}
    (hstep : ∀ s, ∀ a ∈ as, p s → p (step s a).1) (keep : ∀ s, ∀ a ∈ as, ∀ b, p s → q b s → q b (step s a).1)
    (done : ∀ s, ∀ a ∈ as, p s → q a (step s a).1) {s : σ} (hs : p s) : ∀ a ∈ as, q a (gather step s as).1 :=
  forall_gather_found (fun s _ => p s) q (fun s _ => hstep s) (fun s _ => keep s) (fun s _ => done s) [] hs

/-- What a clean step does for its element, under an invariant, stays done. -/
theorem forall_of_clean_gather (p : σ → Prop) (q : α → σ → Prop) {as : List α}
    (hstep : ∀ s, ∀ a ∈ as, p s → p (step s a).1) (keep : ∀ s, ∀ a ∈ as, ∀ b, p s → q b s → q b (step s a).1)
    (done : ∀ s, ∀ a ∈ as, p s → Clean (step s a).2 → q a (step s a).1) {s : σ} (hs : p s)
    (clean : Clean (gather step s as).2) : ∀ a ∈ as, q a (gather step s as).1 := by
  induction as generalizing s with
  | nil => exact fun _ h => absurd h List.not_mem_nil
  | cons a as ih =>
    rw [gather_cons] at clean ⊢
    obtain ⟨hhere, hlater⟩ := clean_append.1 clean
    have hs' := hstep s a List.mem_cons_self hs
    have hstep' : ∀ s, ∀ b ∈ as, p s → p (step s b).1 := fun s b hb => hstep s b (List.mem_cons_of_mem _ hb)
    have keep' : ∀ s, ∀ b ∈ as, ∀ c, p s → q c s → q c (step s b).1 :=
      fun s b hb => keep s b (List.mem_cons_of_mem _ hb)
    intro b hb
    rcases List.mem_cons.1 hb with rfl | hb
    · have hq := done s b List.mem_cons_self hs hhere
      have hkept : p (gather step (step s b).1 as).1 ∧ q b (gather step (step s b).1 as).1 :=
        gather_invariant (fun s => p s ∧ q b s)
          (fun s c hc h => ⟨hstep' s c hc h.1, keep' s c hc b h.1 h.2⟩) ⟨hs', hq⟩
      exact hkept.2
    · exact ih hstep' keep' (fun s c hc => done s c (List.mem_cons_of_mem _ hc)) hs' hlater b hb

end Metamodel
