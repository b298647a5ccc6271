import Mathlib.Order.Defs.Unbundled

/-!
# Runs of a deterministic system

A system is a step function from a state and an input to the next state. A run feeds a list of
inputs; every state reached by a run is the end of a run, since a prefix of a run is a run. `Meets`
says that a condition on the state before a step and its input holds at every step of a run. The
rules package the inductions: `invariant_run` for a property of states kept by the steps that meet
a condition, `related_run` for a relation between the first and the last state of a run, and
`history_run` for a property of a state together with the outputs produced on the way.
-/

set_option autoImplicit false
set_option relaxedAutoImplicit false

namespace FilmOS.System

variable {σ ι ο : Type*}

/-- The state after feeding the inputs in order. -/
def run (step : σ → ι → σ) (s : σ) (inputs : List ι) : σ := inputs.foldl step s

@[simp] theorem run_nil (step : σ → ι → σ) (s : σ) : run step s [] = s := rfl

@[simp] theorem run_cons (step : σ → ι → σ) (s : σ) (i : ι) (inputs : List ι) :
    run step s (i :: inputs) = run step (step s i) inputs := rfl

theorem run_append (step : σ → ι → σ) (s : σ) (first second : List ι) :
    run step s (first ++ second) = run step (run step s first) second :=
  List.foldl_append

/-- Every step of the run meets the condition on the state before it and its input. -/
def Meets (step : σ → ι → σ) (condition : σ → ι → Prop) : σ → List ι → Prop
  | _, [] => True
  | s, i :: inputs => condition s i ∧ Meets step condition (step s i) inputs

theorem meets_append {step : σ → ι → σ} {condition : σ → ι → Prop} {s : σ} {first second : List ι} :
    Meets step condition s (first ++ second) ↔
      Meets step condition s first ∧ Meets step condition (run step s first) second := by
  induction first generalizing s with
  | nil => exact (and_iff_right trivial).symm
  | cons i first ih =>
    show condition s i ∧ Meets step condition (step s i) (first ++ second) ↔
      (condition s i ∧ Meets step condition (step s i) first) ∧ _
    rw [ih, and_assoc]
    exact Iff.rfl

/-- A property kept by every step that meets the condition holds after every run whose steps all
meet it. -/
theorem invariant_run {step : σ → ι → σ} {condition : σ → ι → Prop} {invariant : σ → Prop}
    (hstep : ∀ s i, invariant s → condition s i → invariant (step s i)) :
    ∀ (inputs : List ι) (s : σ), invariant s → Meets step condition s inputs →
      invariant (run step s inputs) := by
  intro inputs
  induction inputs with
  | nil => intro s hs _; exact hs
  | cons i inputs ih =>
    intro s hs hmeets
    exact ih (step s i) (hstep s i hs hmeets.1) hmeets.2

/-- A property that a step keeps exactly when it meets the condition holds in every state that a run
reaches exactly when all steps of the run meet it. -/
theorem prefix_invariant_iff {step : σ → ι → σ} {condition : σ → ι → Prop} {invariant : σ → Prop}
    (hstep : ∀ s i, invariant s → (invariant (step s i) ↔ condition s i)) (inputs : List ι) {s : σ}
    (hs : invariant s) :
    (∀ reached, reached <+: inputs → invariant (run step s reached)) ↔
      Meets step condition s inputs := by
  constructor
  · intro h
    induction inputs generalizing s with
    | nil => trivial
    | cons i inputs ih =>
      have hnext : invariant (step s i) := h [i] (List.prefix_append [i] inputs)
      refine ⟨(hstep s i hs).mp hnext, ih hnext fun reached hreached ↦ ?_⟩
      exact h (i :: reached) ((List.prefix_cons_inj i).mpr hreached)
  · intro h
    induction inputs generalizing s with
    | nil =>
      intro reached hreached
      rw [List.prefix_nil.mp hreached]
      exact hs
    | cons i inputs ih =>
      intro reached hreached
      rcases List.prefix_cons_iff.mp hreached with rfl | ⟨rest, rfl, hrest⟩
      · exact hs
      · exact ih ((hstep s i hs).mpr h.1) h.2 rest hrest

/-- A property kept by every step holds after every run. -/
theorem invariant_run_all {step : σ → ι → σ} {invariant : σ → Prop}
    (hstep : ∀ s i, invariant s → invariant (step s i)) (inputs : List ι) (s : σ)
    (hs : invariant s) : invariant (run step s inputs) := by
  induction inputs generalizing s with
  | nil => exact hs
  | cons i inputs ih => exact ih (step s i) (hstep s i hs)

/-- A preorder that contains every step from an invariant state relates the first state of every
run from an invariant state to its last. -/
theorem related_run {step : σ → ι → σ} {invariant : σ → Prop} {related : σ → σ → Prop}
    (hrefl : ∀ s, related s s) (htrans : ∀ s t u, related s t → related t u → related s u)
    (hinvariant : ∀ s i, invariant s → invariant (step s i))
    (hstep : ∀ s i, invariant s → related s (step s i)) (inputs : List ι) (s : σ)
    (hs : invariant s) : related s (run step s inputs) := by
  induction inputs generalizing s with
  | nil => exact hrefl s
  | cons i inputs ih =>
    exact htrans _ _ _ (hstep s i hs) (ih (step s i) (hinvariant s i hs))

/-- The outputs of a run, oldest first, when every step also produces a list of outputs. -/
def outputs (step : σ → ι → σ) (output : σ → ι → List ο) : σ → List ι → List ο
  | _, [] => []
  | s, i :: inputs => output s i ++ outputs step output (step s i) inputs

/-- A property of a state and the outputs so far, kept when a step appends its outputs, holds of the
last state of every run and all its outputs. -/
theorem history_run {step : σ → ι → σ} {output : σ → ι → List ο} {invariant : σ → List ο → Prop}
    (hstep : ∀ s i past, invariant s past → invariant (step s i) (past ++ output s i))
    (inputs : List ι) (s : σ) (past : List ο) (hs : invariant s past) :
    invariant (run step s inputs) (past ++ outputs step output s inputs) := by
  induction inputs generalizing s past with
  | nil => simpa [outputs] using hs
  | cons i inputs ih =>
    have h := ih (step s i) (past ++ output s i) (hstep s i past hs)
    simpa [outputs, List.append_assoc] using h

end FilmOS.System
