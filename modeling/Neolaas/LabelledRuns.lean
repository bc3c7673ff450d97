import Mathlib

/-!
# Runs of a labelled transition relation

A run lists the labels of its steps. A condition on steps restricts the relation,
so that the runs all of whose steps meet the condition are the runs of the
restricted relation.
-/
namespace Neolaas.LabelledRuns

/-- A run from one state to another with the labels of its steps in order. -/
inductive Run {σ ℓ : Type*} (step : σ → ℓ → σ → Prop) : σ → List ℓ → σ → Prop
  | nil (s : σ) : Run step s [] s
  | cons {s t u : σ} {l : ℓ} {ls : List ℓ} :
      step s l t → Run step t ls u → Run step s (l :: ls) u

/-- The steps that meet a condition on the state before and the label. -/
def Guarded {σ ℓ : Type*} (ok : σ → ℓ → Prop) (step : σ → ℓ → σ → Prop) :
    σ → ℓ → σ → Prop := fun s l t => ok s l ∧ step s l t

/-- The relation of an executable step function. -/
def StepOf {σ ℓ : Type*} (next : σ → ℓ → Option σ) : σ → ℓ → σ → Prop :=
  fun s l t => next s l = some t

/-- The executable steps that meet a condition. -/
def guardedNext {σ ℓ : Type*} (ok : σ → ℓ → Prop) [∀ s l, Decidable (ok s l)]
    (next : σ → ℓ → Option σ) : σ → ℓ → Option σ :=
  fun s l => if ok s l then next s l else none

namespace Run

theorem single {σ ℓ : Type*} {step : σ → ℓ → σ → Prop} {s t : σ} {l : ℓ} (h : step s l t) :
    Run step s [l] t := .cons h (.nil t)

theorem append {σ ℓ : Type*} {step : σ → ℓ → σ → Prop} {s t u : σ} {ls ms : List ℓ}
    (h : Run step s ls t) (h' : Run step t ms u) : Run step s (ls ++ ms) u := by
  induction h with
  | nil s => exact h'
  | cons hs _ ih => exact .cons hs (ih h')

/-- What holds at the start and is kept by each step holds at the end. -/
theorem invariant {σ ℓ : Type*} {step : σ → ℓ → σ → Prop} {I : σ → Prop}
    (hstep : ∀ s l t, I s → step s l t → I t) {s t : σ} {ls : List ℓ}
    (h : Run step s ls t) (hs : I s) : I t := by
  induction h with
  | nil s => exact hs
  | cons hst _ ih => exact ih (hstep _ _ _ hs hst)

theorem mono {σ ℓ : Type*} {step step' : σ → ℓ → σ → Prop}
    (himp : ∀ s l t, step s l t → step' s l t) {s t : σ} {ls : List ℓ}
    (h : Run step s ls t) : Run step' s ls t := by
  induction h with
  | nil s => exact .nil s
  | cons hst _ ih => exact .cons (himp _ _ _ hst) ih

/-- Executing the step function along labels gives a run. -/
theorem of_foldlM {σ ℓ : Type*} {next : σ → ℓ → Option σ} {s t : σ} {ls : List ℓ}
    (h : ls.foldlM next s = some t) : Run (StepOf next) s ls t := by
  induction ls generalizing s with
  | nil =>
    have he : s = t := by simpa using h
    rw [he]
    exact .nil t
  | cons l ls ih =>
    rw [List.foldlM_cons] at h
    obtain ⟨u, hu, hrest⟩ := Option.bind_eq_some_iff.mp h
    exact .cons hu (ih hrest)

/-- A computed state with a property ends a run. -/
theorem exists_of_foldlM {σ ℓ : Type*} (next : σ → ℓ → Option σ) (P : σ → Prop) (s : σ)
    (ls : List ℓ) (h : ∃ t ∈ ls.foldlM next s, P t) : ∃ t, Run (StepOf next) s ls t ∧ P t := by
  obtain ⟨t, ht, hp⟩ := h
  exact ⟨t, of_foldlM ht, hp⟩

/-- Executing the guarded step function gives a run whose steps meet the condition. -/
theorem guarded_of_foldlM {σ ℓ : Type*} {ok : σ → ℓ → Prop} [∀ s l, Decidable (ok s l)]
    {next : σ → ℓ → Option σ} {s t : σ} {ls : List ℓ}
    (h : ls.foldlM (guardedNext ok next) s = some t) :
    Run (Guarded ok (StepOf next)) s ls t := by
  refine (of_foldlM h).mono ?_
  intro s l t hst
  simp only [StepOf, guardedNext] at hst
  split_ifs at hst with hok
  exact ⟨hok, hst⟩

/-- A computed state with a property ends a run whose steps meet the condition. -/
theorem exists_guarded_of_foldlM {σ ℓ : Type*} (ok : σ → ℓ → Prop) [∀ s l, Decidable (ok s l)]
    (next : σ → ℓ → Option σ) (P : σ → Prop) (s : σ) (ls : List ℓ)
    (h : ∃ t ∈ ls.foldlM (guardedNext ok next) s, P t) :
    ∃ t, Run (Guarded ok (StepOf next)) s ls t ∧ P t := by
  obtain ⟨t, ht, hp⟩ := h
  exact ⟨t, guarded_of_foldlM ht, hp⟩

end Run
end Neolaas.LabelledRuns
