import Mathlib.Tactic

/-!
# Runs of labelled transition systems

A run is a finite sequence of labelled steps.  The rules of this module turn a
fact about one step into a fact about every run:

* `Run.invariant`: a preserved property holds at the end of every run;
* `Run.history`: the same for a property of the labels so far and of the state;
* `Run.simulate`: a step-by-step simulation lifts to runs;
* `Run.EachStep`: a property of every single step of a run, with the
  equivalence rule `Run.eachStep_iff` for two such properties.
-/

namespace Bluetape
namespace Base

universe u v

variable {σ : Type u} {ℓ : Type v}

/-- Finite runs with the labels of their steps. -/
inductive Run (step : σ → ℓ → σ → Prop) : σ → List ℓ → σ → Prop
  | nil (s : σ) :
      Run step s [] s
  | cons {s t u : σ} {l : ℓ} {ls : List ℓ} :
      step s l t →
      Run step t ls u →
      Run step s (l :: ls) u

namespace Run

variable {step : σ → ℓ → σ → Prop}

theorem single
    {s t : σ} {l : ℓ}
    (h : step s l t) :
    Run step s [l] t :=
  .cons h (.nil t)

theorem append
    {s t u : σ} {ls ls' : List ℓ}
    (h : Run step s ls t)
    (h' : Run step t ls' u) :
    Run step s (ls ++ ls') u := by
  induction h with
  | nil =>
      exact h'
  | cons hstep _ ih =>
      exact .cons hstep (ih h')

/-- A run over a concatenation passes through a state in between. -/
theorem split
    {s u : σ} {ls ls' : List ℓ}
    (h : Run step s (ls ++ ls') u) :
    ∃ t, Run step s ls t ∧ Run step t ls' u := by
  induction ls generalizing s with
  | nil =>
      exact ⟨s, .nil s, h⟩
  | cons l ls ih =>
      cases h with
      | cons hstep hrest =>
          obtain ⟨t, hpre, hpost⟩ := ih hrest
          exact ⟨t, .cons hstep hpre, hpost⟩

/-- Where a step has one outcome, so has a run. -/
theorem unique
    (hstep : ∀ s l t t', step s l t → step s l t' → t = t')
    {s t t' : σ} {ls : List ℓ}
    (h : Run step s ls t)
    (h' : Run step s ls t') :
    t = t' := by
  induction h with
  | nil =>
      cases h'
      rfl
  | cons hst _ ih =>
      cases h' with
      | cons hst' hrest =>
          obtain rfl := hstep _ _ _ _ hst hst'
          exact ih hrest

/-- The run that a step function takes through a list of labels. -/
theorem of_foldlM
    {f : σ → ℓ → Option σ} {s t : σ} {ls : List ℓ}
    (h : ls.foldlM f s = some t) :
    Run (fun s l t => f s l = some t) s ls t := by
  induction ls generalizing s with
  | nil =>
      obtain rfl := Option.some.inj h
      exact .nil s
  | cons l ls ih =>
      rw [List.foldlM_cons] at h
      obtain ⟨m, hstep, hrest⟩ := Option.bind_eq_some_iff.mp h
      exact .cons hstep (ih hrest)

/-- A property that every step preserves holds at the end of a run. -/
theorem invariant
    {I : σ → Prop}
    (hstep : ∀ s l t, I s → step s l t → I t)
    {s t : σ} {ls : List ℓ}
    (h : Run step s ls t)
    (hs : I s) :
    I t := by
  induction h with
  | nil =>
      exact hs
  | cons hst _ ih =>
      exact ih (hstep _ _ _ hs hst)

/-- A run of steps that are all allowed by another relation. -/
theorem mono
    {step' : σ → ℓ → σ → Prop}
    (himp : ∀ s l t, step s l t → step' s l t)
    {s t : σ} {ls : List ℓ}
    (h : Run step s ls t) :
    Run step' s ls t := by
  induction h with
  | nil s =>
      exact .nil s
  | cons hst _ ih =>
      exact .cons (himp _ _ _ hst) ih

/-- A property of the labels so far and of the state, kept by every step. -/
theorem history
    {I : List ℓ → σ → Prop}
    (hstep : ∀ ls s l t, I ls s → step s l t → I (ls ++ [l]) t)
    {s t : σ} {ls : List ℓ}
    (h : Run step s ls t) {before : List ℓ}
    (hs : I before s) :
    I (before ++ ls) t := by
  induction h generalizing before with
  | nil =>
      rw [List.append_nil]
      exact hs
  | cons hst _ ih =>
      have hrest := ih (hstep _ _ _ _ hs hst)
      rw [List.append_assoc] at hrest
      exact hrest

/-- A simulation of single steps lifts to runs, label by label. -/
theorem simulate
    {σ' : Type u} {ℓ' : Type v} {step' : σ' → ℓ' → σ' → Prop}
    {R : σ → σ' → Prop} {f : ℓ → ℓ'}
    (hsim : ∀ s l t s', R s s' → step s l t → ∃ t', step' s' (f l) t' ∧ R t t')
    {s t : σ} {ls : List ℓ}
    (h : Run step s ls t)
    {s' : σ'}
    (hs : R s s') :
    ∃ t', Run step' s' (ls.map f) t' ∧ R t t' := by
  induction h generalizing s' with
  | nil =>
      exact ⟨s', .nil s', hs⟩
  | cons hst _ ih =>
      obtain ⟨m', hst', hm⟩ := hsim _ _ _ _ hs hst
      obtain ⟨t', hrun, ht⟩ := ih hm
      exact ⟨t', .cons hst' hrun, ht⟩

/-- Every single step taken in a run has a property. -/
inductive EachStep (step : σ → ℓ → σ → Prop) (P : σ → ℓ → σ → Prop) :
    σ → List ℓ → σ → Prop
  | nil (s : σ) :
      EachStep step P s [] s
  | cons {s t u : σ} {l : ℓ} {ls : List ℓ} :
      step s l t →
      P s l t →
      EachStep step P t ls u →
      EachStep step P s (l :: ls) u

theorem EachStep.run
    {P : σ → ℓ → σ → Prop} {s t : σ} {ls : List ℓ}
    (h : EachStep step P s ls t) :
    Run step s ls t := by
  induction h with
  | nil s =>
      exact .nil s
  | cons hstep _ _ ih =>
      exact .cons hstep ih

/-- A weaker property of every single step. -/
theorem EachStep.mono
    {P Q : σ → ℓ → σ → Prop}
    (himp : ∀ s l t, P s l t → Q s l t)
    {s t : σ} {ls : List ℓ}
    (h : EachStep step P s ls t) :
    EachStep step Q s ls t := by
  induction h with
  | nil s =>
      exact .nil s
  | cons hst hp _ ih =>
      exact .cons hst (himp _ _ _ hp) ih

/-- A property that an invariant gives to every step. -/
theorem eachStep
    {I : σ → Prop} {P : σ → ℓ → σ → Prop}
    (hstep : ∀ s l t, I s → step s l t → P s l t ∧ I t)
    {s t : σ} {ls : List ℓ}
    (h : Run step s ls t)
    (hs : I s) :
    EachStep step P s ls t := by
  induction h with
  | nil s =>
      exact .nil s
  | cons hst _ ih =>
      obtain ⟨hp, ht⟩ := hstep _ _ _ hs hst
      exact .cons hst hp (ih ht)

/-- Under an invariant, equivalent step properties give the same runs. -/
theorem eachStep_iff
    (I : σ → Prop) {P Q : σ → ℓ → σ → Prop}
    (hstep : ∀ s l t, I s → step s l t → I t)
    (hiff : ∀ s l t, I s → step s l t → (P s l t ↔ Q s l t))
    {s t : σ} {ls : List ℓ}
    (hs : I s) :
    EachStep step P s ls t ↔ EachStep step Q s ls t := by
  constructor
  · intro h
    induction h with
    | nil s =>
        exact .nil s
    | cons hst hp _ ih =>
        exact .cons hst ((hiff _ _ _ hs hst).mp hp) (ih (hstep _ _ _ hs hst))
  · intro h
    induction h with
    | nil s =>
        exact .nil s
    | cons hst hq _ ih =>
        exact .cons hst ((hiff _ _ _ hs hst).mpr hq) (ih (hstep _ _ _ hs hst))

end Run
end Base
end Bluetape
