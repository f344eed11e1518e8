import Bluetape.Base.Run

/-!
# Fenced leases

The abstract object behind a lock with fencing tokens: a counter and at most
one holder, who got the counter's value as its fence.  A holder may lose the
lease at any moment; a fence may be burnt without being granted.

For every run:

* `grants_increase`: granted fences strictly increase;
* `grant_le_counter`: the counter bounds every granted fence;
* `lost_never_returns`: a tenure that has ended never comes back.
-/

namespace Bluetape
namespace Base

universe u

/-- The counter, and the holder with the fence it was granted. -/
structure FencedLease (ω : Type u) where
  counter : Nat
  holder : Option (ω × Nat)

namespace FencedLease

variable {ω : Type u}

/-- Nothing granted yet. -/
def initial : FencedLease ω :=
  ⟨0, none⟩

/-- The steps; the label of a grant is its fence. -/
inductive Step : FencedLease ω → Option Nat → FencedLease ω → Prop
  | idle (s : FencedLease ω) :
      Step s none s
  | lose (s : FencedLease ω) :
      Step s none ⟨s.counter, none⟩
  | burn (s : FencedLease ω) :
      s.holder = none →
      Step s none ⟨s.counter + 1, none⟩
  | grant (s : FencedLease ω) (owner : ω) :
      s.holder = none →
      Step s (some (s.counter + 1))
        ⟨s.counter + 1, some (owner, s.counter + 1)⟩

/-- The fence of the holder is the counter. -/
def FenceIsCounter (s : FencedLease ω) : Prop :=
  ∀ owner fence, s.holder = some (owner, fence) → fence = s.counter

theorem Step.counter_le
    {s t : FencedLease ω} {l : Option Nat}
    (h : Step s l t) :
    s.counter ≤ t.counter := by
  cases h <;> simp

/-- A granted fence is above the old counter and is the new counter. -/
theorem Step.granted
    {s t : FencedLease ω} {fence : Nat}
    (h : Step s (some fence) t) :
    s.counter < fence ∧ fence = t.counter := by
  cases h
  simp

/-- A holder after a step held before it, or was granted a fresh fence. -/
theorem Step.holder_cases
    {s t : FencedLease ω} {l : Option Nat} {owner : ω} {fence : Nat}
    (h : Step s l t)
    (ht : t.holder = some (owner, fence)) :
    s.holder = some (owner, fence) ∧ l = none ∨
      s.holder = none ∧ l = some fence ∧ s.counter < fence := by
  cases h with
  | idle =>
      exact Or.inl ⟨ht, rfl⟩
  | lose =>
      simp at ht
  | burn =>
      simp at ht
  | grant owner' hnone =>
      simp only [Option.some.injEq, Prod.mk.injEq] at ht
      obtain ⟨-, rfl⟩ := ht
      exact Or.inr ⟨hnone, rfl, by simp⟩

/-- The fences granted in a run, in order. -/
def grants (ls : List (Option Nat)) : List Nat :=
  ls.filterMap id

theorem counter_le_of_run
    {s t : FencedLease ω} {ls : List (Option Nat)}
    (h : Run Step s ls t) :
    s.counter ≤ t.counter := by
  induction h with
  | nil =>
      exact le_refl _
  | cons hstep _ ih =>
      exact le_trans hstep.counter_le ih

/-- Fences granted in a run lie above its first and below its last counter. -/
theorem grants_between
    {s t : FencedLease ω} {ls : List (Option Nat)}
    (h : Run Step s ls t) :
    ∀ fence ∈ grants ls, s.counter < fence ∧ fence ≤ t.counter := by
  induction h with
  | nil =>
      simp [grants]
  | @cons s m t l ls hstep hrest ih =>
      intro fence hmem
      cases l with
      | none =>
          have hbetween := ih fence (by simpa [grants] using hmem)
          exact ⟨lt_of_le_of_lt hstep.counter_le hbetween.1, hbetween.2⟩
      | some first =>
          have hfirst := hstep.granted
          simp only [grants, List.filterMap_cons, id_eq, List.mem_cons] at hmem
          rcases hmem with rfl | hmem
          · refine ⟨hfirst.1, ?_⟩
            rw [hfirst.2]
            exact counter_le_of_run hrest
          · have hbetween := ih fence hmem
            exact ⟨lt_of_le_of_lt hstep.counter_le hbetween.1, hbetween.2⟩

/-- The counter bounds every fence granted so far. -/
theorem grant_le_counter
    {s t : FencedLease ω} {ls : List (Option Nat)}
    (h : Run Step s ls t) :
    ∀ fence ∈ grants ls, fence ≤ t.counter :=
  fun fence hmem => (grants_between h fence hmem).2

/-- **Granted fences strictly increase.** -/
theorem grants_increase
    {s t : FencedLease ω} {ls : List (Option Nat)}
    (h : Run Step s ls t) :
    (grants ls).Pairwise (· < ·) := by
  induction h with
  | nil =>
      simp [grants]
  | @cons s m t l ls hstep hrest ih =>
      cases l with
      | none =>
          simpa [grants] using ih
      | some first =>
          have hfirst := hstep.granted
          simp only [grants, List.filterMap_cons, id_eq, List.pairwise_cons]
          refine ⟨fun fence hmem => ?_, ih⟩
          rw [hfirst.2]
          exact (grants_between hrest fence hmem).1

/-- A tenure at the end of a run was there before, or its fence is new. -/
theorem holder_cases_of_run
    {s t : FencedLease ω} {ls : List (Option Nat)} {owner : ω} {fence : Nat}
    (h : Run Step s ls t)
    (ht : t.holder = some (owner, fence)) :
    s.holder = some (owner, fence) ∧ grants ls = [] ∨ s.counter < fence := by
  induction h with
  | nil =>
      exact Or.inl ⟨ht, rfl⟩
  | @cons s m t l ls hstep hrest ih =>
      rcases ih ht with ⟨hm, hls⟩ | hlt
      · rcases hstep.holder_cases hm with ⟨hs, rfl⟩ | ⟨-, -, hlt⟩
        · exact Or.inl ⟨hs, by simpa [grants] using hls⟩
        · exact Or.inr hlt
      · exact Or.inr (lt_of_le_of_lt hstep.counter_le hlt)

/-- **A tenure that has ended never comes back.** -/
theorem lost_never_returns
    {s t u : FencedLease ω} {ls ls' : List (Option Nat)} {owner : ω} {fence : Nat}
    (hinv : FenceIsCounter s)
    (h : Run Step s ls t)
    (h' : Run Step t ls' u)
    (hs : s.holder = some (owner, fence))
    (ht : t.holder ≠ some (owner, fence)) :
    u.holder ≠ some (owner, fence) := by
  intro hu
  rcases holder_cases_of_run h' hu with ⟨hback, -⟩ | hlt
  · exact ht hback
  · have hfence := hinv owner fence hs
    have hmono := counter_le_of_run h
    omega

end FencedLease
end Base
end Bluetape
