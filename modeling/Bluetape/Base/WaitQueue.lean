import Mathlib.Data.Finset.Card
import Mathlib.Tactic

/-!
# Waiters of a condition variable

A waiter sleeps until it is notified or interrupted; then it is still among
the waiters until it has the lock again and resumes.  A notification wakes one
sleeper, if there is one.

The counting argument for a single notification per released resource is
independent of the resource: `Covers free` says that every free unit is matched
by a waiter that has been notified and not yet resumed, or that nobody sleeps.

* `Covers.notify`, `Covers.take`, `covers_of_nonpos`: the three moves.
-/

namespace Bluetape
namespace Base

universe u

/-- The waiters of a condition, sleepers in the order of their wake-up. -/
structure WaitQueue (ι : Type u) where
  asleep : List ι
  notified : Finset ι
  interrupted : Finset ι

namespace WaitQueue

variable {ι : Type u}

/-- Nobody waits. -/
def empty : WaitQueue ι :=
  ⟨[], ∅, ∅⟩

/-- The number of waiters. -/
def size (q : WaitQueue ι) : Nat :=
  q.asleep.length + q.notified.card + q.interrupted.card

/-- One of the waiters. -/
def Waits (q : WaitQueue ι) (i : ι) : Prop :=
  i ∈ q.asleep ∨ i ∈ q.notified ∨ i ∈ q.interrupted

/-- A new sleeper. -/
def sleep (q : WaitQueue ι) (i : ι) : WaitQueue ι :=
  { q with asleep := q.asleep ++ [i] }

/-- No waiter is listed twice. -/
structure WellFormed (q : WaitQueue ι) : Prop where
  nodup : q.asleep.Nodup
  notified : ∀ i ∈ q.asleep, i ∉ q.notified
  interrupted : ∀ i ∈ q.asleep, i ∉ q.interrupted
  disjoint : ∀ i ∈ q.notified, i ∉ q.interrupted

/-- Free units are matched by notified waiters, or nobody sleeps. -/
def Covers (q : WaitQueue ι) (free : Int) : Prop :=
  free ≤ q.notified.card ∨ q.asleep = []

theorem wellFormed_empty :
    (empty : WaitQueue ι).WellFormed := by
  constructor
  · exact List.nodup_nil
  · simp [empty]
  · simp [empty]
  · simp [empty]

theorem covers_of_nonpos
    (q : WaitQueue ι) {free : Int}
    (h : free ≤ 0) :
    q.Covers free :=
  Or.inl (by omega)

theorem Covers.mono
    {q : WaitQueue ι} {free free' : Int}
    (h : q.Covers free)
    (hle : free' ≤ free) :
    q.Covers free' :=
  h.imp hle.trans id

section Sleep

variable {q : WaitQueue ι} {i : ι}

@[simp] theorem size_sleep
    (q : WaitQueue ι) (i : ι) :
    (q.sleep i).size = q.size + 1 := by
  simp only [size, sleep, List.length_append, List.length_singleton]
  omega

theorem waits_sleep
    {j : ι} :
    (q.sleep i).Waits j ↔ q.Waits j ∨ j = i := by
  simp only [Waits, sleep, List.mem_append, List.mem_singleton]
  tauto

theorem WellFormed.sleep
    (h : q.WellFormed)
    (hnew : ¬ q.Waits i) :
    (q.sleep i).WellFormed where
  nodup := by
    refine h.nodup.append (List.nodup_singleton i) ?_
    intro j hj hi
    rw [List.mem_singleton.mp hi] at hj
    exact hnew (Or.inl hj)
  notified := by
    intro j hj hnotified
    rcases List.mem_append.mp hj with hj | hj
    · exact h.notified j hj hnotified
    · rw [List.mem_singleton.mp hj] at hnotified
      exact hnew (Or.inr (Or.inl hnotified))
  interrupted := by
    intro j hj hinterrupted
    rcases List.mem_append.mp hj with hj | hj
    · exact h.interrupted j hj hinterrupted
    · rw [List.mem_singleton.mp hj] at hinterrupted
      exact hnew (Or.inr (Or.inr hinterrupted))
  disjoint := h.disjoint

end Sleep

variable [DecidableEq ι]

/-- `notify`: the first sleeper is woken. -/
def notify (q : WaitQueue ι) : WaitQueue ι :=
  match q.asleep with
  | [] => q
  | i :: rest => { q with asleep := rest, notified := insert i q.notified }

/-- A sleeper is interrupted; a notified waiter stays notified. -/
def interrupt (q : WaitQueue ι) (i : ι) : WaitQueue ι :=
  if i ∈ q.asleep then
    { q with asleep := q.asleep.erase i, interrupted := insert i q.interrupted }
  else q

/-- A waiter has the lock again and is no waiter any more. -/
def resume (q : WaitQueue ι) (i : ι) : WaitQueue ι where
  asleep := q.asleep.erase i
  notified := q.notified.erase i
  interrupted := q.interrupted.erase i

section Notify

variable {q : WaitQueue ι}

theorem WellFormed.notify
    (h : q.WellFormed) :
    q.notify.WellFormed := by
  unfold WaitQueue.notify
  cases hasleep : q.asleep with
  | nil =>
      exact h
  | cons i rest =>
      have hnodup := h.nodup
      rw [hasleep] at hnodup
      obtain ⟨hi, hrest⟩ := List.nodup_cons.mp hnodup
      have hsub : ∀ j ∈ rest, j ∈ q.asleep := by
        intro j hj
        rw [hasleep]
        exact List.mem_cons_of_mem i hj
      refine ⟨hrest, ?_, fun j hj => h.interrupted j (hsub j hj), ?_⟩
      · intro j hj hnotified
        rcases Finset.mem_insert.mp hnotified with rfl | hnotified
        · exact hi hj
        · exact h.notified j (hsub j hj) hnotified
      · intro j hj
        rcases Finset.mem_insert.mp hj with rfl | hj
        · exact h.interrupted j (by rw [hasleep]; exact List.mem_cons_self)
        · exact h.disjoint j hj

theorem size_notify
    (h : q.WellFormed) :
    q.notify.size = q.size := by
  unfold WaitQueue.notify
  cases hasleep : q.asleep with
  | nil =>
      rfl
  | cons i rest =>
      have hi : i ∉ q.notified := h.notified i (by rw [hasleep]; exact List.mem_cons_self)
      simp only [size, hasleep, Finset.card_insert_of_notMem hi, List.length_cons]
      omega

theorem waits_notify
    {j : ι} :
    q.notify.Waits j ↔ q.Waits j := by
  unfold WaitQueue.notify
  cases hasleep : q.asleep with
  | nil =>
      exact Iff.rfl
  | cons i rest =>
      simp only [Waits, hasleep, List.mem_cons, Finset.mem_insert]
      tauto

/-- One notification covers one more free unit. -/
theorem Covers.notify
    {free : Int}
    (h : q.Covers free)
    (hwf : q.WellFormed) :
    q.notify.Covers (free + 1) := by
  unfold WaitQueue.notify
  cases hasleep : q.asleep with
  | nil =>
      exact Or.inr hasleep
  | cons i rest =>
      have hi : i ∉ q.notified := hwf.notified i (by rw [hasleep]; exact List.mem_cons_self)
      rcases h with hle | hnil
      · refine Or.inl ?_
        simp only [Finset.card_insert_of_notMem hi]
        push_cast
        omega
      · rw [hasleep] at hnil
        cases hnil

end Notify

section Resume

variable {q : WaitQueue ι} {i : ι}

theorem WellFormed.resume
    (h : q.WellFormed) (i : ι) :
    (q.resume i).WellFormed where
  nodup := h.nodup.erase i
  notified := fun j hj hnotified =>
    h.notified j (List.mem_of_mem_erase hj) (Finset.mem_of_mem_erase hnotified)
  interrupted := fun j hj hinterrupted =>
    h.interrupted j (List.mem_of_mem_erase hj) (Finset.mem_of_mem_erase hinterrupted)
  disjoint := fun j hj hinterrupted =>
    h.disjoint j (Finset.mem_of_mem_erase hj) (Finset.mem_of_mem_erase hinterrupted)

theorem waits_resume
    (h : q.WellFormed)
    {j : ι} :
    (q.resume i).Waits j ↔ q.Waits j ∧ j ≠ i := by
  simp only [Waits, resume, h.nodup.mem_erase_iff, Finset.mem_erase]
  tauto

theorem size_resume
    (h : q.WellFormed)
    (hi : q.Waits i) :
    (q.resume i).size + 1 = q.size := by
  simp only [size, resume]
  rcases hi with hi | hi | hi
  · have hlength := List.length_erase_of_mem hi
    have hpos := List.length_pos_of_mem hi
    rw [Finset.erase_eq_of_notMem (h.notified i hi),
      Finset.erase_eq_of_notMem (h.interrupted i hi)]
    omega
  · have hasleep : i ∉ q.asleep := fun hmem => h.notified i hmem hi
    have hcard := Finset.card_erase_add_one hi
    rw [List.erase_of_not_mem hasleep, Finset.erase_eq_of_notMem (h.disjoint i hi)]
    omega
  · have hasleep : i ∉ q.asleep := fun hmem => h.interrupted i hmem hi
    have hnotified : i ∉ q.notified := fun hmem => h.disjoint i hmem hi
    have hcard := Finset.card_erase_add_one hi
    rw [List.erase_of_not_mem hasleep, Finset.erase_eq_of_notMem hnotified]
    omega

/-- A waiter that resumes and takes a unit. -/
theorem Covers.take
    {free : Int}
    (h : q.Covers free) (i : ι) :
    (q.resume i).Covers (free - 1) := by
  rcases h with hle | hnil
  · refine Or.inl ?_
    have hcard := Finset.pred_card_le_card_erase (s := q.notified) (a := i)
    have hnotified : (q.resume i).notified = q.notified.erase i := rfl
    rw [hnotified]
    omega
  · exact Or.inr (by simp [resume, hnil])

/-- A waiter that was not notified may leave without taking anything. -/
theorem Covers.resume
    {free : Int}
    (h : q.Covers free)
    (hi : i ∉ q.notified) :
    (q.resume i).Covers free := by
  rcases h with hle | hnil
  · refine Or.inl ?_
    have hnotified : (q.resume i).notified = q.notified.erase i := rfl
    rw [hnotified, Finset.erase_eq_of_notMem hi]
    exact hle
  · exact Or.inr (by simp [WaitQueue.resume, hnil])

end Resume

section Interrupt

variable {q : WaitQueue ι}

theorem WellFormed.interrupt
    (h : q.WellFormed) (i : ι) :
    (q.interrupt i).WellFormed := by
  unfold WaitQueue.interrupt
  split
  case isTrue hi =>
    refine ⟨h.nodup.erase i, ?_, ?_, ?_⟩
    · exact fun j hj => h.notified j (List.mem_of_mem_erase hj)
    · intro j hj hinterrupted
      obtain ⟨hne, hmem⟩ := h.nodup.mem_erase_iff.mp hj
      rcases Finset.mem_insert.mp hinterrupted with rfl | hinterrupted
      · exact hne rfl
      · exact h.interrupted j hmem hinterrupted
    · intro j hj hinterrupted
      rcases Finset.mem_insert.mp hinterrupted with rfl | hinterrupted
      · exact h.notified j hi hj
      · exact h.disjoint j hj hinterrupted
  case isFalse =>
    exact h

theorem size_interrupt
    (h : q.WellFormed) (i : ι) :
    (q.interrupt i).size = q.size := by
  unfold WaitQueue.interrupt
  split
  case isTrue hi =>
    have hlength := List.length_erase_of_mem hi
    have hpos := List.length_pos_of_mem hi
    simp only [size, Finset.card_insert_of_notMem (h.interrupted i hi)]
    omega
  case isFalse =>
    rfl

theorem waits_interrupt
    (h : q.WellFormed)
    {i j : ι} :
    (q.interrupt i).Waits j ↔ q.Waits j := by
  unfold WaitQueue.interrupt
  split
  case isTrue hi =>
    simp only [Waits, h.nodup.mem_erase_iff, Finset.mem_insert]
    by_cases hj : j = i
    · subst hj
      simp [hi]
    · simp [hj]
  case isFalse =>
    exact Iff.rfl

theorem Covers.interrupt
    {free : Int}
    (h : q.Covers free) (i : ι) :
    (q.interrupt i).Covers free := by
  unfold WaitQueue.interrupt
  split
  case isTrue hi =>
    refine h.imp id fun hnil => ?_
    rw [hnil] at hi
    cases hi
  case isFalse =>
    exact h

end Interrupt

section Reorder

variable {q : WaitQueue ι} {order : List ι}

omit [DecidableEq ι] in
/-- The order of the sleepers is of no account. -/
theorem WellFormed.reorder
    (h : q.WellFormed)
    (hperm : order.Perm q.asleep) :
    WellFormed { q with asleep := order } where
  nodup := hperm.nodup_iff.mpr h.nodup
  notified := fun i hi => h.notified i (hperm.mem_iff.mp hi)
  interrupted := fun i hi => h.interrupted i (hperm.mem_iff.mp hi)
  disjoint := h.disjoint

omit [DecidableEq ι] in
theorem Covers.reorder
    {free : Int}
    (h : q.Covers free)
    (hperm : order.Perm q.asleep) :
    Covers { q with asleep := order } free := by
  refine h.imp id fun hnil => ?_
  rw [hnil] at hperm
  exact hperm.eq_nil

end Reorder

end WaitQueue
end Base
end Bluetape
