import Mathlib.Data.List.Sort
import Mathlib.Order.Basic

/-!
# Nearest-rank percentiles

The `p`-th percentile of samples by the nearest rank: a sample such that at least `p` percent of
the samples are not greater, and fewer than `p` percent are smaller.

* `NearestRank.of_sorted`: the sorted samples have it at the index of the rank;
* `NearestRank.mono`: percentiles grow with `p`; there is one for each `p`.
-/

namespace Bluetape
namespace Base

variable {α : Type} [LinearOrder α]

/-- The `p`-th percentile by the nearest rank. -/
structure NearestRank (p : Nat) (samples : List α) (value : α) : Prop where
  mem : value ∈ samples
  reached : p * samples.length ≤ 100 * samples.countP (· ≤ value)
  least : 100 * samples.countP (· < value) < p * samples.length

/-- At an index of sorted samples, at most so many are smaller and more are not greater. -/
theorem countP_of_sorted
    {l : List α} {i : Nat} {value : α}
    (hsorted : l.Pairwise (· ≤ ·))
    (hvalue : l[i]? = some value) :
    l.countP (· < value) ≤ i ∧ i < l.countP (· ≤ value) := by
  induction l generalizing i with
  | nil =>
      simp at hvalue
  | cons a l ih =>
      obtain ⟨hfirst, hsorted⟩ := List.pairwise_cons.mp hsorted
      cases i with
      | zero =>
          obtain rfl : a = value := by simpa using hvalue
          constructor
          · have hnone : ∀ b ∈ a :: l, ¬ b < a := by
              simp only [List.mem_cons, forall_eq_or_imp, lt_irrefl, not_false_iff, true_and]
              exact fun b hb => not_lt.mpr (hfirst b hb)
            rw [List.countP_eq_zero.mpr (by simpa using hnone)]
          · rw [List.countP_cons_of_pos (by simp)]
            omega
      | succ i =>
          have hvalue' : l[i]? = some value := by simpa using hvalue
          obtain ⟨hless, hmore⟩ := ih hsorted hvalue'
          have hle : a ≤ value := hfirst value (List.mem_of_getElem? hvalue')
          constructor
          · have hcount := List.countP_cons (p := fun b => decide (b < value)) (a := a) (l := l)
            rw [hcount]
            split <;> omega
          · rw [List.countP_cons_of_pos (by simpa using hle)]
            omega

namespace NearestRank

variable {p p' : Nat} {samples samples' : List α} {value value' : α}

/-- The order of the samples does not matter. -/
theorem of_perm
    (hperm : samples.Perm samples')
    (h : NearestRank p samples value) :
    NearestRank p samples' value where
  mem := hperm.mem_iff.mp h.mem
  reached := by
    rw [← hperm.length_eq, ← hperm.countP_eq]
    exact h.reached
  least := by
    rw [← hperm.length_eq, ← hperm.countP_eq]
    exact h.least

/-- **Sorted samples** have the percentile at an index whose rank is the least to reach it. -/
theorem of_sorted
    {i : Nat}
    (hsorted : samples.Pairwise (· ≤ ·))
    (hvalue : samples[i]? = some value)
    (hreached : p * samples.length ≤ 100 * (i + 1))
    (hleast : 100 * i < p * samples.length) :
    NearestRank p samples value := by
  obtain ⟨hless, hmore⟩ := countP_of_sorted hsorted hvalue
  exact ⟨List.mem_of_getElem? hvalue, by omega, by omega⟩

/-- **Percentiles grow** with `p`. -/
theorem mono
    (hp : p ≤ p')
    (h : NearestRank p samples value)
    (h' : NearestRank p' samples value') :
    value ≤ value' := by
  by_contra hlt
  have hcount : samples.countP (· ≤ value') ≤ samples.countP (· < value) := by
    refine List.countP_mono_left fun b _ hb => ?_
    simp only [decide_eq_true_eq] at hb ⊢
    exact hb.trans_lt (not_le.mp hlt)
  have hmul := Nat.mul_le_mul_right samples.length hp
  have hreached := h'.reached
  have hleast := h.least
  omega

/-- There is one percentile for each `p`. -/
theorem unique
    (h : NearestRank p samples value)
    (h' : NearestRank p samples value') :
    value = value' :=
  le_antisymm (h.mono le_rfl h') (h'.mono le_rfl h)

end NearestRank
end Base
end Bluetape
