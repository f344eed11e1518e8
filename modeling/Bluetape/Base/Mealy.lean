import Mathlib.Data.List.Induction
import Mathlib.Tactic

/-!
# Mealy machines

A machine answers each input with an output and moves to a new state.  The
rules compare two machines on one input sequence:

* `refines`: a simulation whose steps need a condition on state and input
  gives equal outputs on every sequence that meets the condition throughout;
* `refines_iff`: when every step without the condition is exposed by some
  later input, the condition is exact;
* `agrees_iff`: when every step without it is seen at once, it is exact as well.
-/

namespace Bluetape
namespace Base
namespace Mealy

universe u v w

variable {σ τ : Type u} {ι : Type v} {ο ο' : Type w}

/-- The outputs for a list of inputs, and the state after them. -/
def run (f : σ → ι → ο × σ) : σ → List ι → List ο × σ
  | s, [] => ([], s)
  | s, i :: is =>
      let (o, s') := f s i
      let (os, t) := run f s' is
      (o :: os, t)

/-- The outputs for a list of inputs. -/
def outputs (f : σ → ι → ο × σ) (s : σ) (is : List ι) : List ο :=
  (run f s is).1

/-- The state after a list of inputs. -/
def after (f : σ → ι → ο × σ) (s : σ) (is : List ι) : σ :=
  (run f s is).2

/-- A condition on state and input holds at every step. -/
def Meets (f : σ → ι → ο × σ) (C : σ → ι → Prop) : σ → List ι → Prop
  | _, [] => True
  | s, i :: is => C s i ∧ Meets f C (f s i).2 is

instance instDecidableMeets (f : σ → ι → ο × σ) (C : σ → ι → Prop) [∀ s i, Decidable (C s i)] :
    ∀ s is, Decidable (Meets f C s is)
  | _, [] => isTrue trivial
  | s, i :: is =>
      have := instDecidableMeets f C (f s i).2 is
      inferInstanceAs (Decidable (C s i ∧ Meets f C (f s i).2 is))

section

variable {f : σ → ι → ο × σ} {g : τ → ι → ο × τ} {C : σ → ι → Prop}

@[simp] theorem outputs_nil
    (s : σ) :
    outputs f s [] = [] := by
  rfl

@[simp] theorem outputs_cons
    (s : σ) (i : ι) (is : List ι) :
    outputs f s (i :: is) = (f s i).1 :: outputs f (f s i).2 is := by
  rfl

@[simp] theorem after_nil
    (s : σ) :
    after f s [] = s := by
  rfl

@[simp] theorem after_cons
    (s : σ) (i : ι) (is : List ι) :
    after f s (i :: is) = after f (f s i).2 is := by
  rfl

theorem outputs_append
    (s : σ) (is js : List ι) :
    outputs f s (is ++ js) = outputs f s is ++ outputs f (after f s is) js := by
  induction is generalizing s with
  | nil =>
      rfl
  | cons i is ih =>
      simp [ih]

theorem meets_append
    (s : σ) (is js : List ι) :
    Meets f C s (is ++ js) ↔ Meets f C s is ∧ Meets f C (after f s is) js := by
  induction is generalizing s with
  | nil =>
      simp [Meets]
  | cons i is ih =>
      simp [Meets, ih, and_assoc]

/-- A property that every step preserves holds after every input sequence. -/
theorem after_invariant
    {I : σ → Prop}
    (hstep : ∀ s i, I s → I (f s i).2)
    {s : σ}
    (hs : I s) (is : List ι) :
    I (after f s is) := by
  induction is generalizing s with
  | nil =>
      exact hs
  | cons i is ih =>
      exact ih (hstep s i hs)

/-- A conditional simulation gives equal outputs and related states. -/
theorem refines
    {R : σ → τ → Prop}
    (hsim : ∀ s a i, R s a → C s i → (f s i).1 = (g a i).1 ∧ R (f s i).2 (g a i).2)
    {s : σ} {a : τ}
    (hR : R s a) {is : List ι}
    (hC : Meets f C s is) :
    outputs f s is = outputs g a is ∧ R (after f s is) (after g a is) := by
  induction is generalizing s a with
  | nil =>
      exact ⟨rfl, hR⟩
  | cons i is ih =>
      obtain ⟨hi, his⟩ := hC
      obtain ⟨ho, hR'⟩ := hsim s a i hR hi
      obtain ⟨hos, hfinal⟩ := ih hR' his
      exact ⟨by simp [ho, hos], hfinal⟩

/--
The condition of a simulation is exact when every step without it has an input
that, given right after it, exposes the difference.  `ok` selects the input
sequences of interest, and `Q` is what the states are compared by.
-/
theorem refines_iff
    {R Q : σ → τ → Prop} {ok : List ι → Prop} {probe : ι → Prop}
    (hsim : ∀ s a i, R s a → C s i → (f s i).1 = (g a i).1 ∧ R (f s i).2 (g a i).2)
    (hQ : ∀ s a, R s a → Q s a)
    (hprobe : ∀ s i, probe i → C s i)
    {s₀ : σ} {a₀ : τ}
    (hR : R s₀ a₀) {is : List ι}
    (hexposed : ∀ pre i, pre ++ [i] <+: is → Meets f C s₀ pre →
      ¬ C (after f s₀ pre) i →
      ∃ p, probe p ∧ ok (pre ++ [i, p]) ∧
        outputs f s₀ (pre ++ [i, p]) ≠ outputs g a₀ (pre ++ [i, p])) :
    (∀ pre p, pre <+: is → probe p → ok (pre ++ [p]) →
        outputs f s₀ (pre ++ [p]) = outputs g a₀ (pre ++ [p]) ∧
        Q (after f s₀ (pre ++ [p])) (after g a₀ (pre ++ [p]))) ↔
      Meets f C s₀ is := by
  constructor
  · intro hall
    have hprefix : ∀ pre, pre <+: is → Meets f C s₀ pre := by
      intro pre
      induction pre using List.reverseRecOn with
      | nil =>
          exact fun _ => trivial
      | append_singleton pre i ih =>
          intro hpre
          have hmeets := ih ((List.prefix_append pre [i]).trans hpre)
          refine (meets_append s₀ pre [i]).mpr ⟨hmeets, ?_, trivial⟩
          by_contra hnot
          obtain ⟨p, hp, hok, hne⟩ := hexposed pre i hpre hmeets hnot
          have heq := (hall (pre ++ [i]) p hpre hp (by simpa using hok)).1
          exact hne (by simpa using heq)
    exact hprefix is (List.prefix_refl is)
  · intro hmeets pre p hpre hp _
    obtain ⟨rest, rfl⟩ := hpre
    have hpre' := ((meets_append s₀ pre rest).mp hmeets).1
    have hlast : Meets f C s₀ (pre ++ [p]) :=
      (meets_append s₀ pre [p]).mpr ⟨hpre', hprobe _ p hp, trivial⟩
    obtain ⟨hout, hstate⟩ := refines hsim hR hlast
    exact ⟨hout, hQ _ _ hstate⟩

/--
When good steps simulate, and every other step is seen at once, the machines agree exactly
on the inputs that take good steps only.  `O` compares outputs, and `Q` final states.
-/
theorem agrees_iff
    {R Q : σ → τ → Prop} {O : ο → ο' → Prop} {g : τ → ι → ο' × τ}
    (hsim : ∀ s a i, R s a → C s i → O (f s i).1 (g a i).1 ∧ R (f s i).2 (g a i).2)
    (hexposed : ∀ s a i, R s a → ¬ C s i → ¬ O (f s i).1 (g a i).1)
    (hQ : ∀ s a, R s a → Q s a)
    {s : σ} {a : τ}
    (hR : R s a) (is : List ι) :
    List.Forall₂ O (outputs f s is) (outputs g a is) ∧ Q (after f s is) (after g a is) ↔
      Meets f C s is := by
  induction is generalizing s a with
  | nil =>
      simpa [Meets] using hQ s a hR
  | cons i is ih =>
      simp only [outputs_cons, after_cons, List.forall₂_cons, Meets]
      constructor
      · rintro ⟨⟨hout, hrest⟩, hfinal⟩
        have hi : C s i := by
          by_contra hnot
          exact hexposed s a i hR hnot hout
        exact ⟨hi, (ih (hsim s a i hR hi).2).mp ⟨hrest, hfinal⟩⟩
      · rintro ⟨hi, his⟩
        obtain ⟨hout, hR'⟩ := hsim s a i hR hi
        obtain ⟨hrest, hfinal⟩ := (ih hR').mpr his
        exact ⟨⟨hout, hrest⟩, hfinal⟩

end
end Mealy
end Base
end Bluetape
