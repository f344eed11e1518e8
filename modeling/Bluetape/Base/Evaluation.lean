import Bluetape.Base.Dialogue
import Bluetape.Base.Proc

/-!
# A program alone

A program that runs alone against an oracle: the oracle answers every question, knowing the
questions and answers before it.  `Evaluates` is finite, so that it says that the program
ends, and it has one result at most.

* `Evaluates.bind`: the rule of sequencing;
* `evaluates_exceptLoop`: loops, by an invariant and a variant that every round makes smaller;
* `Evaluates.unique`: a program has one result.
-/

namespace Bluetape
namespace Base
namespace Proc

open Dialogue

variable {σ Λ Q : Type} {A : Q → Type} {α β ρ : Type}
  {oracle : History A → (q : Q) → A q}

/--
The program ends, from a state and a history, with a result; it leaves a state and a
history, newest exchange first.
-/
inductive Evaluates (oracle : History A → (q : Q) → A q) {ρ : Type} :
    Proc σ Λ Q A ρ → σ → History A → ρ → σ → History A → Prop
  | ret (r : ρ) (s : σ) (h : History A) :
      Evaluates oracle (.ret r) s h r s h
  | atomic {l : Λ} {f : σ → σ} {k : σ → Proc σ Λ Q A ρ} {s s' : σ} {h h' : History A} {r : ρ}
      (hrest : Evaluates oracle (k s) (f s) h r s' h') :
      Evaluates oracle (.atomic l f k) s h r s' h'
  | ask {q : Q} {k : A q → Proc σ Λ Q A ρ} {s s' : σ} {h h' : History A} {r : ρ}
      (hrest : Evaluates oracle (k (oracle h q)) s (⟨q, oracle h q⟩ :: h) r s' h') :
      Evaluates oracle (.ask q k) s h r s' h'
  | iter {α β : Type} {body : α → Proc σ Λ Q A (α ⊕ β)} {a : α} {k : β → Proc σ Λ Q A ρ}
      {s s' : σ} {h h' : History A} {r : ρ}
      (hrest : Evaluates oracle ((body a).bind (Sum.elim (fun a' => .iter body a' k) k))
        s h r s' h') :
      Evaluates oracle (.iter body a k) s h r s' h'

/-- Sequencing: the second program goes on where the first one has ended. -/
theorem Evaluates.bind
    {p : Proc σ Λ Q A α} {g : α → Proc σ Λ Q A β} {s₁ s₂ s₃ : σ} {h₁ h₂ h₃ : History A}
    {a : α} {r : β}
    (hp : Evaluates oracle p s₁ h₁ a s₂ h₂)
    (hg : Evaluates oracle (g a) s₂ h₂ r s₃ h₃) :
    Evaluates oracle (p.bind g) s₁ h₁ r s₃ h₃ := by
  induction hp with
  | ret =>
      exact hg
  | atomic _ ih =>
      exact .atomic (ih hg)
  | ask _ ih =>
      exact .ask (ih hg)
  | @iter α' β' body a k _ _ _ _ _ _ ih =>
      have hunroll := ih hg
      rw [bind_assoc] at hunroll
      refine .iter ?_
      have hcases : (fun x => (Sum.elim (fun a' => Proc.iter body a' k) k x).bind g) =
          Sum.elim (fun a' => .iter body a' fun b => (k b).bind g) fun b => (k b).bind g := by
        funext x
        cases x with
        | inl a' =>
            rfl
        | inr b =>
            rfl
      rwa [hcases] at hunroll

/-- **A program has one result.** -/
theorem Evaluates.unique
    {p : Proc σ Λ Q A ρ} {s s' s'' : σ} {h h' h'' : History A} {r r' : ρ}
    (hp : Evaluates oracle p s h r s' h')
    (hp' : Evaluates oracle p s h r' s'' h'') :
    r = r' ∧ s' = s'' ∧ h' = h'' := by
  induction hp with
  | ret =>
      cases hp'
      exact ⟨rfl, rfl, rfl⟩
  | atomic _ ih =>
      cases hp' with
      | atomic hrest =>
          exact ih hrest
  | ask _ ih =>
      cases hp' with
      | ask hrest =>
          exact ih hrest
  | iter _ ih =>
      cases hp' with
      | iter hrest =>
          exact ih hrest

/-- A loop that goes round once more. -/
theorem evaluates_loop_continue
    {body : α → Proc σ Λ Q A (α ⊕ β)} {a a' : α} {s₁ s₂ s₃ : σ} {h₁ h₂ h₃ : History A} {r : β}
    (hround : Evaluates oracle (body a) s₁ h₁ (.inl a') s₂ h₂)
    (hloop : Evaluates oracle (loop body a') s₂ h₂ r s₃ h₃) :
    Evaluates oracle (loop body a) s₁ h₁ r s₃ h₃ :=
  .iter (hround.bind hloop)

/-- A loop that ends. -/
theorem evaluates_loop_end
    {body : α → Proc σ Λ Q A (α ⊕ β)} {a : α} {s₁ s₂ : σ} {h₁ h₂ : History A} {r : β}
    (hround : Evaluates oracle (body a) s₁ h₁ (.inr r) s₂ h₂) :
    Evaluates oracle (loop body a) s₁ h₁ r s₂ h₂ :=
  .iter (hround.bind (.ret _ _ _))

section Raising

variable {ε : Type} {s s' s₁ s₂ s₃ : σ} {h h' h₁ h₂ h₃ : History A}

/-- A program that may raise returns, and the rest goes on. -/
theorem Evaluates.except_bind
    {p : ExceptT ε (Proc σ Λ Q A) α} {g : α → ExceptT ε (Proc σ Λ Q A) β} {a : α}
    {r : Except ε β}
    (hp : Evaluates oracle p.run s₁ h₁ (.ok a) s₂ h₂)
    (hg : Evaluates oracle (g a).run s₂ h₂ r s₃ h₃) :
    Evaluates oracle (p >>= g).run s₁ h₁ r s₃ h₃ :=
  Evaluates.bind hp hg

/-- A question among programs that may raise. -/
theorem evaluates_lift
    (q : Q) (s : σ) (h : History A) :
    Evaluates oracle (liftM (request q : Proc σ Λ Q A (A q)) : ExceptT ε (Proc σ Λ Q A) (A q)).run
      s h (.ok (oracle h q)) s (⟨q, oracle h q⟩ :: h) :=
  .ask (.ret _ _ _)

theorem evaluates_pure
    (a : α) (s : σ) (h : History A) :
    Evaluates oracle (pure a : ExceptT ε (Proc σ Λ Q A) α).run s h (.ok a) s h :=
  .ret _ _ _

theorem evaluates_throw
    (e : ε) (s : σ) (h : History A) :
    Evaluates oracle (throw e : ExceptT ε (Proc σ Λ Q A) α).run s h (.error e) s h :=
  .ret _ _ _

/-- A program that may raise raises, and the rest is left out. -/
theorem Evaluates.except_bind_error
    {p : ExceptT ε (Proc σ Λ Q A) α} {g : α → ExceptT ε (Proc σ Λ Q A) β} {e : ε}
    (hp : Evaluates oracle p.run s₁ h₁ (.error e) s₂ h₂) :
    Evaluates oracle (p >>= g).run s₁ h₁ (.error e) s₂ h₂ :=
  Evaluates.bind hp (.ret _ _ _)

section Loops

variable {body : α → ExceptT ε (Proc σ Λ Q A) (α ⊕ β)} {a a' : α} {b : β} {e : ε}
  {r : Except ε β}

theorem evaluates_exceptLoop_continue
    (hround : Evaluates oracle (body a).run s₁ h₁ (.ok (.inl a')) s₂ h₂)
    (hloop : Evaluates oracle (exceptLoop body a').run s₂ h₂ r s₃ h₃) :
    Evaluates oracle (exceptLoop body a).run s₁ h₁ r s₃ h₃ :=
  evaluates_loop_continue (hround.bind (.ret _ _ _)) hloop

theorem evaluates_exceptLoop_end
    (hround : Evaluates oracle (body a).run s₁ h₁ (.ok (.inr b)) s₂ h₂) :
    Evaluates oracle (exceptLoop body a).run s₁ h₁ (.ok b) s₂ h₂ :=
  evaluates_loop_end (hround.bind (.ret _ _ _))

theorem evaluates_exceptLoop_raise
    (hround : Evaluates oracle (body a).run s₁ h₁ (.error e) s₂ h₂) :
    Evaluates oracle (exceptLoop body a).run s₁ h₁ (.error e) s₂ h₂ :=
  evaluates_loop_end (hround.bind (.ret _ _ _))

/-- A round goes on with a smaller variant, or it ends the loop, by a result or by raising. -/
def RoundKeeps (Inv : Nat → α → σ → History A → Prop) (Post : Except ε β → σ → History A → Prop)
    (n : Nat) : Except ε (α ⊕ β) → σ → History A → Prop
  | .ok (.inl a), s, h => ∃ m, m < n ∧ Inv m a s h
  | .ok (.inr b), s, h => Post (.ok b) s h
  | .error e, s, h => Post (.error e) s h

/-- Loops whose rounds may raise end. -/
theorem evaluates_exceptLoop
    (Inv : Nat → α → σ → History A → Prop) (Post : Except ε β → σ → History A → Prop)
    (hround : ∀ n a s h, Inv n a s h →
      ∃ r s' h', Evaluates oracle (body a).run s h r s' h' ∧ RoundKeeps Inv Post n r s' h')
    {n : Nat}
    (hinv : Inv n a s h) :
    ∃ r s' h', Evaluates oracle (exceptLoop body a).run s h r s' h' ∧ Post r s' h' := by
  induction n using Nat.strong_induction_on generalizing a s h with
  | _ n ih =>
      obtain ⟨r, s₁, h₁, hbody, hkeeps⟩ := hround n a s h hinv
      rcases r with e | a' | b
      · exact ⟨.error e, s₁, h₁, evaluates_exceptLoop_raise hbody, hkeeps⟩
      · obtain ⟨m, hlt, hinv'⟩ := hkeeps
        obtain ⟨r, s₂, h₂, hrest, hpost⟩ := ih m hlt hinv'
        exact ⟨r, s₂, h₂, evaluates_exceptLoop_continue hbody hrest, hpost⟩
      · exact ⟨.ok b, s₁, h₁, evaluates_exceptLoop_end hbody, hkeeps⟩

end Loops

end Raising

end Proc
end Base
end Bluetape
