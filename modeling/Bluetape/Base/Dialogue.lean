import Mathlib.Data.List.Infix
import Mathlib.Tactic

/-!
# Dialogues

A dialogue asks questions, one after the other, and ends with a result; the next
question may depend on all answers.  It is a well-founded tree, so that it ends
whatever the answers are.

The rules are about histories, newest exchange first:

* `Obeys.bind`, `Obeys.and`: a dialogue asks only what is permitted after its history, and
  ends as a postcondition says;
* `Obeys.play`: so does every play of it, at every exchange;
* `countP_le_of_permitted`: a budget that every exchange keeps is kept by the history.
-/

namespace Bluetape
namespace Base

/-- Questions from `Q`, answered in `A`, with a result at the end. -/
inductive Dialogue (Q : Type) (A : Q → Type) (ρ : Type) : Type
  | done (r : ρ) : Dialogue Q A ρ
  | ask (q : Q) (next : A q → Dialogue Q A ρ) : Dialogue Q A ρ

namespace Dialogue

variable {Q : Type} {A : Q → Type} {α β ρ : Type}

/-- A question with its answer. -/
abbrev Exchange (A : Q → Type) :=
  (q : Q) × A q

/-- The exchanges so far, newest first. -/
abbrev History (A : Q → Type) :=
  List (Exchange A)

/-- Go on with the result. -/
def bind : Dialogue Q A α → (α → Dialogue Q A β) → Dialogue Q A β
  | done r, f => f r
  | ask q k, f => ask q fun a => (k a).bind f

instance : Monad (Dialogue Q A) where
  pure := done
  bind := bind

theorem bind_assoc
    {γ : Type} (d : Dialogue Q A α) (f : α → Dialogue Q A β) (g : β → Dialogue Q A γ) :
    (d.bind f).bind g = d.bind fun a => (f a).bind g := by
  induction d with
  | done r =>
      rfl
  | ask q k ih =>
      exact congrArg (ask q) (funext ih)

/-- One question, whose answer is the result. -/
def request (q : Q) : Dialogue Q A (A q) :=
  ask q done

/-- The result of a dialogue and its history; the oracle knows the history. -/
def play (oracle : History A → (q : Q) → A q) : Dialogue Q A ρ → History A → ρ × History A
  | done r, h => (r, h)
  | ask q k, h => play oracle (k (oracle h q)) (⟨q, oracle h q⟩ :: h)

/--
After a history, the dialogue asks only what is permitted, whatever the answers
are, and ends in the postcondition.
-/
def Obeys (P : History A → Q → Prop) (Post : ρ → History A → Prop) :
    Dialogue Q A ρ → History A → Prop
  | done r, h => Post r h
  | ask q k, h => P h q ∧ ∀ a, (k a).Obeys P Post (⟨q, a⟩ :: h)

variable {P : History A → Q → Prop}

/-- Sequencing: what the first dialogue establishes is what the second starts from. -/
theorem Obeys.bind
    {Post : α → History A → Prop} {Post' : β → History A → Prop}
    {d : Dialogue Q A α} {f : α → Dialogue Q A β} {h : History A}
    (hd : d.Obeys P Post h)
    (hf : ∀ r h', Post r h' → (f r).Obeys P Post' h') :
    (d >>= f).Obeys P Post' h := by
  induction d generalizing h with
  | done r =>
      exact hf r h hd
  | ask q k ih =>
      exact ⟨hd.1, fun a => ih a (hd.2 a)⟩

/-- Two permissions and two postconditions of one dialogue. -/
theorem Obeys.and
    {P' : History A → Q → Prop} {Post Post' : ρ → History A → Prop} {d : Dialogue Q A ρ}
    {h : History A}
    (hd : d.Obeys P Post h)
    (hd' : d.Obeys P' Post' h) :
    d.Obeys (fun h q => P h q ∧ P' h q) (fun r h => Post r h ∧ Post' r h) h := by
  induction d generalizing h with
  | done r =>
      exact ⟨hd, hd'⟩
  | ask q k ih =>
      exact ⟨⟨hd.1, hd'.1⟩, fun a => ih a (hd.2 a) (hd'.2 a)⟩

/-- A question and what follows its answer. -/
theorem obeys_request_bind
    {Post : ρ → History A → Prop} {q : Q} {f : A q → Dialogue Q A ρ} {h : History A}
    (hq : P h q)
    (hf : ∀ a, (f a).Obeys P Post (⟨q, a⟩ :: h)) :
    (request q >>= f).Obeys P Post h :=
  ⟨hq, hf⟩

/-- Every exchange of a history was permitted. -/
def Permitted (P : History A → Q → Prop) (h : History A) : Prop :=
  ∀ e h', e :: h' <:+ h → P h' e.1

theorem permitted_nil :
    Permitted P ([] : History A) := by
  intro e h' hsuffix
  simp at hsuffix

theorem Permitted.cons
    {h : History A} {q : Q}
    (hpermitted : Permitted P h)
    (hq : P h q) (a : A q) :
    Permitted P (⟨q, a⟩ :: h) := by
  intro e h' hsuffix
  rcases List.suffix_cons_iff.mp hsuffix with heq | hsuffix
  · obtain ⟨rfl, rfl⟩ := List.cons.inj heq
    exact hq
  · exact hpermitted e h' hsuffix

/-- **A play of an obedient dialogue**: it ends in the postcondition, every exchange permitted. -/
theorem Obeys.play
    {Post : ρ → History A → Prop} {d : Dialogue Q A ρ} {h : History A}
    (hd : d.Obeys P Post h)
    (hpermitted : Permitted P h)
    (oracle : History A → (q : Q) → A q) :
    Post (d.play oracle h).1 (d.play oracle h).2 ∧ Permitted P (d.play oracle h).2 := by
  induction d generalizing h with
  | done r =>
      exact ⟨hd, hpermitted⟩
  | ask q k ih =>
      exact ih (oracle h q) (hd.2 _) (hpermitted.cons hd.1 _)

/-- A budget for some questions, which every exchange keeps, is kept. -/
theorem countP_le_of_permitted
    {p : Exchange A → Bool} {n : Nat} {h : History A}
    (hpermitted : Permitted P h)
    (hbudget : ∀ h' e, P h' e.1 → p e = true → h'.countP p < n) :
    h.countP p ≤ n := by
  induction h with
  | nil =>
      exact Nat.zero_le n
  | cons e h ih =>
      rw [List.countP_cons]
      split
      case isTrue hp =>
        exact hbudget h e (hpermitted e h (List.suffix_refl _)) hp
      case isFalse =>
        exact ih fun e' h' hsuffix => hpermitted e' h' (hsuffix.trans (List.suffix_cons e h))

end Dialogue
end Base
end Bluetape
