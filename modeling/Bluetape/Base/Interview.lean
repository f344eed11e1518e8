import Bluetape.Base.Recording

/-!
# Dialogues as threads

Threads whose programs are dialogues, over a shared world that answers them.  What a dialogue
permits itself after its history restricts the questions that reach the world, and what its
postcondition says holds of every thread that has ended.

* `Following`: a thread that is in an obedient dialogue, with the history of its answers;
* `interview_invariant`: an invariant of the world and of all histories, from the questions
  that are permitted;
* `chronicle`: the same for a property of the run that has led to the world;
* `turn_ask`, `turn_answer`, `turn_env`: a run, step by step, as one dialogue goes on.
-/

namespace Bluetape
namespace Base

open Dialogue Base.System

variable {T G σ Λ Q E : Type} {A : Q → Type} {ρ : Type}

/-- A dialogue as the program of a thread. -/
def Dialogue.toProc : Dialogue Q A ρ → Proc σ Λ Q A ρ
  | .done r => .ret r
  | .ask q next => .ask q fun a => (next a).toProc

/-- The thread is in a dialogue that obeys after the history, perhaps with a question open. -/
inductive Following (P : History A → Q → Prop) (Post : ρ → History A → Prop) :
    Thread σ Λ Q A ρ → History A → Prop
  | running {h : History A} (d : Dialogue Q A ρ) :
      d.Obeys P Post h → Following P Post (.running d.toProc) h
  | waiting {h : History A} (q : Q) (next : A q → Dialogue Q A ρ) :
      P h q → (∀ a, (next a).Obeys P Post (⟨q, a⟩ :: h)) →
      Following P Post (.waiting q fun a => (next a).toProc) h

namespace Following

variable {P : History A → Q → Prop} {Post : ρ → History A → Prop} {h : History A}

/-- What has ended is in the postcondition. -/
theorem ended
    {r : ρ}
    (hfollowing : Following (σ := σ) (Λ := Λ) P Post (.running (.ret r)) h) :
    Post r h := by
  generalize hth : Thread.running (Proc.ret r) = th at hfollowing
  cases hfollowing with
  | running d hobeys =>
      cases d with
      | done r' =>
          cases hth
          exact hobeys
      | ask q next =>
          cases hth
  | waiting q next hq hobeys =>
      cases hth

/-- A thread to which every question is forbidden has ended. -/
theorem ended_of_forbidden
    {th : Thread σ Λ Q A ρ}
    (hfollowing : Following P Post th h)
    (hforbidden : ∀ q, ¬ P h q) :
    ∃ r, th = .running (.ret r) ∧ Post r h := by
  cases hfollowing with
  | running d hobeys =>
      cases d with
      | done r => exact ⟨r, rfl, hobeys⟩
      | ask q next => exact absurd hobeys.1 (hforbidden q)
  | waiting q next hq hobeys =>
      exact absurd hq (hforbidden q)

/-- A question is permitted when it is asked, and the thread waits for its answer. -/
theorem ask
    {q : Q} {k : A q → Proc σ Λ Q A ρ}
    (hfollowing : Following P Post (.running (.ask q k)) h) :
    P h q ∧ Following P Post (.waiting q k) h := by
  generalize hth : Thread.running (Proc.ask q k) = th at hfollowing
  cases hfollowing with
  | running d hobeys =>
      cases d with
      | done r =>
          cases hth
      | ask q' next =>
          cases hth
          exact ⟨hobeys.1, .waiting q next hobeys.1 hobeys.2⟩
  | waiting q next hq hobeys =>
      cases hth

/-- An answer is to a permitted question, and the dialogue goes on. -/
theorem answer
    {q : Q} {k : A q → Proc σ Λ Q A ρ}
    (hfollowing : Following P Post (.waiting q k) h) (a : A q) :
    P h q ∧ Following P Post (.running (k a)) (⟨q, a⟩ :: h) := by
  generalize hth : Thread.waiting q k = th at hfollowing
  cases hfollowing with
  | running d hobeys =>
      cases hth
  | waiting q' next hq hobeys =>
      cases hth
      exact ⟨hq, .running (next a) (hobeys a)⟩

theorem not_atomic
    {l : Λ} {f : σ → σ} {k : σ → Proc σ Λ Q A ρ} :
    ¬ Following P Post (.running (.atomic l f k)) h := by
  intro hfollowing
  generalize hth : Thread.running (Proc.atomic l f k) = th at hfollowing
  cases hfollowing with
  | running d hobeys => cases d <;> cases hth
  | waiting q next hq hobeys => cases hth

theorem not_iter
    {α β : Type} {body : α → Proc σ Λ Q A (α ⊕ β)} {a : α} {k : β → Proc σ Λ Q A ρ} :
    ¬ Following P Post (.running (.iter body a k)) h := by
  intro hfollowing
  generalize hth : Thread.running (Proc.iter body a k) = th at hfollowing
  cases hfollowing with
  | running d hobeys => cases d <;> cases hth
  | waiting q next hq hobeys => cases hth

end Following

section Runs

variable [DecidableEq T] {S : System T G σ Λ Q E A}
  {P : T → History A → Q → Prop} {Post : T → ρ → History A → Prop}

/-- Every thread is in an obedient dialogue. -/
def AllFollowing (P : T → History A → Q → Prop) (Post : T → ρ → History A → Prop)
    (c : Pool T G σ Λ Q A ρ) (heard : T → History A) : Prop :=
  ∀ t, Following (P t) (Post t) (c.thread t) (heard t)

/-- An invariant of the world and of what was heard, under permitted questions. -/
structure Interviewed (S : System T G σ Λ Q E A) (P : T → History A → Q → Prop)
    (I : G → (T → History A) → Prop) : Prop where
  issue : ∀ t q g g' heard, I g heard → P t (heard t) q → S.issue t q g = some g' → I g' heard
  answer : ∀ t q a g g' heard, I g heard → P t (heard t) q → S.answer t q a g = some g' →
    I g' (Function.update heard t (⟨q, a⟩ :: heard t))
  env : ∀ e g g' heard, I g heard → S.env e g = some g' → I g' heard

theorem trivial_interviewed
    (S : System T G σ Λ Q E A) (P : T → History A → Q → Prop) :
    Interviewed S P fun _ _ => True :=
  ⟨fun _ _ _ _ _ _ _ _ => trivial, fun _ _ _ _ _ _ _ _ _ => trivial,
    fun _ _ _ _ _ _ => trivial⟩

theorem AllFollowing.update
    {c : Pool T G σ Λ Q A ρ} {heard : T → History A}
    (h : AllFollowing P Post c heard)
    {t : T} {th : Thread σ Λ Q A ρ} {log : History A} (g : G)
    (hth : Following (P t) (Post t) th log) :
    AllFollowing P Post ⟨g, Function.update c.thread t th⟩ (Function.update heard t log) := by
  intro u
  by_cases hu : u = t
  · subst hu
    simpa using hth
  · simpa [Function.update_of_ne hu] using h u

/-- One step of a pool of dialogues. -/
theorem interview_step
    {I : G → (T → History A) → Prop} {c c' : Pool T G σ Λ Q A ρ} {heard : T → History A}
    {l : PoolLabel T Λ Q E A}
    (hI : Interviewed S P I)
    (hfollowing : AllFollowing P Post c heard)
    (hworld : I c.world heard)
    (hstep : PoolStep S c l c') :
    AllFollowing P Post c' (hear heard l) ∧ I c'.world (hear heard l) := by
  cases hstep with
  | thread t act g' th' hthread =>
      have hown := hfollowing t
      generalize hth : c.thread t = th at hthread hown
      cases hthread with
      | atomic _ lab f k hen =>
          exact absurd hown Following.not_atomic
      | ask _ _ q k hissue =>
          obtain ⟨hq, hwaiting⟩ := hown.ask
          refine ⟨?_, hI.issue t q _ _ heard hworld hq hissue⟩
          have hsame : Function.update heard t (heard t) = heard := Function.update_eq_self t heard
          have hall := hfollowing.update g' hwaiting
          rwa [hsame] at hall
      | answer _ _ q a k hanswer =>
          obtain ⟨hq, hrunning⟩ := hown.answer a
          exact ⟨hfollowing.update g' hrunning, hI.answer t q a _ _ heard hworld hq hanswer⟩
      | unroll _ body a k =>
          exact absurd hown Following.not_iter
  | env e g' henv =>
      exact ⟨hfollowing, hI.env e _ _ heard hworld henv⟩

/-- **The invariant holds in every run**, and every thread stays in its dialogue. -/
theorem interview_invariant
    {I : G → (T → History A) → Prop} {c c' : Pool T G σ Λ Q A ρ} {heard : T → History A}
    {ls : List (PoolLabel T Λ Q E A)}
    (hI : Interviewed S P I)
    (hrun : Run (PoolStep S) c ls c')
    (hfollowing : AllFollowing P Post c heard)
    (hworld : I c.world heard) :
    AllFollowing P Post c' (ls.foldl hear heard) ∧ I c'.world (ls.foldl hear heard) := by
  induction hrun generalizing heard with
  | nil c =>
      exact ⟨hfollowing, hworld⟩
  | cons hstep _ ih =>
      obtain ⟨hfollowing', hworld'⟩ := interview_step hI hfollowing hworld hstep
      exact ih hfollowing' hworld'

/--
A property of the labels so far and of the world, under permitted questions; it may refer to
the run that has led to the world.
-/
structure Chronicled (S : System T G σ Λ Q E A) (P : T → History A → Q → Prop)
    (start : Pool T G σ Λ Q A ρ) (I : List (PoolLabel T Λ Q E A) → G → Prop) : Prop where
  issue : ∀ ls c t q g', Run (PoolStep S) start ls c → I ls c.world → P t (told ls t) q →
    S.issue t q c.world = some g' → I (ls ++ [.thread t (.asked q)]) g'
  answer : ∀ ls c t q a g', Run (PoolStep S) start ls c → I ls c.world → P t (told ls t) q →
    S.answer t q a c.world = some g' → I (ls ++ [.thread t (.answered q a)]) g'
  env : ∀ ls c e g', Run (PoolStep S) start ls c → I ls c.world → S.env e c.world = some g' →
    I (ls ++ [.env e]) g'

theorem chronicle_step
    {start c c' : Pool T G σ Λ Q A ρ} {I : List (PoolLabel T Λ Q E A) → G → Prop}
    {ls : List (PoolLabel T Λ Q E A)} {l : PoolLabel T Λ Q E A}
    (hI : Chronicled S P start I)
    (hrun : Run (PoolStep S) start ls c)
    (hfollowing : AllFollowing P Post c (told ls))
    (hworld : I ls c.world)
    (hstep : PoolStep S c l c') :
    I (ls ++ [l]) c'.world := by
  cases hstep with
  | thread t act g' th' hthread =>
      have hown := hfollowing t
      generalize hth : c.thread t = th at hthread hown
      cases hthread with
      | atomic _ lab f k hen =>
          exact absurd hown Following.not_atomic
      | ask _ _ q k hissue =>
          exact hI.issue ls c t q g' hrun hworld hown.ask.1 hissue
      | answer _ _ q a k hanswer =>
          exact hI.answer ls c t q a g' hrun hworld (hown.answer a).1 hanswer
      | unroll _ body a k =>
          exact absurd hown Following.not_iter
  | env e g' henv =>
      exact hI.env ls c e g' hrun hworld henv

/-- **The property holds at the end of every run**, of the labels of the run. -/
theorem chronicle
    {start c : Pool T G σ Λ Q A ρ} {I : List (PoolLabel T Λ Q E A) → G → Prop}
    {ls : List (PoolLabel T Λ Q E A)}
    (hI : Chronicled S P start I)
    (hrun : Run (PoolStep S) start ls c)
    (hfollowing : AllFollowing P Post start fun _ => [])
    (hworld : I [] start.world) :
    AllFollowing P Post c (told ls) ∧ I ls c.world := by
  have hnext : ∀ ls c l c', (Run (PoolStep S) start ls c ∧ AllFollowing P Post c (told ls) ∧
      I ls c.world) → PoolStep S c l c' → Run (PoolStep S) start (ls ++ [l]) c' ∧
        AllFollowing P Post c' (told (ls ++ [l])) ∧ I (ls ++ [l]) c'.world := by
    rintro ls c l c' ⟨hrun, hfollowing, hworld⟩ hstep
    refine ⟨hrun.append (.single hstep), ?_, chronicle_step hI hrun hfollowing hworld hstep⟩
    rw [told_append]
    exact (interview_step (trivial_interviewed S P) hfollowing trivial hstep).1
  exact (hrun.history hnext ⟨.nil start, hfollowing, hworld⟩).2

end Runs

/-! ## One dialogue among others -/

/-- The pool in which one thread goes on, beside the others. -/
def System.Pool.turn [DecidableEq T] (g : G) (others : T → Thread σ Λ Q A ρ) (t : T)
    (th : Thread σ Λ Q A ρ) : Pool T G σ Λ Q A ρ :=
  ⟨g, Function.update others t th⟩

section Turn

variable [DecidableEq T] {S : System T G σ Λ Q E A} {g g₁ g₂ : G}
  {others : T → Thread σ Λ Q A ρ} {t u : T} {q : Q} {next : A q → Dialogue Q A ρ}
  {ls : List (PoolLabel T Λ Q E A)} {c : Pool T G σ Λ Q A ρ}

@[simp] theorem turn_thread
    (th : Thread σ Λ Q A ρ) :
    (Pool.turn g others t th).thread t = th := by
  simp [Pool.turn]

/-- Nobody has gone on yet. -/
theorem turn_self
    (t : T) :
    Pool.turn g others t (others t) = ⟨g, others⟩ := by
  simp [Pool.turn]

theorem turn_step
    {th th' : Thread σ Λ Q A ρ} {act : Act Λ Q A}
    (hstep : ThreadStep S t g th act g₁ th') :
    PoolStep S (.turn g others t th) (.thread t act) (.turn g₁ others t th') := by
  have hown : ThreadStep S t g ((Pool.turn g others t th).thread t) act g₁ th' := by
    rwa [turn_thread]
  have hpool := PoolStep.thread (S := S) (.turn g others t th) t act g₁ th' hown
  have hsame : Function.update (Pool.turn g others t th).thread t th' =
      Function.update others t th' := Function.update_idem ..
  rwa [hsame] at hpool

/-- A question of a dialogue is asked; the rest of the run starts with the answer open. -/
theorem turn_ask
    (hissue : S.issue t q g = some g₁)
    (hrest : Run (PoolStep S) (.turn g₁ others t (.waiting q fun a => (next a).toProc)) ls c) :
    Run (PoolStep S) (.turn g others t (.running (Dialogue.ask q next).toProc))
      (.thread t (.asked q) :: ls) c :=
  .cons (turn_step (.ask g g₁ q _ hissue)) hrest

/-- A question of a dialogue is answered; the rest of the run starts after it. -/
theorem turn_answer
    {a : A q}
    (hanswer : S.answer t q a g = some g₁)
    (hrest : Run (PoolStep S) (.turn g₁ others t (.running (next a).toProc)) ls c) :
    Run (PoolStep S) (.turn g others t (.waiting q fun a => (next a).toProc))
      (.thread t (.answered q a) :: ls) c :=
  .cons (turn_step (.answer g g₁ q a _ hanswer)) hrest

/-- Something happens around the dialogues. -/
theorem turn_env
    {e : E} {th : Thread σ Λ Q A ρ}
    (henv : S.env e g = some g₁)
    (hrest : Run (PoolStep S) (.turn g₁ others t th) ls c) :
    Run (PoolStep S) (.turn g others t th) (.env e :: ls) c :=
  .cons (.env (.turn g others t th) e g₁ henv) hrest

/-- A question and its answer. -/
theorem turn_talk
    {a : A q}
    (hissue : S.issue t q g = some g₁)
    (hanswer : S.answer t q a g₁ = some g₂)
    (hrest : Run (PoolStep S) (.turn g₂ others t (.running (next a).toProc)) ls c) :
    Run (PoolStep S) (.turn g others t (.running (Dialogue.ask q next).toProc))
      (.thread t (.asked q) :: .thread t (.answered q a) :: ls) c :=
  turn_ask hissue (turn_answer hanswer hrest)

/-- Another thread goes on, from where it is. -/
theorem turn_other
    {th th' : Thread σ Λ Q A ρ}
    (hu : Function.update others t th u = th')
    (hrest : Run (PoolStep S) (.turn g (Function.update others t th) u th') ls c) :
    Run (PoolStep S) (.turn g others t th) ls c := by
  have hsame : Pool.turn g (Function.update others t th) u th' = .turn g others t th := by
    unfold Pool.turn
    rw [← hu, Function.update_eq_self]
  rwa [hsame] at hrest

end Turn

end Base
end Bluetape
