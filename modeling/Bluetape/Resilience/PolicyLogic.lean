import Bluetape.Resilience.Core

/-!
# Reasoning about the programs of a policy

Rules for the building blocks of `Resilience.Core`, for any system in which
the questions to the caller and the waits for the lock change nothing.

* `wp_then`, `wp_catch`: sequencing and exception handlers;
* `wp_quiet`: programs without sections keep every stable assertion;
* `wp_preservingCancellation`: the release loop ends with its release done.
-/

namespace Bluetape
namespace Resilience

open Base

/-- A postcondition from one for results and one for exceptions. -/
def Outcome {G α : Type} (Returns : α → G → Prop) (Raises : Raised → G → Prop) :
    Except Raised α → G → Prop
  | .ok a => Returns a
  | .error e => Raises e

/-- The questions that are not waits for the condition variable. -/
def Question.Outside : Question → Prop
  | wait _ | awaitWait => False
  | _ => True

section Rules

variable {T G E σ Λ ν : Type}
variable {S : System T G σ Λ Question E (Question.Answer ν)}
variable {guar : T → Act Λ Question (Question.Answer ν) → G → G → Prop} {t : T}
variable {α β : Type} {g : G}

/-- A thread's questions to the outside change nothing and keep its guarantee. -/
structure AsksFreely (S : System T G σ Λ Question E (Question.Answer ν))
    (guar : T → Act Λ Question (Question.Answer ν) → G → G → Prop) (t : T) : Prop where
  issue : ∀ q g g', q.Outside → S.issue t q g = some g' → g' = g ∧ guar t (.asked q) g g
  answer : ∀ q a g g', q.Outside → S.answer t q a g = some g' →
    g' = g ∧ guar t (.answered q a) g g

theorem wp_then
    {p : Prog σ Λ ν α} {next : α → Prog σ Λ ν β} {Φ : Except Raised β → G → Prop}
    (Mid : α → G → Prop) (Raises : Raised → G → Prop)
    (hp : S.wp guar t p.run (Outcome Mid Raises) g)
    (hnext : ∀ a g, Mid a g → S.wp guar t (next a).run Φ g)
    (hraise : ∀ e g, Raises e g → S.Stably guar t (Φ (.error e)) g) :
    S.wp guar t (p >>= next).run Φ g := by
  refine System.wp_except_bind p next (System.wp_mono p.run ?_ hp)
  rintro (e | a) g' hmid
  · exact hraise e g' hmid
  · exact hnext a g' hmid

theorem wp_catch
    {p : Prog σ Λ ν α} {handle : Raised → Prog σ Λ ν α} {Φ : Except Raised α → G → Prop}
    (Returns : α → G → Prop) (Raises : Raised → G → Prop)
    (hp : S.wp guar t p.run (Outcome Returns Raises) g)
    (hreturn : ∀ a g, Returns a g → S.Stably guar t (Φ (.ok a)) g)
    (hhandle : ∀ e g, Raises e g → S.wp guar t (handle e).run Φ g) :
    S.wp guar t (tryCatch p handle).run Φ g := by
  refine System.wp_bind p.run _ (System.wp_mono p.run ?_ hp)
  rintro (e | a) g' hmid
  · exact hhandle e g' hmid
  · exact hreturn a g' hmid

theorem wp_throw
    {P : G → Prop} {Φ : Except Raised α → G → Prop}
    (hstable : S.Stable guar t P)
    (e : Raised)
    (hΦ : ∀ g, P g → Φ (.error e) g)
    (hg : P g) :
    S.wp guar t (throw e : Prog σ Λ ν α).run Φ g :=
  System.wp_ret hstable hΦ hg

theorem wp_return
    {P : G → Prop} {Φ : Except Raised α → G → Prop}
    (hstable : S.Stable guar t P)
    (a : α)
    (hΦ : ∀ g, P g → Φ (.ok a) g)
    (hg : P g) :
    S.wp guar t (pure a : Prog σ Λ ν α).run Φ g :=
  System.wp_ret hstable hΦ hg

/-- One section. -/
theorem wp_locked
    {P : G → Prop} {label : Λ} {f : σ → α × σ} {Φ : Except Raised α → G → Prop}
    (hstable : S.Stable guar t P)
    (hstep : ∀ g, P g →
      guar t (.atomic label) g (S.put t (f (S.view t g)).2 g) ∧
      S.Stably guar t (Φ (.ok (f (S.view t g)).1)) (S.put t (f (S.view t g)).2 g))
    (hg : P g) :
    S.wp guar t (locked label f : Prog σ Λ ν α).run Φ g := by
  refine System.wp_except_lift _ (System.wp_atomically hstable (fun g hP _ => ?_) hg)
  obtain ⟨hguar, hΦ⟩ := hstep g hP
  exact ⟨hguar, fun g' hg' => hΦ.later hg'⟩

/-! ## Programs without sections -/

/-- The program has no sections and asks the outside only. -/
def IsQuiet (p : Prog σ Λ ν α) : Prop :=
  p.run.All (fun _ _ => False) Question.Outside

theorem isQuiet_throw
    (e : Raised) :
    IsQuiet (throw e : Prog σ Λ ν α) :=
  trivial

theorem isQuiet_asking
    {q : Question}
    (hq : q.Outside) :
    IsQuiet (asking q : Prog σ Λ ν (q.Answer ν)) :=
  ⟨hq, fun _ => trivial⟩

theorem isQuiet_orRaise
    (r : Except Raised α) :
    IsQuiet (orRaise r : Prog σ Λ ν α) := by
  cases r <;> trivial

theorem isQuiet_raiseWhen
    (condition : Bool) (e : Raised) :
    IsQuiet (raiseWhen condition e : Prog σ Λ ν Unit) := by
  cases condition <;> trivial

theorem IsQuiet.bind
    {p : Prog σ Λ ν α} {next : α → Prog σ Λ ν β}
    (hp : IsQuiet p)
    (hnext : ∀ a, IsQuiet (next a)) :
    IsQuiet (p >>= next) :=
  Proc.All.except_bind hp hnext

theorem isQuiet_checkOperation :
    IsQuiet (checkOperation : Prog σ Λ ν Unit) :=
  .bind (isQuiet_asking trivial) isQuiet_orRaise

theorem isQuiet_emit
    (observed : Bool) (event : PolicyEvent) :
    IsQuiet (emit observed event : Prog σ Λ ν Unit) := by
  cases observed with
  | false => trivial
  | true => exact .bind (isQuiet_asking trivial) isQuiet_orRaise

theorem isQuiet_awaitLock :
    IsQuiet (awaitLock : Prog σ Λ ν Unit) :=
  .bind (isQuiet_asking trivial) fun _ => isQuiet_raiseWhen _ _

/-- A program without sections keeps every stable assertion. -/
theorem wp_quiet
    {P : G → Prop} {p : Prog σ Λ ν α}
    (hask : AsksFreely S guar t)
    (hstable : S.Stable guar t P)
    (hp : IsQuiet p)
    (hg : P g) :
    S.wp guar t p.run (Outcome (fun _ => P) (fun _ => P)) g := by
  refine System.wp_mono p.run ?_ (System.wp_of_all (I := P) hstable ?_ ?_ ?_ hp hg)
  · rintro (e | a) g' hP
    · exact hP
    · exact hP
  · exact fun _ _ _ hfalse => hfalse.elim
  · intro q g g' hq hP hissue
    obtain ⟨rfl, hguar⟩ := hask.issue q g g' hq hissue
    exact ⟨hguar, hP⟩
  · intro q a g g' hq hP hanswer
    obtain ⟨rfl, hguar⟩ := hask.answer q a g g' hq hanswer
    exact ⟨hguar, hP⟩

/-- A question never raises by itself. -/
theorem wp_asking
    {P : G → Prop} {q : Question}
    (hask : AsksFreely S guar t)
    (hstable : S.Stable guar t P)
    (hq : q.Outside)
    (hg : P g) :
    S.wp guar t (asking q : Prog σ Λ ν (q.Answer ν)).run
      (Outcome (fun _ => P) (fun _ _ => False)) g := by
  refine System.wp_except_lift _ (System.wp_ask hstable hstable ?_ ?_ hg)
  · intro g g' hP hissue
    obtain ⟨rfl, hguar⟩ := hask.issue q g g' hq hissue
    exact ⟨hguar, hP⟩
  · intro a g g' hP hanswer
    obtain ⟨rfl, hguar⟩ := hask.answer q a g g' hq hanswer
    exact ⟨hguar, System.wp_ret hstable (fun g' hP' => hstable.stably hP') hP⟩

/-- A wait for the lock is granted or cancelled. -/
theorem wp_awaitLock
    {P : G → Prop}
    (hask : AsksFreely S guar t)
    (hstable : S.Stable guar t P)
    (hg : P g) :
    S.wp guar t (awaitLock : Prog σ Λ ν Unit).run
      (Outcome (fun _ => P) (fun e g => e = .cancelled ∧ P g)) g := by
  refine wp_then (fun _ => P) (fun _ _ => False) (wp_asking hask hstable trivial hg) ?_
    (fun _ _ hfalse => hfalse.elim)
  intro granted g' hP
  cases granted with
  | false => exact wp_throw hstable .cancelled (fun _ hP' => ⟨rfl, hP'⟩) hP
  | true => exact wp_return hstable () (fun _ hP' => hP') hP

/-- The release loop: the release is repeated until it is done. -/
theorem wp_preservingCancellation
    {P Done : G → Prop} {release : Prog σ Λ ν α}
    (hstable : S.Stable guar t P)
    (hdone : S.Stable guar t Done)
    (hrelease : ∀ g, P g → S.wp guar t release.run
      (Outcome (fun _ => Done) (fun e g => e = .cancelled ∧ P g)) g)
    (hg : P g) :
    S.wp guar t (preservingCancellation release).run
      (Outcome (fun _ => Done) (fun _ _ => False)) g := by
  refine System.wp_loop (fun _ => P) ?_ hg ?_
  · intro cancelled g hP
    refine System.wp_bind release.run _ (System.wp_mono release.run ?_ (hrelease g hP))
    rintro (e | a) g' hmid
    · obtain ⟨rfl, hP'⟩ := hmid
      exact System.wp_ret hstable (fun _ h => h) hP'
    · exact System.wp_ret hdone (fun _ h => h) hmid
  · rintro (e | a) g' hend
    · exact hend.elim
    · exact hdone.stably hend

end Rules

end Resilience
end Bluetape
