import Bluetape.Base.Dialogue
import Bluetape.Base.Proc

/-!
# What the threads were told

A world that keeps what every thread was told, and how many sections it has executed.  No
section reads the record, so that a run and its recorded run take the same steps; the record
is a function of the labels of the run.

* `told`: the answers to every thread, from the labels of a run;
* `recorded`: the system that keeps them;
* `recorded_run`: every run is recorded.
-/

namespace Bluetape
namespace Base
namespace System

open Dialogue

variable {T G σ Λ Q E : Type} {A : Q → Type} {ρ : Type} [DecidableEq T]

/-- A label that answers a question adds to what the thread was told, newest answer first. -/
def hear (told : T → History A) : PoolLabel T Λ Q E A → T → History A
  | .thread t (.answered q a) => Function.update told t (⟨q, a⟩ :: told t)
  | _ => told

/-- What every thread was told in a run. -/
def told (ls : List (PoolLabel T Λ Q E A)) : T → History A :=
  ls.foldl hear fun _ => []

/-- A world with its record. -/
structure Recorded (T G : Type) {Q : Type} (A : Q → Type) where
  world : G
  told : T → History A
  sections : T → Nat

/-- The same system with a record of what happens. -/
def recorded (S : System T G σ Λ Q E A) : System T (Recorded T G A) σ Λ Q E A where
  view t r := S.view t r.world
  put t s r :=
    { r with
      world := S.put t s r.world
      sections := Function.update r.sections t (r.sections t + 1) }
  enabled t l r := S.enabled t l r.world
  issue t q r := (S.issue t q r.world).map fun w => { r with world := w }
  answer t q a r := (S.answer t q a r.world).map fun w =>
    { r with
      world := w
      told := Function.update r.told t (⟨q, a⟩ :: r.told t) }
  env e r := (S.env e r.world).map fun w => { r with world := w }

/-- Nothing recorded yet. -/
def Pool.recorded (c : Pool T G σ Λ Q A ρ) : Pool T (Recorded T G A) σ Λ Q A ρ :=
  ⟨⟨c.world, fun _ => [], fun _ => 0⟩, c.thread⟩

section Runs

variable {S : System T G σ Λ Q E A} {c c' : Pool T G σ Λ Q A ρ}

theorem recorded_step
    {l : PoolLabel T Λ Q E A}
    (hstep : PoolStep S c l c')
    (heard : T → History A) (sections : T → Nat) :
    ∃ sections', PoolStep S.recorded ⟨⟨c.world, heard, sections⟩, c.thread⟩ l
      ⟨⟨c'.world, hear heard l, sections'⟩, c'.thread⟩ := by
  cases hstep with
  | thread t act g' th' hthread =>
      generalize hth : c.thread t = th at hthread
      cases hthread with
      | atomic _ lab f k hen =>
          have hown : ThreadStep S.recorded t ⟨c.world, heard, sections⟩
              (.running (.atomic lab f k)) (.atomic lab)
              ⟨S.put t (f (S.view t c.world)) c.world, heard,
                Function.update sections t (sections t + 1)⟩
              (.running (k (S.view t c.world))) :=
            .atomic _ lab f k hen
          exact ⟨_, .thread _ t _ _ _ (hth ▸ hown)⟩
      | ask _ _ q k hissue =>
          refine ⟨sections, .thread _ t (.asked q) _ _ ?_⟩
          rw [hth]
          exact .ask _ _ q k (congrArg (Option.map _) hissue)
      | answer _ _ q a k hanswer =>
          refine ⟨sections, .thread _ t (.answered q a) _ _ ?_⟩
          rw [hth]
          exact .answer _ _ q a k (congrArg (Option.map _) hanswer)
      | unroll _ body a k =>
          refine ⟨sections, .thread _ t .unrolled _ _ ?_⟩
          rw [hth]
          exact .unroll _ body a k
  | env e g' henv =>
      exact ⟨sections, .env _ e _ (congrArg (Option.map _) henv)⟩

/-- **Every run is recorded**, and the record is what its labels say. -/
theorem recorded_run
    {ls : List (PoolLabel T Λ Q E A)}
    (hrun : Run (PoolStep S) c ls c')
    (heard : T → History A) (sections : T → Nat) :
    ∃ sections', Run (PoolStep S.recorded) ⟨⟨c.world, heard, sections⟩, c.thread⟩ ls
      ⟨⟨c'.world, ls.foldl hear heard, sections'⟩, c'.thread⟩ := by
  induction hrun generalizing heard sections with
  | nil c =>
      exact ⟨sections, .nil _⟩
  | @cons c₁ c₂ c₃ l ls hstep _ ih =>
      obtain ⟨sections₁, hstep'⟩ := recorded_step hstep heard sections
      obtain ⟨sections₂, hrun'⟩ := ih (hear heard l) sections₁
      exact ⟨sections₂, .cons hstep' hrun'⟩

theorem told_append
    (ls : List (PoolLabel T Λ Q E A)) (l : PoolLabel T Λ Q E A) :
    told (ls ++ [l]) = hear (told ls) l := by
  simp [told, List.foldl_append]

@[simp] theorem told_asked
    (ls : List (PoolLabel T Λ Q E A)) (t : T) (q : Q) :
    told (ls ++ [.thread t (.asked q)]) = told ls := by
  rw [told_append]
  rfl

@[simp] theorem told_answered
    (ls : List (PoolLabel T Λ Q E A)) (t : T) (q : Q) (a : A q) :
    told (ls ++ [.thread t (.answered q a)]) =
      Function.update (told ls) t (⟨q, a⟩ :: told ls t) := by
  rw [told_append]
  rfl

@[simp] theorem told_env
    (ls : List (PoolLabel T Λ Q E A)) (e : E) :
    told (ls ++ [.env e]) = told ls := by
  rw [told_append]
  rfl

/-- What a thread was told is an answer of the run, or was known before. -/
theorem mem_foldl_hear
    {ls : List (PoolLabel T Λ Q E A)} {heard : T → History A} {t : T} {q : Q} {a : A q}
    (h : ⟨q, a⟩ ∈ ls.foldl hear heard t) :
    ⟨q, a⟩ ∈ heard t ∨ .thread t (.answered q a) ∈ ls := by
  induction ls generalizing heard with
  | nil =>
      exact .inl h
  | cons l ls ih =>
      rcases ih h with hheard | hrest
      · cases l with
        | env e =>
            exact .inl hheard
        | thread u act =>
            cases act with
            | answered q' a' =>
                by_cases hu : t = u
                · subst hu
                  simp only [hear, Function.update_self, List.mem_cons] at hheard
                  rcases hheard with heq | hheard
                  · cases heq
                    exact .inr List.mem_cons_self
                  · exact .inl hheard
                · simp only [hear, Function.update_of_ne hu] at hheard
                  exact .inl hheard
            | _ =>
                exact .inl hheard
      · exact .inr (List.mem_cons_of_mem l hrest)

theorem mem_told
    {ls : List (PoolLabel T Λ Q E A)} {t : T} {q : Q} {a : A q}
    (h : ⟨q, a⟩ ∈ told ls t) :
    .thread t (.answered q a) ∈ ls :=
  (mem_foldl_hear h).resolve_left List.not_mem_nil

end Runs

end System
end Base
end Bluetape
