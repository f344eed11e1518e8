import Bluetape.Base.Run
import Mathlib.Logic.Relation

/-!
# Threads over shared state

Programs of threads as resumptions: a program is a sequence of atomic sections
on a shared state and of questions to the outside (a server, a clock, another
library), with loops.  A `System` says what a section of a thread works on,
how a question is issued and answered, and what happens on its own.

The second half is a rely-guarantee logic.  `wp` is the weakest condition
under which a thread keeps its guarantee, whatever the others do within
theirs, and finishes with a given postcondition.  `sound` turns the conditions
of all threads into facts about every step of every run.

* `wp_bind`, `wp_mono`, `wp_stable`: the structural rules;
* `wp_iter`: loops, by an invariant of the loop variable and the world;
* `Pool.sound`: every step of a run keeps its guarantee.
-/

namespace Bluetape
namespace Base

/--
Programs with result type `ρ` over a shared state `σ`.  Sections carry a label
from `Λ`; a question `q` is answered by a value of `A q`.
-/
inductive Proc (σ Λ Q : Type) (A : Q → Type) : Type → Type 1
  | ret {ρ : Type} (r : ρ) : Proc σ Λ Q A ρ
  | atomic {ρ : Type} (label : Λ) (update : σ → σ)
      (next : σ → Proc σ Λ Q A ρ) : Proc σ Λ Q A ρ
  | ask {ρ : Type} (q : Q) (next : A q → Proc σ Λ Q A ρ) : Proc σ Λ Q A ρ
  | iter {α β ρ : Type} (body : α → Proc σ Λ Q A (α ⊕ β)) (start : α)
      (next : β → Proc σ Λ Q A ρ) : Proc σ Λ Q A ρ

namespace Proc

variable {σ Λ Q : Type} {A : Q → Type} {α β ρ : Type}

/-- Run a program and continue with its result. -/
def bind {α β : Type} : Proc σ Λ Q A α → (α → Proc σ Λ Q A β) → Proc σ Λ Q A β
  | ret r, g => g r
  | atomic l f k, g => atomic l f (fun s => (k s).bind g)
  | ask q k, g => ask q (fun a => (k a).bind g)
  | iter body a k, g => iter body a (fun b => (k b).bind g)

instance : Monad (Proc σ Λ Q A) where
  pure := ret
  bind := bind

theorem bind_assoc
    {γ : Type} (p : Proc σ Λ Q A α) (f : α → Proc σ Λ Q A β) (g : β → Proc σ Λ Q A γ) :
    (p.bind f).bind g = p.bind (fun a => (f a).bind g) := by
  induction p with
  | ret r =>
      rfl
  | atomic l u k ih =>
      exact congrArg (atomic l u) (funext fun s => ih s f)
  | ask q k ih =>
      exact congrArg (ask q) (funext fun a => ih a f)
  | iter body a k _ ih =>
      exact congrArg (iter body a) (funext fun b => ih b f)

/-- One section that changes the state and returns a value. -/
def atomically (label : Λ) (f : σ → ρ × σ) : Proc σ Λ Q A ρ :=
  atomic label (fun s => (f s).2) (fun s => ret (f s).1)

/-- One question, whose answer is returned. -/
def request (q : Q) : Proc σ Λ Q A (A q) :=
  ask q ret

/-- Repeat the body until it returns on the right. -/
def loop (body : α → Proc σ Λ Q A (α ⊕ β)) (start : α) : Proc σ Λ Q A β :=
  iter body start ret

/-- A loop whose rounds may raise. -/
def exceptLoop {ε : Type} (body : α → ExceptT ε (Proc σ Λ Q A) (α ⊕ β)) (start : α) :
    ExceptT ε (Proc σ Λ Q A) β :=
  ExceptT.mk (loop (fun a => do
    match ← (body a).run with
    | .ok (.inl a') => return .inl a'
    | .ok (.inr b) => return .inr (.ok b)
    | .error e => return .inr (.error e)) start)

/--
Every section of the program satisfies `P`, whatever the state and the answers
were before it, and every question satisfies `R`.
-/
def All (P : Λ → (σ → σ) → Prop) (R : Q → Prop) :
    {ρ : Type} → Proc σ Λ Q A ρ → Prop
  | _, ret _ => True
  | _, atomic l f k => P l f ∧ ∀ s, All P R (k s)
  | _, ask q k => R q ∧ ∀ a, All P R (k a)
  | _, iter body _ k => (∀ a, All P R (body a)) ∧ ∀ b, All P R (k b)

section All

variable {P : Λ → (σ → σ) → Prop} {R : Q → Prop}

theorem All.bind
    {p : Proc σ Λ Q A α} {g : α → Proc σ Λ Q A β}
    (hp : p.All P R)
    (hg : ∀ a, (g a).All P R) :
    (p.bind g).All P R := by
  induction p with
  | ret r =>
      exact hg r
  | atomic l f k ih =>
      exact ⟨hp.1, fun s => ih s (hp.2 s) hg⟩
  | ask q k ih =>
      exact ⟨hp.1, fun a => ih a (hp.2 a) hg⟩
  | iter body a k _ ihk =>
      exact ⟨hp.1, fun b => ihk b (hp.2 b) hg⟩

theorem All.except_bind
    {ε : Type} {p : ExceptT ε (Proc σ Λ Q A) α}
    {g : α → ExceptT ε (Proc σ Λ Q A) β}
    (hp : p.run.All P R)
    (hg : ∀ a, (g a).run.All P R) :
    (p >>= g).run.All P R := by
  refine All.bind hp ?_
  rintro (e | a)
  · trivial
  · exact hg a

theorem All.loop
    {body : α → Proc σ Λ Q A (α ⊕ β)} {a : α}
    (hbody : ∀ a, (body a).All P R) :
    (Proc.loop body a).All P R :=
  ⟨hbody, fun _ => trivial⟩

end All

end Proc

/-! ## Threads and pools -/

/-- A thread runs a program or waits for the answer to a question. -/
inductive Thread (σ Λ Q : Type) (A : Q → Type) (ρ : Type) : Type 1
  | running (p : Proc σ Λ Q A ρ)
  | waiting (q : Q) (next : A q → Proc σ Λ Q A ρ)

/-- What a thread does in one step. -/
inductive Act (Λ Q : Type) (A : Q → Type)
  | atomic (label : Λ)
  | asked (q : Q)
  | answered (q : Q) (a : A q)
  | unrolled

/--
The world `G` around threads named by `T`: the part a thread's sections work
on, when a section may run, which questions and answers are possible and what
they do, and the events `E` that no thread causes.
-/
structure System (T G σ Λ Q E : Type) (A : Q → Type) where
  view : T → G → σ
  put : T → σ → G → G
  enabled : T → Λ → G → Bool
  issue : T → Q → G → Option G
  answer : T → (q : Q) → A q → G → Option G
  env : E → G → Option G

namespace System

variable {T G σ Λ Q E : Type} {A : Q → Type} {ρ : Type}

/-- The steps of one thread. -/
inductive ThreadStep (S : System T G σ Λ Q E A) (t : T) :
    G → Thread σ Λ Q A ρ → Act Λ Q A → G → Thread σ Λ Q A ρ → Prop
  | atomic (g : G) (l : Λ) (f : σ → σ) (k : σ → Proc σ Λ Q A ρ) :
      S.enabled t l g = true →
      ThreadStep S t g (.running (.atomic l f k)) (.atomic l)
        (S.put t (f (S.view t g)) g) (.running (k (S.view t g)))
  | ask (g g' : G) (q : Q) (k : A q → Proc σ Λ Q A ρ) :
      S.issue t q g = some g' →
      ThreadStep S t g (.running (.ask q k)) (.asked q) g' (.waiting q k)
  | answer (g g' : G) (q : Q) (a : A q) (k : A q → Proc σ Λ Q A ρ) :
      S.answer t q a g = some g' →
      ThreadStep S t g (.waiting q k) (.answered q a) g' (.running (k a))
  | unroll {α β : Type} (g : G) (body : α → Proc σ Λ Q A (α ⊕ β)) (a : α)
      (k : β → Proc σ Λ Q A ρ) :
      ThreadStep S t g (.running (.iter body a k)) .unrolled g
        (.running ((body a).bind (Sum.elim (fun a' => .iter body a' k) k)))

/-- A world with its threads. -/
structure Pool (T G σ Λ Q : Type) (A : Q → Type) (ρ : Type) where
  world : G
  thread : T → Thread σ Λ Q A ρ

/-- What happens in one step of a pool. -/
inductive PoolLabel (T Λ Q E : Type) (A : Q → Type)
  | thread (t : T) (act : Act Λ Q A)
  | env (e : E)

section Steps

variable [DecidableEq T]

/-- One step of a thread or of the system. -/
inductive PoolStep (S : System T G σ Λ Q E A) :
    Pool T G σ Λ Q A ρ → PoolLabel T Λ Q E A → Pool T G σ Λ Q A ρ → Prop
  | thread (c : Pool T G σ Λ Q A ρ) (t : T) (act : Act Λ Q A) (g' : G)
      (th' : Thread σ Λ Q A ρ) :
      ThreadStep S t c.world (c.thread t) act g' th' →
      PoolStep S c (.thread t act) ⟨g', Function.update c.thread t th'⟩
  | env (c : Pool T G σ Λ Q A ρ) (e : E) (g' : G) :
      S.env e c.world = some g' →
      PoolStep S c (.env e) ⟨g', c.thread⟩

/-- What a scheduler decides: who runs, and how a question is answered. -/
inductive Choice (T Q E : Type) (A : Q → Type)
  | run (t : T)
  | answer (t : T) (q : Q) (a : A q)
  | env (e : E)

variable [DecidableEq Q]

/-- Take the chosen step, if it is possible. -/
def choose (S : System T G σ Λ Q E A) (c : Pool T G σ Λ Q A ρ) :
    Choice T Q E A → Option (Pool T G σ Λ Q A ρ)
  | .run t =>
      match c.thread t with
      | .running (.atomic l f k) =>
          if S.enabled t l c.world then
            some ⟨S.put t (f (S.view t c.world)) c.world,
              Function.update c.thread t (.running (k (S.view t c.world)))⟩
          else none
      | .running (.ask q k) =>
          (S.issue t q c.world).map fun g' =>
            ⟨g', Function.update c.thread t (.waiting q k)⟩
      | .running (.iter body a k) =>
          some ⟨c.world, Function.update c.thread t (.running
            ((body a).bind (Sum.elim (fun a' => .iter body a' k) k)))⟩
      | _ => none
  | .answer t q a =>
      match c.thread t with
      | .waiting q' k =>
          if h : q = q' then
            (S.answer t q' (h ▸ a) c.world).map fun g' =>
              ⟨g', Function.update c.thread t (.running (k (h ▸ a)))⟩
          else none
      | _ => none
  | .env e => (S.env e c.world).map fun g' => ⟨g', c.thread⟩

/-- Take the chosen steps in order. -/
def schedule (S : System T G σ Λ Q E A) (c : Pool T G σ Λ Q A ρ) :
    List (Choice T Q E A) → Option (Pool T G σ Λ Q A ρ)
  | [] => some c
  | choice :: rest => (S.choose c choice).bind fun c' => S.schedule c' rest

theorem choose_step
    {S : System T G σ Λ Q E A} {c c' : Pool T G σ Λ Q A ρ}
    {choice : Choice T Q E A}
    (h : S.choose c choice = some c') :
    ∃ l, PoolStep S c l c' := by
  cases choice with
  | run t =>
      simp only [choose] at h
      split at h
      case h_1 l f k hthread =>
          split at h
          case isFalse =>
              simp at h
          case isTrue hen =>
              obtain rfl := Option.some.inj h
              refine ⟨_, .thread c t (.atomic l) _ _ ?_⟩
              rw [hthread]
              exact .atomic _ l f k hen
      case h_2 q k hthread =>
          obtain ⟨g', hissue, rfl⟩ := Option.map_eq_some_iff.mp h
          refine ⟨_, .thread c t (.asked q) g' _ ?_⟩
          rw [hthread]
          exact .ask _ g' q k hissue
      case h_3 body a k hthread =>
          obtain rfl := Option.some.inj h
          refine ⟨_, .thread c t .unrolled _ _ ?_⟩
          rw [hthread]
          exact .unroll _ body a k
      case h_4 =>
          simp at h
  | answer t q a =>
      simp only [choose] at h
      split at h
      case h_1 q' k hthread =>
          split at h
          case isFalse =>
              simp at h
          case isTrue hq =>
              subst hq
              obtain ⟨g', hanswer, rfl⟩ := Option.map_eq_some_iff.mp h
              refine ⟨_, .thread c t (.answered q a) g' _ ?_⟩
              rw [hthread]
              exact .answer _ g' q a k hanswer
      case h_2 =>
          simp at h
  | env e =>
      obtain ⟨g', henv, rfl⟩ := Option.map_eq_some_iff.mp h
      exact ⟨_, .env c e g' henv⟩

/-- A schedule that goes through is a run. -/
theorem schedule_run
    {S : System T G σ Λ Q E A} {c c' : Pool T G σ Λ Q A ρ}
    {choices : List (Choice T Q E A)}
    (h : S.schedule c choices = some c') :
    ∃ ls, Run (PoolStep S) c ls c' := by
  induction choices generalizing c with
  | nil =>
      obtain rfl := Option.some.inj h
      exact ⟨[], .nil c⟩
  | cons choice rest ih =>
      obtain ⟨c₁, hchoose, hrest⟩ := Option.bind_eq_some_iff.mp h
      obtain ⟨l, hstep⟩ := choose_step hchoose
      obtain ⟨ls, hrun⟩ := ih hrest
      exact ⟨l :: ls, .cons hstep hrun⟩

end Steps

/-! ## A single thread -/

section Solo

variable {S : System Unit G σ Λ Q E A}

/-- A pool with one thread. -/
def Pool.solo (g : G) (th : Thread σ Λ Q A ρ) : Pool Unit G σ Λ Q A ρ :=
  ⟨g, fun _ => th⟩

/-- Some run leads from one pool to the other. -/
def Reaches (S : System Unit G σ Λ Q E A) (c c' : Pool Unit G σ Λ Q A ρ) : Prop :=
  ∃ ls, Run (PoolStep S) c ls c'

theorem Reaches.refl
    (c : Pool Unit G σ Λ Q A ρ) :
    Reaches S c c :=
  ⟨[], .nil c⟩

theorem Reaches.step
    {c c' c'' : Pool Unit G σ Λ Q A ρ} {l : PoolLabel Unit Λ Q E A}
    (h : Reaches S c c')
    (hstep : PoolStep S c' l c'') :
    Reaches S c c'' := by
  obtain ⟨ls, hrun⟩ := h
  exact ⟨ls ++ [l], hrun.append (.cons hstep (.nil c''))⟩

theorem Reaches.thread
    {c : Pool Unit G σ Λ Q A ρ} {g g' : G} {th th' : Thread σ Λ Q A ρ}
    {act : Act Λ Q A}
    (h : Reaches S c (.solo g th))
    (hstep : ThreadStep S () g th act g' th') :
    Reaches S c (.solo g' th') := by
  have hpool := PoolStep.thread (S := S) (.solo g th) () act g' th' hstep
  have hsame : Function.update (Pool.solo (σ := σ) g th).thread () th' = fun _ => th' := by
    funext u
    simp
  rw [hsame] at hpool
  exact h.step hpool

theorem Reaches.atomic
    {c : Pool Unit G σ Λ Q A ρ} {g : G} {l : Λ} {f : σ → σ} {k : σ → Proc σ Λ Q A ρ}
    (h : Reaches S c (.solo g (.running (.atomic l f k))))
    (hen : S.enabled () l g = true) :
    Reaches S c (.solo (S.put () (f (S.view () g)) g) (.running (k (S.view () g)))) :=
  h.thread (.atomic g l f k hen)

theorem Reaches.ask
    {c : Pool Unit G σ Λ Q A ρ} {g g' : G} {q : Q} {k : A q → Proc σ Λ Q A ρ}
    (h : Reaches S c (.solo g (.running (.ask q k))))
    (hissue : S.issue () q g = some g') :
    Reaches S c (.solo g' (.waiting q k)) :=
  h.thread (.ask g g' q k hissue)

theorem Reaches.answer
    {c : Pool Unit G σ Λ Q A ρ} {g g' : G} {q : Q} {k : A q → Proc σ Λ Q A ρ} (a : A q)
    (h : Reaches S c (.solo g (.waiting q k)))
    (hanswer : S.answer () q a g = some g') :
    Reaches S c (.solo g' (.running (k a))) :=
  h.thread (.answer g g' q a k hanswer)

theorem Reaches.unroll
    {c : Pool Unit G σ Λ Q A ρ} {g : G} {α β : Type}
    {body : α → Proc σ Λ Q A (α ⊕ β)} {a : α} {k : β → Proc σ Λ Q A ρ}
    (h : Reaches S c (.solo g (.running (.iter body a k)))) :
    Reaches S c (.solo g (.running
      ((body a).bind (Sum.elim (fun a' => .iter body a' k) k)))) :=
  h.thread (.unroll g body a k)

theorem Reaches.env
    {c : Pool Unit G σ Λ Q A ρ} {g g' : G} {th : Thread σ Λ Q A ρ} (e : E)
    (h : Reaches S c (.solo g th))
    (henv : S.env e g = some g') :
    Reaches S c (.solo g' th) :=
  h.step (.env (.solo g th) e g' henv)

end Solo

/-! ## The logic -/

section Logic

variable (S : System T G σ Λ Q E A) (guar : T → Act Λ Q A → G → G → Prop) (t : T)

/-- What may happen between two steps of a thread. -/
def Others : G → G → Prop :=
  Relation.ReflTransGen
    (fun g g' => (∃ e, S.env e g = some g') ∨ ∃ u act, u ≠ t ∧ guar u act g g')

/-- A condition holds now and whatever the others do. -/
def Stably (P : G → Prop) (g : G) : Prop :=
  ∀ g', S.Others guar t g g' → P g'

/--
The weakest precondition: the thread keeps its guarantee in every step, and
`Φ` holds of its result.
-/
def wp : {ρ : Type} → Proc σ Λ Q A ρ → (ρ → G → Prop) → G → Prop
  | _, .ret r, Φ => S.Stably guar t (Φ r)
  | _, .atomic l f k, Φ =>
      S.Stably guar t fun g => S.enabled t l g = true →
        guar t (.atomic l) g (S.put t (f (S.view t g)) g) ∧
        wp (k (S.view t g)) Φ (S.put t (f (S.view t g)) g)
  | _, .ask q k, Φ =>
      S.Stably guar t fun g => ∀ g₁, S.issue t q g = some g₁ →
        guar t (.asked q) g g₁ ∧
        S.Stably guar t (fun g₂ => ∀ a g₃, S.answer t q a g₂ = some g₃ →
          guar t (.answered q a) g₂ g₃ ∧ wp (k a) Φ g₃) g₁
  | _, .iter body a k, Φ => fun g =>
      ∃ I : _ → G → Prop, I a g ∧
        ∀ a g, I a g → wp (body a) (Sum.elim I (fun b => wp (k b) Φ)) g

/-- The weakest precondition of a thread. -/
def wpThread : Thread σ Λ Q A ρ → (ρ → G → Prop) → G → Prop
  | .running p, Φ => S.wp guar t p Φ
  | .waiting q k, Φ =>
      S.Stably guar t fun g => ∀ a g', S.answer t q a g = some g' →
        guar t (.answered q a) g g' ∧ S.wp guar t (k a) Φ g'

end Logic

section Rules

variable {S : System T G σ Λ Q E A} {guar : T → Act Λ Q A → G → G → Prop} {t : T}

theorem Others.refl
    (g : G) :
    S.Others guar t g g :=
  Relation.ReflTransGen.refl

theorem Others.trans
    {g g' g'' : G}
    (h : S.Others guar t g g')
    (h' : S.Others guar t g' g'') :
    S.Others guar t g g'' :=
  Relation.ReflTransGen.trans h h'

/-- What every environment step and every other thread preserves is stable. -/
theorem Others.preserve
    {P : G → Prop}
    (henv : ∀ e g g', P g → S.env e g = some g' → P g')
    (hguar : ∀ u act g g', u ≠ t → P g → guar u act g g' → P g')
    {g g' : G}
    (h : S.Others guar t g g')
    (hg : P g) :
    P g' := by
  induction h with
  | refl =>
      exact hg
  | tail _ hstep ih =>
      rcases hstep with ⟨e, hstep⟩ | ⟨u, act, hne, hstep⟩
      · exact henv e _ _ ih hstep
      · exact hguar u act _ _ hne ih hstep

theorem Stably.now
    {P : G → Prop} {g : G}
    (h : S.Stably guar t P g) :
    P g :=
  h g (Others.refl g)

theorem Stably.later
    {P : G → Prop} {g g' : G}
    (h : S.Stably guar t P g)
    (hg : S.Others guar t g g') :
    S.Stably guar t P g' :=
  fun g'' hg' => h g'' (hg.trans hg')

theorem Stably.mono
    {P P' : G → Prop} {g : G}
    (himp : ∀ g, P g → P' g)
    (h : S.Stably guar t P g) :
    S.Stably guar t P' g :=
  fun g' hg => himp g' (h g' hg)

/-- A weaker postcondition has a weaker precondition. -/
theorem wp_mono
    (p : Proc σ Λ Q A ρ) {Φ Ψ : ρ → G → Prop}
    (himp : ∀ r g, Φ r g → Ψ r g) {g : G}
    (h : S.wp guar t p Φ g) :
    S.wp guar t p Ψ g := by
  induction p generalizing g with
  | ret r =>
      exact Stably.mono (himp r) h
  | atomic l f k ih =>
      exact Stably.mono (fun g hg hen => ⟨(hg hen).1, ih _ himp (hg hen).2⟩) h
  | ask q k ih =>
      refine Stably.mono (fun g hg g₁ hissue => ?_) h
      obtain ⟨hguar, hanswer⟩ := hg g₁ hissue
      refine ⟨hguar, Stably.mono (fun g₂ hg₂ a g₃ ha => ?_) hanswer⟩
      exact ⟨(hg₂ a g₃ ha).1, ih a himp (hg₂ a g₃ ha).2⟩
  | iter body a k ihbody ihk =>
      obtain ⟨I, hstart, hbody⟩ := h
      refine ⟨I, hstart, fun a g hI => ihbody a ?_ (hbody a g hI)⟩
      rintro (a' | b) g hr
      · exact hr
      · exact ihk b himp hr

/-- A weakest precondition survives the steps of the others. -/
theorem wp_stable
    (p : Proc σ Λ Q A ρ) {Φ : ρ → G → Prop} {g g' : G}
    (h : S.wp guar t p Φ g)
    (hg : S.Others guar t g g') :
    S.wp guar t p Φ g' := by
  induction p generalizing g g' with
  | ret r =>
      exact Stably.later h hg
  | atomic l f k ih =>
      exact Stably.later h hg
  | ask q k ih =>
      exact Stably.later h hg
  | iter body a k ihbody ihk =>
      -- the invariant of the loop, closed under the steps of the others
      obtain ⟨I, hstart, hbody⟩ := h
      refine ⟨fun a g => ∃ g₀, I a g₀ ∧ S.Others guar t g₀ g, ⟨g, hstart, hg⟩, ?_⟩
      rintro a' g₁ ⟨g₀, hI, hothers⟩
      refine wp_mono (body a') ?_ (ihbody a' (hbody a' g₀ hI) hothers)
      rintro (a'' | b) g₂ hr
      · exact ⟨g₂, hr, Others.refl g₂⟩
      · exact hr

/-- Sequencing: the rest is what the first program has to establish. -/
theorem wp_bind
    {α : Type} (p : Proc σ Λ Q A α) (next : α → Proc σ Λ Q A ρ)
    {Φ : ρ → G → Prop} {g : G}
    (h : S.wp guar t p (fun r => S.wp guar t (next r) Φ) g) :
    S.wp guar t (p.bind next) Φ g := by
  induction p generalizing g with
  | ret r =>
      exact h.now
  | atomic l f k ih =>
      exact Stably.mono (fun g hg hen => ⟨(hg hen).1, ih _ _ (hg hen).2⟩) h
  | ask q k ih =>
      refine Stably.mono (fun g hg g₁ hissue => ?_) h
      obtain ⟨hguar, hanswer⟩ := hg g₁ hissue
      refine ⟨hguar, Stably.mono (fun g₂ hg₂ a g₃ ha => ?_) hanswer⟩
      exact ⟨(hg₂ a g₃ ha).1, ih a next (hg₂ a g₃ ha).2⟩
  | iter body a k ihbody ihk =>
      obtain ⟨I, hstart, hbody⟩ := h
      refine ⟨I, hstart, fun a g hI => wp_mono (body a) ?_ (hbody a g hI)⟩
      rintro (a' | b) g hr
      · exact hr
      · exact ihk b next hr

/-- Loops: every round starts in the invariant and ends in it or leaves. -/
theorem wp_loop
    {α : Type} (I : α → G → Prop) {body : α → Proc σ Λ Q A (α ⊕ ρ)}
    {Φ : ρ → G → Prop}
    (hbody : ∀ a g, I a g → S.wp guar t (body a) (Sum.elim I Φ) g)
    {a : α} {g : G}
    (hstart : I a g)
    (hΦ : ∀ r g, Φ r g → S.Stably guar t (Φ r) g) :
    S.wp guar t (Proc.loop body a) Φ g := by
  refine ⟨I, hstart, fun a g hI => wp_mono (body a) ?_ (hbody a g hI)⟩
  rintro (a' | r) g hr
  · exact hr
  · exact hΦ r g hr

/-- Unrolling a loop once keeps its weakest precondition. -/
theorem wp_unroll
    {α β : Type} {body : α → Proc σ Λ Q A (α ⊕ β)} {a : α}
    {k : β → Proc σ Λ Q A ρ} {Φ : ρ → G → Prop} {g : G}
    (h : S.wp guar t (.iter body a k) Φ g) :
    S.wp guar t ((body a).bind (Sum.elim (fun a' => .iter body a' k) k)) Φ g := by
  obtain ⟨I, hstart, hbody⟩ := h
  refine wp_bind (body a) _ (wp_mono (body a) ?_ (hbody a g hstart))
  rintro (a' | b) g hr
  · exact ⟨I, hr, hbody⟩
  · exact hr

/-! ## Stable assertions -/

/-- An assertion that the steps of the others preserve. -/
def Stable (S : System T G σ Λ Q E A) (guar : T → Act Λ Q A → G → G → Prop) (t : T)
    (P : G → Prop) : Prop :=
  ∀ g g', P g → S.Others guar t g g' → P g'

theorem Stable.stably
    {P : G → Prop} {g : G}
    (h : S.Stable guar t P)
    (hg : P g) :
    S.Stably guar t P g :=
  fun g' hothers => h g g' hg hothers

theorem Stable.of_steps
    {P : G → Prop}
    (henv : ∀ e g g', P g → S.env e g = some g' → P g')
    (hguar : ∀ u act g g', u ≠ t → P g → guar u act g g' → P g') :
    S.Stable guar t P :=
  fun _ _ hg hothers => hothers.preserve henv hguar hg

theorem Stable.and
    {P P' : G → Prop}
    (h : S.Stable guar t P)
    (h' : S.Stable guar t P') :
    S.Stable guar t (fun g => P g ∧ P' g) :=
  fun g g' hg hothers => ⟨h g g' hg.1 hothers, h' g g' hg.2 hothers⟩

theorem Stable.exists
    {ι : Type} {P : ι → G → Prop}
    (h : ∀ i, S.Stable guar t (P i)) :
    S.Stable guar t (fun g => ∃ i, P i g) :=
  fun g g' ⟨i, hg⟩ hothers => ⟨i, h i g g' hg hothers⟩

theorem wp_ret
    {P : G → Prop}
    (hstable : S.Stable guar t P)
    {r : ρ} {Φ : ρ → G → Prop}
    (hΦ : ∀ g, P g → Φ r g) {g : G}
    (hg : P g) :
    S.wp guar t (.ret r) Φ g :=
  fun g' hothers => hΦ g' (hstable g g' hg hothers)

theorem wp_atomic
    {P : G → Prop}
    (hstable : S.Stable guar t P)
    {l : Λ} {f : σ → σ} {k : σ → Proc σ Λ Q A ρ} {Φ : ρ → G → Prop}
    (hstep : ∀ g, P g → S.enabled t l g = true →
      guar t (.atomic l) g (S.put t (f (S.view t g)) g) ∧
      S.wp guar t (k (S.view t g)) Φ (S.put t (f (S.view t g)) g)) {g : G}
    (hg : P g) :
    S.wp guar t (.atomic l f k) Φ g :=
  fun g' hothers => hstep g' (hstable g g' hg hothers)

/-- One section that returns a value. -/
theorem wp_atomically
    {P : G → Prop}
    (hstable : S.Stable guar t P)
    {l : Λ} {f : σ → ρ × σ} {Φ : ρ → G → Prop}
    (hstep : ∀ g, P g → S.enabled t l g = true →
      guar t (.atomic l) g (S.put t (f (S.view t g)).2 g) ∧
      S.Stably guar t (Φ (f (S.view t g)).1) (S.put t (f (S.view t g)).2 g)) {g : G}
    (hg : P g) :
    S.wp guar t (Proc.atomically l f) Φ g :=
  wp_atomic hstable hstep hg

theorem wp_ask
    {P R : G → Prop}
    (hstable : S.Stable guar t P)
    (hstable' : S.Stable guar t R)
    {q : Q} {k : A q → Proc σ Λ Q A ρ} {Φ : ρ → G → Prop}
    (hissue : ∀ g g', P g → S.issue t q g = some g' →
      guar t (.asked q) g g' ∧ R g')
    (hanswer : ∀ a g g', R g → S.answer t q a g = some g' →
      guar t (.answered q a) g g' ∧ S.wp guar t (k a) Φ g') {g : G}
    (hg : P g) :
    S.wp guar t (.ask q k) Φ g := by
  intro g₀ hothers g₁ hstep
  obtain ⟨hguar, hP'⟩ := hissue g₀ g₁ (hstable g g₀ hg hothers) hstep
  refine ⟨hguar, fun g₂ hothers' a g₃ ha => ?_⟩
  exact hanswer a g₂ g₃ (hstable' g₁ g₂ hP' hothers') ha

/--
A program all of whose sections and questions keep an invariant keeps it.
-/
theorem wp_of_all
    {P : Λ → (σ → σ) → Prop} {R : Q → Prop} {I : G → Prop}
    (hstable : S.Stable guar t I)
    (hsection : ∀ l f g, P l f → I g → S.enabled t l g = true →
      guar t (.atomic l) g (S.put t (f (S.view t g)) g) ∧
      I (S.put t (f (S.view t g)) g))
    (hissue : ∀ q g g', R q → I g → S.issue t q g = some g' →
      guar t (.asked q) g g' ∧ I g')
    (hanswer : ∀ q a g g', R q → I g → S.answer t q a g = some g' →
      guar t (.answered q a) g g' ∧ I g')
    {p : Proc σ Λ Q A ρ}
    (h : p.All P R) {g : G}
    (hg : I g) :
    S.wp guar t p (fun _ => I) g := by
  induction p generalizing g with
  | ret r =>
      exact hstable.stably hg
  | atomic l f k ih =>
      refine wp_atomic hstable (fun g hI hen => ?_) hg
      obtain ⟨hguar, hI'⟩ := hsection l f g h.1 hI hen
      exact ⟨hguar, ih _ (h.2 _) hI'⟩
  | ask q k ih =>
      refine wp_ask hstable hstable (fun g g' hI => hissue q g g' h.1 hI) ?_ hg
      intro a g g' hI ha
      obtain ⟨hguar, hI'⟩ := hanswer q a g g' h.1 hI ha
      exact ⟨hguar, ih a (h.2 a) hI'⟩
  | iter body a k ihbody ihk =>
      refine ⟨fun _ g => I g, hg, fun a g hI => ?_⟩
      refine wp_mono (body a) ?_ (ihbody a (h.1 a) hI)
      rintro (a' | b) g hI
      · exact hI
      · exact ihk b (h.2 b) hI

/-! ## Programs that may raise -/

section Exceptions

variable {ε α β : Type}

/-- Sequencing of programs that may raise; an exception skips the rest. -/
theorem wp_except_bind
    (p : ExceptT ε (Proc σ Λ Q A) α) (next : α → ExceptT ε (Proc σ Λ Q A) β)
    {Φ : Except ε β → G → Prop} {g : G}
    (h : S.wp guar t p.run
      (fun r g => match r with
        | .ok a => S.wp guar t (next a).run Φ g
        | .error e => S.Stably guar t (Φ (.error e)) g) g) :
    S.wp guar t (p >>= next).run Φ g := by
  refine wp_bind p.run _ (wp_mono p.run ?_ h)
  rintro (e | a) g hr
  · exact hr
  · exact hr

theorem wp_except_pure
    (a : α) {Φ : Except ε α → G → Prop} {g : G}
    (h : S.Stably guar t (Φ (.ok a)) g) :
    S.wp guar t (pure a : ExceptT ε (Proc σ Λ Q A) α).run Φ g :=
  h

theorem wp_except_throw
    (e : ε) {Φ : Except ε α → G → Prop} {g : G}
    (h : S.Stably guar t (Φ (.error e)) g) :
    S.wp guar t (throw e : ExceptT ε (Proc σ Λ Q A) α).run Φ g :=
  h

/-- A program that never raises, among programs that may. -/
theorem wp_except_lift
    (p : Proc σ Λ Q A α) {Φ : Except ε α → G → Prop} {g : G}
    (h : S.wp guar t p (fun a => S.Stably guar t (Φ (.ok a))) g) :
    S.wp guar t (liftM p : ExceptT ε (Proc σ Λ Q A) α).run Φ g :=
  wp_bind p _ h

end Exceptions

end Rules

/-! ## Soundness -/

section Soundness

variable {S : System T G σ Λ Q E A} {guar : T → Act Λ Q A → G → G → Prop}

/-- A thread step keeps the guarantee, and the rest keeps its precondition. -/
theorem wpThread_step
    {t : T} {g g' : G} {th th' : Thread σ Λ Q A ρ} {act : Act Λ Q A}
    {Φ : ρ → G → Prop}
    (hstep : ThreadStep S t g th act g' th')
    (h : S.wpThread guar t th Φ g) :
    (guar t act g g' ∨ act = .unrolled ∧ g' = g) ∧ S.wpThread guar t th' Φ g' := by
  cases hstep with
  | atomic _ _ _ _ hen =>
      obtain ⟨hguar, hrest⟩ := h.now hen
      exact ⟨Or.inl hguar, hrest⟩
  | ask _ _ q k hissue =>
      obtain ⟨hguar, hrest⟩ := h.now g' hissue
      exact ⟨Or.inl hguar, hrest⟩
  | answer _ _ q a k hanswer =>
      obtain ⟨hguar, hrest⟩ := h.now a g' hanswer
      exact ⟨Or.inl hguar, hrest⟩
  | unroll =>
      exact ⟨Or.inr ⟨rfl, rfl⟩, wp_unroll h⟩

theorem wpThread_stable
    {t : T} {th : Thread σ Λ Q A ρ} {Φ : ρ → G → Prop} {g g' : G}
    (h : S.wpThread guar t th Φ g)
    (hg : S.Others guar t g g') :
    S.wpThread guar t th Φ g' := by
  cases th with
  | running p =>
      exact wp_stable p h hg
  | waiting q k =>
      exact Stably.later h hg

variable [DecidableEq T]

/-- Every thread of a pool keeps its guarantee from here on. -/
def Pool.Sound (S : System T G σ Λ Q E A) (guar : T → Act Λ Q A → G → G → Prop)
    (Φ : T → ρ → G → Prop) (c : Pool T G σ Λ Q A ρ) : Prop :=
  ∀ t, S.wpThread guar t (c.thread t) (Φ t) c.world

/-- A step of a pool within the guarantees, or one that changes no state. -/
def Pool.Guaranteed (S : System T G σ Λ Q E A)
    (guar : T → Act Λ Q A → G → G → Prop) (c : Pool T G σ Λ Q A ρ)
    (l : PoolLabel T Λ Q E A) (c' : Pool T G σ Λ Q A ρ) : Prop :=
  match l with
  | .thread t act =>
      guar t act c.world c'.world ∨ act = .unrolled ∧ c'.world = c.world
  | .env e => S.env e c.world = some c'.world

/-- **Step lemma**: a step of a sound pool is guaranteed and keeps it sound. -/
theorem Pool.sound_step
    {Φ : T → ρ → G → Prop} {c c' : Pool T G σ Λ Q A ρ}
    {l : PoolLabel T Λ Q E A}
    (h : Pool.Sound S guar Φ c)
    (hstep : PoolStep S c l c') :
    Pool.Guaranteed S guar c l c' ∧ Pool.Sound S guar Φ c' := by
  cases hstep with
  | thread t act g' th' hthread =>
      obtain ⟨hguar, hth'⟩ := wpThread_step hthread (h t)
      refine ⟨hguar, fun u => ?_⟩
      by_cases hu : u = t
      · subst hu
        simpa using hth'
      · simp only [Function.update_of_ne hu]
        refine wpThread_stable (h u) ?_
        rcases hguar with hguar | ⟨-, rfl⟩
        · exact Relation.ReflTransGen.single (Or.inr ⟨t, act, Ne.symm hu, hguar⟩)
        · exact Others.refl _
  | env e g' henv =>
      refine ⟨henv, fun u => wpThread_stable (h u) ?_⟩
      exact Relation.ReflTransGen.single (Or.inl ⟨e, henv⟩)

/-- **Run lemma**: every step of a run from a sound pool is guaranteed. -/
theorem Pool.sound_run
    {Φ : T → ρ → G → Prop} {c c' : Pool T G σ Λ Q A ρ}
    {ls : List (PoolLabel T Λ Q E A)}
    (h : Pool.Sound S guar Φ c)
    (hrun : Run (PoolStep S) c ls c') :
    Run.EachStep (PoolStep S) (Pool.Guaranteed S guar) c ls c' ∧
      Pool.Sound S guar Φ c' := by
  induction hrun with
  | nil =>
      exact ⟨.nil _, h⟩
  | cons hstep _ ih =>
      obtain ⟨hguar, hsound⟩ := Pool.sound_step h hstep
      obtain ⟨heach, hfinal⟩ := ih hsound
      exact ⟨.cons hstep hguar heach, hfinal⟩

omit [DecidableEq T] in
/-- A thread that has finished has established its postcondition. -/
theorem Pool.Sound.post
    {Φ : T → ρ → G → Prop} {c : Pool T G σ Λ Q A ρ}
    (h : Pool.Sound S guar Φ c) {t : T} {r : ρ}
    (hret : c.thread t = .running (.ret r)) :
    Φ t r c.world := by
  have ht := h t
  rw [hret] at ht
  exact ht.now

end Soundness

end System
end Base
end Bluetape
