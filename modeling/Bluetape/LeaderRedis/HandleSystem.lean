import Bluetape.LeaderRedis.HandleStates

/-!
# Callers around a lease handle

Any number of callers use one handle beside its renewal worker.  Redis and the
clock answer as they like; the waits of the threading library answer with the
flag they wait for.  The world remembers, for every thread, the operation it
performs and the fields of the handle at its start.

* `LawfulStep`: what a step of a thread may do.
* `Guarantee`: what a thread guarantees to the others.
* `wp_of_lawful`: operations that found the handle open keep the guarantee.
-/

namespace Bluetape
namespace LeaderRedis

open Base

/-- The threads that use a handle. -/
inductive HandleThread
  | caller (n : Nat)
  | worker
deriving DecidableEq, Repr

/-- A handle, whether its worker thread exists, and the operations in progress. -/
structure HandleWorld where
  handle : HandleState
  spawned : Bool
  started : HandleThread → Option (Operation × HandleState)

namespace HandleWorld

/-- A thread starts an operation. -/
def start (w : HandleWorld) (t : HandleThread) (op : Operation) : HandleWorld :=
  { w with started := Function.update w.started t (some (op, w.handle)) }

/-- A thread has no operation in progress. -/
def finish (w : HandleWorld) (t : HandleThread) : HandleWorld :=
  { w with started := Function.update w.started t none }

/-- The fields after a section. -/
def withHandle (w : HandleWorld) (s : HandleState) : HandleWorld :=
  { w with handle := s }

end HandleWorld

/-- How a question can be answered, and what the answer does. -/
def answerHandle (t : HandleThread) (w : HandleWorld) :
    (q : HandleQuestion) → q.Answer → Option HandleWorld
  | .nextOperation, op => some (w.start t op)
  | .waitStop, stop =>
      if stop = w.handle.stopEvent then
        some (if stop then w else w.start t (.renew none))
      else none
  | .waitReady, ready => if ready = w.handle.workerReady then some w else none
  | .joinWorker, alive => if alive = w.handle.workerAlive then some w else none
  | .startThread, .started =>
      some { w with handle := { w.handle with workerAlive := true }, spawned := true }
  | .startThread, .failed _ spawned => some { w with spawned := spawned }
  | .threadStarted, _ =>
      if w.spawned then
        some { w with handle := { w.handle with workerAlive := true } }
      else none
  | .evalsha _, _ | .eval _, _ | .monotonicNs, _ | .jitter, _ | .sleep _, _
  | .action _, _ | .report _, _ => some w

/-- The world around the threads of a handle. -/
def handleSystem :
    System HandleThread HandleWorld HandleState HandleSection HandleQuestion Empty
      HandleQuestion.Answer where
  view _ w := w.handle
  put _ s w := w.withHandle s
  enabled _ _ _ := true
  issue t q w :=
    match q with
    | .report _ | .waitStop => some (w.finish t)
    | _ => some w
  answer t q a w := answerHandle t w q a
  env e _ := nomatch e

/-- A thread of a caller, which performs operations one after the other. -/
def callerThread (h : LeaseHandle) : HandleProc Unit :=
  Proc.loop (fun _ => do
    let op : Operation ← Proc.request HandleQuestion.nextOperation
    let result ← (perform h op).run
    let _ ← Proc.request (HandleQuestion.report result)
    return .inl ()) ()

/-- The threads of a handle and their world. -/
abbrev HandlePool :=
  System.Pool HandleThread HandleWorld HandleState HandleSection HandleQuestion
    HandleQuestion.Answer Unit

/-- A fresh handle before anybody uses it. -/
def handlePool (h : LeaseHandle) : HandlePool where
  world := { handle := .init, spawned := false, started := fun _ => none }
  thread
    | .caller _ => .running (callerThread h)
    | .worker => .running (workerThread h)

/-- The steps of the threads of a handle. -/
abbrev HandleStep :=
  System.PoolStep (ρ := Unit) handleSystem

/-- What happens in a step. -/
abbrev HandleLabel :=
  System.PoolLabel HandleThread HandleSection HandleQuestion Empty HandleQuestion.Answer

/-! ## What every step keeps -/

/-- What an operation reports when the handle was unknown at its start. -/
def reportOfUnknown (failure : Raised) : Operation → Except Raised OperationValue
  | .exit (some exc) =>
      if exc.isControl then .ok (.exited (some failure.message))
      else if exc.isException then .error (.execution exc failure)
      else .error failure
  | _ => .error failure

/-- A report that fits the fields at the start of the operation. -/
def Reports (op : Operation) (s : HandleState) (r : Except Raised OperationValue) :
    Prop :=
  s.state = .unknown →
    ∃ failure, s.failure = some failure ∧ r = reportOfUnknown failure op

/-- The step sends a script to Redis. -/
def SendsCommand (act : Act HandleSection HandleQuestion HandleQuestion.Answer) :
    Prop :=
  ∃ call, act = .asked (.evalsha call) ∨ act = .asked (.eval call)

/--
The section gives up on the worker, or on the loop, when the handle is lost or
released.
-/
def GivesUp (act : Act HandleSection HandleQuestion HandleQuestion.Answer)
    (s : HandleState) : Prop :=
  ∃ label, act = .atomic label ∧ label ≠ .ordinary ∧ s.Gone

/--
A lawful step of a thread: the handle advances unless the section gives up,
only operations that found the handle open send commands, and every report
fits the start of its operation.
-/
def LawfulStep (c : HandlePool) (l : HandleLabel) (c' : HandlePool) : Prop :=
  match l with
  | .thread t act =>
      (¬ GivesUp act c.world.handle → Advance c.world.handle c'.world.handle) ∧
      (SendsCommand act →
        ∃ op s, c.world.started t = some (op, s) ∧ s.state.terminal = false) ∧
      ∀ r, act = .asked (.report r) →
        ∃ op s, c.world.started t = some (op, s) ∧ Reports op s r
  | .env e => nomatch e

/-- What a step of a thread guarantees to the others. -/
structure Guarantee (t : HandleThread)
    (act : Act HandleSection HandleQuestion HandleQuestion.Answer)
    (w w' : HandleWorld) : Prop where
  follows : ∃ label, (act = .atomic label ∨ label = .ordinary) ∧
    Follows label w.handle w'.handle
  others : ∀ u, u ≠ t → w'.started u = w.started u
  command : SendsCommand act →
    ∃ op s, w.started t = some (op, s) ∧ s.state.terminal = false
  report : ∀ r, act = .asked (.report r) →
    ∃ op s, w.started t = some (op, s) ∧ Reports op s r

/-- A section within an operation. -/
theorem Guarantee.atomic
    {t : HandleThread} {label : HandleSection} {w : HandleWorld} {s : HandleState}
    (h : Follows label w.handle s) :
    Guarantee t (.atomic label) w (w.withHandle s) where
  follows := ⟨label, Or.inl rfl, h⟩
  others _ _ := rfl
  command := by
    rintro ⟨call, h | h⟩ <;> cases h
  report := by
    rintro r ⟨⟩

/-- Starting an operation leaves the handle and the other threads alone. -/
theorem start_frame
    (w : HandleWorld) (t : HandleThread) (op : Operation) :
    (w.start t op).handle = w.handle ∧
      ∀ u, u ≠ t → (w.start t op).started u = w.started u :=
  ⟨rfl, fun _ hu => Function.update_of_ne hu _ _⟩

/-- What an answer does to the handle and to the operations in progress. -/
theorem answerHandle_frame
    {t : HandleThread} {q : HandleQuestion} {a : q.Answer} {w w' : HandleWorld}
    (h : answerHandle t w q a = some w') :
    Advance w.handle w'.handle ∧ (∀ u, u ≠ t → w'.started u = w.started u) ∧
      (q.inner → w'.started = w.started) := by
  cases q
  case nextOperation =>
      obtain rfl := Option.some.inj h
      exact ⟨.refl _, (start_frame w t a).2, False.elim⟩
  case waitStop =>
      obtain ⟨-, h⟩ := Option.ite_none_right_eq_some.mp h
      obtain rfl := Option.some.inj h
      cases a
      · exact ⟨.refl _, (start_frame w t _).2, False.elim⟩
      · exact ⟨.refl _, fun _ _ => rfl, False.elim⟩
  case waitReady | joinWorker =>
      obtain ⟨-, h⟩ := Option.ite_none_right_eq_some.mp h
      obtain rfl := Option.some.inj h
      exact ⟨.of_eq rfl rfl, fun _ _ => rfl, fun _ => rfl⟩
  case threadStarted =>
      obtain ⟨-, h⟩ := Option.ite_none_right_eq_some.mp h
      obtain rfl := Option.some.inj h
      exact ⟨.of_eq rfl rfl, fun _ _ => rfl, fun _ => rfl⟩
  case startThread =>
      cases a <;> obtain rfl := Option.some.inj h <;>
        exact ⟨.of_eq rfl rfl, fun _ _ => rfl, fun _ => rfl⟩
  all_goals
    obtain rfl := Option.some.inj h
    exact ⟨.of_eq rfl rfl, fun _ _ => rfl, fun _ => rfl⟩

theorem Guarantee.answered
    {t : HandleThread} {q : HandleQuestion} {a : q.Answer} {w w' : HandleWorld}
    (h : answerHandle t w q a = some w') :
    Guarantee t (.answered q a) w w' where
  follows := ⟨.ordinary, Or.inr rfl, Or.inl (answerHandle_frame h).1⟩
  others := (answerHandle_frame h).2.1
  command := by
    rintro ⟨call, h | h⟩ <;> cases h
  report := by
    rintro r ⟨⟩

/-- A method's question leaves the world alone. -/
theorem issue_inner
    {t : HandleThread} {q : HandleQuestion} {w w' : HandleWorld}
    (hq : q.inner)
    (h : handleSystem.issue t q w = some w') :
    w' = w := by
  cases q
  case report | waitStop => exact hq.elim
  all_goals exact (Option.some.inj h).symm

theorem Guarantee.asked
    {t : HandleThread} {q : HandleQuestion} {w : HandleWorld}
    (hq : q.inner)
    (hcommand : SendsCommand (.asked q) →
      ∃ op s, w.started t = some (op, s) ∧ s.state.terminal = false) :
    Guarantee t (.asked q) w w where
  follows := ⟨.ordinary, Or.inr rfl, Or.inl (Advance.refl _)⟩
  others _ _ := rfl
  command := hcommand
  report := by
    rintro r ⟨⟩
    exact hq.elim

/-! ## What the others leave alone -/

section Stability

variable {t : HandleThread}

theorem stable_started
    (started : Option (Operation × HandleState)) :
    handleSystem.Stable Guarantee t (fun w => w.started t = started) :=
  .of_steps (fun e => nomatch e)
    fun _ _ _ _ hne hw hguar => (hguar.others t hne.symm).trans hw

/-- What every section keeps of the handle's fields is stable. -/
theorem stable_handle
    {P : HandleState → Prop}
    (hP : ∀ label s s', Follows label s s' → P s → P s') :
    handleSystem.Stable Guarantee t (fun w => P w.handle) :=
  .of_steps (fun e => nomatch e) fun _ _ _ _ _ hw hguar => by
    obtain ⟨label, -, hfollows⟩ := hguar.follows
    exact hP label _ _ hfollows hw

end Stability

/-! ## Operations that found the handle open -/

/-- The operation in progress and the fields at its start. -/
def InProgress (t : HandleThread) (op : Operation) (s : HandleState) (w : HandleWorld) :
    Prop :=
  w.started t = some (op, s) ∧ w.handle.Retains

theorem stable_inProgress
    (t : HandleThread) (op : Operation) (s : HandleState) :
    handleSystem.Stable Guarantee t (InProgress t op s) :=
  (stable_started _).and (stable_handle fun _ _ _ hfollows => hfollows.retains)

theorem wp_of_lawful
    {α : Type} {p : Prog α} {t : HandleThread} {op : Operation} {s : HandleState}
    {w : HandleWorld}
    (hopen : s.state.terminal = false)
    (hp : p.Lawful)
    (hw : InProgress t op s w) :
    handleSystem.wp Guarantee t p.run (fun _ => InProgress t op s) w := by
  refine System.wp_of_all (stable_inProgress t op s) ?_ ?_ ?_ hp hw
  · intro label update w hpermitted ⟨hstarted, hretains⟩ _
    have hfollows := hpermitted w.handle
    exact ⟨.atomic hfollows, hstarted, hfollows.retains hretains⟩
  · intro q w w' hq hw hissue
    obtain rfl := issue_inner hq hissue
    exact ⟨.asked hq fun _ => ⟨op, s, hw.1, hopen⟩, hw⟩
  · intro q a w w' hq ⟨hstarted, hretains⟩ hanswer
    obtain ⟨hadvance, -, hsame⟩ := answerHandle_frame hanswer
    have hfollows : Follows .ordinary w.handle w'.handle := Or.inl hadvance
    refine ⟨.answered hanswer, ?_, hfollows.retains hretains⟩
    exact (congrFun (hsame hq) t).trans hstarted

end LeaderRedis
end Bluetape
