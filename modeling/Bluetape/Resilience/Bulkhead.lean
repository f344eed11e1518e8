import Bluetape.Base.Ledger
import Bluetape.Base.WaitQueue
import Bluetape.Resilience.Core

/-!
# The bulkheads

`Bulkhead` and `AsyncBulkhead` as programs over their counters.  A block under
the lock is one section; `Condition.wait` ends a section, because it gives the
lock up, and the section that follows it begins with the lock held again.  The
clock is part of the state and only moves forward, also between two readings in
one section.

The state also holds the waiters of the condition variable, which the library
keeps, and a ledger of the permits, which no section reads.
-/

namespace Bluetape
namespace Resilience

open Base

/-- A call, by its number. -/
abbrev Caller :=
  Nat

/-- The fields that `__init__` fixes. -/
structure Bulkhead where
  name : String
  maxConcurrency : Nat
  maxConcurrency_pos : 0 < maxConcurrency
  maxWait : ℚ
  maxWait_nonneg : 0 ≤ maxWait
  observed : Bool

/--
The counters, with the clock, how far it moves on inside of a section, the condition variable
and the ledger of permits.
-/
structure BulkheadState where
  inFlight : Int
  waiters : Int
  clock : ℚ
  pause : ℚ
  queue : WaitQueue Caller
  permits : Ledger Caller Unit

/-- The state after `__init__`. -/
def BulkheadState.init : BulkheadState where
  inFlight := 0
  waiters := 0
  clock := 0
  pause := 0
  queue := .empty
  permits := .empty

/-- The sections of a bulkhead. -/
inductive BulkheadSection
  | snapshot
  | enter
  | resume
  | release
deriving DecidableEq, Repr

/-- How a section of `_acquire` ends: it returns, or waits with what it remembers. -/
inductive Entry (ω : Type)
  | admitted (snapshot : BulkheadSnapshot)
  | refused
  | waits (timer : ω)

/-- The deadline and the remaining time of a waiter. -/
structure Timer where
  deadline : ℚ
  remaining : ℚ

/-- `_event` -/
def Bulkhead.event (b : Bulkhead) (kind : EventKind) (outcome : Option PolicyOutcome)
    (category : FailureCategory) (snapshot : BulkheadSnapshot) : PolicyEvent where
  policyName := b.name
  policyType := .bulkhead
  kind := kind
  outcome := outcome
  failureCategory := category
  attempt := none
  delay := none
  timeout := none
  state := none
  previousState := none
  inFlight := some snapshot.inFlight
  waiters := some snapshot.waiters

/-- Programs of a bulkhead. -/
abbrev BulkheadProg (ν : Type) :=
  Prog BulkheadState BulkheadSection ν

namespace Bulkhead

variable {ν : Type} (b : Bulkhead) (t : Caller)

/-! ## Sections -/

/-- `_snapshot_locked` -/
def snapshotLocked (s : BulkheadState) : BulkheadSnapshot :=
  ⟨b.name, b.maxConcurrency, s.inFlight, s.waiters⟩

/-- The end of `_acquire`. -/
def takePermit {ω : Type} (s : BulkheadState) : Entry ω × BulkheadState :=
  let s := { s with inFlight := s.inFlight + 1, permits := s.permits.grant t () }
  (.admitted (b.snapshotLocked s), s)

/-- The section of `_release`. -/
def releaseLocked (s : BulkheadState) : BulkheadSnapshot × BulkheadState :=
  let s := { s with inFlight := s.inFlight - 1, permits := s.permits.settle t }
  let s := { s with queue := s.queue.notify }
  (b.snapshotLocked s, s)

/-- One more waiter. -/
def startWaiting (s : BulkheadState) : BulkheadState :=
  { s with waiters := s.waiters + 1 }

/-- `finally: self._waiters -= 1` -/
def stopWaiting (s : BulkheadState) : BulkheadState :=
  { s with waiters := s.waiters - 1 }

/-- The loop of `_acquire` of the synchronous bulkhead, up to its next wait. -/
def waitLoop (deadline : ℚ) (s : BulkheadState) : Entry Timer × BulkheadState :=
  if (b.maxConcurrency : Int) ≤ s.inFlight then
    let remaining := deadline - s.clock
    if remaining ≤ 0 then (.refused, stopWaiting s)
    else (.waits ⟨deadline, remaining⟩, { s with queue := s.queue.sleep t })
  else b.takePermit t (stopWaiting s)

/-- The clock has moved on since the last reading. -/
def moveOn (s : BulkheadState) : BulkheadState :=
  { s with clock := s.clock + s.pause }

/-- `_acquire` of the synchronous bulkhead, up to its first wait. -/
def enter (s : BulkheadState) : Entry Timer × BulkheadState :=
  if (b.maxConcurrency : Int) ≤ s.inFlight then
    if b.maxWait = 0 then (.refused, s)
    else
      let deadline := s.clock + b.maxWait
      b.waitLoop t deadline (startWaiting (moveOn s))
  else b.takePermit t s

/-- `_acquire` from a wait to the next. -/
def resume (deadline : ℚ) (s : BulkheadState) : Entry Timer × BulkheadState :=
  b.waitLoop t deadline { s with queue := s.queue.resume t }

/-- The loop of `_acquire` of the asyncio bulkhead, up to its next wait. -/
def asyncWaitLoop (s : BulkheadState) : Entry Unit × BulkheadState :=
  if (b.maxConcurrency : Int) ≤ s.inFlight then
    (.waits (), { s with queue := s.queue.sleep t })
  else b.takePermit t (stopWaiting s)

/-- `_acquire` of the asyncio bulkhead, up to its first wait. -/
def asyncEnter (s : BulkheadState) : Entry Unit × BulkheadState :=
  if (b.maxConcurrency : Int) ≤ s.inFlight then
    if b.maxWait = 0 then (.refused, s)
    else b.asyncWaitLoop t (startWaiting s)
  else b.takePermit t s

/-- `_acquire` of the asyncio bulkhead after a notification. -/
def asyncResume (s : BulkheadState) : Entry Unit × BulkheadState :=
  b.asyncWaitLoop t { s with queue := s.queue.resume t }

/--
A cancelled waiter has the lock again; the library passes a notification of its
own on, and may wake another waiter in any case.
-/
def abandon (again : Bool) (s : BulkheadState) : Unit × BulkheadState :=
  let queue := s.queue.resume t
  let queue := if t ∈ s.queue.notified ∨ again = true then queue.notify else queue
  ((), stopWaiting { s with queue := queue })

/-! ## The synchronous bulkhead -/

/-- One round of waiting in `_acquire`. -/
def acquireRound : Entry Timer →
    PolicyProc BulkheadState BulkheadSection ν (Entry Timer ⊕ Option BulkheadSnapshot)
  | .admitted snapshot => return .inr (some snapshot)
  | .refused => return .inr none
  | .waits timer => do
      let _ ← Proc.request (Question.wait timer.remaining)
      return .inl (← Proc.atomically .resume (b.resume t timer.deadline))

/-- `_acquire` -/
def acquire : BulkheadProg ν (Option BulkheadSnapshot) := do
  let entry ← locked .enter (b.enter t)
  liftM (Proc.loop (b.acquireRound t) entry :
    PolicyProc BulkheadState BulkheadSection ν (Option BulkheadSnapshot))

/-- `_release` -/
def release : BulkheadProg ν BulkheadSnapshot :=
  locked .release (b.releaseLocked t)

/-- `snapshot` -/
def snapshot : BulkheadProg ν BulkheadSnapshot :=
  locked .snapshot fun s => (b.snapshotLocked s, s)

/-- The branch of `call` for a refused call. -/
def reject (rejected : BulkheadSnapshot) : BulkheadProg ν ν := do
  emit b.observed (b.event .rejected (some .rejection) .bulkheadRejected rejected)
  throw (.bulkheadRejected b.name)

/-- The event of an admission. -/
def emitAdmitted (snapshot : BulkheadSnapshot) : BulkheadProg ν Unit :=
  emit b.observed (b.event .admitted none .none snapshot)

/-- The event of an ordinary failure. -/
def emitFailed (error : Raised) (released : BulkheadSnapshot) : BulkheadProg ν Unit :=
  emit b.observed (b.event .failed (some .failure) (failureCategory error) released)

/-- The event of a success. -/
def emitSucceeded (released : BulkheadSnapshot) : BulkheadProg ν Unit :=
  emit b.observed (b.event .succeeded (some .success) .none released)

/-- `call` from the end of the operation on. -/
def finish : Except Raised ν → BulkheadProg ν ν
  | .ok result => do
      let released ← b.release t
      b.emitSucceeded released
      return result
  | .error .syncResultContract => do
      let _ ← b.release t
      throw .syncResultContract
  | .error error =>
      if error.isException then do
        let released ← b.release t
        b.emitFailed error released
        throw error
      else do
        let _ ← b.release t
        throw error

/-- `call` -/
def call : BulkheadProg ν ν := do
  checkOperation
  match ← b.acquire t with
  | none => b.reject (← b.snapshot)
  | some snapshot =>
      tryCatch (b.emitAdmitted snapshot) fun error => do
        let _ ← b.release t
        throw error
      b.finish t (← asking .operation)

/-! ## The asyncio bulkhead -/

/-- One round of waiting in `_acquire`. -/
def asyncAcquireRound : Entry Unit →
    PolicyProc BulkheadState BulkheadSection ν
      (Entry Unit ⊕ Except Raised (Option BulkheadSnapshot))
  | .admitted snapshot => return .inr (.ok (some snapshot))
  | .refused => return .inr (.ok none)
  | .waits () => do
      match ← Proc.request Question.awaitWait with
      | .woken => return .inl (← Proc.atomically .resume (b.asyncResume t))
      | .cancelled expired again =>
          let _ ← Proc.atomically .resume (abandon t again)
          -- `asyncio.timeout` turns a cancellation of its own into `TimeoutError`
          return .inr (if expired then .ok none else .error .cancelled)

/-- `_acquire` -/
def asyncAcquire : BulkheadProg ν (Option BulkheadSnapshot) := do
  awaitLock
  let entry ← locked .enter (b.asyncEnter t)
  ExceptT.mk (Proc.loop (b.asyncAcquireRound t) entry)

/-- `_release` -/
def asyncRelease : BulkheadProg ν BulkheadSnapshot := do
  awaitLock
  b.release t

/-- `snapshot` -/
def asyncSnapshot : BulkheadProg ν BulkheadSnapshot := do
  awaitLock
  b.snapshot

/-- `_release_preserving_cancellation` -/
def releasePreservingCancellation : BulkheadProg ν (BulkheadSnapshot × Bool) :=
  preservingCancellation (b.asyncRelease t)

/-- The release before an exception is raised again. -/
def releaseAndRaise {α : Type} : Raised → BulkheadProg ν α
  | .cancelled => do
      let _ ← b.releasePreservingCancellation t
      throw .cancelled
  | error => do
      let (_, cancelled) ← b.releasePreservingCancellation t
      raiseWhen cancelled .cancelled
      throw error

/-- `call` from the end of the operation on. -/
def asyncFinish : Except Raised ν → BulkheadProg ν ν
  | .ok result => do
      let (released, cancelled) ← b.releasePreservingCancellation t
      raiseWhen cancelled .cancelled
      b.emitSucceeded released
      return result
  | .error error =>
      if error.isException then do
        let (released, cancelled) ← b.releasePreservingCancellation t
        raiseWhen cancelled .cancelled
        b.emitFailed error released
        throw error
      else b.releaseAndRaise t error

/-- `call` -/
def asyncCall : BulkheadProg ν ν := do
  checkOperation
  match ← b.asyncAcquire t with
  | none => b.reject (← b.asyncSnapshot)
  | some snapshot =>
      tryCatch (b.emitAdmitted snapshot) (b.releaseAndRaise t)
      b.asyncFinish t (← asking .operation)

/-- `call` of either bulkhead. -/
def callOf (mode : Mode) : BulkheadProg ν ν :=
  match mode with
  | .sync => b.call t
  | .async => b.asyncCall t

end Bulkhead

/-! ## The callers of a bulkhead -/

/-- What happens without a caller. -/
inductive BulkheadEvent
  | tick (elapsed : ℚ)
  | pace (pause : ℚ)
  | reorder (asleep : List Caller)

/-- How a question can be answered, and what the answer does. -/
def answerBulkhead (ν : Type) (t : Caller) (s : BulkheadState) :
    (q : Question) → q.Answer ν → Option BulkheadState
  | .wait _, .woken => if t ∈ s.queue.notified then some s else none
  | .wait _, .timedOut => some s
  | .awaitWait, .woken => if t ∈ s.queue.notified then some s else none
  | .awaitWait, .cancelled _ _ => some { s with queue := s.queue.interrupt t }
  | .checkOperation, _ | .observe _, _ | .operation, _ | .clock, _ | .classify _, _
  | .awaitLock, _ => some s

/--
The clock moves on, how far it does inside of a section may change, and so may the order in
which sleepers are woken.
-/
def bulkheadEvent (s : BulkheadState) : BulkheadEvent → Option BulkheadState
  | .tick elapsed =>
      if 0 ≤ elapsed then some { s with clock := s.clock + elapsed } else none
  | .pace pause => if 0 ≤ pause then some { s with pause := pause } else none
  | .reorder asleep =>
      if asleep.Perm s.queue.asleep then
        some { s with queue := { s.queue with asleep := asleep } }
      else none

/-- The world around the callers of a bulkhead. -/
def bulkheadSystem (ν : Type) :
    System Caller BulkheadState BulkheadState BulkheadSection Question BulkheadEvent
      (Question.Answer ν) where
  view _ s := s
  put _ s _ := s
  enabled _ _ _ := true
  issue _ _ s := some s
  answer t q a s := answerBulkhead ν t s q a
  env e s := bulkheadEvent s e

/-- The callers of a bulkhead and its state. -/
abbrev BulkheadPool (ν : Type) :=
  System.Pool Caller BulkheadState BulkheadState BulkheadSection Question
    (Question.Answer ν) (Except Raised ν)

/-- Every caller is about to start its call. -/
def Bulkhead.pool (b : Bulkhead) (mode : Mode) (ν : Type) : BulkheadPool ν where
  world := .init
  thread t := .running (b.callOf t mode : BulkheadProg ν ν).run

/-- The steps of the callers of a bulkhead. -/
abbrev BulkheadStep (ν : Type) :=
  System.PoolStep (ρ := Except Raised ν) (bulkheadSystem ν)

/-- What happens in a step. -/
abbrev BulkheadLabel (ν : Type) :=
  System.PoolLabel Caller BulkheadSection Question BulkheadEvent (Question.Answer ν)

end Resilience
end Bluetape
