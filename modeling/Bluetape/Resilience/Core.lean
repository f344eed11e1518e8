import Bluetape.Base.Proc
import Mathlib.Data.Rat.Defs

/-!
# Contracts of the resilience policies

The event vocabulary, the snapshots and the exceptions of the policies, and
the programs in which `call` of a policy is written.  A policy asks its caller
for the outcome of the operation, of the observer, of the clock and of the
failure predicate; an asyncio policy also waits for its lock, and every such
wait may be cancelled.
-/

namespace Bluetape
namespace Resilience

open Base

/-- `PolicyType` -/
inductive PolicyType
  | retry
  | timeout
  | circuitBreaker
  | bulkhead
deriving DecidableEq, Repr

/-- `EventKind` -/
inductive EventKind
  | succeeded
  | failed
  | retryScheduled
  | timedOut
  | circuitTransitioned
  | admitted
  | rejected
deriving DecidableEq, Repr

/-- `PolicyOutcome` -/
inductive PolicyOutcome
  | success
  | failure
  | rejection
deriving DecidableEq, Repr

/-- `FailureCategory` -/
inductive FailureCategory
  | none
  | failure
  | timeout
  | retryExhausted
  | circuitOpen
  | bulkheadRejected
deriving DecidableEq, Repr

/-- `CircuitState` -/
inductive CircuitState
  | closed
  | opened
  | halfOpen
deriving DecidableEq, Repr

/-- `PolicyEvent` -/
structure PolicyEvent where
  policyName : String
  policyType : PolicyType
  kind : EventKind
  outcome : Option PolicyOutcome
  failureCategory : FailureCategory
  attempt : Option Nat
  delay : Option ℚ
  timeout : Option ℚ
  state : Option CircuitState
  previousState : Option CircuitState
  inFlight : Option Int
  waiters : Option Int
deriving DecidableEq

/-- `CircuitSnapshot` -/
structure CircuitSnapshot where
  name : String
  state : CircuitState
  consecutiveFailures : Int
  recoverySuccesses : Int
  halfOpenInFlight : Int
deriving DecidableEq, Repr

/-- `BulkheadSnapshot` -/
structure BulkheadSnapshot where
  name : String
  maxConcurrency : Nat
  inFlight : Int
  waiters : Int
deriving DecidableEq, Repr

/-- The exceptions that pass through a policy, as far as policies tell them apart. -/
inductive Raised
  | retryExhausted (name : String) (attempts : Nat)
  | policyTimeout (name : String) (timeout : ℚ)
  | circuitOpen (name : String) (state : CircuitState)
  | bulkheadRejected (name : String)
  | syncResultContract
  | typeError (message : String)
  | valueError (message : String)
  | exception (id : Nat)
  | cancelled
  | baseException (id : Nat)
deriving DecidableEq

/-- `isinstance(error, Exception)` -/
def Raised.isException : Raised → Bool
  | cancelled | baseException _ => false
  | _ => true

/-- `_failure_category` -/
def failureCategory : Raised → FailureCategory
  | .policyTimeout _ _ => .timeout
  | .retryExhausted _ _ => .retryExhausted
  | .circuitOpen _ _ => .circuitOpen
  | .bulkheadRejected _ => .bulkheadRejected
  | _ => .failure

/-- Synchronous and asyncio policies. -/
inductive Mode
  | sync
  | async
deriving DecidableEq, Repr

/-- How `threading.Condition.wait` ends. -/
inductive SyncWake
  | woken
  | timedOut
deriving DecidableEq, Repr

/--
How `asyncio.Condition.wait` ends.  A cancellation may come from the enclosing
`asyncio.timeout`; `again` says that the library wakes another waiter although
the cancelled one had not been notified.
-/
inductive AsyncWake
  | woken
  | cancelled (expired : Bool) (again : Bool)
deriving DecidableEq, Repr

/-- What a clock returns. -/
inductive ClockReading
  | finite (seconds : ℚ)
  | notFinite
  | notNumber
deriving DecidableEq, Repr

/-- What a policy asks of its caller and of the libraries. -/
inductive Question
  | checkOperation
  | observe (event : PolicyEvent)
  | operation
  | clock
  | classify (error : Raised)
  | awaitLock
  | wait (remaining : ℚ)
  | awaitWait
deriving DecidableEq

/--
The type of the answer; no Boolean stands for a verdict that is none.  A lock
is granted, or the wait for it is cancelled.
-/
abbrev Question.Answer (ν : Type) : Question → Type
  | checkOperation | observe _ => Except Raised Unit
  | operation => Except Raised ν
  | clock => Except Raised ClockReading
  | classify _ => Except Raised (Option Bool)
  | awaitLock => Bool
  | wait _ => SyncWake
  | awaitWait => AsyncWake

/-- Programs of a policy with state `σ` and sections `Λ`. -/
abbrev PolicyProc (σ Λ ν : Type) :=
  Proc σ Λ Question (Question.Answer ν)

/-- Programs that may raise. -/
abbrev Prog (σ Λ ν : Type) :=
  ExceptT Raised (PolicyProc σ Λ ν)

section Programs

variable {σ Λ ν α : Type}

/-- One section under the lock. -/
def locked (label : Λ) (f : σ → α × σ) : Prog σ Λ ν α :=
  liftM (Proc.atomically label f : PolicyProc σ Λ ν α)

/-- Ask a question. -/
def asking (q : Question) : Prog σ Λ ν (q.Answer ν) :=
  liftM (Proc.request q : PolicyProc σ Λ ν (q.Answer ν))

/-- Raise what the caller raised. -/
def orRaise : Except Raised α → Prog σ Λ ν α
  | .ok a => pure a
  | .error e => throw e

/-- Raise in a case. -/
def raiseWhen (condition : Bool) (error : Raised) : Prog σ Λ ν Unit :=
  if condition then throw error else pure ()

/--
`_validate_callable` and `_ensure_sync_operation`, or on asyncio `_ensure_async_operation` and
`_bind_loop`.
-/
def checkOperation : Prog σ Λ ν Unit := do
  orRaise (← asking .checkOperation)

/-- `_emit`, when there is an observer. -/
def emit (observed : Bool) (event : PolicyEvent) : Prog σ Λ ν Unit :=
  if observed then do
    orRaise (← asking (.observe event))
  else pure ()

/-- The start of an `async with` block on a lock. -/
def awaitLock : Prog σ Λ ν Unit := do
  let granted : Bool ← asking .awaitLock
  raiseWhen (!granted) .cancelled

/--
`_release_preserving_cancellation` around a release: repeat it until it is not
cancelled, and say whether it ever was.
-/
def preservingCancellation (release : Prog σ Λ ν α) : Prog σ Λ ν (α × Bool) :=
  ExceptT.mk (Proc.loop (fun cancelled => do
    match ← release.run with
    | .ok snapshot => return .inr (.ok (snapshot, cancelled))
    | .error .cancelled => return .inl true
    | .error e => return .inr (.error e)) false)

end Programs

end Resilience
end Bluetape
