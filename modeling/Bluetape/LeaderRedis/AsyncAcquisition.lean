import Bluetape.LeaderRedis.Acquisition
import Bluetape.LeaderRedis.AsyncHandle

/-!
# Acquiring a lock asynchronously

`AsyncRedisDistributedLock.try_acquire` and its reconciliation as programs.  The clock of
the event loop counts seconds; a reading is a whole number of ticks, however short a tick
is.
-/

namespace Bluetape
namespace LeaderRedis
namespace Async

open Base

/-- `self._monotonic()`, for a clock with ticks of this many seconds -/
def monotonic (tick : ℚ) : AsyncProg ℚ := do
  let ticks : Int ← asking .monotonicNs
  return ticks * tick

/-- The backend part of `try_acquire`. -/
def dispatchAcquire (ownerToken : Bytes) (ttlMs : Nat) : AsyncProg (Status × Option Nat) := do
  let raw ← runScriptAsync (.acquire ownerToken (millisecondsText ttlMs))
  orRaise valueError (parseAcquireResponse raw)

/-- The backend part of `_reconcile_acquire`. -/
def dispatchReconcile : AsyncProg (Status × Option LeaseRecord) := do
  let raw ← runReconcileAsync
  orRaise valueError (parseReconcileResponse raw)

/-- `_new_handle`; the constructor of the record raises on invalid fields. -/
def newHandle (ownerToken : Bytes) (fencingToken : Nat) (options : LeaderElectionOptions)
    (acquiredAt : ℚ) : AsyncProg AsyncLeaseHandle := do
  let record ← orRaise valueError (LeaseRecord.make ownerToken fencingToken)
  return ⟨record, options, acquiredAt⟩

/-- `_reconcile_acquire` -/
def reconcileAcquire (ownerToken : Bytes) (options : LeaderElectionOptions)
    (acquiredAt : ℚ) : AsyncProg AsyncLeaseHandle := do
  match ← attempt dispatchReconcile with
  | .done (.present, some record) =>
      if record.ownerToken ≠ ownerToken then throw .backendError
      newHandle ownerToken record.fencingToken options acquiredAt
  | _ => throw .backendError

/-- What `try_acquire` does after an attempt: it goes on, or it has its result. -/
def afterAttempt (tick : ℚ) (ownerToken : Bytes) (options : LeaderElectionOptions)
    (deadline acquiredAt : ℚ) :
    Attempt (Status × Option Nat) → AsyncProg (Bool ⊕ Option AsyncLeaseHandle)
  | .uncertain => do return .inr (some (← reconcileAcquire ownerToken options acquiredAt))
  | .backendFailed => throw .backendError
  | .done (.acquired, some fencingToken) => do
      return .inr (some (← newHandle ownerToken fencingToken options acquiredAt))
  | .done (status, _) => do
      if status ≠ .contended then throw .backendError
      let now ← monotonic tick
      let remaining := deadline - now
      if remaining ≤ 0 then return .inr none
      pause remaining
      return .inl true

/-- One round of the loop of `try_acquire`. -/
def acquireRound (tick : ℚ) (ownerToken : Bytes) (ttlMs : Nat) (options : LeaderElectionOptions)
    (deadline : ℚ) (attempted : Bool) : AsyncProg (Bool ⊕ Option AsyncLeaseHandle) := do
  let acquiredAt ← monotonic tick
  if attempted = true ∧ deadline ≤ acquiredAt then return .inr none
  let outcome ← attempt (dispatchAcquire ownerToken ttlMs)
  afterAttempt tick ownerToken options deadline acquiredAt outcome

/-- `try_acquire`, with the token that the factory has made -/
def tryAcquire (tick : ℚ) (requested : LeaderElectionOptions) (timing : Timing)
    (ownerToken : Bytes) : AsyncProg (Option AsyncLeaseHandle) := do
  let options ← orRaise .invalidOptions (validatedRedisOptions requested timing)
  let ttlMs ← orRaise valueError (durationMilliseconds options.leaseTime)
  let started ← monotonic tick
  let deadline := started + options.waitTime.totalSeconds
  Proc.exceptLoop (acquireRound tick ownerToken ttlMs options deadline) false

end Async
end LeaderRedis
end Bluetape
