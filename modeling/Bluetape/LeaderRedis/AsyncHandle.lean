import Bluetape.LeaderRedis.LockHandle

/-!
# The asynchronous lease handle

`_AsyncRedisLockLease` as programs over its mutable fields.  What runs between two
awaits is one section; an awaited Redis command and a clock reading are questions.
-/

namespace Bluetape
namespace LeaderRedis
namespace Async

open Base

/-- An `asyncio.Task` of the handle, as `done`, `cancelled` and `result` show it. -/
inductive TaskStatus
  | pending
  | cancelled
  | finished (result : Except Raised Unit)
deriving DecidableEq, Repr

/-- The mutable fields; `renewWake` is the future with its result, if it has one. -/
structure AsyncHandleState where
  state : LeaseState
  failure : Option Raised
  stopEvent : Bool
  renewTask : Option TaskStatus
  renewWake : Option (Option Bool)
  cleanupTask : Option TaskStatus
deriving DecidableEq, Repr

namespace AsyncHandleState

/-- The fields after `__init__`. -/
def init : AsyncHandleState where
  state := .acquired
  failure := none
  stopEvent := false
  renewTask := none
  renewWake := none
  cleanupTask := none

/-- `self._state in ("LOST", "RELEASED")` -/
def Gone (s : AsyncHandleState) : Prop :=
  s.state = .lost ∨ s.state = .released

instance (s : AsyncHandleState) : Decidable s.Gone :=
  inferInstanceAs (Decidable (_ ∨ _))

/-- `self._state = ...` -/
def enters (s : AsyncHandleState) (state : LeaseState) : AsyncHandleState :=
  { s with state := state }

/-- The assignments of a lifecycle failure. -/
def fails (s : AsyncHandleState) (failure : Raised) : AsyncHandleState :=
  { s with state := .unknown, failure := some failure }

end AsyncHandleState

/-- The fields that `__init__` fixes; the clock counts seconds in floats. -/
structure AsyncLeaseHandle where
  record : LeaseRecord
  options : LeaderElectionOptions
  acquiredAt : ℚ

/-- The sections that write a state without a look at the one that they replace, and all others. -/
inductive AsyncSection
  | ordinary
  | releaseEnd
  | reconcileEnd
  | repeatEnd
  | cleanupFailed
  | renewalStopFailed
  | renewalTimedOut
deriving DecidableEq, Repr

/-- Programs of the tasks that use a handle. -/
abbrev AsyncProc :=
  Proc AsyncHandleState AsyncSection HandleQuestion HandleQuestion.Answer

/-- Programs that may raise. -/
abbrev AsyncProg :=
  Asking AsyncHandleState AsyncSection

/-- What a section returns or raises, and the fields after it. -/
abbrev Segment (α : Type) :=
  AsyncHandleState → Except Raised α × AsyncHandleState

/-- Run a segment as one section. -/
def runs {α : Type} (body : Segment α) (label : AsyncSection) : AsyncProg α :=
  ExceptT.mk (Proc.atomically label body)

/-! ## Scripts -/

/-- `_run_script_async`, which is `_run_script` with an await at each command -/
def runScriptAsync (call : Call) : AsyncProg RawReply :=
  runScript call

/-- `_run_reconcile_async` -/
def runReconcileAsync : AsyncProg RawReply :=
  runReconcile

/-! ## The sections -/

/-- `_raise_if_unknown` and the check for a lease that is gone -/
def goneOrRaise : Segment Bool := fun s =>
  if s.state = .unknown then (.error (s.failure.getD assertionError), s)
  else (.ok (decide s.Gone), s)

/-- `renew` after its command; no status stands for a failed backend. -/
def finishRenew (status : Option Status) : Segment RenewOutcome := fun s =>
  if s.Gone then (.ok .notHeld, s)
  else if s.state = .unknown then (.error (s.failure.getD assertionError), s)
  else
    match status with
    | some .renewed => (.ok .renewed, s)
    | some .notHeld => (.ok .notHeld, s.enters .lost)
    | _ => (.ok (.backendFailure .backendError), s.fails .backendError)

/-- `is_held` after its command -/
def finishProbe (status : Option Status) : Segment Bool := fun s =>
  if s.Gone then (.ok false, s)
  else if s.state = .unknown then (.error (s.failure.getD assertionError), s)
  else
    match status with
    | some .held => (.ok true, s)
    | some .notHeld => (.ok false, s.enters .lost)
    | _ => (.error .backendError, s.fails .backendError)

/-- What a release raises when the lease is lost. -/
def lostError (inScope : Bool) : Raised :=
  if inScope then .leaseLost else .releaseError

/-- `_release` before its first command, and whether it is finished -/
def startRelease (inScope : Bool) : Segment Bool := fun s =>
  if s.state = .unknown then (.error (s.failure.getD assertionError), s)
  else if s.state = .released then
    (if inScope then .ok true else .error .releaseError, s)
  else if s.state = .lost then (.error (lostError inScope), s)
  else (.ok false, s)

/-- `_finish_release_status` -/
def finishReleaseStatus (inScope : Bool) (status : Status) : Segment Unit := fun s =>
  if status = .deleted ∨ status = .minTtlApplied then (.ok (), s.enters .released)
  else if status = .notHeld then (.error (lostError inScope), s.enters .lost)
  else (.error .backendError, s.fails .backendError)

/-- `_release` after a command that is not uncertain -/
def finishRelease (inScope : Bool) : Attempt Status → Segment Unit
  | .done status => finishReleaseStatus inScope status
  | _ => fun s => (.error .backendError, s.fails .backendError)

/-- `_reconcile_release` after its first command -/
def checkReconciled (owner : Bytes) (inScope : Bool) :
    Attempt (Status × Option LeaseRecord) → Segment Unit
  | .done (.absent, _) => fun s => (.error .releaseError, s.fails .releaseError)
  | .done (.present, some record) => fun s =>
      if record.ownerToken ≠ owner then (.error (lostError inScope), s.enters .lost)
      else (.ok (), s)
  | _ => fun s => (.error .backendError, s.fails .backendError)

/-- `_reconcile_release` after its last command -/
def finishRepeat (inScope : Bool) : Attempt Status → Segment Unit
  | .done status => finishReleaseStatus inScope status
  | .uncertain => fun s => (.error .releaseError, s.fails .releaseError)
  | .backendFailed => fun s => (.error .backendError, s.fails .backendError)

/-- `__aenter__` before its first await -/
def markEntered : Segment Unit := fun s =>
  if s.state = .unknown then (.error (s.failure.getD assertionError), s)
  else if s.state ≠ .acquired then (.error .leaseLost, s)
  else (.ok (), s.enters .entered)

/-! ## The methods -/

/--
`loop.time`, which is `time.monotonic`: the nanoseconds of the clock as seconds in a float.
Whole seconds are converted as such, all others with a division.
-/
def loopTime (nanoseconds : Int) : ℚ :=
  if nanoseconds % 1000000000 = 0 then Binary64.round (nanoseconds / 1000000000 : Int)
  else Binary64.round (Binary64.round nanoseconds / 1000000000)

section Methods

variable (h : AsyncLeaseHandle)

/-- The backend part of `renew`, which checks the lease time. -/
def dispatchRenew (duration : Timedelta) : AsyncProg Status := do
  let ttlMs ← orRaise valueError (durationMilliseconds duration)
  let raw ← runScriptAsync (.renew h.record.toBytes (millisecondsText ttlMs))
  orRaise valueError (parseStatusResponse [.renewed, .notHeld, .corrupt] raw)

/-- The backend part of `is_held`. -/
def dispatchProbe : AsyncProg Status := do
  let raw ← runScriptAsync (.probe h.record.toBytes)
  orRaise valueError (parseStatusResponse [.held, .notHeld, .corrupt] raw)

/-- `renew` -/
def renew (leaseTime : Option Timedelta) : AsyncProg RenewOutcome := do
  if ← runs goneOrRaise .ordinary then return .notHeld
  let duration := leaseTime.getD h.options.leaseTime
  let status ← attempt (dispatchRenew h duration)
  runs (finishRenew status.status) .ordinary

/-- `is_held` -/
def isHeld : AsyncProg Bool := do
  if ← runs goneOrRaise .ordinary then return false
  let status ← attempt (dispatchProbe h)
  runs (finishProbe status.status) .ordinary

/-- `assert_held` -/
def assertHeld : AsyncProg Unit := do
  if !(← isHeld h) then throw .leaseLost

/-- `remaining_ms` of `_dispatch_release`; every operation on floats rounds its result. -/
def minimumMs (now : ℚ) : Nat :=
  let remaining := Binary64.round
    (h.options.minLeaseTime.floatSeconds - Binary64.round (now - h.acquiredAt))
  if remaining ≤ 0 then 0
  else
    ⌊Binary64.round
      (Binary64.round (remaining * 1000) + Binary64.round (999999 / 1000000))⌋.toNat

/-- `_dispatch_release` up to its command -/
def remainingMinimumMs : AsyncProg Nat := do
  let nanoseconds ← asking .monotonicNs
  return minimumMs h (loopTime nanoseconds)

/-- `_dispatch_release` -/
def dispatchRelease : AsyncProg Status := do
  let remainingMs ← remainingMinimumMs h
  let raw ← runScriptAsync (.release h.record.toBytes (millisecondsText remainingMs))
  orRaise valueError
    (parseStatusResponse [.deleted, .minTtlApplied, .notHeld, .corrupt] raw)

/-- `_reconcile_release` -/
def reconcileRelease (inScope : Bool) : AsyncProg Unit := do
  let answer ← attempt do
    let raw ← runReconcileAsync
    orRaise valueError (parseReconcileResponse raw)
  runs (checkReconciled h.record.ownerToken inScope answer) .reconcileEnd
  let status ← attempt (dispatchRelease h)
  runs (finishRepeat inScope status) .repeatEnd

/-- `_release` -/
def releaseScoped (inScope : Bool) : AsyncProg Unit := do
  if ← runs (startRelease inScope) .ordinary then return
  match ← attempt (dispatchRelease h) with
  | .uncertain => reconcileRelease h inScope
  | status => runs (finishRelease inScope status) .releaseEnd

/-!
## One task alone

A handle without a renewal task, used by one task: `_stop_renew_task` has nothing to stop,
and the cleanup task runs while it is awaited, within its envelope.
-/

/-- `asyncio.CancelledError` -/
def cancelledError : Raised :=
  .base 0

/-- The exceptions that the handle takes for a control exception. -/
def takesControl (e : Raised) : Bool :=
  e.isControl || e = cancelledError

/-- `cleanup_failure` of a cleanup task that is done -/
def cleanupFailure : TaskStatus → Segment (Option Raised)
  | .finished (.ok ()) => fun s => (.ok none, s)
  | .finished (.error e) => fun s => (.ok (some e), s)
  | _ => fun s => (.ok (some .backendError), s.fails .backendError)

/-- The new cleanup task, from its start to its end. -/
def runCleanup (inScope : Bool) : AsyncProg (Option Raised) := do
  runs (fun s => (.ok (), { s with cleanupTask := some .pending })) .ordinary
  let result : Except Raised Unit ← liftM (releaseScoped h inScope).run
  runs (fun s => (.ok (), { s with cleanupTask := some (.finished result) })) .ordinary
  runs (cleanupFailure (.finished result)) .cleanupFailed

/-- `_await_cleanup` -/
def awaitCleanup (inScope : Bool) : AsyncProg (Option Raised) := do
  let s ← runs (fun s => (.ok s, s)) .ordinary
  if s.state = .unknown then
    match s.failure with
    | none => throw assertionError
    | some failure => return some failure
  match s.cleanupTask with
  | none => runCleanup h inScope
  | some task => runs (cleanupFailure task) .cleanupFailed

/-- `release` -/
def release : AsyncProg Unit := do
  if ← runs goneOrRaise .ordinary then releaseScoped h false
  else
    match ← awaitCleanup h false with
    | none => return
    | some failure => throw failure

/-- What an operation does on an exception that it takes for control. -/
def onControl (p : AsyncProg Unit) : AsyncProg Unit :=
  ExceptT.mk do
    match ← p.run with
    | .ok () => return .ok ()
    | .error e => do
        if takesControl e then let _ ← (awaitCleanup h true).run
        return .error e

/-- `__aenter__` of a handle that does not renew by itself -/
def enter : AsyncProg Unit := do
  runs markEntered .ordinary
  onControl h do
    if !(← isHeld h) then throw .leaseLost

/-- `__aexit__` -/
def exit (exc : Option Raised) : AsyncProg Unit := do
  let lifecycle ← awaitCleanup h true
  match exc, lifecycle with
  | some exc, lifecycle =>
      if takesControl exc then throw exc
      match lifecycle with
      | none => return
      | some failure =>
          if takesControl failure then throw failure
          else if exc.isException then throw (.execution exc failure)
          else throw failure
  | none, none => return
  | none, some failure => throw failure

/-- One operation of a caller. -/
def perform : Operation → AsyncProg OperationValue
  | .renew leaseTime => .renewed <$> renew h leaseTime
  | .isHeld => .held <$> isHeld h
  | .assertHeld => do
      assertHeld h
      return .done
  | .release => do
      release h
      return .done
  | .enter => do
      enter h
      return .done
  | .exit exc => do
      exit h exc
      return .exited none

end Methods

end Async
end LeaderRedis
end Bluetape
