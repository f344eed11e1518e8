import Bluetape.Base.Ledger
import Bluetape.Resilience.Core

/-!
# The circuit breakers

`_CircuitData`, and `call` of `CircuitBreaker` and `AsyncCircuitBreaker` as
programs.  Clock, failure predicate, observer and operation run outside the
lock; every block under it is one section.

A ledger beside the data records the admissions, which no section reads.
-/

namespace Bluetape
namespace Resilience

open Base

/-- `_Admission` -/
structure Admission where
  generation : Nat
  state : CircuitState
  ownsHalfOpenSlot : Bool
deriving DecidableEq, Repr

/-- `_Transition` -/
structure Transition where
  previous : CircuitState
  current : CircuitState
deriving DecidableEq, Repr

/-- The fields that `__init__` fixes. -/
structure CircuitBreaker where
  name : String
  failureThreshold : Nat
  failureThreshold_pos : 0 < failureThreshold
  openDuration : ℚ
  openDuration_pos : 0 < openDuration
  halfOpenMaxCalls : Nat
  halfOpenMaxCalls_pos : 0 < halfOpenMaxCalls
  recoverySuccessThreshold : Nat
  recoverySuccessThreshold_pos : 0 < recoverySuccessThreshold
  hasFailureIf : Bool
  observed : Bool

/-- The mutable fields of `_CircuitData`. -/
structure CircuitData where
  state : CircuitState
  consecutiveFailures : Int
  recoverySuccesses : Int
  halfOpenInFlight : Int
  openUntil : ℚ
  generation : Nat
deriving DecidableEq

/-- The fields after `__init__`. -/
def CircuitData.init : CircuitData where
  state := .closed
  consecutiveFailures := 0
  recoverySuccesses := 0
  halfOpenInFlight := 0
  openUntil := 0
  generation := 0

namespace CircuitBreaker

variable (b : CircuitBreaker)

/-! ## `_CircuitData` -/

/-- `snapshot` -/
def snapshotOf (d : CircuitData) : CircuitSnapshot :=
  ⟨b.name, d.state, d.consecutiveFailures, d.recoverySuccesses, d.halfOpenInFlight⟩

/-- `_transition` -/
def transition (d : CircuitData) (state : CircuitState) (now : ℚ) :
    Transition × CircuitData :=
  (⟨d.state, state⟩,
    { state := state
      consecutiveFailures := 0
      recoverySuccesses := 0
      halfOpenInFlight := 0
      openUntil := if state = .opened then now + b.openDuration else d.openUntil
      generation := d.generation + 1 })

/-- `admit`, once an expired open period has ended. -/
def admitNow (d : CircuitData) : Option Admission × CircuitData :=
  if d.state = .halfOpen then
    if (b.halfOpenMaxCalls : Int) ≤ d.halfOpenInFlight then (none, d)
    else
      (some ⟨d.generation, d.state, true⟩,
        { d with halfOpenInFlight := d.halfOpenInFlight + 1 })
  else (some ⟨d.generation, d.state, false⟩, d)

/-- `admit` -/
def admitCall (d : CircuitData) (now : ℚ) :
    (Option Admission × Option Transition) × CircuitData :=
  if d.state = .opened then
    if now < d.openUntil then ((none, none), d)
    else
      let (transition, d) := b.transition d .halfOpen now
      let (admission, d) := b.admitNow d
      ((admission, some transition), d)
  else
    let (admission, d) := b.admitNow d
    ((admission, none), d)

/-- `ignore` -/
def ignore (d : CircuitData) (admission : Admission) : CircuitData :=
  if admission.generation = d.generation ∧ admission.ownsHalfOpenSlot = true ∧
      d.state = .halfOpen then
    { d with halfOpenInFlight := d.halfOpenInFlight - 1 }
  else d

/-- `succeed` -/
def succeed (d : CircuitData) (admission : Admission) (now : ℚ) :
    Option Transition × CircuitData :=
  if admission.generation ≠ d.generation then (none, d)
  else if admission.ownsHalfOpenSlot = true ∧ d.state = .halfOpen then
    let d := { d with
      halfOpenInFlight := d.halfOpenInFlight - 1
      recoverySuccesses := d.recoverySuccesses + 1 }
    if (b.recoverySuccessThreshold : Int) ≤ d.recoverySuccesses then
      let (transition, d) := b.transition d .closed now
      (some transition, d)
    else (none, d)
  else if d.state = .closed then (none, { d with consecutiveFailures := 0 })
  else (none, d)

/-- `fail` -/
def fail (d : CircuitData) (admission : Admission) (now : ℚ) :
    Option Transition × CircuitData :=
  if admission.generation ≠ d.generation then (none, d)
  else if admission.ownsHalfOpenSlot = true ∧ d.state = .halfOpen then
    let d := { d with halfOpenInFlight := d.halfOpenInFlight - 1 }
    let (transition, d) := b.transition d .opened now
    (some transition, d)
  else if d.state = .closed then
    let d := { d with consecutiveFailures := d.consecutiveFailures + 1 }
    if (b.failureThreshold : Int) ≤ d.consecutiveFailures then
      let (transition, d) := b.transition d .opened now
      (some transition, d)
    else (none, d)
  else (none, d)

/-- `_CircuitEvents.make` -/
def event (kind : EventKind) (outcome : Option PolicyOutcome) (category : FailureCategory)
    (snapshot : CircuitSnapshot) (transition : Option Transition) : PolicyEvent where
  policyName := b.name
  policyType := .circuitBreaker
  kind := kind
  outcome := outcome
  failureCategory := category
  attempt := none
  delay := none
  timeout := none
  state := some snapshot.state
  previousState := transition.map Transition.previous
  inFlight := some snapshot.halfOpenInFlight
  waiters := none

end CircuitBreaker

/-! ## Sections -/

/-- A call, by its number. -/
abbrev CircuitCaller :=
  Nat

/-- The data with the ledger of admissions. -/
structure CircuitWorld where
  data : CircuitData
  admissions : Ledger CircuitCaller Admission

/-- The world before the first call. -/
def CircuitWorld.init : CircuitWorld where
  data := .init
  admissions := .empty

/-- The sections of a circuit breaker: an admission, and the settlement of one. -/
inductive CircuitSection
  | admission
  | settle
deriving DecidableEq, Repr

/-- What the section of an admission returns. -/
structure AdmitResult where
  admission : Option Admission
  transition : Option Transition
  snapshot : CircuitSnapshot

/-- What the section of a settlement returns. -/
structure SettleResult where
  changed : Option Transition
  snapshot : CircuitSnapshot

/-- Programs of a circuit breaker. -/
abbrev CircuitProg (ν : Type) :=
  Prog CircuitWorld CircuitSection ν

namespace CircuitBreaker

variable {ν : Type} (b : CircuitBreaker) (t : CircuitCaller)

/-- The ledger after an admission or a rejection. -/
def record (w : CircuitWorld) (admission : Option Admission) (d : CircuitData) :
    CircuitWorld where
  data := d
  admissions :=
    match admission with
    | none => w.admissions
    | some a => w.admissions.grant t a

/-- The first section of `call`. -/
def admitLocked (now : ℚ) (w : CircuitWorld) : AdmitResult × CircuitWorld :=
  let ((admission, transition), d) := b.admitCall w.data now
  (⟨admission, transition, b.snapshotOf d⟩, record t w admission d)

/-- A section that settles an admission. -/
def settleLocked (update : CircuitData → Option Transition × CircuitData)
    (w : CircuitWorld) : SettleResult × CircuitWorld :=
  let (changed, d) := update w.data
  (⟨changed, b.snapshotOf d⟩, ⟨d, w.admissions.settle t⟩)

/-- The section of `_release`. -/
def ignoreLocked (a : Admission) : CircuitWorld → SettleResult × CircuitWorld :=
  b.settleLocked t fun d => (none, ignore d a)

/-- The section after a failure. -/
def failLocked (a : Admission) (classified : Bool) (now : ℚ) :
    CircuitWorld → SettleResult × CircuitWorld :=
  b.settleLocked t fun d => if classified then b.fail d a now else (none, ignore d a)

/-- The section after a success. -/
def succeedLocked (a : Admission) (now : ℚ) : CircuitWorld → SettleResult × CircuitWorld :=
  b.settleLocked t fun d => b.succeed d a now

/-! ## The parts of `call` -/

/-- `_finite_non_negative(self._clock(), "clock result")` -/
def readClock : CircuitProg ν ℚ := do
  let message := "clock result must be a finite non-negative number"
  match ← orRaise (← asking .clock) with
  | .notNumber => throw (.typeError message)
  | .notFinite => throw (.valueError message)
  | .finite seconds => if seconds < 0 then throw (.valueError message) else return seconds

/-- `_classify` -/
def classify (error : Raised) : CircuitProg ν Bool :=
  if b.hasFailureIf then do
    match ← orRaise (← asking (.classify error)) with
    | none => throw (.typeError "failure_if must return bool")
    | some verdict => return verdict
  else return true

/-- The event of a transition, if there was one. -/
def emitTransition (transition : Option Transition) (snapshot : CircuitSnapshot) :
    CircuitProg ν Unit :=
  match transition with
  | none => pure ()
  | some change => emit b.observed (b.event .circuitTransitioned none .none snapshot (some change))

/-- The events of an admission or a rejection. -/
def announce (r : AdmitResult) : CircuitProg ν Admission := do
  b.emitTransition r.transition r.snapshot
  match r.admission with
  | none => do
      emit b.observed (b.event .rejected (some .rejection) .circuitOpen r.snapshot none)
      throw (.circuitOpen b.name r.snapshot.state)
  | some a => do
      emit b.observed (b.event .admitted none .none r.snapshot none)
      return a

/-- What a breaker does with an admission when something else has failed. -/
abbrev CleanUp (ν : Type) :=
  (α : Type) → Admission → Raised → CircuitProg ν α

/-- How a breaker runs the section that settles an admission. -/
abbrev Settle (ν : Type) :=
  Admission → (CircuitWorld → SettleResult × CircuitWorld) → CircuitProg ν SettleResult

section Parts

variable (cleanUp : CleanUp ν) (settle : Settle ν)

/-- The handler around the first events. -/
def announceOrCleanUp (r : AdmitResult) : CircuitProg ν Admission :=
  tryCatch (b.announce r) fun error =>
    match r.admission with
    | none => throw error
    | some a => cleanUp Admission a error

/-- `call` after an ordinary failure of the operation. -/
def settleFailure (a : Admission) (error : Raised) : CircuitProg ν ν := do
  let classified ← tryCatch (b.classify error) (cleanUp Bool a)
  let now ← tryCatch readClock (cleanUp ℚ a)
  let settled ← settle a (b.failLocked t a classified now)
  b.emitTransition settled.changed settled.snapshot
  emit b.observed
    (b.event .failed (some .failure) (failureCategory error) settled.snapshot none)
  throw error

/-- `call` after a success of the operation. -/
def settleSuccess (a : Admission) (result : ν) : CircuitProg ν ν := do
  let now ← tryCatch readClock (cleanUp ℚ a)
  let settled ← settle a (b.succeedLocked t a now)
  b.emitTransition settled.changed settled.snapshot
  emit b.observed (b.event .succeeded (some .success) .none settled.snapshot none)
  return result

end Parts

/-! ## The synchronous breaker -/

/-- `_release` -/
def release (a : Admission) : CircuitProg ν SettleResult :=
  locked .settle (b.ignoreLocked t a)

/-- The release before an exception is raised again. -/
def releaseAndRaise : CleanUp ν := fun _ a error => do
  let _ ← b.release t a
  throw error

/-- A section under the thread lock. -/
def settleNow : Settle ν := fun _ update =>
  locked .settle update

/-- `call` from the end of the operation on. -/
def finish (a : Admission) : Except Raised ν → CircuitProg ν ν
  | .ok result => b.settleSuccess t (b.releaseAndRaise t) settleNow a result
  | .error .syncResultContract => b.releaseAndRaise t ν a .syncResultContract
  | .error error =>
      if error.isException then b.settleFailure t (b.releaseAndRaise t) settleNow a error
      else b.releaseAndRaise t ν a error

/-- `call` -/
def call : CircuitProg ν ν := do
  checkOperation
  let now ← readClock
  let r ← locked .admission (b.admitLocked t now)
  let a ← b.announceOrCleanUp (b.releaseAndRaise t) r
  b.finish t a (← asking .operation)

/-! ## The asyncio breaker -/

/-- `_release` -/
def asyncRelease (a : Admission) : CircuitProg ν SettleResult := do
  awaitLock
  b.release t a

/-- `_release_preserving_cancellation` -/
def releasePreservingCancellation (a : Admission) : CircuitProg ν (SettleResult × Bool) :=
  preservingCancellation (b.asyncRelease t a)

/-- The release before an exception is raised again. -/
def asyncReleaseAndRaise : CleanUp ν := fun _ a error => do
  let (_, cancelled) ← b.releasePreservingCancellation t a
  -- for a cancellation both branches raise the same
  raiseWhen cancelled .cancelled
  throw error

/-- A section under the asyncio lock; a cancelled wait for it releases the admission. -/
def asyncSettle : Settle ν := fun a update =>
  tryCatch (do
    awaitLock
    locked .settle update) (b.asyncReleaseAndRaise t SettleResult a)

/-- `call` from the end of the operation on. -/
def asyncFinish (a : Admission) : Except Raised ν → CircuitProg ν ν
  | .ok result =>
      b.settleSuccess t (b.asyncReleaseAndRaise t) (b.asyncSettle t) a result
  | .error error =>
      if error.isException then
        b.settleFailure t (b.asyncReleaseAndRaise t) (b.asyncSettle t) a error
      else b.asyncReleaseAndRaise t ν a error

/-- `call` -/
def asyncCall : CircuitProg ν ν := do
  checkOperation
  let now ← readClock
  awaitLock
  let r ← locked .admission (b.admitLocked t now)
  let a ← b.announceOrCleanUp (b.asyncReleaseAndRaise t) r
  b.asyncFinish t a (← asking .operation)

/-- `call` of either breaker. -/
def callOf (mode : Mode) : CircuitProg ν ν :=
  match mode with
  | .sync => b.call t
  | .async => b.asyncCall t

end CircuitBreaker

/-! ## The callers of a circuit breaker -/

/-- A breaker's questions are all to the outside. -/
def answerCircuit (w : CircuitWorld) : Question → Option CircuitWorld
  | .wait _ | .awaitWait => none
  | _ => some w

/-- The world around the callers of a circuit breaker. -/
def circuitSystem (ν : Type) :
    System CircuitCaller CircuitWorld CircuitWorld CircuitSection Question Empty
      (Question.Answer ν) where
  view _ w := w
  put _ w _ := w
  enabled _ _ _ := true
  issue _ _ w := some w
  answer _ q _ w := answerCircuit w q
  env e _ := nomatch e

/-- The callers of a circuit breaker and its world. -/
abbrev CircuitPool (ν : Type) :=
  System.Pool CircuitCaller CircuitWorld CircuitWorld CircuitSection Question
    (Question.Answer ν) (Except Raised ν)

/-- Every caller is about to start its call. -/
def CircuitBreaker.pool (b : CircuitBreaker) (mode : Mode) (ν : Type) : CircuitPool ν where
  world := .init
  thread t := .running (b.callOf t mode : CircuitProg ν ν).run

/-- The steps of the callers of a circuit breaker. -/
abbrev CircuitStep (ν : Type) :=
  System.PoolStep (ρ := Except Raised ν) (circuitSystem ν)

/-- What happens in a step. -/
abbrev CircuitLabel (ν : Type) :=
  System.PoolLabel CircuitCaller CircuitSection Question Empty (Question.Answer ν)

end Resilience
end Bluetape
