import Bluetape.Base.Evaluation
import Bluetape.Resilience.Core

/-!
# Retry policies

`call` of `Retry` and of `AsyncRetry` as programs.  They ask for the outcome of the
operation and of the functions that a policy is made of: the predicate, the backoff, the
observer and the sleeper.

* `Retry.round` and `AsyncRetry.round`: one round of `while True`;
* `Retry.handleFailure`: what both do about an exception that they catch.
-/

namespace Bluetape
namespace Resilience

open Base

/-- What a backoff returns. -/
inductive DelayValue
  | number (seconds : ℚ)
  | notFinite
  | notNumber
deriving DecidableEq, Repr

/-- What `call` of a retry policy asks. -/
inductive RetryQuestion (ν : Type)
  | checkOperation
  | operation
  | close (result : ν)
  | retryIf (error : Raised)
  | backoff (failedAttempt : Nat)
  | observe (event : PolicyEvent)
  | sleep (delay : ℚ)

/-- The type of the answer; no Boolean stands for a verdict that is none. -/
abbrev RetryQuestion.Answer {ν : Type} : RetryQuestion ν → Type
  | checkOperation | close _ | observe _ | sleep _ => Except Raised Unit
  | operation => Except Raised ν
  | retryIf _ => Except Raised (Option Bool)
  | backoff _ => Except Raised DelayValue

/-- An exception, and the one that it is raised from. -/
structure RaisedFrom where
  error : Raised
  cause : Option Raised
deriving DecidableEq

/-- Programs of a retry policy. -/
abbrev RetryProg (ν α : Type) :=
  ExceptT RaisedFrom (Proc Unit Empty (RetryQuestion ν) RetryQuestion.Answer) α

/-- `Retry` and `AsyncRetry`: what they are made of, beside the functions that they call. -/
structure Retry where
  name : String
  maxAttempts : Nat
  hasRetryIf : Bool
  observed : Bool
  one_le_maxAttempts : 1 ≤ maxAttempts
deriving DecidableEq

/-- `_event` -/
def retryEvent (name : String) (kind : EventKind) (outcome : Option PolicyOutcome)
    (category : FailureCategory) (attempt : Nat) (delay : Option ℚ) : PolicyEvent :=
  ⟨name, .retry, kind, outcome, category, some attempt, delay, none, none, none, none, none⟩

/-- The classes of exceptions that are retried without a predicate. -/
def retriedByDefault : Raised → Bool
  | .circuitOpen _ _ | .bulkheadRejected _ | .policyTimeout _ _ => false
  | _ => true

/-- `_finite_non_negative` of what the backoff returns -/
def finiteNonNegative : DelayValue → Except Raised ℚ
  | .notNumber => .error (.typeError "backoff result must be a finite non-negative number")
  | .notFinite => .error (.valueError "backoff result must be a finite non-negative number")
  | .number seconds =>
      if seconds < 0 then
        .error (.valueError "backoff result must be a finite non-negative number")
      else .ok seconds

namespace Retry

variable {ν α : Type}

/-- Ask a question. -/
def asking (q : RetryQuestion ν) : RetryProg ν q.Answer :=
  liftM (Proc.request q : Proc Unit Empty (RetryQuestion ν) RetryQuestion.Answer q.Answer)

/-- Raise an exception as it is. -/
def raise (error : Raised) : RetryProg ν α :=
  throw ⟨error, none⟩

/-- Raise what was raised. -/
def orRaise : Except Raised α → RetryProg ν α
  | .ok a => pure a
  | .error e => raise e

/-- `_emit` -/
def emit (p : Retry) (event : PolicyEvent) : RetryProg ν Unit :=
  if p.observed then do
    let observed : Except Raised Unit ← asking (.observe event)
    orRaise observed
  else pure ()

/-- `_is_retryable` -/
def isRetryable (p : Retry) (error : Raised) : RetryProg ν Bool :=
  if p.hasRetryIf then do
    let answer : Except Raised (Option Bool) ← asking (.retryIf error)
    match ← orRaise answer with
    | some result => pure result
    | none => raise (.typeError "retry_if must return bool")
  else pure (retriedByDefault error)

/-- The handler of an exception, which returns when the loop goes on. -/
def handleFailure (p : Retry) (error : Raised) (attempt : Nat) : RetryProg ν Unit := do
  let retryable ← p.isRetryable error
  if ¬retryable then
    p.emit (retryEvent p.name .failed (some .failure) (failureCategory error) attempt none)
    raise error
  else if attempt ≥ p.maxAttempts then
    p.emit (retryEvent p.name .failed (some .failure) .retryExhausted attempt none)
    throw ⟨.retryExhausted p.name attempt, some error⟩
  else
    let answer : Except Raised DelayValue ← asking (.backoff attempt)
    let value ← orRaise answer
    let delay ← orRaise (finiteNonNegative value)
    p.emit (retryEvent p.name .retryScheduled none (failureCategory error) attempt (some delay))
    let slept : Except Raised Unit ← asking (.sleep delay)
    orRaise slept

/-- `_ensure_sync_result` -/
def ensureSyncResult (isAwaitable : ν → Bool) (result : ν) : RetryProg ν ν :=
  if isAwaitable result then do
    let closed : Except Raised Unit ← asking (.close result)
    orRaise closed
    raise .syncResultContract
  else pure result

/-- One round of `call`. -/
def round (p : Retry) (isAwaitable : ν → Bool) (attempt : Nat) : RetryProg ν (Nat ⊕ ν) := do
  let outcome : Except Raised ν ← asking .operation
  match outcome with
  | .error error =>
      if error = .syncResultContract then raise error
      else if error.isException then do
        p.handleFailure error attempt
        return .inl (attempt + 1)
      else raise error
  | .ok result => do
      let result ← ensureSyncResult isAwaitable result
      p.emit (retryEvent p.name .succeeded (some .success) .none attempt none)
      return .inr result

/-- `call` -/
def call (p : Retry) (isAwaitable : ν → Bool) : RetryProg ν ν := do
  let checked : Except Raised Unit ← asking .checkOperation
  orRaise checked
  Proc.exceptLoop (p.round isAwaitable) 1

end Retry

/-- `AsyncRetry` -/
abbrev AsyncRetry :=
  Retry

namespace AsyncRetry

variable {ν : Type}

/-- One round of `call`. -/
def round (p : AsyncRetry) (attempt : Nat) : RetryProg ν (Nat ⊕ ν) := do
  let outcome : Except Raised ν ← Retry.asking .operation
  match outcome with
  | .error error =>
      if error = .cancelled then Retry.raise error
      else if error.isException then do
        p.handleFailure error attempt
        return .inl (attempt + 1)
      else Retry.raise error
  | .ok result => do
      p.emit (retryEvent p.name .succeeded (some .success) .none attempt none)
      return .inr result

/-- `call` -/
def call (p : AsyncRetry) : RetryProg ν ν := do
  let checked : Except Raised Unit ← Retry.asking .checkOperation
  Retry.orRaise checked
  Proc.exceptLoop (round p) 1

end AsyncRetry

end Resilience
end Bluetape
