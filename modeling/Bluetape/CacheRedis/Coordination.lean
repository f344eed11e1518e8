import Bluetape.Base.Dialogue
import Bluetape.CacheRedis.EnvelopeCodec

/-!
# Load coordination

One distributed flight of the load coordinators, which the synchronous and the
asynchronous one share up to the event of a cancellation.  A flight is a
dialogue with the clock, the provider, the loader and the observer: whatever
other flights do, it shows in the answers only.

The two loops of a flight end because every round counts an attempt or a poll.
-/

namespace Bluetape
namespace CacheRedis

open Base Serde Dialogue

/-! ## Options, snapshots and failures -/

/-- The settings of `RedisLoadOptions` that a flight reads. -/
structure RedisLoadOptions where
  leaseTtl : ℚ
  resultTtl : ℚ
  pollInterval : ℚ
  maxPollInterval : ℚ
  waitTimeout : ℚ
  maxAttempts : Nat
  maxPolls : Nat
  leaseTtl_pos : 0 < leaseTtl
  resultTtl_pos : 0 < resultTtl
  pollInterval_pos : 0 < pollInterval
  pollInterval_le : pollInterval ≤ maxPollInterval
  maxPollInterval_le : maxPollInterval ≤ waitTimeout
  one_le_attempts : 1 ≤ maxAttempts
  one_le_polls : 1 ≤ maxPolls

/-- `RedisCoordinationSnapshot` -/
structure RedisCoordinationSnapshot where
  marker : Option Bytes
  result : Option Bytes
  markerOversized : Bool
  resultOversized : Bool
deriving DecidableEq, Repr

/-- `RedisCoordinationErrorCode` -/
inductive RedisCoordinationErrorCode
  | attemptsExhausted
  | pollsExhausted
  | deadlineExceeded
  | invalidArtifact
  | providerFailure
  | envelopeFailure
  | loaderFailure
deriving DecidableEq, Repr

/-- `RedisCoordinationOutcome` -/
inductive RedisCoordinationOutcome
  | loaded
  | resultReused
  | leaseLost
  | timeout
  | failure
  | cancelled
deriving DecidableEq, Repr

/-- `RedisMode` -/
inductive RedisMode
  | sync
  | async
deriving DecidableEq, Repr

/--
The classes of exceptions, as the `except` clauses of a flight tell them apart; a fatal one
is neither an `Exception` nor a cancellation.
-/
inductive ExceptionKind
  | timeout (code : RedisCoordinationErrorCode)
  | coordination (code : RedisCoordinationErrorCode)
  | provider
  | envelope
  | cancelled
  | other
  | fatal
deriving DecidableEq, Repr

/-- Which object an exception is: one that a call raises, or one that the flight constructs. -/
inductive ExceptionObject
  | raised (n : Nat)
  | constructed
deriving DecidableEq, Repr

/-- An exception with the notes that were added to it. -/
structure FlightException where
  kind : ExceptionKind
  object : ExceptionObject
  notes : List Text
deriving DecidableEq, Repr

/-- An exception that the flight constructs. -/
def FlightException.new (kind : ExceptionKind) : FlightException :=
  ⟨kind, .constructed, []⟩

/-- `_timeout` -/
def FlightException.timeout (code : RedisCoordinationErrorCode) : FlightException :=
  .new (.timeout code)

/-- `add_note` -/
def FlightException.addNote (e : FlightException) (note : Text) : FlightException :=
  { e with notes := e.notes ++ [note] }

/-- `RedisCoordinationEvent`, without the elapsed time -/
structure RedisCoordinationEvent where
  mode : RedisMode
  outcome : RedisCoordinationOutcome
  errorCode : Option RedisCoordinationErrorCode
  attempts : Nat
  polls : Nat
  cleanupFailed : Bool
deriving DecidableEq, Repr

/-- `_FlightState` -/
structure FlightState where
  attempts : Nat
  polls : Nat
  cleanupFailed : Bool
deriving DecidableEq, Repr

/-! ## What a flight asks -/

/-- What a flight calls. -/
inductive Question
  | clock
  | newToken
  | jitter
  | sleep (duration : ℚ)
  | setIfAbsent (key : Text) (value : Bytes) (ttl : ℚ)
  | coordinationSnapshot (leaseKey resultKey : Text) (maxResultSize : Nat)
  | publishIfValue (leaseKey : Text) (expected : Bytes) (resultKey : Text)
      (resultValue completionValue : Bytes) (ttl : ℚ)
  | deleteIfValue (key : Text) (value : Bytes)
  | loader (key : Text)
  | onEvent (event : RedisCoordinationEvent)

/-- What the calls return or raise. -/
def Answer (V : Type) : Question → Type
  | .clock => ℚ
  | .newToken => Text
  | .jitter => ℚ
  | .sleep _ => Except FlightException Unit
  | .setIfAbsent .. => Except FlightException Bool
  | .coordinationSnapshot .. => Except FlightException RedisCoordinationSnapshot
  | .publishIfValue .. => Except FlightException Bool
  | .deleteIfValue .. => Except FlightException Bool
  | .loader _ => Except FlightException V
  | .onEvent _ => Unit

/-- Programs of a flight. -/
abbrev Flight (V : Type) :=
  Dialogue Question (Answer V)

/-- A result or an exception, with a part of the flight's state. -/
abbrev Ended (S β : Type) :=
  Except FlightException β × S

section Calls

variable {V : Type}

/-- `_clock` -/
def clock : Flight V ℚ :=
  request Question.clock

/-- `_new_token` -/
def newToken : Flight V Text :=
  request Question.newToken

/-- `_jitter` -/
def jitter : Flight V ℚ :=
  request Question.jitter

/-- `_sleep` -/
def sleep (duration : ℚ) : Flight V (Except FlightException Unit) :=
  request (Question.sleep duration)

/-- `set_if_absent` of the provider -/
def setIfAbsent (key : Text) (value : Bytes) (ttl : ℚ) : Flight V (Except FlightException Bool) :=
  request (Question.setIfAbsent key value ttl)

/-- `coordination_snapshot` of the provider -/
def coordinationSnapshot (leaseKey resultKey : Text) (maxResultSize : Nat) :
    Flight V (Except FlightException RedisCoordinationSnapshot) :=
  request (Question.coordinationSnapshot leaseKey resultKey maxResultSize)

/-- `publish_if_value` of the provider -/
def publishIfValue (leaseKey : Text) (expected : Bytes) (resultKey : Text)
    (resultValue completionValue : Bytes) (ttl : ℚ) : Flight V (Except FlightException Bool) :=
  request (Question.publishIfValue leaseKey expected resultKey resultValue completionValue ttl)

/-- `delete_if_value` of the provider -/
def deleteIfValue (key : Text) (value : Bytes) : Flight V (Except FlightException Bool) :=
  request (Question.deleteIfValue key value)

/-- The loader of the user. -/
def loader (key : Text) : Flight V (Except FlightException V) :=
  request (Question.loader key)

/-- `on_event` of the observer -/
def onEvent (event : RedisCoordinationEvent) : Flight V Unit :=
  request (Question.onEvent event)

end Calls

/-- What a flight is about. -/
structure FlightContext (V : Type) where
  options : RedisLoadOptions
  codec : ResultEnvelopeCodec V
  frames : Nat
  key : Text
  leaseKey : Text
  resultKey : Text
  observed : Bool

section Flight

variable {V S β γ : Type} (context : FlightContext V) (mode : RedisMode)

/-- Raise an exception. -/
def raise (e : FlightException) (state : S) : Flight V (Ended S β) :=
  .done (.error e, state)

/-- Go on with a result, or raise its exception. -/
def answered (answer : Except FlightException γ) (state : S) (next : γ → Flight V (Ended S β)) :
    Flight V (Ended S β) :=
  match answer with
  | .error e => raise e state
  | .ok value => next value

/-- Go on unless the clock has reached the deadline. -/
def beforeDeadline (deadline : ℚ) (state : S) (next : Flight V (Ended S β)) :
    Flight V (Ended S β) := do
  let now ← clock
  if deadline ≤ now then raise (.timeout .deadlineExceeded) state else next

/-! ## Markers -/

/-- The ASCII bytes of a text of ASCII characters. -/
def asciiBytes (t : Text) : Bytes :=
  t.map fun p => UInt8.ofNat p.ord

/-- `f"active:{token}".encode("ascii")` -/
def activeMarker (token : Text) : Bytes :=
  asciiBytes (text "active:" ++ token)

/-- `f"completed:{token}".encode("ascii")` -/
def completionMarker (token : Text) : Bytes :=
  asciiBytes (text "completed:" ++ token)

/-- The states of a marker. -/
inductive MarkerState
  | active
  | completed
deriving DecidableEq, Repr

/-- The state that a text names. -/
def MarkerState.ofText (state : Text) : Option MarkerState :=
  if state = text "active" then some .active
  else if state = text "completed" then some .completed
  else none

/-- `_parse_marker`, none for its exception -/
def parseMarker (marker : Bytes) : Option (MarkerState × Text) := do
  let decoded ← decodeAscii marker
  let token ← (decoded.dropWhile (· ≠ .scalar ':')).tail?
  let state ← MarkerState.ofText (decoded.takeWhile (· ≠ .scalar ':'))
  if isOwnerToken token then some (state, token) else none

/-! ## Waiting for the owner -/

/-- `_poll_delay` -/
def pollDelay (options : RedisLoadOptions) (polls : Nat) (remaining : ℚ) : ℚ :=
  let maxExponent := Nat.clog 2 ⌈options.maxPollInterval / options.pollInterval⌉₊
  min (min (options.pollInterval * 2 ^ min (polls - 1) maxExponent) options.maxPollInterval)
    remaining

/-- What a snapshot says. -/
inductive Reading (V : Type)
  | absent
  | waiting
  | reused (value : V)

/-- An exception of the codec as a flight sees it. -/
def ofCodec : CodecException → FlightException
  | .envelope _ => .new .envelope
  | _ => .new .other

/-- The checks of a snapshot. -/
def readSnapshot (snapshot : RedisCoordinationSnapshot) : Except FlightException (Reading V) := do
  raiseIf (snapshot.markerOversized ∨ snapshot.resultOversized)
    (.new (.coordination .invalidArtifact))
  match snapshot.marker with
  | none => return .absent
  | some marker =>
      let (state, token) ← orRaise (.new (.coordination .invalidArtifact))
        (parseMarker marker)
      match state with
      | .active => return .waiting
      | .completed =>
          let result ← orRaise (.new (.coordination .invalidArtifact)) snapshot.result
          let found ← (context.codec.decodeMatching context.frames result token).result.mapError
            ofCodec
          match found with
          | none => return .waiting
          | some found => return .reused found.value

/--
The inner loop of `_run_flight`, on the count of polls: it breaks, without a result,
when the marker is gone.
-/
def pollLoop (deadline : ℚ) (polls : Nat) :
    Flight V (Ended Nat (Option (V × RedisCoordinationOutcome))) :=
  beforeDeadline deadline polls do
    let snapshot ← coordinationSnapshot context.leaseKey context.resultKey
      context.codec.maxEncodedSize
    answered snapshot polls fun snapshot =>
      beforeDeadline deadline polls
        (answered (readSnapshot context snapshot) polls fun reading =>
          match reading with
          | .absent => .done (.ok none, polls)
          | .reused value => .done (.ok (some (value, .resultReused)), polls)
          | .waiting =>
              if context.options.maxPolls ≤ polls + 1 then
                raise (.timeout .pollsExhausted) (polls + 1)
              else do
                let now ← clock
                if deadline - now ≤ 0 then raise (.timeout .deadlineExceeded) (polls + 1)
                else do
                  let factor ← jitter
                  let slept ← sleep
                    (pollDelay context.options (polls + 1) (deadline - now) * factor)
                  answered slept (polls + 1) fun _ => pollLoop deadline (polls + 1))
termination_by context.options.maxPolls - polls

/-! ## Owning the lease -/

/-- The note of a failed cleanup. -/
def cleanupNote : Text :=
  text "Redis owner cleanup also failed (cleanup-failure)"

/--
`_cleanup` and `_cleanup_primary`, and the exception that made them necessary, which is
raised again with a note when the command fails.  The asynchronous coordinator waits for the
command through every cancellation, but its `except Exception` lets a fatal exception of the
command pass.  One that a cancellation hides from the wait is caught like any other, and
answered as one.
-/
def cleanup (token : Text) (primary : FlightException) (state : FlightState) :
    Flight V (Ended FlightState β) := do
  let deleted ← deleteIfValue context.leaseKey (activeMarker token)
  match deleted with
  | .ok _ => raise primary state
  | .error e =>
      if mode = .async ∧ e.kind = .fatal then raise e state
      else raise (primary.addNote cleanupNote) { state with cleanupFailed := true }

/-- `_run_owner` -/
def runOwner (token : Text) (leaseDeadline : ℚ) (state : FlightState) :
    Flight V (Ended FlightState (V × RedisCoordinationOutcome)) := do
  let loaded ← loader context.key
  match loaded with
  | .error e => cleanup context mode token e state
  | .ok value => do
      let now ← clock
      if leaseDeadline ≤ now then .done (.ok (value, .leaseLost), state)
      else
        match context.codec.encode token value with
        | .error e => cleanup context mode token (ofCodec e) state
        | .ok encoded => do
            let now ← clock
            if leaseDeadline ≤ now then .done (.ok (value, .leaseLost), state)
            else do
              let published ← publishIfValue context.leaseKey (activeMarker token)
                context.resultKey encoded (completionMarker token) context.options.resultTtl
              match published with
              | .error e => cleanup context mode token e state
              | .ok true => .done (.ok (value, .loaded), state)
              | .ok false => .done (.ok (value, .leaseLost), state)

/-- The rest of an attempt after `set_if_absent` has succeeded. -/
def acquiredLease (deadline : ℚ) (token : Text) (state : FlightState) :
    Flight V (Ended FlightState (V × RedisCoordinationOutcome)) := do
  let now ← clock
  if deadline ≤ now then cleanup context mode token (.timeout .deadlineExceeded) state
  else do
    let now ← clock
    runOwner context mode token (now + context.options.leaseTtl) state

/-! ## The flight -/

/-- The outer loop of `_run_flight`. -/
def runFlight (deadline : ℚ) (state : FlightState) :
    Flight V (Ended FlightState (V × RedisCoordinationOutcome)) :=
  beforeDeadline deadline state
    (if _h : context.options.maxAttempts ≤ state.attempts then
      raise (.timeout .attemptsExhausted) state
    else do
      let token ← newToken
      if isOwnerToken token = false then raise (.new .other) state
      else
        let attempted := { state with attempts := state.attempts + 1 }
        beforeDeadline deadline state do
          let acquired ← setIfAbsent context.leaseKey (activeMarker token)
            context.options.leaseTtl
          answered acquired attempted fun acquired =>
            if acquired then acquiredLease context mode deadline token attempted
            else
              beforeDeadline deadline attempted do
                let (found, polls) ← pollLoop context deadline attempted.polls
                answered found { attempted with polls := polls } fun found =>
                  match found with
                  | some found => .done (.ok found, { attempted with polls := polls })
                  | none => runFlight deadline { attempted with polls := polls })
termination_by context.options.maxAttempts - state.attempts

/-- The outcome of the terminal event and its error code. -/
def terminal : Except FlightException (V × RedisCoordinationOutcome) →
    RedisCoordinationOutcome × Option RedisCoordinationErrorCode
  | .ok (_, outcome) => (outcome, none)
  | .error e =>
      match mode, e.kind with
      | _, .timeout code => (.timeout, some code)
      | _, .coordination code => (.failure, some code)
      | _, .provider => (.failure, some .providerFailure)
      | _, .envelope => (.failure, some .envelopeFailure)
      | .async, .cancelled => (.cancelled, none)
      | _, _ => (.failure, some .loaderFailure)

/-- `_emit` -/
def emit (result : Except FlightException (V × RedisCoordinationOutcome))
    (state : FlightState) : Flight V Unit :=
  if context.observed then
    onEvent ⟨mode, (terminal mode result).1, (terminal mode result).2, state.attempts,
      state.polls, state.cleanupFailed⟩
  else .done ()

/-- `_distributed_load` -/
def distributedLoad : Flight V (Except FlightException V) := do
  let start ← clock
  let (result, state) ← runFlight context mode (start + context.options.waitTimeout) ⟨0, 0, false⟩
  emit context mode result state
  return result.map Prod.fst

end Flight

end CacheRedis
end Bluetape
