import Bluetape.LeaderRedis.LockHandle
import Bluetape.LeaderRedis.Fencing

/-!
# Acquiring a lock

`try_acquire` and `_reconcile_acquire` as programs, and the world around any
number of calls: one server, and for each call the command that it waits for, the
commands that it has given up, which may still be executed, and the reply under
way.  Other clients run any scripts, with owner tokens of their own.

The world keeps the history of the executed scripts and what each call has sent
and been told.
-/

namespace Bluetape
namespace LeaderRedis

open Base

/-! ## The code -/

section Code

/-- The backend part of `try_acquire`. -/
def dispatchAcquire {σ Λ : Type} (ownerToken : Bytes) (ttlMs : Nat) :
    Asking σ Λ (Status × Option Nat) := do
  let raw ← runScript (.acquire ownerToken (millisecondsText ttlMs))
  orRaise valueError (parseAcquireResponse raw)

/-- The backend part of `_reconcile_acquire`. -/
def dispatchReconcile {σ Λ : Type} : Asking σ Λ (Status × Option LeaseRecord) := do
  let raw ← runReconcile
  orRaise valueError (parseReconcileResponse raw)

/-- `_new_handle`; the constructor of the record raises on invalid fields. -/
def newHandle (ownerToken : Bytes) (fencingToken : Nat) (options : LeaderElectionOptions)
    (acquiredNs : Int) : Prog LeaseHandle := do
  let record ← orRaise valueError (LeaseRecord.make ownerToken fencingToken)
  return ⟨record, options, acquiredNs⟩

/-- `_reconcile_acquire` -/
def reconcileAcquire (ownerToken : Bytes) (options : LeaderElectionOptions)
    (acquiredNs : Int) : Prog LeaseHandle := do
  match ← attempt dispatchReconcile with
  | .done (.present, some record) =>
      if record.ownerToken ≠ ownerToken then throw .backendError
      newHandle ownerToken record.fencingToken options acquiredNs
  | _ => throw .backendError

/-- The pause of `try_acquire` after a contended attempt, with the seconds that are left. -/
def pause {σ Λ : Type} (remaining : ℚ) : Asking σ Λ Unit := do
  match ← asking .jitter with
  | none => throw runtimeError
  | some delay =>
      if (4 : ℚ) / 100 ≤ delay ∧ delay ≤ (6 : ℚ) / 100 then asking (.sleep (min delay remaining))
      else throw runtimeError

/-- What `try_acquire` does after an attempt: it goes on, or it has its result. -/
def afterAttempt (ownerToken : Bytes) (options : LeaderElectionOptions)
    (deadline acquiredNs : Int) :
    Attempt (Status × Option Nat) → Prog (Bool ⊕ Option LeaseHandle)
  | .uncertain => do return .inr (some (← reconcileAcquire ownerToken options acquiredNs))
  | .backendFailed => throw .backendError
  | .done (.acquired, some fencingToken) => do
      return .inr (some (← newHandle ownerToken fencingToken options acquiredNs))
  | .done (status, _) => do
      if status ≠ .contended then throw .backendError
      let now : Int ← asking .monotonicNs
      let remainingNs := deadline - now
      if remainingNs ≤ 0 then return .inr none
      pause ((remainingNs : ℚ) / 1000000000)
      return .inl true

/-- One round of the loop of `try_acquire`. -/
def acquireRound (ownerToken : Bytes) (ttlMs : Nat) (options : LeaderElectionOptions)
    (deadline : Int) (attempted : Bool) : Prog (Bool ⊕ Option LeaseHandle) := do
  let acquiredNs : Int ← asking .monotonicNs
  if attempted = true ∧ deadline ≤ acquiredNs then return .inr none
  let outcome ← attempt (dispatchAcquire ownerToken ttlMs)
  afterAttempt ownerToken options deadline acquiredNs outcome

/-- `try_acquire`, with the token that the factory has made -/
def tryAcquire (requested : LeaderElectionOptions) (timing : Timing) (ownerToken : Bytes) :
    Prog (Option LeaseHandle) := do
  let options ← orRaise .invalidOptions (validatedRedisOptions requested timing)
  let ttlMs ← orRaise valueError (durationMilliseconds options.leaseTime)
  let startedNs : Int ← asking .monotonicNs
  let deadline := startedNs + durationNanoseconds options.waitTime
  Proc.exceptLoop (acquireRound ownerToken ttlMs options deadline) false

end Code

/-! ## The world -/

/-- What a call has sent and been told. -/
inductive WireEvent
  | sent (call : Call)
  | answered (call : Call) (answer : ScriptAnswer)

/--
The connection of a call: the command that it waits for, those that it has given
up, which may still be executed, and the reply under way.
-/
structure Wire where
  current : Option Call
  stale : List Call
  reply : Option (Except CommandError Reply)
  events : List WireEvent

/-- Nothing sent yet. -/
def Wire.init : Wire :=
  ⟨none, [], none, []⟩

namespace Wire

/-- A command is sent. -/
def send (w : Wire) (call : Call) : Wire :=
  { w with current := some call, reply := none, events := w.events ++ [.sent call] }

/-- An answer has come, or the call has given the command up. -/
def settle (w : Wire) (call : Call) (answer : ScriptAnswer) : Wire :=
  { w with
    current := none
    stale := w.stale ++ w.current.toList
    reply := none
    events := w.events ++ [.answered call answer] }

/--
An answer that can come: the reply to the executed command, `NoScriptError` for a
command that was not executed, or any other exception at any time.
-/
def receive (w : Wire) (sha : Bool) (call : Call) (answer : ScriptAnswer) : Option Wire :=
  match answer with
  | .reply _ =>
      if w.reply.map .ofOutcome = some answer then some (w.settle call answer) else none
  | .noScript =>
      if sha = true ∧ w.current.isSome = true then
        some ({ w with current := none }.settle call answer)
      else none
  | .raised _ => some (w.settle call answer)

end Wire

/-- A script that the server has executed, for one of the calls or for another client. -/
structure Executed (ι : Type) where
  client : Option ι
  call : Call
  outcome : Except CommandError Reply
  after : Keyspace LeaseKey

/-- The server and the connections of the calls. -/
structure AcquireWorld (ι : Type) where
  db : Keyspace LeaseKey
  wire : ι → Wire
  history : List (Executed ι)

/-- An empty server. -/
def AcquireWorld.init (ι : Type) (now : Nat) : AcquireWorld ι :=
  ⟨Keyspace.empty now, fun _ => .init, []⟩

namespace AcquireWorld

variable {ι : Type}

/-- The server executes a script. -/
def execute (w : AcquireWorld ι) (client : Option ι) (call : Call) : AcquireWorld ι :=
  let (outcome, after) := call.script.run w.db
  { w with db := after, history := w.history ++ [⟨client, call, outcome, after⟩] }

variable [DecidableEq ι]

/-- The connection of a call changes. -/
def setWire (w : AcquireWorld ι) (t : ι) (wire : Wire) : AcquireWorld ι :=
  { w with wire := Function.update w.wire t wire }

/-- The server executes the command that a call waits for. -/
def executeCurrent (w : AcquireWorld ι) (t : ι) : Option (AcquireWorld ι) :=
  (w.wire t).current.map fun call =>
    (w.execute (some t) call).setWire t
      { w.wire t with current := none, reply := some (call.script.run w.db).1 }

/-- The server executes a command that a call has given up. -/
def executeStale (w : AcquireWorld ι) (t : ι) (k : Nat) : Option (AcquireWorld ι) :=
  ((w.wire t).stale[k]?).map fun call =>
    (w.execute (some t) call).setWire t { w.wire t with stale := (w.wire t).stale.eraseIdx k }

end AcquireWorld

/-- A call of another client, which uses none of the tokens. -/
def Foreign {ι : Type} (tokens : ι → Bytes) (call : Call) : Prop :=
  validateDispatch call = true ∧ ∀ owner ttl, call = .acquire owner ttl → ∀ t, tokens t ≠ owner

/-- What happens without a step of a call. -/
inductive AcquireEvent {ι : Type} (tokens : ι → Bytes)
  | advance (ms : Nat)
  | foreign (call : Call) (h : Foreign tokens call)
  | executeCurrent (t : ι)
  | executeStale (t : ι) (k : Nat)

section System

variable {ι : Type} [DecidableEq ι]

/-- How a question can be answered, and what the answer does. -/
def answerAcquire (t : ι) (w : AcquireWorld ι) :
    (q : HandleQuestion) → q.Answer → Option (AcquireWorld ι)
  | .evalsha call, a => ((w.wire t).receive true call a).map (w.setWire t)
  | .eval call, a => ((w.wire t).receive false call a).map (w.setWire t)
  | .monotonicNs, _ | .jitter, _ | .sleep _, _ | .startThread, _ | .threadStarted, _
  | .waitStop, _ | .waitReady, _ | .joinWorker, _ | .action _, _ | .nextOperation, _
  | .report _, _ => some w

/-- What happens on its own. -/
def acquireEvent {tokens : ι → Bytes} (w : AcquireWorld ι) :
    AcquireEvent tokens → Option (AcquireWorld ι)
  | .advance ms => some { w with db := w.db.advance ms }
  | .foreign call _ => some (w.execute none call)
  | .executeCurrent t => w.executeCurrent t
  | .executeStale t k => w.executeStale t k

/-- The world around calls of `try_acquire` with these owner tokens. -/
def acquireSystem (tokens : ι → Bytes) :
    System ι (AcquireWorld ι) HandleState HandleSection HandleQuestion (AcquireEvent tokens)
      HandleQuestion.Answer where
  view _ _ := .init
  put _ _ w := w
  enabled _ _ _ := true
  issue t q w :=
    match q with
    | .evalsha call | .eval call => some (w.setWire t ((w.wire t).send call))
    | _ => some w
  answer t q a w := answerAcquire t w q a
  env e w := acquireEvent w e

/-- The calls and their world. -/
abbrev AcquirePool (ι : Type) :=
  System.Pool ι (AcquireWorld ι) HandleState HandleSection HandleQuestion HandleQuestion.Answer
    (Except Raised (Option LeaseHandle))

/-- Every call is about to start, on an empty server. -/
def acquirePool (tokens : ι → Bytes) (requested : ι → LeaderElectionOptions)
    (timing : ι → Timing) (now : Nat) : AcquirePool ι where
  world := .init ι now
  thread t := .running (tryAcquire (requested t) (timing t) (tokens t)).run

/-- The steps of the calls. -/
abbrev AcquireStep (tokens : ι → Bytes) :=
  System.PoolStep (ρ := Except Raised (Option LeaseHandle)) (acquireSystem tokens)

end System

end LeaderRedis
end Bluetape
