import Bluetape.LeaderRedis.AcquisitionTrace
import Bluetape.LeaderRedis.HandleSystem
import Bluetape.LeaderRedis.RenewalTiming

/-!
# Running an action as the leader

`run_if_leader_result` from its `with` statement on, and the world around the
threads that use one lease: the server and the connections of the threads, the real
time that the monotonic clock and the server clock both count, and other clients
with scripts of their own.  The world begins when the server has just granted the
lease; the ACQUIRE's reply, or the reconciliation, may still be under way.

Two pools of threads live in this world: an elector with its renewal worker, and any
number of callers of a handle with its worker.
-/

namespace Bluetape
namespace LeaderRedis

open Base

/-! ## The code -/

/-- `LeaderRunResult` of a call that was elected; its lease is the handle's. -/
inductive RunResult
  | elected (value : Nat)
  | actionFailed (cause : Raised)
deriving DecidableEq, Repr

section Code

variable (h : LeaseHandle)

/-- `run_if_leader_result`, from `with handle as held` on -/
def runHeld : Prog RunResult := do
  enter h
  match ← asking (.action h.record.fencingToken) with
  | .ok value => do
      let _ ← exit h none
      return .elected value
  | .error caught =>
      if caught.isException then
        -- the body has kept the exception and ends without one
        match ← leaderErrorOf (do let _ ← exit h none) with
        | none => return .actionFailed caught
        | some lifecycle => throw (.execution caught lifecycle)
      else do
        let _ ← exit h (some caught)
        throw caught

end Code

/-! ## The world -/

/--
The threads of a handle, the server with their connections, the real time in seconds,
and how the calls of the action have ended.
-/
structure ElectionWorld where
  threads : HandleWorld
  server : AcquireWorld HandleThread
  time : ℚ
  actions : List (Except Raised Nat)

namespace ElectionWorld

/-- The fields of the handle change. -/
def withHandle (w : ElectionWorld) (s : HandleState) : ElectionWorld :=
  { w with threads := w.threads.withHandle s }

/-- The server changes. -/
def withServer (w : ElectionWorld) (server : AcquireWorld HandleThread) : ElectionWorld :=
  { w with server := server }

end ElectionWorld

/-- A command goes out on the connection of its thread. -/
def AcquireWorld.ask {ι : Type} [DecidableEq ι] (w : AcquireWorld ι) (t : ι) :
    HandleQuestion → AcquireWorld ι
  | .evalsha call | .eval call => w.setWire t ((w.wire t).send call)
  | _ => w

/-- What the action's answer adds to the record of its calls. -/
def answeredAction : (q : HandleQuestion) → q.Answer → List (Except Raised Nat)
  | .action _, result => [result]
  | _, _ => []

/-- What happens beside the threads. -/
inductive ElectionEvent
  | pass (time : ℚ)
  | foreign (call : Call)
  | executeCurrent (t : HandleThread)
  | executeStale (t : HandleThread) (k : Nat)

section System

variable (h : LeaseHandle)

/--
The answers there can be.  Commands raise ordinary exceptions only, the clock counts
the nanoseconds of the server's time, and no caller renews for less than the minimum.
-/
def possibleAnswer (w : ElectionWorld) : (q : HandleQuestion) → q.Answer → Bool
  | .evalsha _, .raised e | .eval _, .raised e => e.isException
  | .monotonicNs, now => now = ⌊1000000000 * w.time⌋
  | .nextOperation, .renew (some leaseTime) =>
      h.options.minLeaseTime.total ≤ leaseTime.total
  | _, _ => true

/-- A question is issued. -/
def issueElection (t : HandleThread) (q : HandleQuestion) (w : ElectionWorld) :
    Option ElectionWorld :=
  (handleSystem.issue t q w.threads).map fun threads =>
    { w with threads := threads, server := w.server.ask t q }

/-- A question is answered. -/
def answerElection (t : HandleThread) (q : HandleQuestion) (a : q.Answer)
    (w : ElectionWorld) : Option ElectionWorld :=
  if possibleAnswer h w q a = true then
    (answerHandle t w.threads q a).bind fun threads =>
      (answerAcquire t w.server q a).map fun server =>
        { w with
          threads := threads
          server := server
          actions := w.actions ++ answeredAction q a }
  else none

/-- The events beside the threads. -/
def electionEvent (w : ElectionWorld) : ElectionEvent → Option ElectionWorld
  | .pass time =>
      if w.time ≤ time then
        some { w with
          time := time
          server := { w.server with
            db := w.server.db.advance (serverMs time - w.server.db.now) } }
      else none
  | .foreign call =>
      if call.foreign h.record = true ∧ validateDispatch call = true then
        some (w.withServer (w.server.execute none call))
      else none
  | .executeCurrent t => (w.server.executeCurrent t).map w.withServer
  | .executeStale t k => (w.server.executeStale t k).map w.withServer

/-- The world around the threads that use a lease. -/
def electionSystem :
    System HandleThread ElectionWorld HandleState HandleSection HandleQuestion ElectionEvent
      HandleQuestion.Answer where
  view _ w := w.threads.handle
  put _ s w := w.withHandle s
  enabled _ _ _ := true
  issue t q w := issueElection t q w
  answer t q a w := answerElection h t q a w
  env e w := electionEvent h w e

/-- Right after the server has executed the ACQUIRE that granted the lease. -/
structure Granting (w : ElectionWorld) : Prop where
  threads : w.threads = ⟨.init, false, fun _ => none⟩
  wire : ∀ t, w.server.wire t = .init
  history : w.server.history = []
  actions : w.actions = []
  nonneg : 0 ≤ w.time
  clock : w.server.db.now = serverMs w.time
  acquired : (h.acquiredNs : ℚ) ≤ 1000000000 * w.time
  lease : durationMilliseconds h.options.leaseTime = some h.leaseMs
  granted : Healthy w.server.db h.record.fencingToken
    (some (h.record, w.server.db.now + h.leaseMs))

/-- Threads of result type `ρ` in the world of a lease. -/
abbrev ElectionPool (ρ : Type) :=
  System.Pool HandleThread ElectionWorld HandleState HandleSection HandleQuestion
    HandleQuestion.Answer ρ

/-- The labels of their steps. -/
abbrev ElectionLabel :=
  System.PoolLabel HandleThread HandleSection HandleQuestion ElectionEvent
    HandleQuestion.Answer

/-- The steps of the threads. -/
abbrev ElectionStep {ρ : Type} :=
  System.PoolStep (ρ := ρ) (electionSystem h)

/-- The thread that runs `run_if_leader_result`. -/
def elector : HandleThread :=
  .caller 0

/-- The elector and its worker; the handle is nobody else's. -/
def electorPool (w : ElectionWorld) : ElectionPool (Option (Except Raised RunResult)) where
  world := w
  thread
    | .caller 0 => .running ((runHeld h).run.bind fun r => .ret (some r))
    | .caller (_ + 1) => .running (.ret none)
    | .worker => .running ((workerThread h).bind fun _ => .ret none)

/-- Callers of the handle and its worker. -/
def callersPool (w : ElectionWorld) : ElectionPool Unit where
  world := w
  thread
    | .caller _ => .running (callerThread h)
    | .worker => .running (workerThread h)

end System

/-! ## What is told apart in a history -/

/-- The reply says that the record is the lease. -/
def Executed.proves {ι : Type} (record : LeaseRecord) (ev : Executed ι) : Prop :=
  ev.call.claimed = some record.toBytes ∧
    ∃ reply, ev.outcome = .ok reply ∧ reply.provesOwnership = true

/-- A script of the thread was executed with this reply. -/
def Replied (t : HandleThread) (call : Call) (reply : Reply) (w : ElectionWorld) : Prop :=
  ∃ ev ∈ w.server.history, ev.client = some t ∧ ev.call = call ∧ ev.outcome = .ok reply

/-- The server has confirmed that the lease is held. -/
def Confirmed (h : LeaseHandle) (w : ElectionWorld) : Prop :=
  ∃ t, Replied t (.probe h.record.toBytes) .held w ∨
    ∃ ttl, Replied t (.renew h.record.toBytes ttl) .renewed w

/-- The server has taken the lease back. -/
def HandedBack (h : LeaseHandle) (w : ElectionWorld) : Prop :=
  ∃ t remaining, Replied t (.release h.record.toBytes remaining) .deleted w ∨
    Replied t (.release h.record.toBytes remaining) .minTtlApplied w

end LeaderRedis
end Bluetape
