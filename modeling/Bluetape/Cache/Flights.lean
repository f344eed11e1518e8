import Bluetape.Cache.Reference

/-!
# Flights

The loads that a cache has running: `get_or_load` of the synchronous and of
the asyncio cache, with every section that holds the lock as one step.  The
two caches share all of it but the rule for publication and the accounting of
waiters, so that one state serves for both.

Callers, flights and tasks interleave freely between the steps.  A reading of
the clock is an input and may raise; so are the outcome of a loader and the
moment at which a task takes its next step.
-/

namespace Bluetape
namespace Cache

open Base

/-- `TTLCache` and `AsyncTTLCache`. -/
inductive Mode
  | sync
  | async
deriving DecidableEq, Repr

/-- How far the load of a flight has come. -/
inductive Phase (ν ε : Type)
  | created
  | loading
  | loaded (outcome : Except ε ν)
  | finished (outcome : Except ε ν)
  | lost

/-- `_SyncFlight` and `_AsyncFlight`. -/
structure Flight (κ ν ε : Type) where
  key : κ
  epoch : Nat
  version : Nat
  ttlNs : Nat
  waiters : Nat
  abandoned : Bool
  superseded : Bool
  phase : Phase ν ε

/-- `task.done()`, and `flight.terminal` -/
def Flight.done {κ ν ε : Type} (fl : Flight κ ν ε) : Bool :=
  match fl.phase with
  | .finished _ | .lost => true
  | .created | .loading | .loaded _ => false

/-- How a call of `get_or_load` ends. -/
inductive CallResult (ν ε : Type)
  | returned (value : ν)
  | raised (error : ε)
  | cancelled
  | rejected

/-- The result that the outcome of a flight gives its callers. -/
def CallResult.ofOutcome {ν ε : Type} : Except ε ν → CallResult ν ε
  | .ok value => returned value
  | .error error => raised error

/--
Where a call of `get_or_load` stands: it waits for a flight, it has left the
flight with a result and its release is pending, or it is over.
-/
inductive Call (ν ε : Type)
  | waiting (flight : Nat)
  | leaving (flight : Nat) (result : CallResult ν ε)
  | ended (result : CallResult ν ε)

/-- The flight that a call has joined and not yet released. -/
def Call.flight? {ν ε : Type} : Call ν ε → Option Nat
  | waiting f => some f
  | leaving f _ => some f
  | ended _ => none

/-- A cache with its flights and the calls of `get_or_load`. -/
structure FlightCache (κ ν ε : Type) where
  state : CacheState κ ν
  maxInflight : Nat
  active : κ → Option Nat
  owned : List Nat
  flights : List (Flight κ ν ε)
  calls : List (Call ν ε)

namespace FlightCache

variable {κ ν ε : Type}

/-- The constructor of the caches. -/
def init (maxSize : Nat) (hpos : 0 < maxSize) (maxInflight : Nat) : FlightCache κ ν ε where
  state := CacheState.init maxSize hpos
  maxInflight := maxInflight
  active := fun _ => none
  owned := []
  flights := []
  calls := []

/-- Change one flight. -/
def modifyFlight (s : FlightCache κ ν ε) (f : Nat) (g : Flight κ ν ε → Flight κ ν ε) :
    FlightCache κ ν ε :=
  { s with flights := s.flights.modify f g }

/-- A new call of `get_or_load`. -/
def addCall (s : FlightCache κ ν ε) (c : Call ν ε) : FlightCache κ ν ε :=
  { s with calls := s.calls ++ [c] }

/-- Change where a call stands. -/
def setCall (s : FlightCache κ ν ε) (c : Nat) (call : Call ν ε) : FlightCache κ ν ε :=
  { s with calls := s.calls.set c call }

/-- One more in a counter. -/
def count (s : FlightCache κ ν ε) (g : Counters → Counters) : FlightCache κ ν ε :=
  { s with state := { s.state with counters := g s.state.counters } }

variable [DecidableEq κ]

/-- `_owned_keys` -/
def ownedKeys (s : FlightCache κ ν ε) : Finset κ :=
  (s.owned.filterMap fun f => s.flights[f]?.map Flight.key).toFinset

/-- `_supersede` -/
def supersede (s : FlightCache κ ν ε) (key : κ) : FlightCache κ ν ε :=
  match s.active key with
  | none => s
  | some f =>
      { s with active := Function.update s.active key none }.modifyFlight f
        fun fl => { fl with superseded := true }

/-- `get`, after the clock was read. -/
def get (s : FlightCache κ ν ε) (key : κ) (tick : Int) : Option ν × FlightCache κ ν ε :=
  let (now, state) := s.state.clampTick tick
  let (found, state) := state.get key now s.ownedKeys
  (found, { s with state := state })

/-- `self._state.store` at a clock reading. -/
def store (s : FlightCache κ ν ε) (key : κ) (value : ν) (ttlNs : Nat) (tick : Int) :
    FlightCache κ ν ε :=
  let (now, state) := s.state.clampTick tick
  { s with state := state.store key value ttlNs now s.ownedKeys }

/-- `set`; it supersedes before it reads the clock. -/
def set (s : FlightCache κ ν ε) (key : κ) (value : ν) (ttlNs : Nat)
    (reading : Except ε Int) : FlightCache κ ν ε :=
  let s := s.supersede key
  match reading with
  | .error _ => s
  | .ok tick => s.store key value ttlNs tick

/-- `invalidate` -/
def invalidate (s : FlightCache κ ν ε) (key : κ) (tick : Int) : Bool × FlightCache κ ν ε :=
  let (now, state) := s.state.clampTick tick
  let s := { s with state := state }.supersede key
  let (present, state) := s.state.invalidate key now s.ownedKeys
  (present, { s with state := state })

/-- The loop of `clear` over the active flights. -/
def supersedeAll (s : FlightCache κ ν ε) : FlightCache κ ν ε :=
  { s with
    active := fun _ => none
    flights := s.flights.mapIdx fun f fl =>
      if s.active fl.key = some f then { fl with superseded := true } else fl }

/-- `clear` -/
def clear (s : FlightCache κ ν ε) (tick : Int) : FlightCache κ ν ε :=
  let (_, state) := s.state.clampTick tick
  let s := { s with state := state }.supersedeAll
  { s with state := s.state.clear s.ownedKeys }

/-- `__len__` and `size` -/
def size (s : FlightCache κ ν ε) (tick : Int) : Nat × FlightCache κ ν ε :=
  let (now, state) := s.state.clampTick tick
  let (n, state) := state.size now s.ownedKeys
  (n, { s with state := state })

/-- `stats` -/
def stats (s : FlightCache κ ν ε) (tick : Int) : CacheStats × FlightCache κ ν ε :=
  let (now, state) := s.state.clampTick tick
  let marked := fun (p : Flight κ ν ε → Bool) =>
    s.owned.countP fun f => (s.flights[f]?.map p).getD false
  let (snapshot, state) := state.stats now s.ownedKeys s.owned.length
    (marked Flight.abandoned) (marked Flight.superseded)
  (snapshot, { s with state := state })

/-! ## Completion -/

/-- The conditions that both caches demand of a publication. -/
def isCurrent (s : FlightCache κ ν ε) (f : Nat) (fl : Flight κ ν ε) : Bool :=
  !fl.superseded && decide (s.state.clearEpoch = fl.epoch) &&
    decide (s.state.version fl.key = fl.version) && decide (s.active fl.key = some f)

/-- `can_publish` of `_finish_flight` and `_can_publish` -/
def canPublish (mode : Mode) (s : FlightCache κ ν ε) (f : Nat) (fl : Flight κ ν ε) : Bool :=
  match mode with
  | .sync => s.isCurrent f fl
  | .async => !fl.abandoned && s.isCurrent f fl

/-- The last part of `_finish_flight`, and the `finally` of `_complete_async_flight`. -/
def retire (s : FlightCache κ ν ε) (f : Nat) (fl : Flight κ ν ε) : FlightCache κ ν ε :=
  let s :=
    if s.active fl.key = some f then
      { s with active := Function.update s.active fl.key none }
    else s
  let s := { s with owned := s.owned.erase f }
  { s with state := s.state.dropUnusedVersion fl.key s.ownedKeys }

/-- The end of a flight: its outcome is what its waiting callers will see. -/
def finish (s : FlightCache κ ν ε) (f : Nat) (fl : Flight κ ν ε) (outcome : Except ε ν) :
    FlightCache κ ν ε :=
  (s.retire f fl).modifyFlight f fun fl => { fl with phase := .finished outcome }

/--
`_finish_flight`, and the last section of `_run_loader`.  An exception of the
clock takes the place of the loaded value.
-/
def complete (mode : Mode) (s : FlightCache κ ν ε) (f : Nat) (fl : Flight κ ν ε)
    (outcome : Except ε ν) (reading : Except ε Int) : FlightCache κ ν ε :=
  match outcome with
  | .error error =>
      (s.count fun c => { c with loadFailures := c.loadFailures + 1 }).finish f fl
        (.error error)
  | .ok value =>
      if s.canPublish mode f fl then
        match reading with
        | .error error => s.finish f fl (.error error)
        | .ok tick => (s.store fl.key value fl.ttlNs tick).finish f fl (.ok value)
      else s.finish f fl (.ok value)

/-! ## `get_or_load` -/

/-- A new flight for a key that has neither entry nor active flight. -/
def newFlight (mode : Mode) (s : FlightCache κ ν ε) (key : κ) (ttlNs : Nat) :
    Flight κ ν ε where
  key := key
  epoch := s.state.clearEpoch
  version := s.state.version key
  ttlNs := ttlNs
  waiters := if mode = .async then 1 else 0
  abandoned := false
  superseded := false
  phase := .created

/-- The new flight is registered. -/
def launch (mode : Mode) (s : FlightCache κ ν ε) (key : κ) (ttlNs : Nat) :
    FlightCache κ ν ε :=
  { s with
    active := Function.update s.active key (some s.flights.length)
    owned := s.owned ++ [s.flights.length]
    flights := s.flights ++ [s.newFlight mode key ttlNs] }

/--
The lock section of `get_or_load`: a hit, a join, a rejection or a new flight.
The asyncio cache may fail to create the task of a new flight.  The errors of
the clock do not include `KeyError`, which this section takes for a miss.
-/
def getOrLoad (mode : Mode) (s : FlightCache κ ν ε) (key : κ) (ttlNs : Nat)
    (reading : Except ε Int) (taskFailure : Option ε) : FlightCache κ ν ε :=
  match reading with
  | .error error => s.addCall (.ended (.raised error))
  | .ok tick =>
      let (found, s) := s.get key tick
      match found with
      | some value => s.addCall (.ended (.returned value))
      | none =>
          match s.active key with
          | some f =>
              let s := s.count fun c => { c with coalescedWaiters := c.coalescedWaiters + 1 }
              let s :=
                if mode = .async then
                  s.modifyFlight f fun fl => { fl with waiters := fl.waiters + 1 }
                else s
              s.addCall (.waiting f)
          | none =>
              if s.maxInflight ≤ s.owned.length then
                (s.count fun c => { c with loadRejections := c.loadRejections + 1 }).addCall
                  (.ended .rejected)
              else
                match mode, taskFailure with
                | .async, some error =>
                    let f := s.flights.length
                    let fl := s.newFlight mode key ttlNs
                    ((s.launch mode key ttlNs).finish f fl (.error error)).addCall
                      (.ended (.raised error))
                | _, _ =>
                    let f := s.flights.length
                    ((s.launch mode key ttlNs).count fun c =>
                      { c with loads := c.loads + 1 }).addCall (.waiting f)

/-! ## Waiters -/

/-- `_release_waiter_locked` -/
def releaseWaiter (s : FlightCache κ ν ε) (f : Nat) (fl : Flight κ ν ε) :
    FlightCache κ ν ε :=
  let s := s.modifyFlight f fun fl => { fl with waiters := fl.waiters - 1 }
  if fl.waiters - 1 ≠ 0 ∨ fl.done = true then s
  else
    let s := s.modifyFlight f fun fl => { fl with abandoned := true }
    let s :=
      if s.active fl.key = some f then
        { s with active := Function.update s.active fl.key none }
      else s
    { s with state := s.state.bumpVersion fl.key }

end FlightCache

/-! ## Steps -/

/-- A step of a caller, a flight or a user of the cache. -/
inductive Event (κ ν ε : Type)
  | get (key : κ) (reading : Except ε Int)
  | set (key : κ) (value : ν) (ttlNs : Nat) (reading : Except ε Int)
  | invalidate (key : κ) (reading : Except ε Int)
  | clear (reading : Except ε Int)
  | size (reading : Except ε Int)
  | stats (reading : Except ε Int)
  | getOrLoad (key : κ) (ttlNs : Nat) (reading : Except ε Int) (taskFailure : Option ε)
  | startLoader (flight : Nat)
  | loaderEnds (flight : Nat) (outcome : Except ε ν)
  | complete (flight : Nat) (reading : Except ε Int)
  | loseTask (flight : Nat)
  | wake (call : Nat)
  | cancel (call : Nat)
  | release (call : Nat)

namespace FlightCache

variable {κ ν ε : Type} [DecidableEq κ]

/-- A waiting caller goes on when its flight is done. -/
def wakeCall (mode : Mode) (s : FlightCache κ ν ε) (c : Nat) : Option (FlightCache κ ν ε) :=
  match s.calls[c]? with
  | some (.waiting f) =>
      match s.flights[f]?.map Flight.phase with
      | some (.finished outcome) =>
          match mode with
          | .sync => some (s.setCall c (.ended (.ofOutcome outcome)))
          | .async => some (s.setCall c (.leaving f (.ofOutcome outcome)))
      | some .lost => some (s.setCall c (.leaving f .cancelled))
      | _ => none
  | _ => none

/-- A caller of the asyncio cache is cancelled at an `await`. -/
def cancelCall (s : FlightCache κ ν ε) (c : Nat) : Option (FlightCache κ ν ε) :=
  match s.calls[c]? with
  | some (.waiting f) => some (s.setCall c (.leaving f .cancelled))
  | some (.leaving f _) => some (s.setCall c (.leaving f .cancelled))
  | _ => none

/-- The release of a caller that has left its flight. -/
def releaseCall (s : FlightCache κ ν ε) (c : Nat) : Option (FlightCache κ ν ε) :=
  match s.calls[c]? with
  | some (.leaving f result) =>
      s.flights[f]?.map fun fl => (s.releaseWaiter f fl).setCall c (.ended result)
  | _ => none

/-- The phase of a flight moves on. -/
def advance (s : FlightCache κ ν ε) (f : Nat) (phase : Phase ν ε) : FlightCache κ ν ε :=
  s.modifyFlight f fun fl => { fl with phase := phase }

/-- An operation that reads the clock first; when the clock raises, nothing has changed. -/
def withTick (s : FlightCache κ ν ε) (reading : Except ε Int)
    (op : Int → FlightCache κ ν ε) : FlightCache κ ν ε :=
  match reading with
  | .error _ => s
  | .ok tick => op tick

/-- One step; none when it cannot be taken. -/
def step (mode : Mode) (s : FlightCache κ ν ε) : Event κ ν ε → Option (FlightCache κ ν ε)
  | .get key reading => some (s.withTick reading fun tick => (s.get key tick).2)
  | .set key value ttlNs reading => some (s.set key value ttlNs reading)
  | .invalidate key reading => some (s.withTick reading fun tick => (s.invalidate key tick).2)
  | .clear reading => some (s.withTick reading fun tick => s.clear tick)
  | .size reading => some (s.withTick reading fun tick => (s.size tick).2)
  | .stats reading => some (s.withTick reading fun tick => (s.stats tick).2)
  | .getOrLoad key ttlNs reading taskFailure =>
      some (s.getOrLoad mode key ttlNs reading taskFailure)
  | .startLoader f =>
      match s.flights[f]?.map Flight.phase with
      | some .created => some (s.advance f .loading)
      | _ => none
  | .loaderEnds f outcome =>
      match s.flights[f]?.map Flight.phase with
      | some .loading => some (s.advance f (.loaded outcome))
      | _ => none
  | .complete f reading =>
      match s.flights[f]? with
      | some fl =>
          match fl.phase with
          | .loaded outcome => some (s.complete mode f fl outcome reading)
          | _ => none
      | none => none
  | .loseTask f =>
      -- a task that has not started, or waits for the lock, is lost when its
      -- cancellation arrives; a loader that runs sees the cancellation itself
      match s.flights[f]? with
      | some fl =>
          match fl.phase, fl.abandoned with
          | .created, true => some (s.advance f .lost)
          | .loaded _, true => some (s.advance f .lost)
          | _, _ => none
      | none => none
  | .wake c => s.wakeCall mode c
  | .cancel c => if mode = .async then s.cancelCall c else none
  | .release c => if mode = .async then s.releaseCall c else none

/-- Single steps as a relation, for runs. -/
def Step (mode : Mode) (s : FlightCache κ ν ε) (e : Event κ ν ε) (t : FlightCache κ ν ε) :
    Prop :=
  s.step mode e = some t

end FlightCache
end Cache
end Bluetape
