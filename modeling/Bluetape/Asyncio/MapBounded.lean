import Bluetape.Base.Run

/-!
# Bounded concurrent mapping

`map_bounded` as a system of workers over an iterator, a list of result slots and
a terminal flag.  A worker runs without a switch from one await of its mapper to
the next one.  The iterator, the mapper and the tasks of others decide how a pull
and a mapper end, and when a worker or the owner is cancelled.

The system keeps a record of what was pulled and of the items that the mapper was
called with, in order.
-/

namespace Bluetape
namespace Asyncio

open Base

section System

variable (T R E : Type) (limit : Nat)

/-- How a worker ends; `dropped` is a task cancelled before its first step. -/
inductive WorkerEnd
  | returned
  | dropped
  | cancelled
  | invocationCancelled
  | raised (e : E)
deriving DecidableEq

/-- Where a worker is; it is `looping` only inside a step. -/
inductive WorkerStatus
  | created
  | looping
  | mapping (index : Nat) (item : T)
  | ended (e : WorkerEnd E)
deriving DecidableEq

/-- A worker, and whether its cancellation was requested. -/
structure Worker where
  status : WorkerStatus T E
  cancelling : Bool
deriving DecidableEq

/-- What `next(iterator)` gives or raises. -/
inductive PullOutcome
  | item (x : T)
  | stopIteration
  | cancelledError
  | raised (e : E)
deriving DecidableEq

/-- A call of `next(iterator)`, in which the worker and the owner may be cancelled. -/
structure Pull where
  outcome : PullOutcome T E
  cancelsWorker : Bool
  cancelsOwner : Bool
deriving DecidableEq

/-- How the await of a mapper ends. -/
inductive MapperOutcome
  | value (r : R)
  | cancelledError
  | raised (e : E)
deriving DecidableEq

/-- What the workers share. -/
structure Shared where
  terminal : Bool
  ownerCancelled : Bool
  results : List (Option R)
deriving DecidableEq

/--
A call of `map_bounded` with its record: the items pulled, each with whether the
pull left its worker cancelled, the items that the mapper was called with, how
many of these calls have ended, whether the iterator has stopped, and the result.
-/
structure Invocation where
  shared : Shared R
  workers : Fin limit → Worker T E
  pulled : List (T × Bool)
  called : List T
  finished : Nat
  exhausted : Bool
  returned : Option (List (Option R))

/-- The steps of a call and of its surroundings. -/
inductive Label
  | start (w : Fin limit) (pull : Pull T E)
  | drop (w : Fin limit)
  | resume (w : Fin limit) (mapped : MapperOutcome R E) (pull : Pull T E)
  | cancelWorker (w : Fin limit)
  | uncancelWorker (w : Fin limit)
  | cancelOwner
  | finish

/-- The workers are created. -/
def Invocation.start : Invocation T R E limit where
  shared := ⟨false, false, []⟩
  workers _ := ⟨.created, false⟩
  pulled := []
  called := []
  finished := 0
  exhausted := false
  returned := none

end System

section Code

variable {T R E : Type} {limit : Nat}

/-- The worker ends with an exception that ends the invocation. -/
def WorkerStatus.failed : WorkerStatus T E → Bool
  | .ended .invocationCancelled => true
  | .ended (.raised _) => true
  | _ => false

/-- The worker awaits its mapper. -/
def WorkerStatus.isMapping : WorkerStatus T E → Bool
  | .mapping _ _ => true
  | _ => false

/-- The task group takes the end of the worker for no failure. -/
def WorkerStatus.quiet : WorkerStatus T E → Bool
  | .ended .returned => true
  | .ended .dropped => true
  | .ended .cancelled => true
  | _ => false

/-! ## The code of a worker -/

/-- `terminal.set()` -/
def Shared.terminate (s : Shared R) : Shared R :=
  { s with terminal := true }

/-- What becomes of a `CancelledError`: it is raised again only for the owner's sake. -/
def Shared.onCancelledError (s : Shared R) : WorkerEnd E × Shared R :=
  if s.ownerCancelled then (.cancelled, s) else (.invocationCancelled, s.terminate)

namespace Invocation

/-- The items pulled so far. -/
def items (s : Invocation T R E limit) : List T :=
  s.pulled.map Prod.fst

/-- A worker takes another status. -/
def setStatus (s : Invocation T R E limit) (w : Fin limit) (status : WorkerStatus T E) :
    Invocation T R E limit :=
  { s with workers := Function.update s.workers w { s.workers w with status := status } }

/-- The cancellation of a worker is requested, or the request is taken back. -/
def setCancelling (s : Invocation T R E limit) (w : Fin limit) (cancelling : Bool) :
    Invocation T R E limit :=
  { s with
    workers := Function.update s.workers w { s.workers w with cancelling := cancelling } }

/-- The cancellation of the owner is requested. -/
def cancelOwner (s : Invocation T R E limit) : Invocation T R E limit :=
  { s with shared := { s.shared with ownerCancelled := true } }

/-- A worker ends with an exception of the mapper or of the iterator. -/
def raise (s : Invocation T R E limit) (w : Fin limit) (e : E) : Invocation T R E limit :=
  { s.setStatus w (.ended (.raised e)) with shared := s.shared.terminate }

/-- A worker ends with a `CancelledError`, or with its private stand-in. -/
def onCancelledError (s : Invocation T R E limit) (w : Fin limit) : Invocation T R E limit :=
  { s.setStatus w (.ended s.shared.onCancelledError.1) with
    shared := (s.shared.onCancelledError (E := E)).2 }

/-- `_raise_if_worker_cancelled`, before the rest of the worker's code -/
def raiseIfWorkerCancelled (s : Invocation T R E limit) (w : Fin limit)
    (rest : Invocation T R E limit → Invocation T R E limit) : Invocation T R E limit :=
  if (s.workers w).cancelling then s.onCancelledError w else rest s

/-- The worker and the owner are cancelled inside a pull. -/
def pullCancels (s : Invocation T R E limit) (w : Fin limit) (pull : Pull T E) :
    Invocation T R E limit :=
  let s := if pull.cancelsWorker then s.setCancelling w true else s
  if pull.cancelsOwner then s.cancelOwner else s

/-- An item was pulled. -/
def recordPull (s : Invocation T R E limit) (w : Fin limit) (x : T) : Invocation T R E limit :=
  { s with pulled := s.pulled ++ [(x, (s.workers w).cancelling)] }

/-- A slot is appended, and the mapper is called. -/
def callMapper (x : T) (w : Fin limit) (s : Invocation T R E limit) : Invocation T R E limit :=
  { s.setStatus w (.mapping s.shared.results.length x) with
    shared := { s.shared with results := s.shared.results ++ [none] }
    called := s.called ++ [x] }

/-- The worker leaves its loop. -/
def leave (w : Fin limit) (s : Invocation T R E limit) : Invocation T R E limit :=
  s.setStatus w (.ended .returned)

/-- What a worker does with the outcome of its pull. -/
def afterPull (s : Invocation T R E limit) (w : Fin limit) :
    PullOutcome T E → Invocation T R E limit
  | .item x => (s.recordPull w x).raiseIfWorkerCancelled w (callMapper x w)
  | .stopIteration => { s with exhausted := true }.raiseIfWorkerCancelled w (leave w)
  | .cancelledError => s.onCancelledError w
  | .raised e => s.raise w e

/-- The head of the loop of `worker`. -/
def loopHead (s : Invocation T R E limit) (w : Fin limit) (pull : Pull T E) :
    Invocation T R E limit :=
  if s.shared.terminal then leave w s
  else (s.pullCancels w pull).afterPull w pull.outcome

/-- The result is put into its slot. -/
def fill (index : Nat) (r : R) (w : Fin limit) (s : Invocation T R E limit) :
    Invocation T R E limit :=
  { s.setStatus w .looping with
    shared := { s.shared with results := s.shared.results.set index (some r) } }

/-- `_invoke_mapper`, from the end of the await on, and the store of its result -/
def afterMapper (s : Invocation T R E limit) (w : Fin limit) (index : Nat) :
    MapperOutcome R E → Invocation T R E limit
  | .value r => { s with finished := s.finished + 1 }.raiseIfWorkerCancelled w (fill index r w)
  | .cancelledError => { s with finished := s.finished + 1 }.onCancelledError w
  | .raised e => { s with finished := s.finished + 1 }.raise w e

/-- A worker goes on with its loop unless it has ended. -/
def next (s : Invocation T R E limit) (w : Fin limit) (pull : Pull T E) :
    Invocation T R E limit :=
  match (s.workers w).status with
  | .looping => s.loopHead w pull
  | _ => s

/-- A worker is about to pull. -/
def Pulls (s : Invocation T R E limit) (w : Fin limit) : Prop :=
  (s.workers w).status = .looping ∧ s.shared.terminal = false

end Invocation

/-! ## The steps -/

/--
The steps, where `mapper` says how the mapper may end for an item and `source` what
a pull may give after the items pulled so far.  `map_bounded` returns when every
worker has ended without a failure and its own task was not cancelled.
-/
inductive Step (mapper : T → MapperOutcome R E → Prop) (source : List T → PullOutcome T E → Prop) :
    Invocation T R E limit → Label T R E limit → Invocation T R E limit → Prop
  | start {s : Invocation T R E limit} {w : Fin limit} {pull : Pull T E} :
      s.returned = none →
      s.workers w = ⟨.created, false⟩ →
      ((s.setStatus w .looping).Pulls w → source s.items pull.outcome) →
      Step mapper source s (.start w pull) ((s.setStatus w .looping).next w pull)
  | drop {s : Invocation T R E limit} {w : Fin limit} :
      s.returned = none →
      s.workers w = ⟨.created, true⟩ →
      Step mapper source s (.drop w) (s.setStatus w (.ended .dropped))
  | resume {s : Invocation T R E limit} {w : Fin limit} {index : Nat} {x : T}
      {mapped : MapperOutcome R E} {pull : Pull T E} :
      s.returned = none →
      (s.workers w).status = .mapping index x →
      mapper x mapped →
      ((s.afterMapper w index mapped).Pulls w → source s.items pull.outcome) →
      Step mapper source s (.resume w mapped pull) ((s.afterMapper w index mapped).next w pull)
  | cancelWorker {s : Invocation T R E limit} {w : Fin limit} :
      s.returned = none →
      Step mapper source s (.cancelWorker w) (s.setCancelling w true)
  | uncancelWorker {s : Invocation T R E limit} {w : Fin limit} :
      s.returned = none →
      Step mapper source s (.uncancelWorker w) (s.setCancelling w false)
  | cancelOwner {s : Invocation T R E limit} :
      s.returned = none →
      Step mapper source s .cancelOwner s.cancelOwner
  | finish {s : Invocation T R E limit} :
      s.returned = none →
      (∀ w, (s.workers w).status.quiet = true) →
      s.shared.ownerCancelled = false →
      Step mapper source s .finish { s with returned := some s.shared.results }

end Code

end Asyncio
end Bluetape
