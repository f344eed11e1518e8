import Bluetape.Base.Proc
import Bluetape.LeaderRedis.Options
import Bluetape.LeaderRedis.Responses

/-!
# The synchronous lease handle

`_RedisLockLease` as programs over the handle's mutable fields.  Every
`with self._lock` block is one section; a Redis command, a wait and a clock
reading are questions, so other threads run between them and a system decides
how they are answered.
-/

namespace Bluetape
namespace LeaderRedis

open Base

/-- `_state` -/
inductive LeaseState
  | acquired
  | entered
  | released
  | lost
  | unknown
deriving DecidableEq, Repr

/-- The states that are not left again by design. -/
def LeaseState.terminal : LeaseState → Bool
  | released | lost | unknown => true
  | acquired | entered => false

/-- The mutable fields; `workerAlive` is the thread object's own flag. -/
structure HandleState where
  state : LeaseState
  failure : Option Raised
  stopEvent : Bool
  worker : Bool
  workerReady : Bool
  workerAlive : Bool
deriving DecidableEq, Repr

/-- The fields after `__init__`. -/
def HandleState.init : HandleState where
  state := .acquired
  failure := none
  stopEvent := false
  worker := false
  workerReady := true
  workerAlive := false

/-- `self._state in ("LOST", "RELEASED")` -/
def HandleState.Gone (s : HandleState) : Prop :=
  s.state = .lost ∨ s.state = .released

instance (s : HandleState) : Decidable s.Gone :=
  inferInstanceAs (Decidable (_ ∨ _))

/-- The fields that `__init__` fixes. -/
structure LeaseHandle where
  record : LeaseRecord
  options : LeaderElectionOptions
  acquiredNs : Int

/-- `RenewOutcome` -/
inductive RenewOutcome
  | renewed
  | notHeld
  | backendFailure (cause : Raised)
deriving DecidableEq, Repr

/-- What a caller does with a handle. -/
inductive Operation
  | renew (leaseTime : Option Timedelta)
  | isHeld
  | assertHeld
  | release
  | enter
  | exit (exc : Option Raised)
deriving DecidableEq, Repr

/-- What an operation returns; `exited` carries the note added to the body's exception. -/
inductive OperationValue
  | renewed (outcome : RenewOutcome)
  | held (held : Bool)
  | done
  | exited (note : Option String)
deriving DecidableEq, Repr

/-- The answer to a dispatched script. -/
inductive ScriptAnswer
  | reply (raw : RawReply)
  | noScript
  | raised (e : Raised)
deriving DecidableEq, Repr

/-- The outcome of `worker.start()`, which may raise after it has made the thread. -/
inductive StartAnswer
  | started
  | failed (e : Raised) (spawned : Bool)
deriving DecidableEq, Repr

/-- What the lock code asks of Redis, the clock, the threading library and its caller. -/
inductive HandleQuestion
  | evalsha (call : Call)
  | eval (call : Call)
  | monotonicNs
  | jitter
  | sleep (seconds : ℚ)
  | startThread
  | threadStarted
  | waitStop
  | waitReady
  | joinWorker
  | action (fencingToken : Nat)
  | nextOperation
  | report (result : Except Raised OperationValue)
deriving DecidableEq

/-- The type of the answer to a question. -/
abbrev HandleQuestion.Answer : HandleQuestion → Type
  | evalsha _ | eval _ => ScriptAnswer
  | monotonicNs => Int
  | jitter => Option ℚ
  | startThread => StartAnswer
  | waitStop | waitReady | joinWorker => Bool
  | action _ => Except Raised Nat
  | nextOperation => Operation
  | sleep _ | threadStarted | report _ => Unit

/-- The sections that give up on the worker, and all others. -/
inductive HandleSection
  | ordinary
  | readyTimeout
  | joinTimeout
  | loopFailure
deriving DecidableEq, Repr

/-- Programs of the threads that use a handle. -/
abbrev HandleProc :=
  Proc HandleState HandleSection HandleQuestion HandleQuestion.Answer

/-- Programs that ask these questions and may raise, with fields and sections of any kind. -/
abbrev Asking (σ Λ : Type) :=
  ExceptT Raised (Proc σ Λ HandleQuestion HandleQuestion.Answer)

/-- Programs that may raise. -/
abbrev Prog :=
  Asking HandleState HandleSection

/-- The body of a `with self._lock` block, which may raise. -/
abbrev Locked :=
  ExceptT Raised (StateM HandleState)

/-- The result and the fields after the body of a lock block. -/
def Locked.exec {α : Type} (body : Locked α) (s : HandleState) :
    Except Raised α × HandleState :=
  body.run.run s

/-- Run the body of a lock block as one section. -/
def locked {α : Type} (body : Locked α) (label : HandleSection) : Prog α :=
  ExceptT.mk (Proc.atomically label body.exec)

/-- `ValueError` of a rejected argument -/
def valueError : Raised :=
  .exception 0

/-- `NoScriptError` -/
def noScriptError : Raised :=
  .exception 1

/-- `RuntimeError` -/
def runtimeError : Raised :=
  .exception 2

/-- `AssertionError` -/
def assertionError : Raised :=
  .exception 3

/-- `redis.exceptions.ResponseError`, for an error that a script raised -/
def responseError : Raised :=
  .exception 4

/-- The answer that carries the outcome of an executed script. -/
def ScriptAnswer.ofOutcome : Except CommandError Reply → ScriptAnswer
  | .ok r => .reply r.wire
  | .error _ => .raised responseError

section Asking

variable {σ Λ : Type}

/-- Ask a question. -/
def asking (q : HandleQuestion) : Asking σ Λ q.Answer :=
  liftM (Proc.request q : Proc σ Λ HandleQuestion HandleQuestion.Answer q.Answer)

/-- The value of a parse, or the exception for a failed one. -/
def orRaise {α : Type} (e : Raised) : Option α → Asking σ Λ α
  | some a => pure a
  | none => throw e

/-! ## Scripts -/

/-- `_run_script` after `evalsha` has returned or raised. -/
def afterEvalsha (call : Call) : ScriptAnswer → Asking σ Λ RawReply
  | .reply raw => pure raw
  | .raised e => throw e
  | .noScript => do
      match ← asking (.eval call) with
      | .reply raw => return raw
      | .raised e => throw e
      | .noScript => throw noScriptError

/-- `_run_script` -/
def runScript (call : Call) : Asking σ Λ RawReply := do
  if !validateDispatch call then throw valueError
  afterEvalsha call (← asking (.evalsha call))

/-- `_run_reconcile` -/
def runReconcile : Asking σ Λ RawReply := do
  match ← asking (.eval .reconcile) with
  | .reply raw => return raw
  | .raised e => throw e
  | .noScript => throw noScriptError

/-- How a guarded block of script calls ended. -/
inductive Attempt (α : Type)
  | done (a : α)
  | uncertain
  | backendFailed

/-- `try: ... except _UNCERTAIN_ERRORS: ... except Exception: ...` -/
def attempt {α : Type} (p : Asking σ Λ α) : Asking σ Λ (Attempt α) :=
  ExceptT.mk do
    match ← p.run with
    | .ok a => return .ok (.done a)
    | .error .uncertain => return .ok .uncertain
    | .error e => if e.isException then return .ok .backendFailed else return .error e

end Asking

/-- `try: ... except LeaderError as error: ...`, the error if there is one -/
def leaderErrorOf (p : Prog Unit) : Prog (Option Raised) :=
  ExceptT.mk do
    match ← p.run with
    | .ok () => return .ok none
    | .error e => if e.isLeaderError then return .ok (some e) else return .error e

/-! ## The lock blocks -/

/-- `_raise_if_unknown` -/
def raiseIfUnknown : Locked Unit := do
  let s ← get
  if s.state = .unknown then
    match s.failure with
    | none => throw assertionError
    | some failure => throw failure

/-- `self._state = ...` -/
def setState (state : LeaseState) : Locked Unit :=
  modify fun s => { s with state := state }

/-- The assignments of a lifecycle failure. -/
def becomeUnknown (failure : Raised) : Locked Unit :=
  modify fun s => { s with state := .unknown, failure := some failure }

/-- `_fail_unknown` -/
def failUnknown {α : Type} (failure : Raised) : Locked α := do
  becomeUnknown failure
  throw failure

/-- The head of both blocks of `renew` and `is_held`: whether the lease is already gone. -/
def goneOrRaise : Locked Bool := do
  raiseIfUnknown
  let s ← get
  return s.Gone

/-- The second block of `renew`; no status stands for a failed backend. -/
def finishRenew (status : Option Status) : Locked RenewOutcome := do
  if ← goneOrRaise then return .notHeld
  match status with
  | some .renewed => return .renewed
  | some .notHeld =>
      setState .lost
      return .notHeld
  | _ =>
      becomeUnknown .backendError
      return .backendFailure .backendError

/-- The second block of `is_held`. -/
def finishProbe (status : Option Status) : Locked Bool := do
  if ← goneOrRaise then return false
  match status with
  | some .held => return true
  | some .notHeld =>
      setState .lost
      return false
  | _ => failUnknown .backendError

/-- `_finish_terminal_release` -/
def finishTerminalRelease (inScope : Bool) : Locked Bool := do
  raiseIfUnknown
  let s ← get
  if ¬ s.Gone then return false
  if inScope ∧ s.state = .released then return true
  if inScope then throw .leaseLost
  throw .releaseError

/-- `_finish_release_status` -/
def finishReleaseStatus (inScope : Bool) (status : Status) : Locked Unit := do
  if status = .deleted ∨ status = .minTtlApplied then
    setState .released
  else if status = .notHeld then
    setState .lost
    if inScope then throw .leaseLost
    throw .releaseError
  else failUnknown .backendError

/-- The last block of `_release`. -/
def finishRelease (inScope : Bool) (status : Attempt Status) : Locked Unit := do
  if ← finishTerminalRelease inScope then return
  match status with
  | .done status => finishReleaseStatus inScope status
  | _ => failUnknown .backendError

/--
The first block of `_reconcile_release`, which says whether it is finished.
-/
def checkReconciled (owner : Bytes) (inScope : Bool)
    (answer : Attempt (Status × Option LeaseRecord)) : Locked Bool := do
  if ← finishTerminalRelease inScope then return true
  match answer with
  | .done (.absent, _) => failUnknown .releaseError
  | .done (.present, some record) =>
      if record.ownerToken ≠ owner then
        setState .lost
        if inScope then throw .leaseLost
        throw .releaseError
      return false
  | _ => failUnknown .backendError

/-- The last block of `_reconcile_release`. -/
def finishRepeat (inScope : Bool) (status : Attempt Status) : Locked Unit := do
  if ← finishTerminalRelease inScope then return
  match status with
  | .done status => finishReleaseStatus inScope status
  | .uncertain => failUnknown .releaseError
  | .backendFailed => failUnknown .backendError

/-- The block of `__enter__`. -/
def markEntered : Locked Unit := do
  raiseIfUnknown
  let s ← get
  if s.state ≠ .acquired then throw .leaseLost
  setState .entered

/-- The block that gives up on the worker. -/
def giveUpOnWorker : Locked Unit := do
  raiseIfUnknown
  failUnknown .backendError

/-- The block of `_renew_loop` after an unexpected exception. -/
def failLoop : Locked Unit := do
  let s ← get
  if s.state ≠ .unknown then becomeUnknown .backendError

/-! ## The methods -/

section Methods

variable (h : LeaseHandle)

/-- `str(n).encode("ascii")` -/
def millisecondsText (n : Nat) : Bytes :=
  decimal n

/-- The backend part of `renew`. -/
def dispatchRenew (ttlMs : Nat) : Prog Status := do
  let raw ← runScript (.renew h.record.toBytes (millisecondsText ttlMs))
  orRaise valueError (parseStatusResponse [.renewed, .notHeld, .corrupt] raw)

/-- The backend part of `is_held`. -/
def dispatchProbe : Prog Status := do
  let raw ← runScript (.probe h.record.toBytes)
  orRaise valueError (parseStatusResponse [.held, .notHeld, .corrupt] raw)

/-- The status of a guarded dispatch, none when the backend failed. -/
def Attempt.status : Attempt Status → Option Status
  | .done status => some status
  | _ => none

/-- `renew` -/
def renew (leaseTime : Option Timedelta) : Prog RenewOutcome := do
  if ← locked goneOrRaise .ordinary then return .notHeld
  let duration := leaseTime.getD h.options.leaseTime
  let ttlMs ← orRaise valueError (durationMilliseconds duration)
  let status ← attempt (dispatchRenew h ttlMs)
  locked (finishRenew status.status) .ordinary

/-- `is_held` -/
def isHeld : Prog Bool := do
  if ← locked goneOrRaise .ordinary then return false
  let status ← attempt (dispatchProbe h)
  locked (finishProbe status.status) .ordinary

/-- `assert_held` -/
def assertHeld : Prog Unit := do
  if !(← isHeld h) then throw .leaseLost

/-- `_remaining_minimum_ms` -/
def remainingMinimumMs : Prog Nat := do
  let now : Int ← asking .monotonicNs
  let remainingNs := durationNanoseconds h.options.minLeaseTime - (now - h.acquiredNs)
  return if remainingNs ≤ 0 then 0 else ((remainingNs + 999999) / 1000000).toNat

/-- `_dispatch_release` -/
def dispatchRelease : Prog Status := do
  let remainingMs ← remainingMinimumMs h
  let raw ← runScript (.release h.record.toBytes (millisecondsText remainingMs))
  orRaise valueError
    (parseStatusResponse [.deleted, .minTtlApplied, .notHeld, .corrupt] raw)

/-- `_reconcile_release` -/
def reconcileRelease (inScope : Bool) : Prog Unit := do
  let answer ← attempt do
    let raw ← runReconcile
    orRaise valueError (parseReconcileResponse raw)
  if ← locked (checkReconciled h.record.ownerToken inScope answer) .ordinary then return
  let status ← attempt (dispatchRelease h)
  locked (finishRepeat inScope status) .ordinary

/-- `_release` -/
def releaseScoped (inScope : Bool) : Prog Unit := do
  if ← locked (finishTerminalRelease inScope) .ordinary then return
  match ← attempt (dispatchRelease h) with
  | .uncertain => reconcileRelease h inScope
  | status => locked (finishRelease inScope status) .ordinary

/-- The wait for `_worker_ready` in `_stop_worker`. -/
def awaitReady : Prog Unit := do
  if !(← asking .waitReady) then locked giveUpOnWorker .readyTimeout

/-- The wait for the worker's end in `_stop_worker`. -/
def awaitEnd : Prog Unit := do
  if ← asking .joinWorker then locked giveUpOnWorker .joinTimeout

/-- `_stop_worker` -/
def stopWorker : Prog Unit := do
  let worker ← locked (return (← get).worker) .ordinary
  if !worker then return
  locked (modify fun s => { s with stopEvent := true }) .ordinary
  awaitReady
  let worker ← locked (return (← get).worker) .ordinary
  if !worker then return
  awaitEnd
  locked (modify fun s => { s with worker := false }) .ordinary

/-- `release` -/
def release : Prog Unit := do
  stopWorker
  releaseScoped h false

/-- `_start_worker` -/
def startWorker : Prog Unit := do
  locked (modify fun s => { s with worker := true, workerReady := false }) .ordinary
  match ← asking .startThread with
  | .started =>
      let terminal ← locked (do
        modify fun s => { s with workerReady := true }
        return (← get).state.terminal) .ordinary
      if terminal then
        stopWorker
        locked raiseIfUnknown .ordinary
        throw .leaseLost
  | .failed startFailure _ =>
      let alive ← locked (do
        modify fun s => { s with workerReady := true, worker := s.worker && s.workerAlive }
        return (← get).workerAlive) .ordinary
      let lifecycle ← leaderErrorOf do
        if alive then stopWorker
        releaseScoped h true
      if startFailure.isControl then throw startFailure
      else throw (lifecycle.getD .backendError)

/-- `__enter__` -/
def enter : Prog Unit := do
  locked markEntered .ordinary
  if h.options.autoRenew then
    match ← renew h none with
    | .renewed => startWorker h
    | .notHeld => throw .leaseLost
    | .backendFailure cause => throw cause
  else if !(← isHeld h) then throw .leaseLost

/-- `__exit__`; the result is the note that the body's exception gets. -/
def exit (exc : Option Raised) : Prog (Option String) := do
  let lifecycle ← leaderErrorOf do
    stopWorker
    releaseScoped h true
  match lifecycle with
  | none => return none
  | some failure =>
      match exc with
      | none => throw failure
      | some exc =>
          if exc.isControl then return some failure.message
          else if exc.isException then throw (.execution exc failure)
          else throw failure

/-- One round of `_renew_loop`. -/
def renewRound : HandleProc (Unit ⊕ Unit) := do
  if ← Proc.request .waitStop then return .inr ()
  match ← (renew h none).run with
  | .ok .renewed => return .inl ()
  | .ok _ =>
      let _ ← (locked (modify fun s => { s with stopEvent := true }) .ordinary).run
      return .inr ()
  | .error _ =>
      let _ ← (locked failLoop .loopFailure).run
      let _ ← (locked (modify fun s => { s with stopEvent := true }) .ordinary).run
      return .inr ()

/-- `_renew_loop` -/
def renewLoop : HandleProc Unit :=
  Proc.loop (fun _ => renewRound h) ()

/-- The worker thread, from its start to its end. -/
def workerThread : HandleProc Unit := do
  let _ ← Proc.request HandleQuestion.threadStarted
  renewLoop h
  let _ ← (locked (modify fun s => { s with workerAlive := false }) .ordinary).run
  return ()

/-- One operation of a caller. -/
def perform : Operation → Prog OperationValue
  | .renew leaseTime => .renewed <$> renew h leaseTime
  | .isHeld => .held <$> isHeld h
  | .assertHeld => do
      assertHeld h
      return .done
  | .release => do
      release h
      return .done
  | .enter => do
      enter h
      return .done
  | .exit exc => .exited <$> exit h exc

end Methods

/-! ## Running a lock block -/

section Exec

variable {α β : Type} (s : HandleState)

@[simp] theorem exec_pure
    (a : α) :
    Locked.exec (pure a) s = (.ok a, s) := by
  rfl

@[simp] theorem exec_throw
    (e : Raised) :
    Locked.exec (throw e : Locked α) s = (.error e, s) := by
  rfl

@[simp] theorem exec_get :
    Locked.exec get s = (.ok s, s) := by
  rfl

@[simp] theorem exec_bind
    (body : Locked α) (next : α → Locked β) :
    (body >>= next).exec s =
      match body.exec s with
      | (.ok a, s') => (next a).exec s'
      | (.error e, s') => (.error e, s') := by
  rcases h : body.exec s with ⟨e | a, s'⟩
  all_goals
    have hrun : body.run.run s = _ := h
    simp only [Locked.exec, ExceptT.run_bind, StateT.run_bind, hrun]
    rfl

@[simp] theorem exec_map
    (body : Locked α) (f : α → β) :
    (f <$> body).exec s = ((body.exec s).1.map f, (body.exec s).2) := by
  rcases h : body.exec s with ⟨e | a, s'⟩
  all_goals
    have hrun : body.run.run s = _ := h
    simp only [Locked.exec, ExceptT.run_map, StateT.run_map, hrun]
    rfl

@[simp] theorem exec_ite
    (c : Prop) [Decidable c] (body body' : Locked α) :
    (if c then body else body').exec s =
      if c then body.exec s else body'.exec s := by
  split <;> rfl

@[simp] theorem raiseIfUnknown_exec :
    raiseIfUnknown.exec s =
      (if s.state = .unknown then .error (s.failure.getD assertionError) else .ok (),
        s) := by
  simp only [raiseIfUnknown, exec_bind, exec_get, exec_ite, exec_pure]
  split
  · cases s.failure <;> rfl
  · rfl

@[simp] theorem setState_exec
    (state : LeaseState) :
    (setState state).exec s = (.ok (), { s with state := state }) := by
  rfl

@[simp] theorem becomeUnknown_exec
    (failure : Raised) :
    (becomeUnknown failure).exec s =
      (.ok (), { s with state := .unknown, failure := some failure }) := by
  rfl

@[simp] theorem failUnknown_exec
    (failure : Raised) :
    (failUnknown failure : Locked α).exec s =
      (.error failure, { s with state := .unknown, failure := some failure }) := by
  rfl

end Exec

/-! ## The checks at the head of a block -/

section Heads

variable {s : HandleState}

theorem goneOrRaise_of_open
    (h : s.state.terminal = false) :
    goneOrRaise.exec s = (.ok false, s) := by
  unfold LeaseState.terminal at h
  cases hstate : s.state <;> simp [hstate] at h <;>
    simp [goneOrRaise, HandleState.Gone, Except.map, hstate]

theorem goneOrRaise_of_gone
    (h : s.Gone) :
    goneOrRaise.exec s = (.ok true, s) := by
  rcases h with h | h <;> simp [goneOrRaise, HandleState.Gone, Except.map, h]

theorem goneOrRaise_of_unknown
    (h : s.state = .unknown) :
    goneOrRaise.exec s = (.error (s.failure.getD assertionError), s) := by
  simp [goneOrRaise, h]

/-- What a release does on a terminal handle, and that it goes on otherwise. -/
theorem finishTerminalRelease_exec
    (s : HandleState) (inScope : Bool) :
    (finishTerminalRelease inScope).exec s =
      (match s.state with
        | .unknown => .error (s.failure.getD assertionError)
        | .lost => .error (if inScope then .leaseLost else .releaseError)
        | .released => if inScope then .ok true else .error .releaseError
        | .acquired | .entered => .ok false, s) := by
  cases h : s.state <;> cases inScope <;>
    simp [finishTerminalRelease, HandleState.Gone, h]

theorem finishTerminalRelease_of_open
    (h : s.state.terminal = false) (inScope : Bool) :
    (finishTerminalRelease inScope).exec s = (.ok false, s) := by
  rw [finishTerminalRelease_exec]
  unfold LeaseState.terminal at h
  cases hstate : s.state <;> simp [hstate] at h ⊢

/-- On a terminal handle a release is finished, or it raises. -/
theorem finishTerminalRelease_of_terminal
    (h : s.state.terminal = true) (inScope : Bool) :
    ∃ r, (finishTerminalRelease inScope).exec s = (r, s) ∧ r ≠ .ok false ∧
      (s.state = .unknown → r = .error (s.failure.getD assertionError)) := by
  rw [finishTerminalRelease_exec]
  refine ⟨_, rfl, ?_, ?_⟩
  · unfold LeaseState.terminal at h
    cases hstate : s.state <;> cases inScope <;> simp [hstate] at h ⊢
  · intro hunknown
    simp [hunknown]

end Heads

/-! ## Sections and questions of a program -/

section All

variable {α β : Type} {P : HandleSection → (HandleState → HandleState) → Prop}
  {R : HandleQuestion → Prop}

theorem all_pure
    (a : α) :
    (pure a : Prog α).run.All P R := by
  trivial

theorem all_throw
    (e : Raised) :
    (throw e : Prog α).run.All P R := by
  trivial

theorem all_locked
    {body : Locked α} {label : HandleSection}
    (h : P label (fun s => (body.exec s).2)) :
    (locked body label).run.All P R :=
  ⟨h, fun _ => trivial⟩

theorem all_asking
    {q : HandleQuestion}
    (h : R q) :
    (asking q).run.All P R :=
  ⟨h, fun _ => trivial⟩

theorem all_orRaise
    (e : Raised) (a : Option α) :
    (orRaise e a).run.All P R := by
  cases a <;> trivial

theorem all_attempt
    {p : Prog α}
    (h : p.run.All P R) :
    (attempt p).run.All P R := by
  refine Proc.All.bind h ?_
  rintro (e | a)
  · cases e <;> trivial
  · trivial

theorem all_leaderErrorOf
    {p : Prog Unit}
    (h : p.run.All P R) :
    (leaderErrorOf p).run.All P R := by
  refine Proc.All.bind h ?_
  rintro (e | a)
  · cases e <;> trivial
  · trivial

end All

end LeaderRedis
end Bluetape
