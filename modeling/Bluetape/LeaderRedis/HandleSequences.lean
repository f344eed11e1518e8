import Bluetape.LeaderRedis.HandleAgreement
import Bluetape.LeaderRedis.HandleRuns

/-!
# Sequences of operations on the two handles

A caller uses a synchronous and an asynchronous handle for one lease, without renewal of
their own, in the same way: one operation after the other, with the same answers of the
backend and the clock.

* `perform_lockstep`: an operation outside the exceptions ends alike on both handles;
* `perform_exposed`: an operation that is an exception does not;
* `handles_agree_iff`: which sequences of operations the handles agree on.
-/

namespace Bluetape
namespace LeaderRedis

open Base

/-! ## What the caller sees -/

/-- The classes of the exceptions. -/
inductive ExceptionClass
  | leaderBackendError
  | leaderReleaseError
  | leaderLeaseLostError
  | invalidLeaderOptionsError
  | leaderExecutionError
  | uncertain
  | exception (tag : Nat)
  | control (tag : Nat)
  | base (tag : Nat)
deriving DecidableEq, Repr

/-- `type(error)` -/
def Raised.kind : Raised → ExceptionClass
  | .backendError => .leaderBackendError
  | .releaseError => .leaderReleaseError
  | .leaseLost => .leaderLeaseLostError
  | .invalidOptions => .invalidLeaderOptionsError
  | .execution _ _ => .leaderExecutionError
  | .uncertain => .uncertain
  | .exception tag => .exception tag
  | .control tag => .control tag
  | .base tag => .base tag

/-- What an operation returns or the class that it raises, and the scripts that it sends. -/
structure Seen where
  result : Except ExceptionClass OperationValue
  scripts : List Call
deriving DecidableEq

/-- The body of a scope has not ended with a control exception. -/
def Operation.ordinary : Operation → Bool
  | .exit (some exc) => exc.isException
  | _ => true

/-- One operation of a caller, with the answers that it gets. -/
structure Use (h : LeaseHandle) where
  operation : Operation
  answers : Proc.Oracle HandleQuestion.Answer
  ordinary : operation.ordinary = true
  allowed : ∀ n q, h.comparison.allowed q (answers n q)

/-- A program that is alone with the handle, from its start to its end. -/
def alone {σ Λ : Type}
    (p : ExceptT Raised (Proc σ Λ HandleQuestion HandleQuestion.Answer) OperationValue)
    (answers : Proc.Oracle HandleQuestion.Answer) (s : σ) : Option Seen × σ :=
  match p.run.play answers 0 s with
  | some (result, s', questions) =>
      (some ⟨result.mapError Raised.kind, questions.filterMap HandleQuestion.script⟩, s')
  | none => (none, s)

/-- One use of the synchronous handle. -/
def useSync (h : LeaseHandle) (s : HandleState) (use : Use h) : Option Seen × HandleState :=
  alone (perform h use.operation) use.answers s

/-- One use of the asynchronous handle for the same lease. -/
def useAsync (h : LeaseHandle) (t : Async.AsyncHandleState) (use : Use h) :
    Option Seen × Async.AsyncHandleState :=
  alone (Async.perform h.toAsync use.operation) use.answers t

/-- Both operations have ended, and the caller sees the same. -/
def SeenAlike (seen seen' : Option Seen) : Prop :=
  seen.isSome = true ∧ seen' = seen

/--
Used in the same way from the start, the handles look the same at every operation, and end in
one state with one retained failure.
-/
def HandlesAgree (h : LeaseHandle) (uses : List (Use h)) : Prop :=
  List.Forall₂ SeenAlike (Mealy.outputs (useAsync h) .init uses)
      (Mealy.outputs (useSync h) .init uses) ∧
    (Mealy.after (useSync h) .init uses).state = (Mealy.after (useAsync h) .init uses).state ∧
    (Mealy.after (useSync h) .init uses).failure = (Mealy.after (useAsync h) .init uses).failure

/-! ## The exceptions -/

/-- The handle is lost, and the cleanup task found that out in a `release`. -/
def Async.AsyncHandleState.Misremembers (t : Async.AsyncHandleState) : Prop :=
  t.state = .lost ∧ t.cleanupTask = some (.finished (.error .releaseError))

instance (t : Async.AsyncHandleState) : Decidable t.Misremembers :=
  inferInstanceAs (Decidable (_ ∧ _))

/--
A lease time that is not accepted is an argument error of the synchronous `renew` and a
backend failure of the asynchronous one.  The asynchronous exit raises what the cleanup task
has raised, also when that was a `release`.
-/
def Agreeable (h : LeaseHandle) (t : Async.AsyncHandleState) : Operation → Prop
  | .renew leaseTime =>
      t.state.terminal = true ∨
        durationMilliseconds (leaseTime.getD h.options.leaseTime) ≠ none
  | .exit none => ¬ t.Misremembers
  | _ => True

instance instDecidableAgreeable (h : LeaseHandle) (t : Async.AsyncHandleState) :
    (operation : Operation) → Decidable (Agreeable h t operation)
  | .renew _ => inferInstanceAs (Decidable (_ ∨ _))
  | .exit none => inferInstanceAs (Decidable (¬ _))
  | .exit (some _) | .isHeld | .assertHeld | .release | .enter => isTrue trivial

/--
At every reading of the clock that the use takes, the handles find the same time left of the
minimum lease: that in floats is the one in nanoseconds.
-/
def Together (h : LeaseHandle) (t : Async.AsyncHandleState) (use : Use h) : Prop :=
  ∀ now : Int,
    ⟨.monotonicNs, now⟩ ∈ (Async.perform h.toAsync use.operation).run.exchanges use.answers 0 t →
      h.SameMinimum now

/-! ## The cleanup -/

section Cleanup

variable {α β ρ : Type} {lease : LeaseHandle} {task : Option Async.TaskStatus}
  {s : HandleState} {t : Async.AsyncHandleState}

/-- A section of the synchronous handle alone. -/
theorem lockstep_locked
    {Post : Except Raised β → ρ → HandleState → Async.AsyncHandleState → Prop}
    {body : Locked α} {label : HandleSection} {f : α → Prog β} {q : Async.AsyncProc ρ} {a : α}
    {s' : HandleState} (hbody : body.exec s = (.ok a, s'))
    (h : Proc.Lockstep lease.comparison Post (f a).run q s' t) :
    Proc.Lockstep lease.comparison Post (locked body label >>= f).run q s t := by
  refine Proc.Lockstep.atomically_left ?_
  rw [hbody]
  exact h

/-- A section of the asynchronous handle alone. -/
theorem lockstep_runs
    {Post : ρ → Except Raised β → HandleState → Async.AsyncHandleState → Prop}
    {body : Async.Segment α} {label : Async.AsyncSection} {p : HandleProc ρ}
    {f : α → Async.AsyncProg β} {a : α} {t' : Async.AsyncHandleState}
    (hbody : body t = (.ok a, t'))
    (h : Proc.Lockstep lease.comparison Post p (f a).run s t') :
    Proc.Lockstep lease.comparison Post p (Async.runs body label >>= f).run s t := by
  refine Proc.Lockstep.atomically_right ?_
  rw [hbody]
  exact h

theorem lockstep_runs_error
    {Post : ρ → Except Raised β → HandleState → Async.AsyncHandleState → Prop}
    {body : Async.Segment α} {label : Async.AsyncSection} {p : HandleProc ρ}
    {f : α → Async.AsyncProg β} {e : Raised} {t' : Async.AsyncHandleState}
    (hbody : body t = (.error e, t'))
    (h : Proc.Lockstep lease.comparison Post p
      (.ret (.error e) : Async.AsyncProc (Except Raised β)) s t') :
    Proc.Lockstep lease.comparison Post p (Async.runs body label >>= f).run s t := by
  refine Proc.Lockstep.atomically_right ?_
  rw [hbody]
  exact h

/-- Without a worker there is nothing to stop. -/
theorem lockstep_stopWorker
    {Post : Except Raised β → ρ → HandleState → Async.AsyncHandleState → Prop}
    {f : Unit → Prog β} {q : Async.AsyncProc ρ} (hworker : s.worker = false)
    (h : Proc.Lockstep lease.comparison Post (f ()).run q s t) :
    Proc.Lockstep lease.comparison Post (stopWorker >>= f).run q s t := by
  have hstop : Proc.Lockstep lease.comparison
      (fun (r : Except Raised Unit) (_ : Unit) s' t' => r = .ok () ∧ s' = s ∧ t' = t)
      stopWorker.run (.ret () : Async.AsyncProc Unit) s t := by
    have hread : (do return (← get).worker : Locked Bool).exec s = (.ok false, s) := by
      rw [← hworker]
      rfl
    exact lockstep_locked hread (.ret ⟨rfl, rfl, rfl⟩)
  exact Proc.Lockstep.bind (g := fun _ => q) hstop fun _ _ _ _ ⟨hr, hs, ht⟩ => by
    subst hr hs ht
    exact h

/-- The result of the cleanup task fits the state of the handle. -/
def Fits (task : Option Async.TaskStatus) (s : HandleState) : Prop :=
  ∀ status, task = some status → ∃ inScope r, status = .finished r ∧ ReleaseEnds inScope r s

/-- The handles are in one state, and the cleanup task fits it. -/
def Paired (s : HandleState) (t : Async.AsyncHandleState) : Prop :=
  Same t.cleanupTask s t ∧ Fits t.cleanupTask s

theorem ReleaseEnds.terminal
    {inScope : Bool} {r : Except Raised Unit} (h : ReleaseEnds inScope r s) :
    s.state.terminal = true := by
  rcases h with ⟨-, h⟩ | ⟨-, h⟩ | ⟨-, h⟩ <;> rw [h] <;> rfl

theorem Same.paired
    (h : Same none s t) :
    Paired s t := by
  refine ⟨by rw [h.cleanup]; exact h, fun status hstatus => ?_⟩
  rw [h.cleanup] at hstatus
  cases hstatus

/-- An open handle has no cleanup task. -/
theorem Paired.none_of_open
    (h : Paired s t) (hopen : s.state.terminal = false) :
    t.cleanupTask = none := by
  rcases hcleanup : t.cleanupTask with _ | status
  · rfl
  · obtain ⟨_, _, _, hends⟩ := h.2 status hcleanup
    rw [hends.terminal] at hopen
    cases hopen

/-- A terminal handle that stays in its state still fits its cleanup task. -/
theorem Paired.of_same
    {s' : HandleState} {t' : Async.AsyncHandleState} (h : Paired s t)
    (hsame : Same t.cleanupTask s' t') (hstay : s.state.terminal = true → s'.state = s.state) :
    Paired s' t' := by
  refine ⟨by rw [hsame.cleanup]; exact hsame, fun status hstatus => ?_⟩
  rw [hsame.cleanup] at hstatus
  obtain ⟨inScope, r, hr, hends⟩ := h.2 status hstatus
  refine ⟨inScope, r, hr, ?_⟩
  unfold ReleaseEnds
  rw [hstay hends.terminal]
  exact hends

/-! ### A release of a terminal handle -/

/-- A release of a terminal handle ends with its first section. -/
theorem terminal_release
    (hterminal : s.state.terminal = true) (hretains : s.Retains) (inScope : Bool) :
    ∃ r : Except Raised Unit,
      (finishTerminalRelease inScope).exec s = (r.map fun _ => true, s) ∧
      (inScope = true → ReleaseEnds inScope r s) ∧
      ∀ failure, s.state = .unknown → s.failure = some failure → r = .error failure := by
  have hexec := finishTerminalRelease_exec s inScope
  rcases s.terminal_or hterminal with (hlost | hreleased) | hunknown
  · rw [hlost] at hexec
    refine ⟨.error (Async.lostError inScope), hexec, fun _ => .inr (.inl ⟨rfl, hlost⟩), ?_⟩
    intro _ hunknown
    rw [hlost] at hunknown
    cases hunknown
  · rw [hreleased] at hexec
    cases inScope with
    | false =>
        refine ⟨.error .releaseError, hexec, nofun, ?_⟩
        intro _ hunknown
        rw [hreleased] at hunknown
        cases hunknown
    | true =>
        refine ⟨.ok (), hexec, fun _ => .inl ⟨rfl, hreleased⟩, ?_⟩
        intro _ hunknown
        rw [hreleased] at hunknown
        cases hunknown
  · obtain ⟨failure, hfailure, hlifecycle⟩ := hretains hunknown
    rw [hunknown, hfailure] at hexec
    have hends : ReleaseEnds inScope (.error failure) s :=
      .inr (.inr ⟨⟨failure, rfl, hlifecycle⟩, hunknown⟩)
    refine ⟨.error failure, hexec, fun _ => hends, ?_⟩
    intro failure' _ hfailure'
    rw [hfailure] at hfailure'
    cases hfailure'
    rfl

variable {h : LeaseHandle}

theorem lockstep_terminal_left
    {Post : Except Raised Unit → ρ → HandleState → Async.AsyncHandleState → Prop}
    {q : Async.AsyncProc ρ} {inScope : Bool} {r : Except Raised Unit}
    (hexec : (finishTerminalRelease inScope).exec s = (r.map fun _ => true, s))
    (hnext : Proc.Lockstep h.comparison Post (.ret r : HandleProc _) q s t) :
    Proc.Lockstep h.comparison Post (releaseScoped h inScope).run q s t := by
  refine Proc.Lockstep.atomically_left ?_
  rw [hexec]
  cases r with
  | error e =>
      exact hnext
  | ok u =>
      exact hnext

theorem lockstep_terminal_right
    {Post : ρ → Except Raised Unit → HandleState → Async.AsyncHandleState → Prop}
    {p : HandleProc ρ} {inScope : Bool} {r : Except Raised Unit} (hs : Same task s t)
    (hexec : (finishTerminalRelease inScope).exec s = (r.map fun _ => true, s))
    (hnext : Proc.Lockstep h.comparison Post p (.ret r : Async.AsyncProc _) s t) :
    Proc.Lockstep h.comparison Post p (Async.releaseScoped h.toAsync inScope).run s t := by
  have hstart : Async.startRelease inScope t = (r.map fun _ => true, t) := by
    refine Prod.ext ?_ ?_
    · rw [(sections_startRelease hs inScope).1, hexec]
    · unfold Async.startRelease
      split_ifs <;> rfl
  refine Proc.Lockstep.atomically_right ?_
  rw [hstart]
  cases r with
  | error e =>
      exact hnext
  | ok u =>
      exact hnext

/-- A release at the end of a scope ends in a terminal state that fits its result. -/
theorem lockstep_scopedRelease
    (hs : Same task s t) :
    Proc.Lockstep h.comparison (AfterRelease task true) (releaseScoped h true).run
      (Async.releaseScoped h.toAsync true).run s t := by
  cases hterminal : s.state.terminal
  case false =>
    exact lockstep_releaseScoped h hs hterminal true
  case true =>
    obtain ⟨r, hexec, hends, -⟩ := terminal_release hterminal hs.retains true
    refine lockstep_terminal_left hexec (lockstep_terminal_right hs hexec ?_)
    exact .ret ⟨rfl, hs, hends rfl⟩

/-! ### The cleanup task -/

/-- The failure that the result of a release carries. -/
def failureOf : Except Raised Unit → Option Raised
  | .ok () => none
  | .error failure => some failure

/-- What is the same after the synchronous release and the asynchronous cleanup. -/
def AfterCleanup (inScope : Bool) (r : Except Raised Unit) (r' : Except Raised (Option Raised))
    (s : HandleState) (t : Async.AsyncHandleState) : Prop :=
  r' = .ok (failureOf r) ∧ ReleaseEnds inScope r s ∧ Paired s t

/-- `asyncio.Task` keeps the result, and the handle reads it from there. -/
theorem lockstep_runCleanup
    {inScope : Bool} (hs : Same task s t)
    (hrelease : ∀ t, Same (some .pending) s t →
      Proc.Lockstep h.comparison (AfterRelease (some .pending) inScope)
        (releaseScoped h inScope).run (Async.releaseScoped h.toAsync inScope).run s t) :
    Proc.Lockstep h.comparison (AfterCleanup inScope) (releaseScoped h inScope).run
      (Async.runCleanup h.toAsync inScope).run s t := by
  refine lockstep_runs rfl ?_
  have hpending : Same (some .pending) s { t with cleanupTask := some .pending } :=
    { hs with cleanup := rfl }
  have hlifted : Proc.Lockstep h.comparison
      (fun r r' s' t' => r' = .ok r ∧ Same (some .pending) s' t' ∧ ReleaseEnds inScope r s')
      (releaseScoped h inScope).run
      (liftM (Async.releaseScoped h.toAsync inScope).run :
        Async.AsyncProg (Except Raised Unit)).run s { t with cleanupTask := some .pending } := by
    refine Proc.Lockstep.bind_right (hrelease _ hpending) ?_
    rintro r _ s' t' ⟨rfl, hpost⟩
    exact .ret ⟨rfl, hpost⟩
  refine Proc.Lockstep.bind_right hlifted ?_
  rintro r _ s' t' ⟨rfl, hs', hends⟩
  refine lockstep_runs rfl ?_
  have hfits : Paired s' { t' with cleanupTask := some (.finished r) } := by
    refine ⟨{ hs' with cleanup := rfl }, ?_⟩
    rintro _ ⟨⟩
    exact ⟨inScope, r, rfl, hends⟩
  refine Proc.Lockstep.right (.ret ?_)
  cases r with
  | error e =>
      exact ⟨rfl, hends, hfits⟩
  | ok u =>
      exact ⟨rfl, hends, hfits⟩

/-- What the two handles report at the end of a scope. -/
structure Reported (t : Async.AsyncHandleState) (failure failure' : Option Raised) : Prop where
  same : ¬ t.Misremembers → failure' = failure
  differs : t.Misremembers → failure = some .leaseLost ∧ failure' = some .releaseError
  lifecycle : ∀ e, failure = some e → e.lifecycle ∨ e = .leaseLost

theorem ReleaseEnds.lifecycle
    {r : Except Raised Unit} (h : ReleaseEnds true r s) :
    ∀ e, failureOf r = some e → e.lifecycle ∨ e = .leaseLost := by
  rcases h with ⟨rfl, -⟩ | ⟨rfl, -⟩ | ⟨⟨failure, rfl, hfailure⟩, -⟩
  · rintro _ ⟨⟩
  · rintro _ ⟨⟩
    exact .inr rfl
  · rintro _ ⟨⟩
    exact .inl hfailure

/-- The result of the cleanup task is that of a release, unless it was a `release`. -/
theorem ReleaseEnds.reported
    {inScope : Bool} {r r₀ : Except Raised Unit} (hp : Paired s t)
    (hcleanup : t.cleanupTask = some (.finished r₀)) (hknown : s.state ≠ .unknown)
    (h₀ : ReleaseEnds inScope r₀ s) (h : ReleaseEnds true r s) :
    Reported t (failureOf r) (failureOf r₀) := by
  have hstate := hp.1.state
  rcases h₀ with ⟨rfl, hreleased⟩ | ⟨rfl, hlost⟩ | ⟨-, hunknown⟩
  · rcases h with ⟨rfl, -⟩ | ⟨-, hstate'⟩ | ⟨-, hstate'⟩
    · refine ⟨fun _ => rfl, fun hmis => ?_, nofun⟩
      rw [hmis.1, hreleased] at hstate
      cases hstate
    all_goals
      rw [hreleased] at hstate'
      cases hstate'
  · rcases h with ⟨-, hstate'⟩ | ⟨rfl, -⟩ | ⟨-, hstate'⟩
    · rw [hlost] at hstate'
      cases hstate'
    · have hlifecycle : ∀ e, failureOf (.error (Async.lostError true)) = some e →
          e.lifecycle ∨ e = .leaseLost := by
        rintro _ ⟨⟩
        exact .inr rfl
      cases inScope with
      | false =>
          refine ⟨fun hnot => ?_, fun _ => ⟨rfl, rfl⟩, hlifecycle⟩
          exact absurd ⟨hstate.trans hlost, hcleanup⟩ hnot
      | true =>
          refine ⟨fun _ => rfl, fun hmis => ?_, hlifecycle⟩
          rw [hmis.2] at hcleanup
          cases hcleanup
    · rw [hlost] at hstate'
      cases hstate'
  · exact absurd hunknown hknown

/-- A cleanup that no task has begun. -/
theorem lockstep_newCleanup
    {inScope : Bool} (hs : Same none s t) (hknown : s.state ≠ .unknown)
    (hrelease : ∀ t, Same (some .pending) s t →
      Proc.Lockstep h.comparison (AfterRelease (some .pending) inScope)
        (releaseScoped h inScope).run (Async.releaseScoped h.toAsync inScope).run s t) :
    Proc.Lockstep h.comparison (AfterCleanup inScope) (releaseScoped h inScope).run
      (Async.awaitCleanup h.toAsync inScope).run s t := by
  refine lockstep_runs rfl ?_
  rw [if_neg (fun h => hknown (hs.state.symm.trans h)), hs.cleanup]
  exact lockstep_runCleanup hs hrelease

/-- The cleanup of the asynchronous handle beside a release of the synchronous one. -/
theorem lockstep_awaitCleanup
    (hp : Paired s t) :
    Proc.Lockstep h.comparison
      (fun r r' s' t' => Paired s' t' ∧ ∃ failure, r' = .ok failure ∧
        Reported t (failureOf r) failure)
      (releaseScoped h true).run (Async.awaitCleanup h.toAsync true).run s t := by
  obtain ⟨hs, hfits⟩ := id hp
  by_cases hunknown : s.state = .unknown
  · have hterminal : s.state.terminal = true := by
      rw [hunknown]
      rfl
    obtain ⟨failure, hfailure, -⟩ := hs.retains hunknown
    obtain ⟨r, hexec, hends, hr⟩ := terminal_release hterminal hs.retains true
    have hr := hr failure hunknown hfailure
    subst hr
    refine lockstep_runs rfl ?_
    rw [if_pos (hs.state.trans hunknown), hs.failure, hfailure]
    refine lockstep_terminal_left hexec (.ret ⟨hp, some failure, rfl, ?_, ?_, ?_⟩)
    · exact fun _ => rfl
    · intro hmis
      have hstate := hs.state
      rw [hmis.1, hunknown] at hstate
      cases hstate
    · exact (hends rfl).lifecycle
  · rcases hcleanup : t.cleanupTask with _ | status
    · rw [hcleanup] at hs
      refine (lockstep_newCleanup hs hunknown fun t ht => lockstep_scopedRelease ht).mono ?_
      rintro r _ s' t' ⟨rfl, hends, hp'⟩
      refine ⟨hp', failureOf r, rfl, fun _ => rfl, fun hmis => ?_, hends.lifecycle⟩
      rw [hmis.2] at hcleanup
      cases hcleanup
    · obtain ⟨inScope, r₀, rfl, h₀⟩ := hfits status hcleanup
      obtain ⟨r, hexec, hends, -⟩ := terminal_release h₀.terminal hs.retains true
      refine lockstep_terminal_left hexec (lockstep_runs rfl ?_)
      rw [if_neg (fun h => hunknown (hs.state.symm.trans h)), hcleanup]
      refine .right (.ret ?_)
      have hreported := ReleaseEnds.reported hp hcleanup hunknown h₀ (hends rfl)
      cases r₀ with
      | error e =>
          exact ⟨hp, some e, rfl, hreported⟩
      | ok u =>
          exact ⟨hp, none, rfl, hreported⟩

end Cleanup

/-! ## One operation -/

section Operations

variable {α β : Type} {s : HandleState} {t : Async.AsyncHandleState} (h : LeaseHandle)

/-- Both operations end alike, on handles that are in one state. -/
def Alike (r r' : Except Raised α) (s : HandleState) (t : Async.AsyncHandleState) : Prop :=
  r' = r ∧ Paired s t

theorem lockstep_alike
    {lease : LeaseHandle} {p : Prog α} {p' : Async.AsyncProg α} (hp : Paired s t)
    (h : Proc.Lockstep lease.comparison (After t.cleanupTask s) p.run p'.run s t) :
    Proc.Lockstep lease.comparison Alike p.run p'.run s t :=
  h.mono fun _ _ _ _ hafter => ⟨hafter.1, hp.of_same hafter.2.1 hafter.2.2⟩

/-- The asynchronous check finds what the synchronous one finds. -/
theorem Same.goneOrRaise
    {task : Option Async.TaskStatus} (hs : Same task s t) :
    Async.goneOrRaise t = ((goneOrRaise.exec s).1, t) := by
  refine Prod.ext (sections_goneOrRaise hs).1 ?_
  unfold Async.goneOrRaise
  split <;> rfl

theorem lockstep_release
    (hp : Paired s t) :
    Proc.Lockstep h.comparison Alike (release h).run (Async.release h.toAsync).run s t := by
  refine lockstep_stopWorker hp.1.worker ?_
  have hs := hp.1
  have hcheck := hs.goneOrRaise
  cases hterminal : s.state.terminal
  case false =>
    rw [goneOrRaise_of_open hterminal] at hcheck
    rw [hp.none_of_open hterminal] at hs
    refine lockstep_runs hcheck ?_
    refine Proc.Lockstep.bind_right (lockstep_newCleanup hs (s.open_iff.mp hterminal).1
      fun t ht => lockstep_releaseScoped h ht hterminal false) ?_
    rintro (e | _) _ s' t' ⟨rfl, -, hp'⟩
    · exact .ret ⟨rfl, hp'⟩
    · exact .ret ⟨rfl, hp'⟩
  case true =>
    obtain ⟨r, hexec, -, hfailure⟩ := terminal_release hterminal hs.retains false
    refine lockstep_terminal_left hexec ?_
    rcases HandleState.terminal_or hterminal with hgone | hunknown
    · rw [goneOrRaise_of_gone hgone] at hcheck
      exact lockstep_runs hcheck (lockstep_terminal_right hs hexec (.ret ⟨rfl, hp⟩))
    · obtain ⟨failure, hretained, -⟩ := hs.retains hunknown
      rw [goneOrRaise_of_unknown hunknown, hretained] at hcheck
      obtain rfl := hfailure failure hunknown hretained
      exact lockstep_runs_error hcheck (.ret ⟨rfl, hp⟩)

theorem lockstep_enter
    (hmanual : h.options.autoRenew = false) (hp : Paired s t) :
    Proc.Lockstep h.comparison Alike (enter h).run (Async.enter h.toAsync).run s t := by
  have hs := hp.1
  by_cases hacquired : s.state = .acquired
  · have hopen : s.state.terminal = false := by
      rw [hacquired]
      rfl
    have hexec : markEntered.exec s = (.ok (), { s with state := .entered }) := by
      simp [markEntered, hacquired]
    have hentered : Async.markEntered t = (.ok (), t.enters .entered) := by
      simp [Async.markEntered, hs.state, hacquired]
    rw [hp.none_of_open hopen] at hs
    have hs' : Same none { s with state := .entered } (t.enters .entered) :=
      hs.enters (by decide)
    refine lockstep_locked hexec (lockstep_runs hentered ?_)
    rw [if_neg (by simp [hmanual])]
    have hheld : Proc.Lockstep h.comparison
        (fun r r' s' t' => r' = r ∧ Same none s' t' ∧ ∀ e, r = .error e →
          Async.takesControl e = false)
        (do if !(← isHeld h) then throw .leaseLost : Prog Unit).run
        (do if !(← Async.isHeld h.toAsync) then throw .leaseLost : Async.AsyncProg Unit).run
        { s with state := .entered } (t.enters .entered) := by
      refine Proc.Lockstep.bind (lockstep_isHeld h hs' rfl) ?_
      rintro (e | held) _ s' t' ⟨rfl, hsame, herror⟩
      · obtain rfl := herror e rfl
        refine .ret ⟨rfl, hsame, ?_⟩
        rintro _ ⟨⟩
        rfl
      · cases held with
        | false =>
            refine .ret ⟨rfl, hsame, ?_⟩
            rintro _ ⟨⟩
            rfl
        | true =>
            exact .ret ⟨rfl, hsame, fun e he => by cases he⟩
    refine Proc.Lockstep.bind_right hheld ?_
    rintro (e | _) _ s' t' ⟨rfl, hsame, herror⟩
    · change Proc.Lockstep h.comparison Alike _ (if Async.takesControl e then _ else _) _ _
      rw [if_neg (by simp [herror e rfl])]
      exact .ret ⟨rfl, hsame.paired⟩
    · exact .ret ⟨rfl, hsame.paired⟩
  · have hagree := sections_markEntered hs
    have hexec : markEntered.exec s = (.error (if s.state = .unknown then
        s.failure.getD assertionError else .leaseLost), s) := by
      simp only [markEntered, exec_bind, raiseIfUnknown_exec]
      by_cases hunknown : s.state = .unknown
      · simp [hunknown]
      · simp [hunknown, hacquired]
    have hentered : (Async.markEntered t).2 = t := by
      unfold Async.markEntered
      rw [hs.state, if_pos hacquired]
      split <;> rfl
    refine lockstep_check hexec (Prod.ext (hagree.1.trans (by rw [hexec])) hentered)
      (fun a ha => by cases ha) ?_
    exact fun e _ => ⟨rfl, hp⟩

/-- How the two ends of a scope end, when the body has ended with `exc`. -/
structure ExitEnds (t : Async.AsyncHandleState) (exc : Option Raised)
    (r r' : Except Raised OperationValue) : Prop where
  same : ¬ (exc = none ∧ t.Misremembers) → r'.mapError Raised.kind = r.mapError Raised.kind
  differs : exc = none ∧ t.Misremembers → r = .error .leaseLost ∧ r' = .error .releaseError

/-- The failure of the cleanup as the exits keep it. -/
theorem lockstep_lifecycle
    (hp : Paired s t) :
    Proc.Lockstep h.comparison
      (fun r r' s' t' => Paired s' t' ∧ ∃ failure failure', r = .ok failure ∧ r' = .ok failure' ∧
        Reported t failure failure')
      (leaderErrorOf do
        stopWorker
        releaseScoped h true).run (Async.awaitCleanup h.toAsync true).run s t := by
  refine Proc.Lockstep.bind_left (lockstep_stopWorker hp.1.worker (lockstep_awaitCleanup hp)) ?_
  rintro (e | _) _ s' t' ⟨hp', failure', rfl, hreported⟩
  · have hleader : e.isLeaderError = true := by
      rcases hreported.lifecycle e rfl with (rfl | rfl) | rfl <;> rfl
    change Proc.Lockstep h.comparison _ (if e.isLeaderError then _ else _) _ _ _
    rw [if_pos hleader]
    exact .ret ⟨hp', some e, failure', rfl, rfl, hreported⟩
  · exact .ret ⟨hp', none, failure', rfl, rfl, hreported⟩

/-- The exits report the failures of their cleanups, beside that of the body if there is one. -/
theorem lockstep_exit
    (hp : Paired s t) {exc : Option Raised} (hexc : ∀ e, exc = some e → e.isException = true) :
    Proc.Lockstep h.comparison
      (fun r r' s' t' => ExitEnds t exc (r.map .exited) (r'.map fun _ => .exited none) ∧
        Paired s' t')
      (exit h exc).run (Async.exit h.toAsync exc).run s t := by
  refine Proc.Lockstep.bind (lockstep_lifecycle h hp) ?_
  rintro _ _ s' t' ⟨hp', failure, failure', rfl, rfl, hreported⟩
  have hends : ∀ r : Except Raised (Option String), ∀ r' : Except Raised Unit,
      ExitEnds t exc (r.map .exited) (r'.map fun _ => .exited none) →
      Proc.Lockstep h.comparison
        (fun r r' s' t' => ExitEnds t exc (r.map .exited) (r'.map fun _ => .exited none) ∧
          Paired s' t')
        (.ret r : HandleProc _) (.ret r' : Async.AsyncProc _) s' t' :=
    fun _ _ hends => .ret ⟨hends, hp'⟩
  by_cases hmis : t.Misremembers
  · obtain ⟨rfl, rfl⟩ := hreported.differs hmis
    cases exc with
    | none =>
        exact hends (.error .leaseLost) (.error .releaseError)
          ⟨fun hnot => absurd ⟨rfl, hmis⟩ hnot, fun _ => ⟨rfl, rfl⟩⟩
    | some exc =>
        have hexception := hexc exc rfl
        have hend : ExitEnds t (some exc)
            ((Except.error (.execution exc .leaseLost) : Except Raised (Option String)).map .exited)
            ((Except.error (.execution exc .releaseError) : Except Raised Unit).map
              fun _ => .exited none) :=
          ⟨fun _ => rfl, fun h => by cases h.1⟩
        cases exc
        all_goals first
          | exact hends _ _ hend
          | cases hexception
  · obtain rfl := hreported.same hmis
    have hsame : ∀ r r', r'.mapError Raised.kind = r.mapError Raised.kind →
        ExitEnds t exc r r' :=
      fun r r' heq => ⟨fun _ => heq, fun h => absurd h.2 hmis⟩
    cases failure' with
    | none =>
        cases exc with
        | none =>
            exact hends (.ok none) (.ok ()) (hsame _ _ rfl)
        | some exc =>
            have hexception := hexc exc rfl
            cases exc
            all_goals first
              | exact hends (.ok none) (.ok ()) (hsame _ _ rfl)
              | cases hexception
    | some failure =>
        cases exc with
        | none =>
            exact hends (.error failure) (.error failure) (hsame _ _ rfl)
        | some exc =>
            have hexception := hexc exc rfl
            have hend := hends (.error (.execution exc failure)) (.error (.execution exc failure))
              (hsame _ _ rfl)
            rcases hreported.lifecycle failure rfl with (rfl | rfl) | rfl <;> cases exc
            all_goals first
              | exact hend
              | cases hexception

/-! ### All operations -/

/-- What an operation makes of the result of a method. -/
theorem lockstep_performed
    {lease : LeaseHandle} {p : HandleProc (Except Raised α)}
    {p' : Async.AsyncProc (Except Raised α)}
    {next : Except Raised α → HandleProc (Except Raised OperationValue)}
    {next' : Except Raised α → Async.AsyncProc (Except Raised OperationValue)}
    (hp : Proc.Lockstep lease.comparison Alike p p' s t)
    (hnext : ∀ r, ∃ r', next r = .ret r' ∧ next' r = .ret r') :
    Proc.Lockstep lease.comparison
      (fun r r' s' t' => r'.mapError Raised.kind = r.mapError Raised.kind ∧ Paired s' t')
      (p.bind next) (p'.bind next') s t := by
  refine Proc.Lockstep.bind hp ?_
  rintro _ r s' t' ⟨rfl, hp'⟩
  obtain ⟨_, hr, hr'⟩ := hnext r
  rw [hr, hr']
  exact .ret ⟨rfl, hp'⟩

/-- A renewal of a terminal handle does not look at the lease time. -/
theorem lockstep_renew
    (hp : Paired s t) {leaseTime : Option Timedelta}
    (hagreeable : t.state.terminal = true ∨
      durationMilliseconds (leaseTime.getD h.options.leaseTime) ≠ none) :
    Proc.Lockstep h.comparison Alike (renew h leaseTime).run
      (Async.renew h.toAsync leaseTime).run s t := by
  rcases hagreeable with hterminal | hvalid
  · refine lockstep_alike hp (lockstep_goneOrRaise hp.1 rfl rfl fun hopen => ?_)
    rw [hp.1.state, hopen] at hterminal
    cases hterminal
  · exact lockstep_alike hp (methods_renew h hvalid s t hp.1)

/-- A use that the handles agree on ends alike on both of them. -/
theorem perform_lockstep
    (hmanual : h.options.autoRenew = false) (hp : Paired s t) (use : Use h)
    (hagreeable : Agreeable h t use.operation) :
    Proc.Lockstep h.comparison
      (fun r r' s' t' => r'.mapError Raised.kind = r.mapError Raised.kind ∧ Paired s' t')
      (perform h use.operation).run (Async.perform h.toAsync use.operation).run s t := by
  obtain ⟨operation, answers, hordinary, hallowed⟩ := use
  cases operation with
  | renew leaseTime =>
      refine lockstep_performed (lockstep_renew h hp hagreeable) ?_
      rintro (e | a) <;> exact ⟨_, rfl, rfl⟩
  | isHeld =>
      refine lockstep_performed (lockstep_alike hp (methods_isHeld h s t hp.1)) ?_
      rintro (e | a) <;> exact ⟨_, rfl, rfl⟩
  | assertHeld =>
      refine lockstep_performed (lockstep_alike hp (methods_assertHeld h s t hp.1)) ?_
      rintro (e | a) <;> exact ⟨_, rfl, rfl⟩
  | release =>
      refine lockstep_performed (lockstep_release h hp) ?_
      rintro (e | a) <;> exact ⟨_, rfl, rfl⟩
  | enter =>
      refine lockstep_performed (lockstep_enter h hmanual hp) ?_
      rintro (e | a) <;> exact ⟨_, rfl, rfl⟩
  | exit exc =>
      have hexc : ∀ e, exc = some e → e.isException = true := by
        rintro e rfl
        exact hordinary
      have hnot : ¬ (exc = none ∧ t.Misremembers) := by
        rintro ⟨rfl, hmis⟩
        exact hagreeable hmis
      refine Proc.Lockstep.bind (lockstep_exit h hp hexc) ?_
      rintro (e | a) (e' | a') s' t' ⟨hends, hp'⟩
      all_goals exact .ret ⟨hends.same hnot, hp'⟩

/-- The synchronous handle raises for the lease time, the asynchronous one gives up. -/
theorem lockstep_renew_invalid
    (hp : Paired s t) {leaseTime : Option Timedelta} (hopen : s.state.terminal = false)
    (hinvalid : durationMilliseconds (leaseTime.getD h.options.leaseTime) = none) :
    Proc.Lockstep h.comparison
      (fun r r' _ _ => r = .error valueError ∧ r' = .ok (.backendFailure .backendError))
      (renew h leaseTime).run (Async.renew h.toAsync leaseTime).run s t := by
  have hcheck := hp.1.goneOrRaise
  rw [goneOrRaise_of_open hopen] at hcheck
  refine lockstep_locked (goneOrRaise_of_open hopen) (lockstep_runs hcheck ?_)
  have hinvalid' : durationMilliseconds (leaseTime.getD h.toAsync.options.leaseTime) = none :=
    hinvalid
  simp only [Bool.false_eq_true, if_false, Async.dispatchRenew, hinvalid, hinvalid']
  have hfinish : (Async.finishRenew none t).1 = .ok (.backendFailure .backendError) := by
    obtain ⟨hgone, hunknown⟩ := hp.1.open hopen
    unfold Async.finishRenew
    rw [if_neg hgone, if_neg hunknown]
  exact .right (.ret ⟨rfl, hfinish⟩)

/-- A use that the handles do not agree on ends differently. -/
theorem perform_exposed
    (hp : Paired s t) (use : Use h) (hnot : ¬ Agreeable h t use.operation) :
    Proc.Lockstep h.comparison
      (fun r r' _ _ => r'.mapError Raised.kind ≠ r.mapError Raised.kind)
      (perform h use.operation).run (Async.perform h.toAsync use.operation).run s t := by
  obtain ⟨operation, answers, hordinary, hallowed⟩ := use
  cases operation with
  | renew leaseTime =>
      obtain ⟨hterminal, hvalid⟩ := not_or.mp hnot
      rw [hp.1.state] at hterminal
      have hopen : s.state.terminal = false := Bool.eq_false_of_not_eq_true hterminal
      refine Proc.Lockstep.bind (lockstep_renew_invalid h hp hopen (not_not.mp hvalid)) ?_
      rintro _ _ _ _ ⟨rfl, rfl⟩
      refine .ret fun heq => ?_
      cases heq
  | exit exc =>
      cases exc with
      | some exc =>
          exact absurd trivial hnot
      | none =>
          have hexc : ∀ e, (none : Option Raised) = some e → e.isException = true := by
            rintro _ ⟨⟩
          refine Proc.Lockstep.bind (lockstep_exit h hp hexc) ?_
          rintro (e | a) (e' | a') s' t' ⟨hends, -⟩
          all_goals
            obtain ⟨hr, hr'⟩ := hends.differs ⟨rfl, not_not.mp hnot⟩
            cases hr <;> cases hr'
          refine .ret fun heq => ?_
          cases heq
  | isHeld | assertHeld | release | enter =>
      exact absurd trivial hnot

/-! ### Sequences -/

theorem together_iff
    (use : Use h) :
    Together h t use ↔
      ∀ x ∈ (Async.perform h.toAsync use.operation).run.exchanges use.answers 0 t,
        ¬ h.comparison.parts x.1 x.2 := by
  constructor
  · rintro htogether ⟨q, a⟩ hx hparts
    cases q
    case monotonicNs =>
      exact hparts (htogether a hx)
    all_goals
      exact hparts
  · intro htogether now hx
    exact not_not.mp (htogether ⟨.monotonicNs, now⟩ hx)

/-- **Without a minimum lease time** no reading of a clock that goes on parts the handles. -/
theorem together_of_none
    (use : Use h)
    (hnone : h.options.minLeaseTime.total = 0)
    (hacquired : -2 ^ 62 < h.acquiredNs)
    (hclock : ∀ n (now : Int), use.answers n .monotonicNs = now →
      h.acquiredNs ≤ now ∧ now < 2 ^ 62) :
    Together h t use := by
  intro now hx
  obtain ⟨n, hanswer⟩ := Proc.exists_of_mem_exchanges hx
  obtain ⟨hle, hlt⟩ := hclock n now hanswer
  exact sameMinimum_of_none hnone hacquired hle hlt

/-- What the caller sees of a use in lockstep. -/
theorem seen_of_lockstep
    {R : Except Raised OperationValue → Except Raised OperationValue → HandleState →
      Async.AsyncHandleState → Prop} {use : Use h}
    (hlockstep : Proc.Lockstep h.comparison R (perform h use.operation).run
      (Async.perform h.toAsync use.operation).run s t)
    (htogether : Together h t use) :
    ∃ r r' scripts, R r r' (useSync h s use).2 (useAsync h t use).2 ∧
      (useSync h s use).1 = some ⟨r.mapError Raised.kind, scripts⟩ ∧
      (useAsync h t use).1 = some ⟨r'.mapError Raised.kind, scripts⟩ := by
  obtain ⟨r, s', r', t', questions, hplay, hplay', hpost⟩ :=
    hlockstep.play use.allowed 0 ((together_iff h use).mp htogether)
  unfold useSync useAsync alone
  rw [hplay, hplay']
  exact ⟨r, r', _, hpost, rfl, rfl⟩

/-- A use that has ended, with its questions. -/
theorem play_of_alone
    {σ Λ : Type} {p : ExceptT Raised (Proc σ Λ HandleQuestion HandleQuestion.Answer)
      OperationValue} {answers : Proc.Oracle HandleQuestion.Answer} {s : σ} {seen : Seen}
    (h : (alone p answers s).1 = some seen) :
    ∃ r s' questions, p.run.play answers 0 s = some (r, s', questions) ∧
      seen.scripts = questions.filterMap HandleQuestion.script := by
  unfold alone at h
  split at h
  case h_1 r s' questions hplay =>
    obtain rfl := Option.some.inj h
    exact ⟨r, s', questions, hplay, rfl⟩
  case h_2 => cases h

/-- Handles that a reading of the clock parts send different scripts. -/
theorem parted_exposed
    {R : Except Raised OperationValue → Except Raised OperationValue → HandleState →
      Async.AsyncHandleState → Prop} {use : Use h}
    (hlockstep : Proc.Lockstep h.comparison R (perform h use.operation).run
      (Async.perform h.toAsync use.operation).run s t)
    (hnot : ¬ Together h t use) :
    ¬ SeenAlike (useAsync h t use).1 (useSync h s use).1 := by
  rintro ⟨hended, hseen⟩
  obtain ⟨seen, hseen'⟩ := Option.isSome_iff_exists.mp hended
  obtain ⟨r, s', questions, hplay, hscripts⟩ := play_of_alone (hseen.trans hseen')
  obtain ⟨r', t', questions', hplay', hscripts'⟩ := play_of_alone hseen'
  rw [together_iff] at hnot
  push Not at hnot
  obtain ⟨x, hx, hparts⟩ := hnot
  obtain ⟨common, y, y', rest, rest', ⟨call, call', hcall, hcall', hne⟩, rfl, rfl⟩ :=
    hlockstep.play_parted use.allowed hx hparts hplay hplay'
  rw [hscripts] at hscripts'
  simp only [List.filterMap_append, List.filterMap_cons, hcall, hcall', List.append_cancel_left_eq,
    List.cons.injEq] at hscripts'
  exact hne hscripts'.1

/-- A use that the handles agree on looks the same, and leaves them in the same state. -/
theorem use_alike
    (hmanual : h.options.autoRenew = false) (hp : Paired s t) (use : Use h)
    (hagreeable : Agreeable h t use.operation ∧ Together h t use) :
    SeenAlike (useAsync h t use).1 (useSync h s use).1 ∧
      Paired (useSync h s use).2 (useAsync h t use).2 := by
  obtain ⟨r, r', scripts, ⟨heq, hpair⟩, hseen, hseen'⟩ :=
    seen_of_lockstep h (perform_lockstep h hmanual hp use hagreeable.1) hagreeable.2
  refine ⟨⟨?_, ?_⟩, hpair⟩
  · exact Option.isSome_of_eq_some hseen'
  · exact hseen.trans ((congrArg (fun r => some (Seen.mk r scripts)) heq.symm).trans hseen'.symm)

/-- Any other use looks different. -/
theorem use_exposed
    (hmanual : h.options.autoRenew = false) (hp : Paired s t) (use : Use h)
    (hnot : ¬ (Agreeable h t use.operation ∧ Together h t use)) :
    ¬ SeenAlike (useAsync h t use).1 (useSync h s use).1 := by
  by_cases hagreeable : Agreeable h t use.operation
  · exact parted_exposed h (perform_lockstep h hmanual hp use hagreeable)
      fun htogether => hnot ⟨hagreeable, htogether⟩
  · have hexposed := perform_exposed h hp use hagreeable
    by_cases htogether : Together h t use
    · obtain ⟨r, r', scripts, hne, hseen, hseen'⟩ := seen_of_lockstep h hexposed htogether
      rintro ⟨-, heq⟩
      rw [hseen, hseen'] at heq
      exact hne (congrArg Seen.result (Option.some.inj heq)).symm
    · exact parted_exposed h hexposed htogether

/-- The fresh handles. -/
theorem paired_init :
    Paired .init .init := by
  refine Same.paired ⟨rfl, rfl, rfl, ?_, rfl⟩
  intro hunknown
  cases hunknown

end Operations

/-! ## Three uses of one handle -/

theorem manual_interval :
    false = true → (none : Option Timedelta).isSome = true := by
  intro h
  cases h

theorem manual_bounds :
    ∀ interval ∈ (none : Option Timedelta),
      0 < interval.total ∧ interval.total < renewedHandle.options.leaseTime.total := by
  simp

/-- A handle that does not renew its lease by itself. -/
def manualHandle : LeaseHandle where
  record := renewedHandle.record
  options :=
    { renewedHandle.options with
      autoRenew := false
      renewInterval := none
      interval_of_autoRenew := manual_interval
      interval_bounds := manual_bounds }
  acquiredNs := 0

/-- Redis does not hold the lease any more, and the clock stands still. -/
def notHeldAnswers (now : Int) : Proc.Oracle HandleQuestion.Answer
  | _, .evalsha _ | _, .eval _ => .reply (.parts [Status.notHeld.text])
  | _, .monotonicNs => now
  | _, .jitter => none
  | _, .startThread => .started
  | _, .waitStop | _, .waitReady | _, .joinWorker => false
  | _, .action _ => .ok 0
  | _, .nextOperation => .isHeld
  | _, .sleep _ | _, .threadStarted | _, .report _ => ()

theorem allowed_notHeldAnswers
    {h : LeaseHandle} {now : Int} (hnow : h.ClockReading now) (n : Nat) (q : HandleQuestion) :
    h.comparison.allowed q (notHeldAnswers now n q) := by
  cases q
  case evalsha | eval =>
    rintro _ ⟨⟩
  case monotonicNs =>
    exact hnow
  all_goals
    trivial

/-- An operation with these answers. -/
def notHeldUse {h : LeaseHandle} {now : Int} (hnow : h.ClockReading now) (operation : Operation)
    (hordinary : operation.ordinary = true) : Use h where
  operation := operation
  answers := notHeldAnswers now
  ordinary := hordinary
  allowed := allowed_notHeldAnswers hnow

theorem manualHandle_reading :
    manualHandle.ClockReading 0 := by
  unfold LeaseHandle.ClockReading
  decide

/-- The handle has no minimum lease time. -/
theorem together_manualHandle
    (t : Async.AsyncHandleState) (operation : Operation)
    (hordinary : operation.ordinary = true) :
    Together manualHandle t (notHeldUse manualHandle_reading operation hordinary) := by
  refine together_of_none manualHandle _ rfl (by decide) ?_
  rintro n now (rfl : (0 : Int) = now)
  decide

/-- A renewal for no time at all. -/
def emptyRenewal : Use manualHandle :=
  notHeldUse manualHandle_reading (.renew (some noTime)) rfl

/-- A release that finds the lease lost. -/
def lateRelease : Use manualHandle :=
  notHeldUse manualHandle_reading .release rfl

theorem lateRelease_loses :
    (useAsync manualHandle .init lateRelease).2.Misremembers := by
  decide +kernel

/-- The handle with a second as its minimum lease time. -/
def secondHandle : LeaseHandle where
  record := renewedHandle.record
  options :=
    { manualHandle.options with
      minLeaseTime := ⟨1000000, by decide, by decide⟩
      min_nonneg := by decide
      min_le_lease := by decide }
  acquiredNs := 0

/-- A nanosecond before the end of the second is less than one in floats. -/
theorem secondHandle_parted :
    ¬ secondHandle.SameMinimum 999999999 := by
  have hlast : Async.loopTime 999999999 = (9007199245733793 : Int) * 2 ^ (-53 : Int) := by
    rw [Async.loopTime, if_neg (by decide), Binary64.round_intCast (by decide), Int.cast_ofNat]
    exact Binary64.round_eq (by norm_num) (by norm_num) (by norm_num) (by norm_num [abs_lt])
  have hfirst : Async.loopTime 0 = 0 := by
    rw [Async.loopTime, if_pos (by decide), Int.zero_ediv, Int.cast_zero, Binary64.round_zero]
  have hminimum : secondHandle.options.minLeaseTime.floatSeconds = 1 := by
    have hround := Binary64.round_intCast (k := 1) (by decide)
    simp only [secondHandle, Timedelta.floatSeconds, Timedelta.totalSeconds]
    norm_num at hround ⊢
    exact hround
  have helapsed : Binary64.round ((9007199245733793 : Int) * 2 ^ (-53 : Int)) =
      (9007199245733793 : Int) * 2 ^ (-53 : Int) :=
    Binary64.round_eq (by norm_num) (by norm_num) (by norm_num) (by norm_num)
  have hremaining : Binary64.round (1 - (9007199245733793 : Int) * 2 ^ (-53 : Int)) =
      (4835703141695488 : Int) * 2 ^ (-82 : Int) :=
    Binary64.round_eq (by norm_num) (by norm_num) (by norm_num) (by norm_num)
  have hproduct : Binary64.round ((4835703141695488 : Int) * 2 ^ (-82 : Int) * 1000) =
      (4722366349312000 : Int) * 2 ^ (-72 : Int) :=
    Binary64.round_eq (by norm_num) (by norm_num) (by norm_num) (by norm_num [abs_lt])
  have hlittle : Binary64.round (999999 / 1000000) =
      (9007190247541737 : Int) * 2 ^ (-53 : Int) :=
    Binary64.round_eq (by norm_num) (by norm_num) (by norm_num) (by norm_num [abs_lt])
  have hsum : Binary64.round ((4722366349312000 : Int) * 2 ^ (-72 : Int) +
      (9007190247541737 : Int) * 2 ^ (-53 : Int)) =
      (9007199254740737 : Int) * 2 ^ (-53 : Int) :=
    Binary64.round_eq (by norm_num) (by norm_num) (by norm_num) (by norm_num [abs_lt])
  have hasync : Async.minimumMs secondHandle.toAsync (Async.loopTime 999999999) = 0 := by
    have hacquired : secondHandle.toAsync.acquiredAt = 0 := hfirst
    have hoptions : secondHandle.toAsync.options = secondHandle.options := rfl
    simp only [Async.minimumMs, hacquired, hoptions, hminimum, hlast, sub_zero, helapsed,
      hremaining, hproduct, hlittle, hsum]
    norm_num
  have hsync : secondHandle.minimumMs 999999999 = 1 := by
    decide
  rw [LeaseHandle.SameMinimum, hasync, hsync]
  decide

theorem secondHandle_reading :
    secondHandle.ClockReading 999999999 := by
  unfold LeaseHandle.ClockReading
  decide

/-- A release in the last nanosecond of the minimum lease. -/
def earlyRelease : Use secondHandle :=
  notHeldUse secondHandle_reading .release rfl

end LeaderRedis
end Bluetape
