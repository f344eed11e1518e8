import Bluetape.LeaderRedis.ElectionRules
import Bluetape.LeaderRedis.HandleStates

/-!
# The methods of a handle keep its lease

One triple for each method, from the dispatched scripts up to `run_if_leader_result`
and the threads.

* `keeps_dispatchRelease`: a release takes the lease back, or leaves it long enough;
* `keeps_exit`: `__exit__` returns only after the lease was handed back, and raises
  leader errors only;
* `triple_runHeld`: what the elector ends with, by what its action did.
-/

namespace Bluetape
namespace LeaderRedis

open Base

variable {h : LeaseHandle} {t : HandleThread} {actions : List (Except Raised Nat)}

theorem Raised.isLeaderError_of_lifecycle
    {failure : Raised}
    (hfailure : failure.lifecycle) :
    failure.isLeaderError = true := by
  rcases hfailure with rfl | rfl <;> rfl

/-! ## Dispatched scripts -/

section Dispatch

/-- A renewal for at least the minimum lease time. -/
theorem keeps_dispatchRenew
    {ttlMs : Nat}
    (hlong : h.options.minLeaseTime.total / 1000 ≤ ttlMs) :
    Keeps h t actions (.always True) (dispatchRenew h ttlMs)
      (fun status => .given (status = .renewed) (.confirmed h)) Fact.exception := by
  refine .bind (.weaken (keeps_runScript _) (fun w _ => ⟨rfl, ttlMs, rfl, hlong⟩)
    (fun _ _ => id) fun _ _ => id) fun raw => .orRaise (fun status w hparsed hF => ?_) ?_
  · obtain ⟨reply, rfl, hreplied⟩ := hF
    rintro rfl
    obtain ⟨hstatus, -, -⟩ := status_of_parseStatusResponse hparsed
    obtain rfl : reply = .renewed := by
      cases reply <;> first | rfl | cases hstatus
    exact ⟨t, .inr ⟨_, hreplied⟩⟩
  · exact fun _ _ => rfl

theorem keeps_dispatchProbe :
    Keeps h t actions (.always True) (dispatchProbe h)
      (fun status => .given (status = .held) (.confirmed h)) Fact.exception := by
  refine .bind (.weaken (keeps_runScript _) (fun w _ => rfl) (fun _ _ => id) fun _ _ => id)
    fun raw => .orRaise (fun status w hparsed hF => ?_) ?_
  · obtain ⟨reply, rfl, hreplied⟩ := hF
    rintro rfl
    obtain ⟨hstatus, -, -⟩ := status_of_parseStatusResponse hparsed
    obtain rfl : reply = .held := by
      cases reply <;> first | rfl | cases hstatus
    exact ⟨t, .inl hreplied⟩
  · exact fun _ _ => rfl

/-- The remainder computed at a clock reading reaches the guaranteed time from then on. -/
theorem reaches_of_reading
    {w : ElectionWorld}
    (hw : LeaseInvariant h w) :
    let remaining := durationNanoseconds h.options.minLeaseTime -
      (⌊1000000000 * w.time⌋ - h.acquiredNs)
    h.guaranteedMs ≤ w.server.db.now +
      (if remaining ≤ 0 then 0 else ((remaining + 999999) / 1000000).toNat : Nat) := by
  rw [hw.clock, serverMs_eq_div hw.nonneg, durationNanoseconds_eq]
  unfold LeaseHandle.guaranteedMs
  intro remaining
  split <;> omega

/-- `_remaining_minimum_ms` -/
theorem keeps_remainingMinimumMs :
    Keeps h t actions (.always True) (remainingMinimumMs h) (Fact.reaches h) Fact.exception := by
  unfold remainingMinimumMs
  refine .bind (M := fun now => .reaches h
      (if durationNanoseconds h.options.minLeaseTime - (now - h.acquiredNs) ≤ 0 then 0
        else ((durationNanoseconds h.options.minLeaseTime - (now - h.acquiredNs) + 999999) /
          1000000).toNat))
    (.question trivial fun now w hw _ hnow => ?_) fun now => .pure fun _ hF => hF
  obtain rfl := of_decide_eq_true hnow
  exact reaches_of_reading hw

/-- The statuses that mark a handle released. -/
def Status.handsBack (status : Status) : Prop :=
  status = .deleted ∨ status = .minTtlApplied

/-- `_dispatch_release` -/
theorem keeps_dispatchRelease :
    Keeps h t actions (.always True) (dispatchRelease h)
      (fun status => .given status.handsBack (.handedBack h)) Fact.exception := by
  refine .bind keeps_remainingMinimumMs fun remainingMs => ?_
  refine .bind (.weaken (keeps_runScript _) (fun w hreach => ⟨rfl, remainingMs, rfl, hreach⟩)
    (fun _ _ => id) fun _ _ => id) fun raw => .orRaise (fun status w hparsed hF => ?_) ?_
  · obtain ⟨reply, rfl, hreplied⟩ := hF
    obtain ⟨hstatus, -, -⟩ := status_of_parseStatusResponse hparsed
    rintro (rfl | rfl)
    · obtain rfl : reply = .deleted := by
        cases reply <;> first | rfl | cases hstatus
      exact ⟨t, _, .inl hreplied⟩
    · obtain rfl : reply = .minTtlApplied := by
        cases reply <;> first | rfl | cases hstatus
      exact ⟨t, _, .inr hreplied⟩
  · exact fun _ _ => rfl

end Dispatch

/-! ## Renewing and probing -/

section Probing

/-- A leader error, or the failure that an unknown handle retains. -/
def Lifecycle (s : HandleState) (e : Raised) : Prop :=
  e.isLeaderError = true ∨ s.state = .unknown ∧ e = s.failure.getD assertionError

theorem LeaseInvariant.leader
    {w : ElectionWorld} {e : Raised}
    (hw : LeaseInvariant h w)
    (he : Lifecycle w.threads.handle e) :
    e.isLeaderError = true := by
  rcases he with hleader | ⟨hunknown, rfl⟩
  · exact hleader
  · obtain ⟨failure, hfailure, hlifecycle⟩ := hw.retains hunknown
    rw [hfailure]
    exact Raised.isLeaderError_of_lifecycle hlifecycle

/-- The head of a method leaves the handle alone. -/
theorem goneOrRaise_ends
    (s : HandleState) :
    (goneOrRaise.exec s).2 = s ∧ ∀ e, (goneOrRaise.exec s).1 = .error e → Lifecycle s e := by
  rcases s.open_or with hopen | hgone | hunknown
  · simp [goneOrRaise_of_open hopen]
  · simp [goneOrRaise_of_gone hgone]
  · simp [goneOrRaise_of_unknown hunknown, Lifecycle, hunknown]

theorem keeps_goneOrRaise
    (F : Fact) :
    Keeps h t actions F (locked goneOrRaise .ordinary) (fun _ => F) Fact.leader := by
  refine .locked (fun s => ?_) fun w hw hF => ?_
  · rw [(goneOrRaise_ends s).1]
    exact .inl (.refl s)
  · obtain ⟨hsame, hraised⟩ := goneOrRaise_ends w.threads.handle
    rw [hsame]
    refine ⟨hw.released, ?_⟩
    cases hexec : (goneOrRaise.exec w.threads.handle).1 with
    | ok gone => exact hF
    | error e => exact hw.leader (hraised e hexec)

/-- A renewal or a probe never marks a handle released. -/
theorem finishRenew_ends
    (s : HandleState) (status : Option Status) :
    (((finishRenew status).exec s).2.state = .released → s.state = .released) ∧
      (((finishRenew status).exec s).1 = .ok .renewed → status = some .renewed) ∧
      (∀ cause, ((finishRenew status).exec s).1 = .ok (.backendFailure cause) →
        cause = .backendError) ∧
      ∀ e, ((finishRenew status).exec s).1 = .error e → Lifecycle s e := by
  rcases s.open_or with hopen | hgone | hunknown
  · simp only [finishRenew, exec_bind, goneOrRaise_of_open hopen]
    rcases status with _ | status
    · simp [Except.map, eq_comm]
    · cases status <;> simp [Except.map, eq_comm]
  · simp [finishRenew, goneOrRaise_of_gone hgone]
  · simp [finishRenew, goneOrRaise_of_unknown hunknown, Lifecycle, hunknown]

theorem finishProbe_ends
    (s : HandleState) (status : Option Status) :
    (((finishProbe status).exec s).2.state = .released → s.state = .released) ∧
      (((finishProbe status).exec s).1 = .ok true → status = some .held) ∧
      ∀ e, ((finishProbe status).exec s).1 = .error e → Lifecycle s e := by
  rcases s.open_or with hopen | hgone | hunknown
  · simp only [finishProbe, exec_bind, goneOrRaise_of_open hopen]
    rcases status with _ | status
    · simp [Lifecycle, Raised.isLeaderError]
    · cases status <;> simp [Except.map, Lifecycle, Raised.isLeaderError]
  · simp [finishProbe, goneOrRaise_of_gone hgone]
  · simp [finishProbe, goneOrRaise_of_unknown hunknown, Lifecycle, hunknown]

/-- A guarded dispatch that has told something about one status. -/
theorem told_of_attempt
    {F : Fact} {expected : Status} {outcome : Attempt Status} {w : ElectionWorld}
    (hF : Fact.attempted (fun status => .given (status = expected) F) outcome w)
    (hstatus : outcome.status = some expected) :
    F w := by
  cases outcome with
  | done status => exact hF (Option.some.inj hstatus)
  | uncertain => cases hstatus
  | backendFailed => cases hstatus

/-- What the outcome of a renewal tells. -/
def Fact.renewal (h : LeaseHandle) : RenewOutcome → Fact
  | .renewed => .confirmed h
  | .notHeld => .always True
  | .backendFailure cause => .always (cause = .backendError)

/-- `renew`, for at least the minimum lease time -/
theorem keeps_renew
    {leaseTime : Option Timedelta}
    (hlong : ∀ duration ∈ leaseTime, h.options.minLeaseTime.total ≤ duration.total) :
    Keeps h t actions (.always True) (renew h leaseTime) (Fact.renewal h)
      (fun e => .always (e.isLeaderError = true ∨
        durationMilliseconds (leaseTime.getD h.options.leaseTime) = none)) := by
  refine .bind (.weaken (keeps_goneOrRaise _) (fun _ => id) (fun _ _ => id) fun _ _ => .inl)
    fun gone => ?_
  split
  · exact .pure fun _ _ => trivial
  · refine .bind (M := fun ttlMs => .always (h.options.minLeaseTime.total / 1000 ≤ (ttlMs : Nat)))
      ?_ fun ttlMs => ?_
    · have hduration : h.options.minLeaseTime.total ≤
          (leaseTime.getD h.options.leaseTime).total := by
        cases leaseTime with
        | none => exact h.options.min_le_lease
        | some duration => exact hlong duration rfl
      rw [durationMilliseconds_eq]
      split
      · exact .throw fun _ _ => .inr rfl
      · refine .pure fun w _ => ?_
        show h.options.minLeaseTime.total / 1000 ≤ _
        omega
    · refine .given (fun hlong => ?_) fun _ hF => hF
      refine .bind (.weaken (.attempt (J := Fact.leader) (keeps_dispatchRenew hlong))
        (fun _ _ => trivial) (fun _ _ => id) fun _ _ => .inl) fun outcome => ?_
      refine .locked (fun s => .inl (finishRenew_advance s _)) fun w hw hF => ?_
      obtain ⟨hreleased, hrenewed, hfailed, hraised⟩ :=
        finishRenew_ends w.threads.handle outcome.status
      refine ⟨fun hstate => hw.released (hreleased hstate), ?_⟩
      cases hexec : ((finishRenew outcome.status).exec w.threads.handle).1 with
      | error e => exact .inl (hw.leader (hraised e hexec))
      | ok result =>
          cases result with
          | renewed => exact told_of_attempt hF (hrenewed hexec)
          | notHeld => trivial
          | backendFailure cause => exact hfailed cause hexec

/-- `is_held` -/
theorem keeps_isHeld :
    Keeps h t actions (.always True) (isHeld h)
      (fun held => .given (held = true) (.confirmed h)) Fact.leader := by
  refine .bind (keeps_goneOrRaise _) fun gone => ?_
  split
  · exact .pure fun _ _ hheld => by cases hheld
  · refine .bind (.attempt keeps_dispatchProbe) fun outcome => ?_
    refine .locked (fun s => .inl (finishProbe_advance s _)) fun w hw hF => ?_
    obtain ⟨hreleased, hheld, hraised⟩ := finishProbe_ends w.threads.handle outcome.status
    refine ⟨fun hstate => hw.released (hreleased hstate), ?_⟩
    cases hexec : ((finishProbe outcome.status).exec w.threads.handle).1 with
    | error e => exact hw.leader (hraised e hexec)
    | ok result =>
        rintro rfl
        exact told_of_attempt hF (hheld hexec)

end Probing

/-! ## Releasing -/

section Releasing

variable {α : Type} {s : HandleState} {φ : Prop} {stays : α → Prop}

/--
A block that marks the handle released for the reason `φ` only, says so unless its
value is one that stays, and raises leader errors or the retained failure.
-/
structure Settles (φ : Prop) (stays : α → Prop) (s : HandleState)
    (r : Except Raised α × HandleState) : Prop where
  released : r.2.state = .released → s.state = .released ∨ φ
  done : ∀ a, r.1 = .ok a → stays a ∨ s.state = .released ∨ φ
  raised : ∀ e, r.1 = .error e → Lifecycle s e

/-- A terminal handle stops a release; an open one lets it go on. -/
theorem Settles.afterTerminal
    {inScope : Bool} {next : Bool → Locked α}
    (hdone : s.state = .released → Settles φ stays s ((next true).exec s))
    (hopen : s.state.terminal = false → Settles φ stays s ((next false).exec s)) :
    Settles φ stays s ((finishTerminalRelease inScope >>= next).exec s) := by
  rw [exec_bind, finishTerminalRelease_exec]
  cases hstate : s.state with
  | acquired | entered =>
      exact hopen (hstate ▸ rfl)
  | unknown =>
      exact ⟨fun hno => absurd (hstate.symm.trans hno) (by decide), fun _ hno => (by cases hno),
        fun e he => .inr ⟨hstate, (Except.error.inj he).symm⟩⟩
  | lost =>
      refine ⟨fun hno => absurd (hstate.symm.trans hno) (by decide), fun _ hno => (by cases hno),
        fun e he => .inl ?_⟩
      obtain rfl := Except.error.inj he
      cases inScope <;> rfl
  | released =>
      cases inScope with
      | true => exact hdone hstate
      | false =>
          refine ⟨fun _ => .inl hstate, fun _ hno => (by cases hno), fun e he => .inl ?_⟩
          obtain rfl := Except.error.inj he
          rfl

/-- A block that ends in a leader error, and does not mark the handle released. -/
theorem Settles.of_error
    {r : Except Raised α × HandleState} {e : Raised}
    (hr : r.1 = .error e)
    (hleader : e.isLeaderError = true)
    (hstate : r.2.state ≠ .released) :
    Settles φ stays s r where
  released h := absurd h hstate
  done a h := by
    rw [hr] at h
    cases h
  raised e' h := by
    obtain rfl := Except.error.inj (hr.symm.trans h)
    exact .inl hleader

theorem finishReleaseStatus_settles
    (s : HandleState) (inScope : Bool) (status : Status) :
    Settles status.handsBack (fun _ => False) s ((finishReleaseStatus inScope status).exec s) := by
  unfold finishReleaseStatus
  cases status
  case deleted =>
      exact ⟨fun _ => .inr (.inl rfl), fun _ _ => .inr (.inr (.inl rfl)), fun _ he => by cases he⟩
  case minTtlApplied =>
      exact ⟨fun _ => .inr (.inr rfl), fun _ _ => .inr (.inr (.inr rfl)), fun _ he => by cases he⟩
  case notHeld =>
      cases inScope <;> exact .of_error rfl rfl (by simp)
  all_goals exact .of_error rfl rfl (by simp)

theorem finishTerminalRelease_settles
    (s : HandleState) (inScope : Bool) :
    Settles φ (fun finished => finished = false) s ((finishTerminalRelease inScope).exec s) := by
  have hpure : (finishTerminalRelease inScope >>= pure).exec s =
      (finishTerminalRelease inScope).exec s := by
    rw [bind_pure]
  rw [← hpure]
  refine .afterTerminal (fun hreleased => ?_) fun _ => ?_
  · exact ⟨fun _ => .inl hreleased, fun _ _ => .inr (.inl hreleased), fun _ he => by cases he⟩
  · refine ⟨.inl, fun finished hfinished => .inl ?_, fun _ he => by cases he⟩
    exact (Except.ok.inj hfinished).symm

/-- The status of a release that marks the handle released. -/
def Attempt.handsBack : Attempt Status → Prop
  | .done status => status.handsBack
  | _ => False

theorem finishRelease_settles
    (s : HandleState) (inScope : Bool) (outcome : Attempt Status) :
    Settles outcome.handsBack (fun _ => False) s ((finishRelease inScope outcome).exec s) := by
  refine .afterTerminal (fun hreleased => ?_) fun hopen => ?_
  · exact ⟨fun _ => .inl hreleased, fun _ _ => .inr (.inl hreleased), fun _ he => by cases he⟩
  · cases outcome with
    | done status => exact finishReleaseStatus_settles s inScope status
    | uncertain | backendFailed => exact .of_error rfl rfl (by simp)

theorem finishRepeat_settles
    (s : HandleState) (inScope : Bool) (outcome : Attempt Status) :
    Settles outcome.handsBack (fun _ => False) s ((finishRepeat inScope outcome).exec s) := by
  refine .afterTerminal (fun hreleased => ?_) fun hopen => ?_
  · exact ⟨fun _ => .inl hreleased, fun _ _ => .inr (.inl hreleased), fun _ he => by cases he⟩
  · cases outcome with
    | done status => exact finishReleaseStatus_settles s inScope status
    | uncertain | backendFailed => exact .of_error rfl rfl (by simp)

theorem checkReconciled_settles
    (s : HandleState) (owner : Bytes) (inScope : Bool)
    (answer : Attempt (Status × Option LeaseRecord)) :
    Settles False (fun finished => finished = false) s
      ((checkReconciled owner inScope answer).exec s) := by
  refine .afterTerminal (fun hreleased => ?_) fun hopen => ?_
  · exact ⟨fun _ => .inl hreleased, fun _ _ => .inr (.inl hreleased), fun _ he => by cases he⟩
  · have hstate : s.state ≠ .released := by
      intro hreleased
      rw [hreleased] at hopen
      cases hopen
    rcases answer with ⟨status, record⟩ | _ | _
    case done =>
        cases status
        case present =>
            rcases record with _ | record
            · exact .of_error rfl rfl (by simp)
            · by_cases howner : record.ownerToken = owner
              · suffices hpassed : ∀ r, r = (.ok false, s) → Settles False _ s r from
                  hpassed _ (by simp [howner])
                rintro r rfl
                exact ⟨fun hno => absurd hno hstate, fun _ hok => .inl (Except.ok.inj hok).symm,
                  fun _ he => by cases he⟩
              · cases inScope
                · exact .of_error (e := .releaseError) (by simp [howner]) rfl (by simp [howner])
                · exact .of_error (e := .leaseLost) (by simp [howner]) rfl (by simp [howner])
        all_goals exact .of_error rfl rfl (by simp)
    all_goals exact .of_error rfl rfl (by simp)

/-- A block of a release, as a triple. -/
theorem Keeps.settles
    {body : Locked α} {label : HandleSection} {F : Fact}
    (hfollows : ∀ s, Follows label s (body.exec s).2)
    (hsettles : ∀ s, Settles φ stays s (body.exec s))
    (hback : ∀ w, F w → φ → HandedBack h w) :
    Keeps h t actions F (LeaderRedis.locked body label)
      (fun a => .given (¬ stays a) (.handedBack h)) Fact.leader := by
  refine .locked hfollows fun w hw hF => ?_
  obtain ⟨hreleased, hdone, hraised⟩ := hsettles w.threads.handle
  have hfrom : w.threads.handle.state = .released ∨ φ → HandedBack h w :=
    fun hreason => hreason.elim hw.released (hback w hF)
  refine ⟨fun hstate => hfrom (hreleased hstate), ?_⟩
  cases hexec : (body.exec w.threads.handle).1 with
  | ok a => exact fun hleaves => hfrom ((hdone a hexec).resolve_left hleaves)
  | error e => exact hw.leader (hraised e hexec)

/-- `_reconcile_release` -/
theorem keeps_reconcileRelease
    (inScope : Bool) :
    Keeps h t actions (.always True) (reconcileRelease h inScope) (fun _ => .handedBack h)
      Fact.leader := by
  refine .bind (M := fun _ => .always True) (.weaken (.attempt (J := Fact.leader)
    (R := fun _ => .always True) ?_) (fun _ => id) (fun _ _ _ => trivial) fun _ _ => id)
    fun answer => ?_
  · refine .bind keeps_runReconcile fun raw => ?_
    exact .orRaise (fun _ _ _ _ => trivial) fun _ _ => rfl
  refine .bind (.settles (fun s => .inl (checkReconciled_advance s _ _ _))
    (fun s => checkReconciled_settles s _ _ _) fun _ _ => False.elim) fun finished => ?_
  cases finished with
  | true => exact .pure fun _ hF => hF (by simp)
  | false =>
      refine .bind (.weaken (.attempt (J := Fact.leader) keeps_dispatchRelease)
        (fun _ _ => trivial) (fun _ _ => id) fun _ _ => id) fun outcome => ?_
      refine .weaken (.settles (fun s => .inl (finishRepeat_advance s _ _))
        (fun s => finishRepeat_settles s _ _) fun w hF hback => ?_) (fun _ => id)
        (fun _ _ hF => hF id) fun _ _ => id
      cases outcome with
      | done status => exact hF hback
      | uncertain | backendFailed => exact hback.elim

/-- `_release` -/
theorem keeps_releaseScoped
    (inScope : Bool) :
    Keeps h t actions (.always True) (releaseScoped h inScope) (fun _ => .handedBack h)
      Fact.leader := by
  refine .bind (.settles (φ := False) (fun s => ?_) (fun s => finishTerminalRelease_settles s _)
    fun _ _ => False.elim) fun finished => ?_
  · rw [finishTerminalRelease_exec]
    exact .inl (.refl s)
  cases finished with
  | true => exact .pure fun _ hF => hF (by simp)
  | false =>
      refine .bind (.weaken (.attempt (J := Fact.leader) keeps_dispatchRelease)
        (fun _ _ => trivial) (fun _ _ => id) fun _ _ => id) fun outcome => ?_
      have hfinish : ∀ outcome : Attempt Status,
          Keeps h t actions
            (Fact.attempted (fun status => .given status.handsBack (.handedBack h)) outcome)
            (locked (finishRelease inScope outcome) .ordinary)
            (fun _ => .handedBack h) Fact.leader := by
        intro outcome
        refine .weaken (.settles (fun s => .inl (finishRelease_advance s _ _))
          (fun s => finishRelease_settles s _ _) fun w hF hback => ?_) (fun _ => id)
          (fun _ _ hF => hF id) fun _ _ => id
        cases outcome with
        | done status => exact hF hback
        | uncertain | backendFailed => exact hback.elim
      cases outcome with
      | uncertain =>
          exact .weaken (keeps_reconcileRelease inScope) (fun _ _ => trivial) (fun _ _ => id)
            fun _ _ => id
      | done status => exact hfinish (.done status)
      | backendFailed => exact hfinish .backendFailed

end Releasing

/-! ## The worker and the scope -/

section Scope

/-- A lock block that only reads, or sets a flag of the worker. -/
theorem keeps_flag
    {α : Type} {body : Locked α} {J : Raised → Fact}
    (hsame : ∀ s, (body.exec s).2.state = s.state ∧ (body.exec s).2.failure = s.failure)
    (hok : ∀ s, ∃ a, (body.exec s).1 = .ok a) :
    Keeps h t actions (.always True) (locked body .ordinary) (fun _ => .always True) J :=
  .locked_same hsame hok

theorem giveUpOnWorker_settles
    (s : HandleState) :
    Settles False (fun _ => False) s (giveUpOnWorker.exec s) := by
  simp only [giveUpOnWorker, exec_bind, raiseIfUnknown_exec, failUnknown_exec]
  by_cases hunknown : s.state = .unknown
  · simp only [if_pos hunknown]
    exact ⟨.inl, fun _ hno => (by cases hno),
      fun e he => .inr ⟨hunknown, (Except.error.inj he).symm⟩⟩
  · simp only [if_neg hunknown]
    exact .of_error rfl rfl (by simp)

theorem keeps_giveUpOnWorker
    {label : HandleSection}
    (hlabel : label ≠ .ordinary) :
    Keeps h t actions (.always True) (locked giveUpOnWorker label) (fun _ => .always True)
      Fact.leader :=
  .weaken (.settles (fun s => giveUpOnWorker_follows s hlabel) giveUpOnWorker_settles
    fun _ _ => False.elim) (fun _ => id) (fun _ _ _ => trivial) fun _ _ => id

theorem keeps_awaitReady :
    Keeps h t actions (.always True) awaitReady (fun _ => .always True) Fact.leader := by
  refine .bind (.question trivial fun _ _ _ hF _ => hF) fun ready => ?_
  split
  · exact keeps_giveUpOnWorker (by decide)
  · exact .pure fun _ hF => hF

theorem keeps_awaitEnd :
    Keeps h t actions (.always True) awaitEnd (fun _ => .always True) Fact.leader := by
  refine .bind (.question trivial fun _ _ _ hF _ => hF) fun alive => ?_
  split
  · exact keeps_giveUpOnWorker (by decide)
  · exact .pure fun _ hF => hF

/-- `_stop_worker` -/
theorem keeps_stopWorker :
    Keeps h t actions (.always True) stopWorker (fun _ => .always True) Fact.leader := by
  refine .bind (keeps_flag (fun s => ⟨rfl, rfl⟩) fun s => ⟨_, rfl⟩) fun worker => ?_
  split
  · exact .pure fun _ hF => hF
  refine .bind (keeps_flag (fun s => ⟨rfl, rfl⟩) fun s => ⟨_, rfl⟩) fun _ => ?_
  refine .bind keeps_awaitReady fun _ => ?_
  refine .bind (keeps_flag (fun s => ⟨rfl, rfl⟩) fun s => ⟨_, rfl⟩) fun worker => ?_
  split
  · exact .pure fun _ hF => hF
  · exact .bind keeps_awaitEnd fun _ => keeps_flag (fun s => ⟨rfl, rfl⟩) fun s => ⟨_, rfl⟩

/-- `_stop_worker` and `_release`, as `release`, `__exit__` and a failed start do it -/
theorem keeps_stopAndRelease
    (inScope : Bool) :
    Keeps h t actions (.always True) (stopWorker >>= fun _ => releaseScoped h inScope)
      (fun _ => .handedBack h) Fact.leader :=
  .bind keeps_stopWorker fun _ => keeps_releaseScoped inScope

/-- A leader error, or a control exception. -/
def Fact.leaderOrControl (e : Raised) : Fact :=
  .always (e.isLeaderError = true ∨ e.isControl = true)

/-- `_start_worker` -/
theorem keeps_startWorker :
    Keeps h t actions (.always True) (startWorker h) (fun _ => .always True)
      Fact.leaderOrControl := by
  refine .bind (keeps_flag (fun s => ⟨rfl, rfl⟩) fun s => ⟨_, rfl⟩) fun _ => ?_
  refine .bind (.question trivial fun _ _ _ hF _ => hF) fun answer => ?_
  cases answer with
  | started =>
      refine .bind (keeps_flag (fun s => ⟨rfl, rfl⟩) fun s => ⟨_, rfl⟩) fun terminal => ?_
      split
      · refine .bind (.weaken keeps_stopWorker (fun _ => id) (fun _ _ => id) fun _ _ => .inl)
          fun _ => ?_
        refine .bind (M := fun _ => .always True) (.locked (fun s => ?_) fun w hw _ => ?_)
          fun _ => .throw fun _ _ => .inl rfl
        · rw [raiseIfUnknown_exec]
          exact .inl (.refl s)
        · rw [raiseIfUnknown_exec]
          refine ⟨hw.released, ?_⟩
          dsimp only
          split
          · exact .inl (hw.leader (.inr ⟨‹_›, rfl⟩))
          · trivial
      · exact .pure fun _ hF => hF
  | failed startFailure spawned =>
      refine .bind (keeps_flag (fun s => ⟨rfl, rfl⟩) fun s => ⟨_, rfl⟩) fun alive => ?_
      refine .bind (.leaderErrorOf (R := fun _ => .always True) ?_) fun lifecycle => ?_
      · extract_lets releaseScope
        split
        · exact .weaken (keeps_stopAndRelease true) (fun _ => id) (fun _ _ _ => trivial)
            fun _ _ => id
        · exact .weaken (keeps_releaseScoped true) (fun _ => id) (fun _ _ _ => trivial)
            fun _ _ => id
      · split
        case isTrue hcontrol => exact .throw fun _ _ => .inr hcontrol
        case isFalse =>
            refine .throw fun _ hlifecycle => .inl ?_
            cases lifecycle with
            | none => rfl
            | some failure => exact hlifecycle

theorem markEntered_settles
    (s : HandleState) :
    Settles False (fun _ => True) s (markEntered.exec s) := by
  by_cases hunknown : s.state = .unknown
  · have hexec : markEntered.exec s = (.error (s.failure.getD assertionError), s) := by
      simp [markEntered, hunknown]
    rw [hexec]
    exact ⟨.inl, fun _ _ => .inl trivial, fun e he => .inr ⟨hunknown, (Except.error.inj he).symm⟩⟩
  · by_cases hacquired : s.state = .acquired
    · have hexec : markEntered.exec s = (.ok (), { s with state := .entered }) := by
        simp [markEntered, hacquired]
      rw [hexec]
      exact ⟨fun hno => (by cases hno), fun _ _ => .inl trivial, fun _ he => by cases he⟩
    · have hexec : markEntered.exec s = (.error .leaseLost, s) := by
        simp [markEntered, hunknown, hacquired]
      rw [hexec]
      exact ⟨.inl, fun _ _ => .inl trivial, fun e he => .inl (Except.error.inj he ▸ rfl)⟩

/--
`__enter__` returns only after the server has confirmed the lease.  Apart from leader errors
it only raises a control exception, with which the worker's start has failed.
-/
theorem keeps_enter
    (hlease : durationMilliseconds h.options.leaseTime ≠ none) :
    Keeps h t actions (.always True) (enter h) (fun _ => .confirmed h)
      Fact.leaderOrControl := by
  refine .bind (M := fun _ => .always True) (.weaken (.settles (fun s => .inl
    (markEntered_advance s)) markEntered_settles fun _ _ => False.elim) (fun _ => id)
    (fun _ _ _ => trivial) fun _ _ => .inl) fun _ => ?_
  · split
    · refine .bind (.weaken (keeps_renew (by simp)) (fun _ => id) (fun _ _ => id)
        fun _ _ hF => .inl (hF.resolve_right hlease)) fun outcome => ?_
      cases outcome with
      | renewed =>
          refine .weaken (keeps_startWorker.frame (.confirmed h)) (fun w hF => ⟨trivial, hF⟩)
            (fun _ _ hF => hF.2) fun _ _ hF => hF.1
      | notHeld => exact .throw fun _ _ => .inl rfl
      | backendFailure cause => exact .throw fun _ hcause => .inl (hcause ▸ rfl)
    · refine .bind (.weaken keeps_isHeld (fun _ => id) (fun _ _ => id) fun _ _ => .inl)
        fun held => ?_
      cases held with
      | false => exact .throw fun _ _ => .inl rfl
      | true => exact .pure fun _ hF => hF rfl

/--
`__exit__` without an exception returns only after the lease was handed back.  It raises
leader errors only, and none over a control exception.
-/
theorem keeps_exit
    (exc : Option Raised) :
    Keeps h t actions (.always True) (exit h exc)
      (fun _ => .given (exc = none) (.handedBack h))
      (fun e => .always (e.isLeaderError = true ∧ ∀ c ∈ exc, c.isControl = false)) := by
  refine .bind (.leaderErrorOf (keeps_stopAndRelease true)) fun lifecycle => ?_
  cases lifecycle with
  | none => exact .pure fun _ hF _ => hF
  | some failure =>
      cases exc with
      | none => exact .throw fun _ hleader => ⟨hleader, by simp⟩
      | some exc =>
          dsimp only
          split
          case isTrue => exact .pure fun _ _ hno => by cases hno
          case isFalse hcontrol =>
              have hcontrol' : ∀ c ∈ some exc, c.isControl = false := by
                rintro c ⟨⟩
                simpa using hcontrol
              split
              · exact .throw fun _ _ => ⟨rfl, hcontrol'⟩
              · exact .throw fun _ hleader => ⟨hleader, hcontrol'⟩

end Scope

/-! ## The elector -/

section Elector

/-- How `run_if_leader_result` ends, by how its action has ended if it was called. -/
inductive ElectorEnds : List (Except Raised Nat) → Except Raised RunResult → Prop
  | notCalled (e : Raised) (he : e.isLeaderError = true ∨ e.isControl = true) :
      ElectorEnds [] (.error e)
  | elected (value : Nat) : ElectorEnds [.ok value] (.ok (.elected value))
  | valueLost (value : Nat) (e : Raised) (he : e.isLeaderError = true) :
      ElectorEnds [.ok value] (.error e)
  | actionFailed (cause : Raised) (hcause : cause.isException = true) :
      ElectorEnds [.error cause] (.ok (.actionFailed cause))
  | bothFailed (cause lifecycle : Raised) (hcause : cause.isException = true)
      (hlifecycle : lifecycle.isLeaderError = true) :
      ElectorEnds [.error cause] (.error (.execution cause lifecycle))
  | escaped (cause : Raised) (hcause : cause.isException = false) :
      ElectorEnds [.error cause] (.error cause)
  | replaced (cause e : Raised) (hcause : cause.isException = false)
      (hcontrol : cause.isControl = false) (he : e.isLeaderError = true) :
      ElectorEnds [.error cause] (.error e)

/-- The elector has ended so, and a result came after the lease was handed back. -/
def ElectorPost (h : LeaseHandle) (r : Except Raised RunResult) (w : ElectionWorld) : Prop :=
  ∃ actions, Standing h elector actions w ∧ ElectorEnds actions r ∧
    ∀ result, r = .ok result → HandedBack h w

theorem stable_electorPost
    (r : Except Raised RunResult) :
    (electionSystem h).Stable (ElectionGuarantee h) elector (ElectorPost h r) := by
  refine .exists fun actions => (stable_standing actions).and ?_
  exact (Fact.and (.always (ElectorEnds actions r))
    ⟨fun w => ∀ result, r = .ok result → HandedBack h w,
      fun hback hlater result hr => (hback result hr).later hlater⟩).lasts.stable

/-- The action is called once, on the confirmed lease. -/
theorem triple_action
    {J : Raised → ElectionWorld → Prop} :
    (electionSystem h).Triple (ElectionGuarantee h) elector
      (fun w => Standing h elector [] w ∧ Fact.confirmed h w)
      (asking (.action h.record.fencingToken))
      (fun answer => Standing h elector [answer]) J := by
  refine System.Triple.question (W := Standing h elector []) (stable_fact _) (stable_standing _)
    (fun _ => stable_standing _) (fun w w' hw hissue => ?_) fun a w w' hw hstep => ?_
  · obtain rfl := Option.some.inj hissue
    refine ⟨⟨id, .of_eq rfl rfl, fun _ _ => rfl, fun _ => rfl, fun fence hact => ?_⟩, hw.1⟩
    cases hact
    exact ⟨rfl, hw.1.2 rfl, hw.2⟩
  · have hanswer : answerElection h elector (.action h.record.fencingToken) a w = some w' := hstep
    obtain ⟨-, hanswer⟩ := Option.ite_none_right_eq_some.mp hanswer
    obtain rfl := Option.some.inj hanswer
    have hinv := hw.1.withThreads w.threads (w.actions ++ [a]) ⟨rfl, rfl⟩
    refine ⟨⟨fun _ => hinv, .of_eq rfl rfl, fun _ _ => rfl, fun hne => absurd rfl hne,
      fun fence hact => by cases hact⟩, hinv, fun _ => ?_⟩
    show w.actions ++ [a] = [a]
    rw [hw.2 rfl, List.nil_append]

/-- What follows the action, as facts about the result. -/
theorem Keeps.electorPost
    {p : Prog RunResult} {F : Fact} {R : RunResult → Fact} {J : Raised → Fact}
    (hp : Keeps h elector actions F p R J)
    (hF : ∀ w, F w)
    (hok : ∀ result w, R result w → ElectorEnds actions (.ok result) ∧ HandedBack h w)
    (herror : ∀ e w, J e w → ElectorEnds actions (.error e)) :
    (electionSystem h).Triple (ElectionGuarantee h) elector (Standing h elector actions) p
      (fun result => ElectorPost h (.ok result)) (fun e => ElectorPost h (.error e)) := by
  refine System.Triple.weaken hp (fun w hw => ⟨hw, hF w⟩) (fun result w hw => ?_)
    fun e w hw => ?_
  · obtain ⟨hends, hback⟩ := hok result w hw.2
    exact ⟨actions, hw.1, hends, fun _ _ => hback⟩
  · exact ⟨actions, hw.1, herror e w hw.2, fun _ hno => by cases hno⟩

/-- The body of the `with` statement has ended with a value. -/
theorem triple_value
    (value : Nat) :
    (electionSystem h).Triple (ElectionGuarantee h) elector (Standing h elector [.ok value])
      (do
        let _ ← exit h none
        return .elected value)
      (fun result => ElectorPost h (.ok result)) (fun e => ElectorPost h (.error e)) := by
  refine Keeps.electorPost (F := .always True) (J := Fact.leader) (R := fun result =>
    (Fact.always (result = .elected value)).and (.handedBack h)) ?_ (fun _ => trivial) ?_
    fun e w hleader => .valueLost value e hleader
  · refine .bind (.weaken (keeps_exit none) (fun _ => id) (fun _ _ => id) fun _ _ hF => hF.1)
      fun _ => .pure fun _ hF => ⟨rfl, hF rfl⟩
  · rintro result w ⟨rfl, hback⟩
    exact ⟨.elected value, hback⟩

/-- The body has kept an exception of the action. -/
theorem triple_caught
    {cause : Raised}
    (hcause : cause.isException = true) :
    (electionSystem h).Triple (ElectionGuarantee h) elector (Standing h elector [.error cause])
      (leaderErrorOf (do let _ ← exit h none) >>= fun lifecycle =>
        match lifecycle with
        | none => return .actionFailed cause
        | some lifecycle => throw (.execution cause lifecycle))
      (fun result => ElectorPost h (.ok result)) (fun e => ElectorPost h (.error e)) := by
  refine Keeps.electorPost (F := .always True) (R := fun result =>
    (Fact.always (result = .actionFailed cause)).and (.handedBack h))
    (J := fun e => .always (∃ lifecycle : Raised, lifecycle.isLeaderError = true ∧
      e = .execution cause lifecycle)) ?_ (fun _ => trivial) ?_ ?_
  · refine .bind (.leaderErrorOf (R := fun _ => .handedBack h) (.bind (.weaken (keeps_exit none)
      (fun _ => id) (fun _ _ => id) fun _ _ hF => hF.1) fun _ => .pure fun _ hF => hF rfl))
      fun lifecycle => ?_
    cases lifecycle with
    | none => exact .pure fun _ hF => ⟨rfl, hF⟩
    | some lifecycle => exact .throw fun _ hleader => ⟨lifecycle, hleader, rfl⟩
  · rintro result w ⟨rfl, hback⟩
    exact ⟨.actionFailed cause hcause, hback⟩
  · rintro e w ⟨lifecycle, hleader, rfl⟩
    exact .bothFailed cause lifecycle hcause hleader

/-- Another exception leaves the body. -/
theorem triple_escaped
    {cause : Raised}
    (hcause : cause.isException = false) :
    (electionSystem h).Triple (ElectionGuarantee h) elector (Standing h elector [.error cause])
      (do
        let _ ← exit h (some cause)
        throw cause)
      (fun result => ElectorPost h (.ok result)) (fun e => ElectorPost h (.error e)) := by
  refine Keeps.electorPost (F := .always True) (R := fun _ => .always False)
    (J := fun e => .always (e = cause ∨ e.isLeaderError = true ∧ cause.isControl = false))
    ?_ (fun _ => trivial) (fun _ _ => False.elim) ?_
  · refine .bind (M := fun _ => .always True) (.weaken (keeps_exit (some cause)) (fun _ => id)
      (fun _ _ _ => trivial) fun e w hF => ?_) fun _ => .throw fun _ _ => .inl rfl
    exact .inr ⟨hF.1, hF.2 cause rfl⟩
  · rintro e w (rfl | ⟨hleader, hcontrol⟩)
    · exact .escaped e hcause
    · exact .replaced cause e hcause hcontrol hleader

/-- **`run_if_leader_result`**, once the lease is granted. -/
theorem triple_runHeld
    (hlease : durationMilliseconds h.options.leaseTime ≠ none) :
    (electionSystem h).Triple (ElectionGuarantee h) elector (Standing h elector []) (runHeld h)
      (fun result => ElectorPost h (.ok result)) (fun e => ElectorPost h (.error e)) := by
  refine System.Triple.bind (fun e => stable_electorPost _) (System.Triple.weaken
    (keeps_enter hlease) (fun w hw => ⟨hw, trivial⟩) (fun _ _ => id)
    fun e w hw => ⟨[], hw.1, .notCalled e hw.2, fun _ hno => by cases hno⟩) fun _ => ?_
  refine System.Triple.bind (fun e => stable_electorPost _) triple_action fun answer => ?_
  cases answer with
  | ok value => exact triple_value value
  | error cause =>
      dsimp only
      split
      case isTrue hcause => exact triple_caught hcause
      case isFalse hcause => exact triple_escaped (by simpa using hcause)

end Elector

end LeaderRedis
end Bluetape
