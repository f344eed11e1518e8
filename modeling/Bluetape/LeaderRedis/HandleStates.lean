import Bluetape.LeaderRedis.LockHandle

/-!
# The state machine of a lease handle

The states with their edges, and what a section may do to them.

* `perform_lawful`: every section of every operation keeps to the edges, apart
  from a section that gives up on the worker.
-/

namespace Bluetape
namespace LeaderRedis

open Base

/-! ## The state machine -/

/-- The edges of the state machine. -/
def LeaseState.edge : LeaseState → LeaseState → Bool
  | .acquired, .entered => true
  | .acquired, state | .entered, state => state.terminal
  | _, _ => false

/-- Every terminal state can be reached from a state that is not terminal. -/
theorem LeaseState.edge_of_open
    {state state' : LeaseState}
    (hopen : state.terminal = false)
    (hterminal : state'.terminal = true) :
    state.edge state' = true := by
  revert hopen hterminal
  cases state <;> cases state' <;> decide

/-- No edge leaves a terminal state. -/
theorem LeaseState.edge_of_terminal
    {state : LeaseState}
    (hterminal : state.terminal = true)
    (state' : LeaseState) :
    state.edge state' = false := by
  revert hterminal
  cases state <;> cases state' <;> decide

/-- The lifecycle failures that a handle retains. -/
def Raised.lifecycle (failure : Raised) : Prop :=
  failure = .backendError ∨ failure = .releaseError

/-- The fields stay in their state, or move along an edge. -/
def Advance (s s' : HandleState) : Prop :=
  s'.state = s.state ∧ s'.failure = s.failure ∨
    s.state.edge s'.state = true ∧
      (s'.state ≠ .unknown → s'.failure = s.failure) ∧
      (s'.state = .unknown → ∃ failure, s'.failure = some failure ∧ failure.lifecycle)

/-- An unknown handle has retained a failure. -/
def HandleState.Retains (s : HandleState) : Prop :=
  s.state = .unknown → ∃ failure, s.failure = some failure ∧ failure.lifecycle

/--
The effect of a section: an advance, or the section gives up on the worker and
makes a lost or released handle unknown.
-/
def Follows (label : HandleSection) (s s' : HandleState) : Prop :=
  Advance s s' ∨
    label ≠ .ordinary ∧ s.Gone ∧ s'.state = .unknown ∧ s'.failure = some .backendError

theorem Advance.refl
    (s : HandleState) :
    Advance s s :=
  Or.inl ⟨rfl, rfl⟩

/-- A change of the other fields. -/
theorem Advance.of_eq
    {s s' : HandleState}
    (hstate : s'.state = s.state)
    (hfailure : s'.failure = s.failure) :
    Advance s s' :=
  Or.inl ⟨hstate, hfailure⟩

/-- A handle that is not terminal becomes unknown. -/
theorem Advance.fail
    {s s' : HandleState} {failure : Raised}
    (hopen : s.state.terminal = false)
    (hstate : s'.state = .unknown)
    (hfailure : s'.failure = some failure)
    (hlifecycle : failure.lifecycle) :
    Advance s s' := by
  refine Or.inr ⟨LeaseState.edge_of_open hopen (hstate ▸ rfl), ?_, ?_⟩
  · exact fun hne => absurd hstate hne
  · exact fun _ => ⟨failure, hfailure, hlifecycle⟩

/-- A handle that is not terminal is settled without a failure. -/
theorem Advance.settle
    {s s' : HandleState}
    (hopen : s.state.terminal = false)
    (hstate : s'.Gone)
    (hfailure : s'.failure = s.failure) :
    Advance s s' := by
  refine Or.inr ⟨LeaseState.edge_of_open hopen ?_, fun _ => hfailure, fun hunknown => ?_⟩
  · rcases hstate with hstate | hstate <;> rw [hstate] <;> rfl
  · rcases hstate with hstate | hstate <;> rw [hstate] at hunknown <;> cases hunknown

/-- No terminal state has an outgoing edge. -/
theorem Advance.of_terminal
    {s s' : HandleState}
    (h : Advance s s')
    (hterminal : s.state.terminal = true) :
    s'.state = s.state ∧ s'.failure = s.failure := by
  rcases h with h | ⟨hedge, -⟩
  · exact h
  · rw [LeaseState.edge_of_terminal hterminal] at hedge
    cases hedge

/-- A handle that is not terminal is neither unknown nor gone. -/
theorem HandleState.open_iff
    (s : HandleState) :
    s.state.terminal = false ↔ s.state ≠ .unknown ∧ ¬ s.Gone := by
  unfold HandleState.Gone
  cases s.state <;> decide

/-- A handle is open, gone or unknown. -/
theorem HandleState.open_or
    (s : HandleState) :
    s.state.terminal = false ∨ s.Gone ∨ s.state = .unknown := by
  unfold HandleState.Gone
  cases s.state <;> decide

/-- A handle that is gone or unknown is terminal. -/
theorem HandleState.terminal_or
    {s : HandleState}
    (h : s.state.terminal = true) :
    s.Gone ∨ s.state = .unknown :=
  s.open_or.resolve_left (by simp [h])

section Follows

variable {label : HandleSection} {s s' : HandleState}

theorem Follows.retains
    (h : Follows label s s')
    (hs : s.Retains) :
    s'.Retains := by
  intro hunknown
  rcases h with (⟨hstate, hfailure⟩ | ⟨-, -, hfail⟩) | ⟨-, -, -, hfailure⟩
  · rw [hfailure]
    exact hs (hstate ▸ hunknown)
  · exact hfail hunknown
  · exact ⟨_, hfailure, Or.inl rfl⟩

/-- No section makes a terminal handle usable again. -/
theorem Follows.terminal
    (h : Follows label s s')
    (hs : s.state.terminal = true) :
    s'.state.terminal = true := by
  rcases h with h | ⟨-, -, hunknown, -⟩
  · rw [(h.of_terminal hs).1]
    exact hs
  · rw [hunknown]
    rfl

/-- An unknown handle keeps its state and its failure. -/
theorem Follows.unknown
    (h : Follows label s s')
    (hs : s.state = .unknown) :
    s'.state = .unknown ∧ s'.failure = s.failure := by
  rcases h with h | ⟨-, hgone, -⟩
  · obtain ⟨hstate, hfailure⟩ := h.of_terminal (hs ▸ rfl)
    exact ⟨hstate.trans hs, hfailure⟩
  · rw [HandleState.Gone, hs] at hgone
    simp at hgone

/-- A section that gives up makes any handle unknown that is not unknown yet. -/
theorem Follows.of_fail
    (hlabel : label ≠ .ordinary)
    (hunknown : s.state ≠ .unknown)
    (hstate : s'.state = .unknown)
    (hfailure : s'.failure = some .backendError) :
    Follows label s s' := by
  by_cases hgone : s.Gone
  · exact Or.inr ⟨hlabel, hgone, hstate, hfailure⟩
  · exact Or.inl (Advance.fail (s.open_iff.mpr ⟨hunknown, hgone⟩) hstate hfailure (.inl rfl))

end Follows

/-! ## The lock blocks -/

section Blocks

variable (s : HandleState)

theorem finishRenew_advance
    (status : Option Status) :
    Advance s ((finishRenew status).exec s).2 := by
  rcases s.open_or with hopen | hgone | hunknown
  · simp only [finishRenew, exec_bind, goneOrRaise_of_open hopen]
    rcases status with _ | status
    · exact Advance.fail hopen rfl rfl (.inl rfl)
    · cases status
      case renewed => exact Advance.refl s
      case notHeld => exact Advance.settle hopen (.inl rfl) rfl
      all_goals exact Advance.fail hopen rfl rfl (.inl rfl)
  · simp [finishRenew, goneOrRaise_of_gone hgone, Advance.refl]
  · simp [finishRenew, goneOrRaise_of_unknown hunknown, Advance.refl]

theorem finishProbe_advance
    (status : Option Status) :
    Advance s ((finishProbe status).exec s).2 := by
  rcases s.open_or with hopen | hgone | hunknown
  · simp only [finishProbe, exec_bind, goneOrRaise_of_open hopen]
    rcases status with _ | status
    · exact Advance.fail hopen rfl rfl (.inl rfl)
    · cases status
      case held => exact Advance.refl s
      case notHeld => exact Advance.settle hopen (.inl rfl) rfl
      all_goals exact Advance.fail hopen rfl rfl (.inl rfl)
  · simp [finishProbe, goneOrRaise_of_gone hgone, Advance.refl]
  · simp [finishProbe, goneOrRaise_of_unknown hunknown, Advance.refl]

/-- A block that goes on only on an open handle advances if its rest does. -/
theorem afterTerminal_advance
    {α : Type} (inScope : Bool) {next : Bool → Locked α}
    (hdone : ((next true).exec s).2 = s)
    (hopen : s.state.terminal = false → Advance s ((next false).exec s).2) :
    Advance s ((finishTerminalRelease inScope >>= next).exec s).2 := by
  cases hterminal : s.state.terminal
  case false =>
      rw [exec_bind, finishTerminalRelease_of_open hterminal]
      exact hopen hterminal
  case true =>
      obtain ⟨r, hexec, hr, -⟩ := finishTerminalRelease_of_terminal hterminal inScope
      rw [exec_bind, hexec]
      rcases r with e | done
      · exact Advance.refl s
      · have hdone' : done = true := by
          cases done
          · exact absurd rfl hr
          · rfl
        subst hdone'
        simp only [hdone]
        exact Advance.refl s

theorem finishReleaseStatus_advance
    (inScope : Bool) (status : Status)
    (hopen : s.state.terminal = false) :
    Advance s ((finishReleaseStatus inScope status).exec s).2 := by
  unfold finishReleaseStatus
  cases status
  case deleted | minTtlApplied => exact Advance.settle hopen (.inr rfl) rfl
  case notHeld => cases inScope <;> exact Advance.settle hopen (.inl rfl) rfl
  all_goals exact Advance.fail hopen rfl rfl (.inl rfl)

theorem finishRelease_advance
    (inScope : Bool) (status : Attempt Status) :
    Advance s ((finishRelease inScope status).exec s).2 := by
  refine afterTerminal_advance s inScope rfl fun hopen => ?_
  cases status with
  | done status =>
      exact finishReleaseStatus_advance s inScope status hopen
  | uncertain | backendFailed =>
      exact Advance.fail hopen rfl rfl (.inl rfl)

theorem finishRepeat_advance
    (inScope : Bool) (status : Attempt Status) :
    Advance s ((finishRepeat inScope status).exec s).2 := by
  refine afterTerminal_advance s inScope rfl fun hopen => ?_
  cases status with
  | done status =>
      exact finishReleaseStatus_advance s inScope status hopen
  | uncertain =>
      exact Advance.fail hopen rfl rfl (.inr rfl)
  | backendFailed =>
      exact Advance.fail hopen rfl rfl (.inl rfl)

theorem checkReconciled_advance
    (owner : Bytes) (inScope : Bool)
    (answer : Attempt (Status × Option LeaseRecord)) :
    Advance s ((checkReconciled owner inScope answer).exec s).2 := by
  refine afterTerminal_advance s inScope rfl fun hopen => ?_
  rcases answer with ⟨status, record⟩ | _ | _
  case done =>
      cases status
      case present =>
          rcases record with _ | record
          · exact Advance.fail hopen rfl rfl (.inl rfl)
          · by_cases howner : record.ownerToken = owner
            · simp [howner, Advance.refl]
            · cases inScope <;> simp [howner] <;>
                exact Advance.settle hopen (.inl rfl) rfl
      case absent => exact Advance.fail hopen rfl rfl (.inr rfl)
      all_goals exact Advance.fail hopen rfl rfl (.inl rfl)
  all_goals exact Advance.fail hopen rfl rfl (.inl rfl)

theorem markEntered_advance :
    Advance s (markEntered.exec s).2 := by
  by_cases hacquired : s.state = .acquired
  · refine Or.inr ?_
    simp [markEntered, hacquired, LeaseState.edge]
  · by_cases hunknown : s.state = .unknown
    · simp [markEntered, hunknown, Advance.refl]
    · simp [markEntered, hunknown, hacquired, Advance.refl]

theorem giveUpOnWorker_follows
    {label : HandleSection}
    (hlabel : label ≠ .ordinary) :
    Follows label s (giveUpOnWorker.exec s).2 := by
  by_cases hunknown : s.state = .unknown
  · simp only [giveUpOnWorker, exec_bind, raiseIfUnknown_exec, if_pos hunknown]
    exact Or.inl (Advance.refl s)
  · simp only [giveUpOnWorker, exec_bind, raiseIfUnknown_exec, if_neg hunknown]
    exact Follows.of_fail hlabel hunknown rfl rfl

theorem failLoop_follows :
    Follows .loopFailure s (failLoop.exec s).2 := by
  by_cases hunknown : s.state = .unknown
  · simp only [failLoop, exec_bind, exec_get, hunknown]
    exact Or.inl (Advance.refl s)
  · simp only [failLoop, exec_bind, exec_get, hunknown, ne_eq, not_false_eq_true, if_true]
    exact Follows.of_fail (by decide) hunknown rfl rfl

end Blocks

/-! ## The methods -/

/-- Questions that a method asks, as opposed to those of a thread's main loop. -/
def HandleQuestion.inner : HandleQuestion → Prop
  | nextOperation | report _ | waitStop | threadStarted => False
  | _ => True

/-- What the sections of a method do to every handle. -/
def Permitted (label : HandleSection) (update : HandleState → HandleState) : Prop :=
  ∀ s, Follows label s (update s)

/-- Every section of the program is permitted, every question is a method's. -/
def Prog.Lawful {α : Type} (p : Prog α) : Prop :=
  p.run.All Permitted HandleQuestion.inner

section Lawful

variable (h : LeaseHandle)

theorem Prog.Lawful.bind
    {α β : Type} {p : Prog α} {next : α → Prog β}
    (hp : p.Lawful)
    (hnext : ∀ a, (next a).Lawful) :
    (p >>= next).Lawful :=
  Proc.All.except_bind hp hnext

theorem lawful_locked
    {α : Type} {body : Locked α}
    (hbody : ∀ s, Advance s (body.exec s).2) :
    (locked body .ordinary).Lawful :=
  all_locked fun s => Or.inl (hbody s)

theorem goneOrRaise_lawful :
    (locked goneOrRaise .ordinary).Lawful := by
  refine lawful_locked fun s => ?_
  rcases s.open_or with hopen | hgone | hunknown
  · rw [goneOrRaise_of_open hopen]
    exact Advance.refl s
  · rw [goneOrRaise_of_gone hgone]
    exact Advance.refl s
  · rw [goneOrRaise_of_unknown hunknown]
    exact Advance.refl s

theorem finishTerminalRelease_lawful
    (inScope : Bool) :
    (locked (finishTerminalRelease inScope) .ordinary).Lawful := by
  refine lawful_locked fun s => ?_
  rw [finishTerminalRelease_exec]
  exact Advance.refl s

/-- A block that leaves the state and the failure alone. -/
theorem lawful_of_eq
    {α : Type} {body : Locked α}
    (hbody : ∀ s, (body.exec s).2.state = s.state ∧ (body.exec s).2.failure = s.failure) :
    (locked body .ordinary).Lawful :=
  lawful_locked fun s => Or.inl (hbody s)

theorem runScript_lawful
    (call : Call) :
    Prog.Lawful (runScript call) := by
  unfold runScript
  split
  · exact all_throw _
  · refine Prog.Lawful.bind (all_asking trivial) fun answer => ?_
    cases answer with
    | reply raw =>
        exact all_pure _
    | raised e =>
        exact all_throw _
    | noScript =>
        refine Prog.Lawful.bind (all_asking trivial) fun answer => ?_
        cases answer <;> first | exact all_pure _ | exact all_throw _

theorem runReconcile_lawful :
    Prog.Lawful runReconcile := by
  refine Prog.Lawful.bind (all_asking trivial) fun answer => ?_
  cases answer <;> first | exact all_pure _ | exact all_throw _

theorem dispatchRenew_lawful
    (ttlMs : Nat) :
    (dispatchRenew h ttlMs).Lawful :=
  (runScript_lawful _).bind fun _ => all_orRaise _ _

theorem dispatchProbe_lawful :
    (dispatchProbe h).Lawful :=
  (runScript_lawful _).bind fun _ => all_orRaise _ _

theorem remainingMinimumMs_lawful :
    (remainingMinimumMs h).Lawful :=
  Prog.Lawful.bind (all_asking trivial) fun _ => all_pure _

theorem dispatchRelease_lawful :
    (dispatchRelease h).Lawful :=
  (remainingMinimumMs_lawful h).bind fun _ =>
    (runScript_lawful _).bind fun _ => all_orRaise _ _

theorem renew_lawful
    (leaseTime : Option Timedelta) :
    (renew h leaseTime).Lawful := by
  refine goneOrRaise_lawful.bind fun gone => ?_
  split
  · exact all_pure _
  · refine Prog.Lawful.bind (all_orRaise _ _) fun ttlMs => ?_
    refine Prog.Lawful.bind (all_attempt (dispatchRenew_lawful h ttlMs)) fun status => ?_
    exact lawful_locked fun s => finishRenew_advance s _

theorem isHeld_lawful :
    (isHeld h).Lawful := by
  refine goneOrRaise_lawful.bind fun gone => ?_
  split
  · exact all_pure _
  · refine Prog.Lawful.bind (all_attempt (dispatchProbe_lawful h)) fun status => ?_
    exact lawful_locked fun s => finishProbe_advance s _

theorem assertHeld_lawful :
    (assertHeld h).Lawful := by
  refine (isHeld_lawful h).bind fun held => ?_
  split
  · exact all_throw _
  · exact all_pure _

theorem reconcileRelease_lawful
    (inScope : Bool) :
    (reconcileRelease h inScope).Lawful := by
  refine Prog.Lawful.bind (all_attempt ?_) fun answer => ?_
  · exact runReconcile_lawful.bind fun _ => all_orRaise _ _
  refine Prog.Lawful.bind
    (lawful_locked fun s => checkReconciled_advance s _ inScope answer) fun done => ?_
  split
  · exact all_pure _
  · refine Prog.Lawful.bind (all_attempt (dispatchRelease_lawful h)) fun status => ?_
    exact lawful_locked fun s => finishRepeat_advance s inScope status

theorem releaseScoped_lawful
    (inScope : Bool) :
    (releaseScoped h inScope).Lawful := by
  refine (finishTerminalRelease_lawful inScope).bind fun done => ?_
  split
  · exact all_pure _
  · refine Prog.Lawful.bind (all_attempt (dispatchRelease_lawful h)) fun status => ?_
    cases status with
    | uncertain =>
        exact reconcileRelease_lawful h inScope
    | done status =>
        exact lawful_locked fun s => finishRelease_advance s inScope _
    | backendFailed =>
        exact lawful_locked fun s => finishRelease_advance s inScope _

theorem giveUpOnWorker_lawful
    {label : HandleSection}
    (hlabel : label ≠ .ordinary) :
    (locked giveUpOnWorker label).Lawful :=
  all_locked fun s => giveUpOnWorker_follows s hlabel

theorem awaitReady_lawful :
    awaitReady.Lawful := by
  refine Prog.Lawful.bind (all_asking trivial) fun ready => ?_
  split
  · exact giveUpOnWorker_lawful (by decide)
  · exact all_pure _

theorem awaitEnd_lawful :
    awaitEnd.Lawful := by
  refine Prog.Lawful.bind (all_asking trivial) fun alive => ?_
  split
  · exact giveUpOnWorker_lawful (by decide)
  · exact all_pure _

theorem stopWorker_lawful :
    stopWorker.Lawful := by
  refine (lawful_of_eq fun s => ⟨rfl, rfl⟩).bind fun worker => ?_
  split
  · exact all_pure _
  refine (lawful_of_eq fun s => ⟨rfl, rfl⟩).bind fun _ => ?_
  refine awaitReady_lawful.bind fun _ => ?_
  refine (lawful_of_eq fun s => ⟨rfl, rfl⟩).bind fun worker => ?_
  split
  · exact all_pure _
  · exact awaitEnd_lawful.bind fun _ => lawful_of_eq fun s => ⟨rfl, rfl⟩

theorem release_lawful :
    (release h).Lawful :=
  stopWorker_lawful.bind fun _ => releaseScoped_lawful h false

theorem startWorker_lawful :
    (startWorker h).Lawful := by
  refine (lawful_of_eq fun s => ⟨rfl, rfl⟩).bind fun _ => ?_
  refine Prog.Lawful.bind (all_asking trivial) fun answer => ?_
  cases answer with
  | started =>
      refine (lawful_of_eq fun s => ⟨rfl, rfl⟩).bind fun terminal => ?_
      split
      · refine stopWorker_lawful.bind fun _ => ?_
        refine (lawful_of_eq fun s => ?_).bind fun _ => all_throw _
        rw [raiseIfUnknown_exec]
        exact ⟨rfl, rfl⟩
      · exact all_pure _
  | failed startFailure spawned =>
      refine (lawful_of_eq fun s => ⟨rfl, rfl⟩).bind fun alive => ?_
      refine Prog.Lawful.bind (all_leaderErrorOf ?_) fun lifecycle => ?_
      · extract_lets releaseScope
        split
        · exact stopWorker_lawful.bind fun _ => releaseScoped_lawful h true
        · exact releaseScoped_lawful h true
      · split <;> exact all_throw _

theorem enter_lawful :
    (enter h).Lawful := by
  refine (lawful_locked markEntered_advance).bind fun _ => ?_
  split
  · refine (renew_lawful h none).bind fun outcome => ?_
    cases outcome with
    | renewed =>
        exact startWorker_lawful h
    | notHeld | backendFailure =>
        exact all_throw _
  · refine (isHeld_lawful h).bind fun held => ?_
    split
    · exact all_throw _
    · exact all_pure _

theorem exit_lawful
    (exc : Option Raised) :
    (exit h exc).Lawful := by
  refine Prog.Lawful.bind (all_leaderErrorOf ?_) fun lifecycle => ?_
  · exact stopWorker_lawful.bind fun _ => releaseScoped_lawful h true
  cases lifecycle with
  | none =>
      exact all_pure _
  | some failure =>
      cases exc with
      | none =>
          exact all_throw _
      | some exc =>
          dsimp only
          split
          · exact all_pure _
          · split <;> exact all_throw _

theorem perform_lawful
    (op : Operation) :
    (perform h op).Lawful := by
  cases op with
  | renew leaseTime =>
      exact (renew_lawful h leaseTime).bind fun _ => all_pure _
  | isHeld =>
      exact (isHeld_lawful h).bind fun _ => all_pure _
  | assertHeld =>
      exact (assertHeld_lawful h).bind fun _ => all_pure _
  | release =>
      exact (release_lawful h).bind fun _ => all_pure _
  | enter =>
      exact (enter_lawful h).bind fun _ => all_pure _
  | exit exc =>
      exact (exit_lawful h exc).bind fun _ => all_pure _

end Lawful

end LeaderRedis
end Bluetape
