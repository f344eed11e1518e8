import Bluetape.Base.Lockstep
import Bluetape.Base.Mealy
import Bluetape.LeaderRedis.HandleClock
import Bluetape.LeaderRedis.HandleStates

/-!
# The two handles agree

The methods of a synchronous and an asynchronous handle for the same lease, with the same
answers.

* `methods_renew`, `methods_isHeld`: the methods ask the same questions, end alike and leave
  the handles in the same state;
* `lockstep_releaseScoped`: so does the release of an open handle, unless a reading of the
  clock parts it.
-/

namespace Bluetape
namespace LeaderRedis

open Base

/-- The script that a question sends to Redis, if it sends one. -/
def HandleQuestion.script : HandleQuestion → Option Call
  | .evalsha call | .eval call => some call
  | _ => none

/--
The handles get failures of the backend that are instances of `Exception`.  A reading of the
clock parts them when they find different times of the minimum lease left, and then they send
different scripts.
-/
def LeaseHandle.comparison (h : LeaseHandle) : Proc.Comparison HandleQuestion.Answer where
  allowed
    | .evalsha _, a | .eval _, a => ∀ e, a = .raised e → e.isException = true
    | .monotonicNs, now => h.ClockReading now
    | _, _ => True
  parts
    | .monotonicNs, now => ¬ h.SameMinimum now
    | _, _ => False
  differ q q' := ∃ call call', q.script = some call ∧ q'.script = some call' ∧ call ≠ call'

/-! ## Programs that leave the handles alone -/

section Quiet

variable {α β : Type} (h : LeaseHandle)

/-- The two programs ask the same questions, end alike and leave the handles as they are. -/
def Quiet (p : Prog α) (p' : Async.AsyncProg α) : Prop :=
  ∀ s t, Proc.Lockstep h.comparison
    (fun r r' s' t' => r' = r ∧ (s' = s ∧ t' = t) ∧ ∀ e, r = .error e → e.isException = true)
    p.run p'.run s t

variable {h}

theorem quiet_pure
    (a : α) :
    Quiet h (pure a) (pure a) :=
  fun _ _ => .ret ⟨rfl, ⟨rfl, rfl⟩, nofun⟩

theorem quiet_throw
    {e : Raised} (he : e.isException = true) :
    Quiet h (throw e : Prog α) (throw e) := by
  intro s t
  refine .ret ⟨rfl, ⟨rfl, rfl⟩, ?_⟩
  rintro _ ⟨⟩
  exact he

theorem quiet_orRaise
    {e : Raised} (he : e.isException = true) (a : Option α) :
    Quiet h (orRaise e a) (orRaise e a) := by
  cases a with
  | none =>
      exact quiet_throw he
  | some a =>
      exact quiet_pure a

theorem Quiet.bind
    {p : Prog α} {p' : Async.AsyncProg α} {f : α → Prog β} {f' : α → Async.AsyncProg β}
    (hp : Quiet h p p') (hf : ∀ a, Quiet h (f a) (f' a)) :
    Quiet h (p >>= f) (p' >>= f') := by
  intro s t
  refine Proc.Lockstep.bind (hp s t) ?_
  rintro (e | a) _ _ _ ⟨rfl, ⟨rfl, rfl⟩, he⟩
  · refine .ret ⟨rfl, ⟨rfl, rfl⟩, ?_⟩
    rintro _ ⟨⟩
    exact he e rfl
  · exact hf a _ _

/-- A question to Redis, whose answer decides how to go on. -/
theorem quiet_ask
    {q : HandleQuestion} {call : Call} (hq : q.script = some call)
    {f : q.Answer → Prog β} {f' : q.Answer → Async.AsyncProg β}
    (hf : ∀ a, h.comparison.allowed q a → Quiet h (f a) (f' a)) :
    Quiet h (asking q >>= f) (asking q >>= f') := by
  intro s t
  refine .ask (fun a ha _ => hf a ha s t) fun a _ hparts => ?_
  cases q
  case monotonicNs =>
    cases hq
  all_goals
    exact hparts.elim

theorem quiet_runScript
    (call : Call) :
    Quiet h (runScript call) (Async.runScriptAsync call) := by
  unfold Async.runScriptAsync runScript
  split
  case isTrue =>
    exact quiet_throw rfl
  case isFalse =>
    refine quiet_ask (q := .evalsha call) rfl fun answer hanswer => ?_
    cases answer with
    | reply raw =>
        exact quiet_pure raw
    | raised e =>
        exact quiet_throw (hanswer e rfl)
    | noScript =>
        refine quiet_ask (q := .eval call) rfl fun answer hanswer => ?_
        cases answer with
        | reply raw =>
            exact quiet_pure raw
        | raised e =>
            exact quiet_throw (hanswer e rfl)
        | noScript =>
            exact quiet_throw rfl

theorem quiet_runReconcile :
    Quiet h runReconcile Async.runReconcileAsync := by
  refine quiet_ask (q := .eval .reconcile) rfl fun answer hanswer => ?_
  cases answer with
  | reply raw =>
      exact quiet_pure raw
  | raised e =>
      exact quiet_throw (hanswer e rfl)
  | noScript =>
      exact quiet_throw rfl

/-- A guarded block always ends with an `Attempt`. -/
theorem Quiet.attempt
    {p : Prog α} {p' : Async.AsyncProg α} (hp : Quiet h p p') (s : HandleState)
    (t : Async.AsyncHandleState) :
    Proc.Lockstep h.comparison
      (fun r r' s' t' => r' = r ∧ (s' = s ∧ t' = t) ∧ ∃ a, r = .ok a)
      (attempt p).run (attempt p').run s t := by
  refine Proc.Lockstep.bind (hp s t) ?_
  rintro (e | a) _ _ _ ⟨rfl, ⟨rfl, rfl⟩, he⟩
  · have hexception := he e rfl
    cases e
    all_goals first
      | exact .ret ⟨rfl, ⟨rfl, rfl⟩, _, rfl⟩
      | cases hexception
  · exact .ret ⟨rfl, ⟨rfl, rfl⟩, _, rfl⟩

variable (h)

theorem quiet_dispatchProbe :
    Quiet h (dispatchProbe h) (Async.dispatchProbe h.toAsync) :=
  (quiet_runScript _).bind fun _ => quiet_orRaise rfl _

theorem quiet_dispatchRenew
    {duration : Timedelta} {ttlMs : Nat} (hms : durationMilliseconds duration = some ttlMs) :
    Quiet h (dispatchRenew h ttlMs) (Async.dispatchRenew h.toAsync duration) := by
  have hquiet : Quiet h (dispatchRenew h ttlMs) (do
      let raw ← Async.runScriptAsync (.renew h.record.toBytes (millisecondsText ttlMs))
      orRaise valueError (parseStatusResponse [.renewed, .notHeld, .corrupt] raw)) :=
    (quiet_runScript _).bind fun _ => quiet_orRaise rfl _
  unfold Async.dispatchRenew
  rw [hms]
  exact hquiet

/-- Different scripts that may be sent are the next questions. -/
theorem parted_runScript
    {call call' : Call} (hok : validateDispatch call = true)
    (hok' : validateDispatch call' = true) (hne : call ≠ call')
    (f : RawReply → Prog α) (f' : RawReply → Async.AsyncProg α) :
    Proc.Parted h.comparison.differ (runScript call >>= f).run
      (Async.runScriptAsync call' >>= f').run := by
  unfold Async.runScriptAsync runScript
  rw [if_neg (by simp [hok]), if_neg (by simp [hok'])]
  exact .ask ⟨call, call', rfl, rfl, hne⟩

/-- Different times left of the minimum lease make different scripts. -/
theorem quiet_dispatchRelease :
    Quiet h (dispatchRelease h) (Async.dispatchRelease h.toAsync) := by
  have hsend : ∀ remaining, Quiet h
      (do
        let raw ← runScript (.release h.record.toBytes (millisecondsText remaining))
        orRaise valueError
          (parseStatusResponse [.deleted, .minTtlApplied, .notHeld, .corrupt] raw))
      (do
        let raw ← Async.runScriptAsync (.release h.record.toBytes (millisecondsText remaining))
        orRaise valueError
          (parseStatusResponse [.deleted, .minTtlApplied, .notHeld, .corrupt] raw)) :=
    fun _ => (quiet_runScript _).bind fun _ => quiet_orRaise rfl _
  intro s t
  refine .ask (fun (now : Int) hnow hparts => ?_) fun (now : Int) hnow hparts => ?_
  · have hsame : Async.minimumMs h.toAsync (Async.loopTime now) = h.minimumMs now :=
      not_not.mp hparts
    have hquiet := hsend (h.minimumMs now) s t
    nth_rewrite 2 [← hsame] at hquiet
    exact hquiet
  · have hok := validateDispatch_release h.record (LeaseHandle.minimumMs_le hnow)
    have hok' := validateDispatch_release h.record (Async.minimumMs_le hnow)
    exact parted_runScript h hok hok'
      (fun heq => hparts (decimal_injective (Call.release.inj heq).2).symm) _ _

theorem quiet_reconcile :
    Quiet h (do
        let raw ← runReconcile
        orRaise valueError (parseReconcileResponse raw))
      (do
        let raw ← Async.runReconcileAsync
        orRaise valueError (parseReconcileResponse raw)) :=
  quiet_runReconcile.bind fun _ => quiet_orRaise rfl _

end Quiet

/-! ## Sections in the same state -/

section Sections

/-- The handles are in one state and retain one failure; `task` is the cleanup task. -/
structure Same (task : Option Async.TaskStatus) (s : HandleState)
    (t : Async.AsyncHandleState) : Prop where
  state : t.state = s.state
  failure : t.failure = s.failure
  worker : s.worker = false
  retains : s.Retains
  cleanup : t.cleanupTask = task

variable {lease : LeaseHandle} {task : Option Async.TaskStatus} {s : HandleState}
  {t : Async.AsyncHandleState}

theorem Same.gone
    (h : Same task s t) :
    t.Gone ↔ s.Gone := by
  rw [Async.AsyncHandleState.Gone, HandleState.Gone, h.state]

/-- Both handles enter a state that is not unknown. -/
theorem Same.enters
    (h : Same task s t) {state : LeaseState} (hstate : state ≠ .unknown) :
    Same task { s with state := state } (t.enters state) where
  state := rfl
  failure := h.failure
  worker := h.worker
  retains hunknown := absurd hunknown hstate
  cleanup := h.cleanup

/-- Both handles retain a failure. -/
theorem Same.fails
    (h : Same task s t) {failure : Raised} (hfailure : failure.lifecycle) :
    Same task { s with state := .unknown, failure := some failure } (t.fails failure) where
  state := rfl
  failure := rfl
  worker := h.worker
  retains _ := ⟨failure, rfl, hfailure⟩
  cleanup := h.cleanup

/-- The sections end alike, in the same state. -/
def SectionsAgree {α : Type} (task : Option Async.TaskStatus) (body : Locked α)
    (body' : Async.Segment α) (s : HandleState) (t : Async.AsyncHandleState) : Prop :=
  (body' t).1 = (body.exec s).1 ∧ Same task (body.exec s).2 (body' t).2

theorem SectionsAgree.lockstep
    {α : Type} {body : Locked α} {body' : Async.Segment α}
    (h : SectionsAgree task body body' s t) (label : HandleSection)
    (label' : Async.AsyncSection) :
    Proc.Lockstep lease.comparison (fun r r' s t => r' = r ∧ Same task s t)
      (locked body label).run (Async.runs body' label').run s t :=
  Proc.Lockstep.atomically h

theorem sections_goneOrRaise
    (h : Same task s t) :
    SectionsAgree task goneOrRaise Async.goneOrRaise s t := by
  unfold SectionsAgree Async.goneOrRaise
  rw [h.state, h.failure]
  rcases s.open_or with hopen | hgone | hunknown
  · obtain ⟨hunknown, hgone⟩ := s.open_iff.mp hopen
    rw [goneOrRaise_of_open hopen, if_neg hunknown]
    exact ⟨by simp [h.gone, hgone], h⟩
  · have hunknown : s.state ≠ .unknown := by
      rcases hgone with hstate | hstate <;> rw [hstate] <;> decide
    rw [goneOrRaise_of_gone hgone, if_neg hunknown]
    exact ⟨by simp [h.gone, hgone], h⟩
  · rw [goneOrRaise_of_unknown hunknown, if_pos hunknown]
    exact ⟨rfl, h⟩

/-- The handle is open, and so are its checks. -/
theorem Same.open
    (h : Same task s t) (hopen : s.state.terminal = false) :
    ¬t.Gone ∧ t.state ≠ .unknown := by
  obtain ⟨hunknown, hgone⟩ := s.open_iff.mp hopen
  exact ⟨fun h' => hgone (h.gone.mp h'), fun h' => hunknown (h.state ▸ h')⟩

theorem sections_finishRenew
    (h : Same task s t) (hopen : s.state.terminal = false) (status : Option Status) :
    SectionsAgree task (finishRenew status) (Async.finishRenew status) s t := by
  obtain ⟨hgone, hunknown⟩ := h.open hopen
  unfold SectionsAgree Async.finishRenew
  rw [if_neg hgone, if_neg hunknown]
  simp only [finishRenew, exec_bind, goneOrRaise_of_open hopen]
  rcases status with _ | status
  · exact ⟨rfl, h.fails (.inl rfl)⟩
  · cases status
    case renewed => exact ⟨rfl, h⟩
    case notHeld => exact ⟨rfl, h.enters (by decide)⟩
    all_goals exact ⟨rfl, h.fails (.inl rfl)⟩

theorem sections_finishProbe
    (h : Same task s t) (hopen : s.state.terminal = false) (status : Option Status) :
    SectionsAgree task (finishProbe status) (Async.finishProbe status) s t := by
  obtain ⟨hgone, hunknown⟩ := h.open hopen
  unfold SectionsAgree Async.finishProbe
  rw [if_neg hgone, if_neg hunknown]
  simp only [finishProbe, exec_bind, goneOrRaise_of_open hopen]
  rcases status with _ | status
  · exact ⟨rfl, h.fails (.inl rfl)⟩
  · cases status
    case held => exact ⟨rfl, h⟩
    case notHeld => exact ⟨rfl, h.enters (by decide)⟩
    all_goals exact ⟨rfl, h.fails (.inl rfl)⟩

theorem sections_startRelease
    (h : Same task s t) (inScope : Bool) :
    SectionsAgree task (finishTerminalRelease inScope) (Async.startRelease inScope) s t := by
  unfold SectionsAgree Async.startRelease
  rw [finishTerminalRelease_exec, h.state, h.failure]
  cases hstate : s.state
  case released =>
    cases inScope <;> exact ⟨rfl, h⟩
  all_goals exact ⟨rfl, h⟩

theorem sections_markEntered
    (h : Same task s t) :
    SectionsAgree task markEntered Async.markEntered s t := by
  unfold SectionsAgree Async.markEntered
  rw [h.state, h.failure]
  simp only [markEntered, exec_bind, raiseIfUnknown_exec]
  by_cases hunknown : s.state = .unknown
  · rw [if_pos hunknown, if_pos hunknown]
    exact ⟨rfl, h⟩
  · rw [if_neg hunknown, if_neg hunknown]
    simp only [exec_get, exec_ite]
    by_cases hacquired : s.state = .acquired
    · have hne : LeaseState.entered ≠ .unknown := by decide
      rw [if_neg (not_not.mpr hacquired), if_neg (not_not.mpr hacquired)]
      exact ⟨rfl, h.enters hne⟩
    · rw [if_pos hacquired, if_pos hacquired]
      exact ⟨rfl, h⟩

/-- How a release of an open handle can end. -/
def ReleaseEnds (inScope : Bool) (r : Except Raised Unit) (s : HandleState) : Prop :=
  (r = .ok () ∧ s.state = .released) ∨
    (r = .error (Async.lostError inScope) ∧ s.state = .lost) ∨
    ((∃ failure, r = .error failure ∧ failure.lifecycle) ∧ s.state = .unknown)

theorem ReleaseEnds.of_fails
    {inScope : Bool} {failure : Raised} (hfailure : failure.lifecycle) :
    ReleaseEnds inScope (.error failure) { s with state := .unknown, failure := some failure } :=
  Or.inr (Or.inr ⟨⟨failure, rfl, hfailure⟩, rfl⟩)

/-- The sections agree, and what they return fits the state that they leave. -/
def EndsAgree (task : Option Async.TaskStatus) (inScope : Bool) (body : Locked Unit)
    (body' : Async.Segment Unit) (s : HandleState) (t : Async.AsyncHandleState) : Prop :=
  SectionsAgree task body body' s t ∧ ReleaseEnds inScope (body.exec s).1 (body.exec s).2

theorem sections_finishReleaseStatus
    (h : Same task s t) (inScope : Bool) (status : Status) :
    EndsAgree task inScope (finishReleaseStatus inScope status)
      (Async.finishReleaseStatus inScope status) s t := by
  unfold EndsAgree SectionsAgree finishReleaseStatus Async.finishReleaseStatus
  cases status
  case deleted | minTtlApplied => exact ⟨⟨rfl, h.enters (by decide)⟩, .inl ⟨rfl, rfl⟩⟩
  case notHeld =>
    cases inScope <;> exact ⟨⟨rfl, h.enters (by decide)⟩, .inr (.inl ⟨rfl, rfl⟩)⟩
  all_goals exact ⟨⟨rfl, h.fails (.inl rfl)⟩, .of_fails (.inl rfl)⟩

/-- The sections at the end of a release, on an open handle. -/
theorem sections_afterRelease
    {body : Locked Unit} {body' : Async.Segment Unit} (hopen : s.state.terminal = false)
    (inScope : Bool) (h : EndsAgree task inScope body body' s t) :
    EndsAgree task inScope (do
      if ← finishTerminalRelease inScope then return
      body) body' s t := by
  unfold EndsAgree SectionsAgree
  rw [exec_bind, finishTerminalRelease_of_open hopen]
  exact h

theorem sections_finishRelease
    (h : Same task s t) (hopen : s.state.terminal = false) (inScope : Bool)
    (status : Attempt Status) :
    EndsAgree task inScope (finishRelease inScope status) (Async.finishRelease inScope status)
      s t := by
  refine sections_afterRelease hopen inScope ?_
  cases status with
  | done status =>
      exact sections_finishReleaseStatus h inScope status
  | uncertain | backendFailed =>
      exact ⟨⟨rfl, h.fails (.inl rfl)⟩, .of_fails (.inl rfl)⟩

theorem sections_finishRepeat
    (h : Same task s t) (hopen : s.state.terminal = false) (inScope : Bool)
    (status : Attempt Status) :
    EndsAgree task inScope (finishRepeat inScope status) (Async.finishRepeat inScope status)
      s t := by
  refine sections_afterRelease hopen inScope ?_
  cases status with
  | done status =>
      exact sections_finishReleaseStatus h inScope status
  | uncertain =>
      exact ⟨⟨rfl, h.fails (.inr rfl)⟩, .of_fails (.inr rfl)⟩
  | backendFailed =>
      exact ⟨⟨rfl, h.fails (.inl rfl)⟩, .of_fails (.inl rfl)⟩

end Sections

/-! ## Methods in lockstep -/

section Methods

variable {α β : Type} {lease : LeaseHandle} {task : Option Async.TaskStatus}
  {s : HandleState} {t : Async.AsyncHandleState}

/-- What is the same after a method that began on the handle `s`. -/
def After (task : Option Async.TaskStatus) (s : HandleState) (r r' : Except Raised α)
    (s' : HandleState) (t' : Async.AsyncHandleState) : Prop :=
  r' = r ∧ Same task s' t' ∧ (s.state.terminal = true → s'.state = s.state)

/-- From the same state the methods end alike, and a terminal handle stays as it is. -/
def MethodsAgree (lease : LeaseHandle) (task : Option Async.TaskStatus) (p : Prog α)
    (p' : Async.AsyncProg α) : Prop :=
  ∀ s t, Same task s t → Proc.Lockstep lease.comparison (After task s) p.run p'.run s t

/-- The last section of a method on an open handle. -/
theorem SectionsAgree.after
    {body : Locked α} {body' : Async.Segment α} (h : SectionsAgree task body body' s t)
    (hopen : s.state.terminal = false) (label : HandleSection) (label' : Async.AsyncSection) :
    Proc.Lockstep lease.comparison (After task s) (locked body label).run
      (Async.runs body' label').run s t :=
  (h.lockstep label label').mono fun _ _ _ _ hpost =>
    ⟨hpost.1, hpost.2, fun hterminal => by simp [hopen] at hterminal⟩

/-- A section that both handles begin with and that leaves them as they are. -/
theorem lockstep_check
    {body : Locked α} {body' : Async.Segment α} {f : α → Prog β} {f' : α → Async.AsyncProg β}
    {Post : Except Raised β → Except Raised β → HandleState → Async.AsyncHandleState → Prop}
    {label : HandleSection} {label' : Async.AsyncSection} {r : Except Raised α}
    (hbody : body.exec s = (r, s)) (hbody' : body' t = (r, t))
    (hok : ∀ a, r = .ok a → Proc.Lockstep lease.comparison Post (f a).run (f' a).run s t)
    (herror : ∀ e, r = .error e → Post (.error e) (.error e) s t) :
    Proc.Lockstep lease.comparison Post (locked body label >>= f).run
      (Async.runs body' label' >>= f').run s t := by
  have hsections : Proc.Lockstep lease.comparison (fun r₁ r₁' s' t' => r₁ = r ∧ r₁' = r ∧ s' = s ∧
      t' = t) (locked body label).run (Async.runs body' label').run s t := by
    refine Proc.Lockstep.atomically ?_
    rw [hbody, hbody']
    exact ⟨rfl, rfl, rfl, rfl⟩
  refine Proc.Lockstep.bind hsections ?_
  rintro r₁ r₁' s₁ t₁ ⟨h₁, h₁', h₂, h₂'⟩
  subst h₁ h₁' h₂ h₂'
  cases r₁' with
  | error e =>
      exact .ret (herror e rfl)
  | ok a =>
      exact hok a rfl

/-- The check at the head of `renew` and `is_held`, and what follows on an open handle. -/
theorem lockstep_goneOrRaise
    {f : Bool → Prog α} {f' : Bool → Async.AsyncProg α} {label : HandleSection}
    {label' : Async.AsyncSection} {gone : α} (h : Same task s t)
    (hgone : f true = pure gone) (hgone' : f' true = pure gone)
    (hopen : s.state.terminal = false →
      Proc.Lockstep lease.comparison (After task s) (f false).run (f' false).run s t) :
    Proc.Lockstep lease.comparison (After task s) (locked goneOrRaise label >>= f).run
      (Async.runs Async.goneOrRaise label' >>= f').run s t := by
  have hsame : ∀ r : Except Raised α, After task s r r s t := fun _ => ⟨rfl, h, fun _ => rfl⟩
  have hagree := sections_goneOrRaise h
  have hstay : (goneOrRaise.exec s).2 = s ∧ (Async.goneOrRaise t).2 = t := by
    constructor
    · rcases s.open_or with hopen | hgone | hunknown
      · rw [goneOrRaise_of_open hopen]
      · rw [goneOrRaise_of_gone hgone]
      · rw [goneOrRaise_of_unknown hunknown]
    · unfold Async.goneOrRaise
      split <;> rfl
  refine lockstep_check (Prod.ext rfl hstay.1) (Prod.ext hagree.1 hstay.2) ?_ fun e _ => hsame _
  rintro (_ | _) hresult
  · refine hopen ?_
    rcases s.open_or with hopen | hgone | hunknown
    · exact hopen
    · rw [goneOrRaise_of_gone hgone] at hresult
      cases hresult
    · rw [goneOrRaise_of_unknown hunknown] at hresult
      cases hresult
  · rw [hgone, hgone']
    exact .ret (hsame _)

variable (h : LeaseHandle)

theorem methods_renew
    {leaseTime : Option Timedelta}
    (hvalid : durationMilliseconds (leaseTime.getD h.options.leaseTime) ≠ none) :
    MethodsAgree h task (renew h leaseTime) (Async.renew h.toAsync leaseTime) := by
  intro s t hs
  refine lockstep_goneOrRaise hs rfl rfl fun hopen => ?_
  obtain ⟨ttlMs, hms⟩ := Option.ne_none_iff_exists'.mp hvalid
  simp only [hms]
  change Proc.Lockstep h.comparison _ (attempt (dispatchRenew h ttlMs) >>= fun status =>
    locked (finishRenew status.status) .ordinary).run _ s t
  refine Proc.Lockstep.bind ((quiet_dispatchRenew h hms).attempt s t) ?_
  rintro _ _ _ _ ⟨rfl, ⟨rfl, rfl⟩, status, rfl⟩
  exact (sections_finishRenew hs hopen status.status).after hopen _ _

/-- A probe of an open handle raises nothing but a failure of the backend. -/
theorem lockstep_isHeld
    (hs : Same task s t) (hopen : s.state.terminal = false) :
    Proc.Lockstep h.comparison
      (fun r r' s' t' => r' = r ∧ Same task s' t' ∧ ∀ e, r = .error e → e = .backendError)
      (isHeld h).run (Async.isHeld h.toAsync).run s t := by
  obtain ⟨hgone, hunknown⟩ := hs.open hopen
  refine lockstep_check (goneOrRaise_of_open hopen) ?_ ?_ nofun
  · unfold Async.goneOrRaise
    simp [hunknown, hgone]
  rintro _ ⟨⟩
  refine Proc.Lockstep.bind ((quiet_dispatchProbe h).attempt s t) ?_
  rintro _ _ _ _ ⟨rfl, ⟨rfl, rfl⟩, status, rfl⟩
  obtain ⟨hresult, hsame⟩ := sections_finishProbe hs hopen status.status
  refine .atomically ⟨hresult, hsame, ?_⟩
  simp only [finishProbe, exec_bind, goneOrRaise_of_open hopen]
  rcases status.status with _ | status
  · rintro _ ⟨⟩
    rfl
  · cases status <;> rintro _ ⟨⟩ <;> rfl

theorem methods_isHeld :
    MethodsAgree h task (isHeld h) (Async.isHeld h.toAsync) := by
  intro s t hs
  cases hterminal : s.state.terminal
  case true =>
    refine lockstep_goneOrRaise hs rfl rfl fun hopen => ?_
    rw [hterminal] at hopen
    cases hopen
  case false =>
    refine (lockstep_isHeld h hs hterminal).mono fun r r' s' t' hpost => ?_
    exact ⟨hpost.1, hpost.2.1, fun hterminal' => by simp [hterminal] at hterminal'⟩

theorem methods_assertHeld :
    MethodsAgree h task (assertHeld h) (Async.assertHeld h.toAsync) := by
  intro s t hs
  refine Proc.Lockstep.bind (methods_isHeld h s t hs) ?_
  rintro (e | held) _ s' t' ⟨rfl, hs', hstay⟩
  · exact .ret ⟨rfl, hs', hstay⟩
  · cases held with
    | false =>
        exact .ret ⟨rfl, hs', hstay⟩
    | true =>
        exact .ret ⟨rfl, hs', hstay⟩

/-- What is the same after a release that began on an open handle. -/
def AfterRelease (task : Option Async.TaskStatus) (inScope : Bool) (r r' : Except Raised Unit)
    (s' : HandleState) (t' : Async.AsyncHandleState) : Prop :=
  r' = r ∧ Same task s' t' ∧ ReleaseEnds inScope r s'

theorem EndsAgree.lockstep
    {inScope : Bool} {body : Locked Unit} {body' : Async.Segment Unit}
    (h : EndsAgree task inScope body body' s t) (label : HandleSection)
    (label' : Async.AsyncSection) :
    Proc.Lockstep lease.comparison (AfterRelease task inScope) (locked body label).run
      (Async.runs body' label').run s t :=
  .atomically ⟨h.1.1, h.1.2, h.2⟩

/-- The first answer of a reconciliation ends it, or the owner is still there. -/
theorem lockstep_checkReconciled
    (hs : Same task s t) (hopen : s.state.terminal = false) (inScope : Bool)
    (answer : Attempt (Status × Option LeaseRecord)) (label : HandleSection)
    (label' : Async.AsyncSection) :
    Proc.Lockstep h.comparison
      (fun r r' s' t' => (r = .ok false ∧ r' = .ok () ∧ s' = s ∧ t' = t) ∨
        ∃ e, r = .error e ∧ r' = .error e ∧ Same task s' t' ∧ ReleaseEnds inScope (.error e) s')
      (locked (checkReconciled h.record.ownerToken inScope answer) label).run
      (Async.runs (Async.checkReconciled h.toAsync.record.ownerToken inScope answer) label').run
      s t := by
  have hbackend : ∀ {e : Raised}, e.lifecycle → ∃ e', (.error e : Except Raised Bool) =
      .error e' ∧ (.error e : Except Raised Unit) = .error e' ∧
      Same task { s with state := .unknown, failure := some e } (t.fails e) ∧
      ReleaseEnds inScope (.error e') { s with state := .unknown, failure := some e } :=
    fun he => ⟨_, rfl, rfl, hs.fails he, .of_fails he⟩
  refine .atomically ?_
  simp only [checkReconciled, exec_bind, finishTerminalRelease_of_open hopen]
  rcases answer with ⟨status, record⟩ | _ | _
  case done =>
    cases status
    case present =>
      rcases record with _ | record
      · exact Or.inr (hbackend (.inl rfl))
      · by_cases howner : record.ownerToken = h.record.ownerToken
        · simp [Async.checkReconciled, LeaseHandle.toAsync, howner]
        · refine Or.inr ⟨Async.lostError inScope, ?_⟩
          cases inScope <;>
            simp [Async.checkReconciled, LeaseHandle.toAsync, howner, Async.lostError,
              hs.enters, ReleaseEnds]
    case absent => exact Or.inr (hbackend (.inr rfl))
    all_goals exact Or.inr (hbackend (.inl rfl))
  all_goals exact Or.inr (hbackend (.inl rfl))

theorem lockstep_reconcileRelease
    (hs : Same task s t) (hopen : s.state.terminal = false) (inScope : Bool) :
    Proc.Lockstep h.comparison (AfterRelease task inScope) (reconcileRelease h inScope).run
      (Async.reconcileRelease h.toAsync inScope).run s t := by
  refine Proc.Lockstep.bind ((quiet_reconcile h).attempt s t) ?_
  rintro _ _ _ _ ⟨rfl, ⟨rfl, rfl⟩, answer, rfl⟩
  refine Proc.Lockstep.bind (lockstep_checkReconciled h hs hopen inScope answer _ _) ?_
  rintro _ _ _ _ (⟨rfl, rfl, rfl, rfl⟩ | ⟨e, rfl, rfl, hs', hends⟩)
  · refine Proc.Lockstep.bind ((quiet_dispatchRelease h).attempt _ _) ?_
    rintro _ _ _ _ ⟨rfl, ⟨rfl, rfl⟩, status, rfl⟩
    exact (sections_finishRepeat hs hopen inScope status).lockstep _ _
  · exact .ret ⟨rfl, hs', hends⟩

theorem lockstep_releaseScoped
    (hs : Same task s t) (hopen : s.state.terminal = false) (inScope : Bool) :
    Proc.Lockstep h.comparison (AfterRelease task inScope) (releaseScoped h inScope).run
      (Async.releaseScoped h.toAsync inScope).run s t := by
  have hstart : Async.startRelease inScope t = (.ok false, t) := by
    unfold Async.startRelease
    rw [hs.state]
    cases hstate : s.state <;> simp [hstate, LeaseState.terminal] at hopen ⊢
  refine lockstep_check (finishTerminalRelease_of_open hopen inScope) hstart ?_ nofun
  rintro _ ⟨⟩
  refine Proc.Lockstep.bind ((quiet_dispatchRelease h).attempt s t) ?_
  rintro _ _ _ _ ⟨rfl, ⟨rfl, rfl⟩, status, rfl⟩
  cases status with
  | uncertain =>
      exact lockstep_reconcileRelease h hs hopen inScope
  | done status =>
      exact (sections_finishRelease hs hopen inScope (.done status)).lockstep _ _
  | backendFailed =>
      exact (sections_finishRelease hs hopen inScope .backendFailed).lockstep _ _

end Methods

end LeaderRedis
end Bluetape
