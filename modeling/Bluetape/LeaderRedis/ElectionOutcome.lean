import Bluetape.LeaderRedis.AcquisitionSoundness
import Bluetape.LeaderRedis.ElectionMethods

/-!
# Runs of electors and of callers

What holds in every run of the threads of a lease: the minimum lease time, the
exclusive use of the lease up to its release, and the end of `run_if_leader_result`.

* `minimum_lease`: whatever the callers of a handle do, nobody else gets the lock before
  the minimum lease time is over;
* `released_exclusively`: a released handle was given back before anybody else got the
  lock;
* `action_exclusive`, `elector_ends`: the same for the action of an elector, and what the
  elector reports.
-/

namespace Bluetape
namespace LeaderRedis

open Base

variable {h : LeaseHandle}

/-! ## The threads -/

section Threads

variable {t : HandleThread} {actions : List (Except Raised Nat)}

theorem stands_flag
    {α : Type} {body : Locked α}
    (hsame : ∀ s, (body.exec s).2.state = s.state ∧ (body.exec s).2.failure = s.failure)
    (hok : ∀ s, ∃ a, (body.exec s).1 = .ok a) :
    Stands h t actions (locked body .ordinary).run :=
  .of_keeps (keeps_flag (J := Fact.any) hsame hok)

theorem stands_failLoop :
    Stands h t actions (locked failLoop .loopFailure).run := by
  refine .of_keeps (R := fun _ => .always True) (J := Fact.any)
    (.locked failLoop_follows fun w hw _ => ?_)
  by_cases hunknown : w.threads.handle.state = .unknown
  · simp [failLoop, hunknown, System.Ends, Fact.always]
  · simp [failLoop, hunknown, System.Ends, Fact.always]

/-- One round of the worker's loop. -/
theorem stands_renewRound :
    Stands h t actions (renewRound h) := by
  refine .question trivial fun stop w _ => ?_
  cases stop with
  | true => exact .ret _
  | false =>
      refine .bind (.of_keeps (keeps_renew (by simp))) fun outcome => ?_
      rcases outcome with e | outcome
      · refine .bind stands_failLoop fun _ => ?_
        exact .bind (stands_flag (fun s => ⟨rfl, rfl⟩) fun s => ⟨_, rfl⟩) fun _ => .ret _
      · cases outcome with
        | renewed => exact .ret _
        | notHeld | backendFailure =>
            exact .bind (stands_flag (fun s => ⟨rfl, rfl⟩) fun s => ⟨_, rfl⟩) fun _ => .ret _

theorem stands_workerThread :
    Stands h t actions (workerThread h) := by
  refine .question trivial fun _ w _ => ?_
  refine .bind (.loop (fun _ => stands_renewRound) ()) fun _ => ?_
  exact .bind (stands_flag (fun s => ⟨rfl, rfl⟩) fun s => ⟨_, rfl⟩) fun _ => .ret _

/-- An operation of a caller that renews for at least the minimum lease time. -/
theorem stands_perform
    {op : Operation}
    (hlease : durationMilliseconds h.options.leaseTime ≠ none)
    (hop : ∀ duration, op = .renew (some duration) →
      h.options.minLeaseTime.total ≤ duration.total) :
    Stands h t actions (perform h op).run := by
  cases op with
  | renew leaseTime =>
      refine .bind (.of_keeps (keeps_renew fun duration hduration => ?_)) fun r => ?_
      · exact hop duration (congrArg _ hduration)
      · cases r <;> exact .ret _
  | isHeld => exact .bind (.of_keeps keeps_isHeld) fun r => by cases r <;> exact .ret _
  | assertHeld =>
      refine .of_keeps (R := fun _ => .always True) (.bind (M := fun _ => .always True)
        (.bind keeps_isHeld fun held => ?_) fun _ => .pure fun _ hF => hF)
      split
      · exact .throw fun _ _ => rfl
      · exact .pure fun _ _ => trivial
  | release =>
      exact .of_keeps (R := fun _ => .handedBack h) (.bind (keeps_stopAndRelease false)
        fun _ => .pure fun _ hF => hF)
  | enter =>
      exact .of_keeps (R := fun _ => .confirmed h) (.bind (keeps_enter hlease)
        fun _ => .pure fun _ hF => hF)
  | exit exc => exact .bind (.of_keeps (keeps_exit exc)) fun r => by cases r <;> exact .ret _

theorem stands_callerThread
    (hlease : durationMilliseconds h.options.leaseTime ≠ none) :
    Stands h t actions (callerThread h) := by
  refine .loop (fun _ => ?_) ()
  refine .question trivial fun op w hpossible => ?_
  refine .bind (stands_perform hlease fun duration hop => ?_) fun result => ?_
  · obtain rfl := hop
    exact of_decide_eq_true hpossible
  · exact .question trivial fun _ _ _ => .ret _

end Threads

/-! ## Runs -/

section Runs

variable {ρ : Type} {Φ : HandleThread → ρ → ElectionWorld → Prop} {c c' : ElectionPool ρ}
  {ls : List ElectionLabel}

/-- The threads of a pool are sound, and its world keeps the invariant. -/
structure ElectionSound (h : LeaseHandle) (Φ : HandleThread → ρ → ElectionWorld → Prop)
    (c : ElectionPool ρ) : Prop where
  sound : System.Pool.Sound (electionSystem h) (ElectionGuarantee h) Φ c
  invariant : LeaseInvariant h c.world

/-- **Step lemma** -/
theorem ElectionSound.step
    {l : ElectionLabel}
    (hc : ElectionSound h Φ c)
    (hstep : ElectionStep h c l c') :
    ElectionSound h Φ c' := by
  obtain ⟨hguar, hsound⟩ := System.Pool.sound_step hc.sound hstep
  refine ⟨hsound, ?_⟩
  cases l with
  | env e => exact hc.invariant.event hguar
  | thread t act =>
      rcases hguar with hguar | ⟨-, hsame⟩
      · exact hguar.kept hc.invariant
      · rw [hsame]
        exact hc.invariant

/-- **Run lemma** -/
theorem ElectionSound.run
    (hc : ElectionSound h Φ c)
    (hrun : Run (ElectionStep h) c ls c') :
    ElectionSound h Φ c' :=
  hrun.invariant (I := fun c => ElectionSound h Φ c) (fun _ _ _ hc hstep => hc.step hstep) hc

/-- A world right after the grant, for threads that keep the invariant. -/
theorem standing_granting
    {w : ElectionWorld} {t : HandleThread}
    (hw : Granting h w) :
    Standing h t [] w :=
  ⟨.granting hw, fun _ => hw.actions⟩

theorem callersPool_sound
    {w : ElectionWorld}
    (hw : Granting h w) :
    ElectionSound h (fun t _ => Standing h t []) (callersPool h w) := by
  refine ⟨fun t => ?_, .granting hw⟩
  cases t with
  | caller n => exact stands_callerThread (by simp [hw.lease]) w (standing_granting hw)
  | worker => exact stands_workerThread w (standing_granting hw)

/-- What the elector has established when it returns. -/
def ElectorReturns (h : LeaseHandle) (_ : HandleThread) (r : Option (Except Raised RunResult))
    (w : ElectionWorld) : Prop :=
  ∀ result, r = some result → ElectorPost h result w

theorem electorPool_sound
    {w : ElectionWorld}
    (hw : Granting h w) :
    ElectionSound h (ElectorReturns h) (electorPool h w) := by
  refine ⟨fun t => ?_, .granting hw⟩
  have hnone : ∀ (t : HandleThread) (w : ElectionWorld),
      (electionSystem h).wp (ElectionGuarantee h) t (.ret none) (ElectorReturns h t) w :=
    fun t w w' _ result hno => by cases hno
  cases t with
  | caller n =>
      cases n with
      | zero =>
          refine System.wp_bind (runHeld h).run _ (System.wp_mono (runHeld h).run ?_
            (triple_runHeld (by simp [hw.lease]) w (standing_granting hw)))
          intro r w' hw'
          have hpost : ElectorPost h r w' := by
            cases r <;> exact hw'
          refine ((stable_electorPost r).stably hpost).mono fun w'' hw'' result hr => ?_
          obtain rfl := Option.some.inj hr
          exact hw''
      | succ n => exact hnone _ w
  | worker =>
      exact System.wp_bind (workerThread h) _ (System.wp_mono (workerThread h)
        (fun _ w _ => hnone _ w) (stands_workerThread w (standing_granting hw)))

/-! ## A granted lease -/

/-- Five seconds. -/
def fiveSeconds : Timedelta :=
  ⟨5000000, by decide, by decide⟩

/-- A lease of thirty seconds that is kept for five. -/
def keptOptions : LeaderElectionOptions where
  waitTime := noTime
  leaseTime := halfMinute
  minLeaseTime := fiveSeconds
  autoRenew := false
  renewInterval := none
  wait_nonneg := noTime_nonneg
  lease_pos := halfMinute_pos
  min_nonneg := by decide
  min_le_lease := by decide
  interval_of_autoRenew := not_autoRenew
  interval_bounds := no_interval

theorem keptOwner_valid :
    isOwnerToken (twoTokens false) = true := by
  decide

theorem keptFence_le :
    1 ≤ maxRedisInteger := by
  decide

/-- The handle of the first lease that is granted, at once. -/
def keptHandle : LeaseHandle where
  record := ⟨twoTokens false, 1, keptOwner_valid, one_pos, keptFence_le⟩
  options := keptOptions
  acquiredNs := 0

/-- The world right after the ACQUIRE. -/
def keptWorld : ElectionWorld where
  threads := ⟨.init, false, fun _ => none⟩
  server :=
    ⟨((acquireScript (twoTokens false) (decimal 30000)).run (Keyspace.empty 0)).2,
      fun _ => .init, []⟩
  time := 0
  actions := []

theorem granting_kept :
    Granting keptHandle keptWorld := by
  obtain ⟨db, hnow, hgranted⟩ := (Healthy.empty 0).acquire_vacant (by decide) keptOwner_valid
    (show 0 < 30000 by decide) (by decide)
  rw [if_neg (by decide)] at hgranted
  obtain ⟨hrun, r, howner, hfence, hdb⟩ := hgranted
  have hserver : keptWorld.server.db = db := congrArg Prod.snd hrun
  have hrecord : r = keptHandle.record := LeaseRecord.ext howner hfence
  refine ⟨rfl, fun _ => rfl, rfl, rfl, le_rfl, ?_, by simp [keptHandle, keptWorld], by decide, ?_⟩
  · rw [hserver, hnow]
    norm_num [Keyspace.empty, keptWorld, serverMs]
  · rw [hserver, hnow, ← hrecord, hfence]
    exact hdb

/-- The choices of a scheduler. -/
abbrev ElectionChoice :=
  System.Choice HandleThread HandleQuestion ElectionEvent HandleQuestion.Answer

/-- A thread gives the lease back after a second, and another client finds it kept. -/
def givingBack (t : HandleThread) : List ElectionChoice :=
  [.run t, .run t, .run t, .answer t .monotonicNs (1000000000 : Int), .run t,
    .env (.executeCurrent t),
    .answer t (.evalsha (.release keptHandle.record.toBytes (ascii "4000")))
      (.reply Reply.minTtlApplied.wire),
    .run t, .env (.foreign (.acquire (twoTokens true) (ascii "30000")))]

/-- The operation that a caller performs. -/
def operating (op : Operation) : HandleQuestion.nextOperation.Answer :=
  op

/-- A caller releases the handle. -/
def releasing : List ElectionChoice :=
  [.run elector, .run elector, .answer elector .nextOperation (operating .release),
    .env (.pass 1)] ++
    givingBack elector

/-- An elector calls its action, which returns seven after a second. -/
def leading : List ElectionChoice :=
  [.run elector, .run elector, .run elector, .env (.executeCurrent elector),
    .answer elector (.evalsha (.probe keptHandle.record.toBytes)) (.reply Reply.held.wire),
    .run elector, .run elector, .env (.pass 1), .answer elector (.action 1) (.ok 7)] ++
    givingBack elector

/-! ## The minimum lease time -/

/--
**The minimum lease time.**  In every run of any number of callers of a handle and its
worker, with operations in any order, replies that come, get lost or come late, commands
that run late, and other clients with scripts of their own: up to the minimum lease time
after the acquisition, in whole milliseconds, the lease key shows the handle's record, and
no ACQUIRE is granted.
-/
theorem minimum_lease
    (h : LeaseHandle) {w : ElectionWorld} {ls : List ElectionLabel} {c : ElectionPool Unit}
    (hw : Granting h w)
    (hrun : Run (ElectionStep h) (callersPool h w) ls c) :
    (∀ ev ∈ c.world.server.history, (ev.after.now : Int) < h.guaranteedMs → ev.issued = none) ∧
      ((c.world.server.db.now : Int) < h.guaranteedMs → Live c.world.server.db h.record) := by
  have hserver := ((callersPool_sound hw).run hrun).invariant.server
  exact ⟨hserver.early, hserver.live⟩

theorem releasing_kept :
    ((electionSystem keptHandle).schedule (callersPool keptHandle keptWorld) releasing).map
      (fun c => (c.world.threads.handle.state, c.world.server.db.now,
        c.world.server.history.map Executed.outcome)) =
      some (.released, 1000, [.ok .minTtlApplied, .ok .contended]) := by
  decide +kernel

/-- The handle is released, the lease is still there, and another client does not get it. -/
theorem minimum_lease_kept :
    ∃ ls c, Run (ElectionStep keptHandle) (callersPool keptHandle keptWorld) ls c ∧
      c.world.threads.handle.state = .released ∧ c.world.server.history.length = 2 ∧
      (∀ ev ∈ c.world.server.history, (ev.after.now : Int) < 5000 → ev.issued = none) ∧
      Live c.world.server.db keptHandle.record := by
  obtain ⟨c, hschedule, hc⟩ := Option.map_eq_some_iff.mp releasing_kept
  obtain ⟨hreleased, hrest⟩ := Prod.mk.inj hc
  obtain ⟨hnow, houtcomes⟩ := Prod.mk.inj hrest
  obtain ⟨ls, hrun⟩ := System.schedule_run hschedule
  obtain ⟨hearly, hlive⟩ := minimum_lease keptHandle granting_kept hrun
  refine ⟨ls, c, hrun, hreleased, ?_, hearly, hlive (by rw [hnow]; decide)⟩
  simpa using congrArg List.length houtcomes

/-! ## The exclusive use of the lease -/

/-- The script says that the record is the lease, and takes it back. -/
def Executed.takesBack {ι : Type} (record : LeaseRecord) (ev : Executed ι) : Prop :=
  (∃ remaining, ev.call = .release record.toBytes remaining) ∧
    (ev.outcome = .ok .deleted ∨ ev.outcome = .ok .minTtlApplied)

/-- A script with the property was executed before any fence was issued. -/
def BeforeAnyIssue {ι : Type} (P : Executed ι → Prop) (history : List (Executed ι)) : Prop :=
  ∃ before ev after, history = before ++ ev :: after ∧ P ev ∧ ∀ a ∈ before, a.issued = none

theorem ServerInvariant.beforeAnyIssue
    {db : Keyspace LeaseKey} {history : List (Executed HandleThread)}
    {P : Executed HandleThread → Prop} {ev : Executed HandleThread}
    (hs : ServerInvariant h db history)
    (hproves : ev.proves h.record)
    (hev : ev ∈ history)
    (hP : P ev) :
    BeforeAnyIssue P history := by
  obtain ⟨before, after, rfl⟩ := List.append_of_mem hev
  refine ⟨before, ev, after, rfl, hP, fun a ha => ?_⟩
  exact (List.pairwise_append.mp hs.exclusive).2.2 a ha ev List.mem_cons_self hproves

theorem HandedBack.beforeAnyIssue
    {w : ElectionWorld}
    (hback : HandedBack h w)
    (hw : LeaseInvariant h w) :
    BeforeAnyIssue (Executed.takesBack h.record) w.server.history := by
  obtain ⟨t, remaining, ⟨ev, hev, -, hcall, hreply⟩ | ⟨ev, hev, -, hcall, hreply⟩⟩ := hback
  · exact hw.server.beforeAnyIssue ⟨by rw [hcall]; rfl, _, hreply, rfl⟩ hev
      ⟨⟨remaining, hcall⟩, .inl hreply⟩
  · exact hw.server.beforeAnyIssue ⟨by rw [hcall]; rfl, _, hreply, rfl⟩ hev
      ⟨⟨remaining, hcall⟩, .inr hreply⟩

theorem Confirmed.beforeAnyIssue
    {w : ElectionWorld}
    (hconfirmed : Confirmed h w)
    (hw : LeaseInvariant h w) :
    BeforeAnyIssue (Executed.proves h.record) w.server.history := by
  obtain ⟨t, ⟨ev, hev, -, hcall, hreply⟩ | ⟨ttl, ev, hev, -, hcall, hreply⟩⟩ := hconfirmed
  · have hproves : ev.proves h.record := ⟨by rw [hcall]; rfl, _, hreply, rfl⟩
    exact hw.server.beforeAnyIssue hproves hev hproves
  · have hproves : ev.proves h.record := ⟨by rw [hcall]; rfl, _, hreply, rfl⟩
    exact hw.server.beforeAnyIssue hproves hev hproves

/--
**A released handle had the lease to itself.**  In every run of the callers of a handle:
whenever the handle is released, the server has executed a release of the record that took
the lease back, and no other ACQUIRE was granted between the grant of the lease and that
release.
-/
theorem released_exclusively
    (h : LeaseHandle) {w : ElectionWorld} {ls : List ElectionLabel} {c : ElectionPool Unit}
    (hw : Granting h w)
    (hrun : Run (ElectionStep h) (callersPool h w) ls c)
    (hreleased : c.world.threads.handle.state = .released) :
    BeforeAnyIssue (Executed.takesBack h.record) c.world.server.history := by
  have hinv := ((callersPool_sound hw).run hrun).invariant
  exact (hinv.released hreleased).beforeAnyIssue hinv

/-- A caller has released the handle, and the server took the lease back before. -/
theorem released_exclusively_kept :
    ∃ ls c, Run (ElectionStep keptHandle) (callersPool keptHandle keptWorld) ls c ∧
      c.world.threads.handle.state = .released ∧
      BeforeAnyIssue (Executed.takesBack keptHandle.record) c.world.server.history := by
  obtain ⟨c, hschedule, hc⟩ := Option.map_eq_some_iff.mp releasing_kept
  obtain ⟨hreleased, -⟩ := Prod.mk.inj hc
  obtain ⟨ls, hrun⟩ := System.schedule_run hschedule
  exact ⟨ls, c, hrun, hreleased, released_exclusively keptHandle granting_kept hrun hreleased⟩

/-- The elector has returned. -/
def ElectorReturned (c : ElectionPool (Option (Except Raised RunResult)))
    (r : Except Raised RunResult) : Prop :=
  c.thread elector = .running (.ret (some r))

/--
**The action of a leader is exclusive.**  In every run of an elector: the action is only
called with the fence of the lease, when it was not called before, and after the server has
confirmed the lease while no other ACQUIRE had been granted; and when the elector returns a
result, the lease was taken back before any other ACQUIRE was granted.
-/
theorem action_exclusive
    (h : LeaseHandle) {w : ElectionWorld} {ls : List ElectionLabel}
    {c : ElectionPool (Option (Except Raised RunResult))}
    (hw : Granting h w)
    (hrun : Run (ElectionStep h) (electorPool h w) ls c) :
    Run.EachStep (ElectionStep h) (fun c l _ => ∀ t fence, l = .thread t (.asked (.action fence)) →
        fence = h.record.fencingToken ∧ c.world.actions = [] ∧
          BeforeAnyIssue (Executed.proves h.record) c.world.server.history)
      (electorPool h w) ls c ∧
    ∀ result, ElectorReturned c (.ok result) →
      BeforeAnyIssue (Executed.takesBack h.record) c.world.server.history := by
  have hstart := electorPool_sound hw
  refine ⟨?_, fun result hreturned => ?_⟩
  · -- every step is guaranteed, and starts in the invariant
    refine hrun.eachStep (I := fun c => ElectionSound h (ElectorReturns h) c)
      (fun c l c' hc hstep => ⟨?_, hc.step hstep⟩) hstart
    rintro t fence rfl
    obtain ⟨hguar | ⟨hunrolled, -⟩, -⟩ := System.Pool.sound_step hc.sound hstep
    · obtain ⟨hfence, hfirst, hconfirmed⟩ := hguar.action fence rfl
      exact ⟨hfence, hfirst, hconfirmed.beforeAnyIssue hc.invariant⟩
    · cases hunrolled
  · have hc := hstart.run hrun
    obtain ⟨actions, -, -, hback⟩ := hc.sound.post hreturned _ rfl
    exact (hback result rfl).beforeAnyIssue hc.invariant

/-- The value of the action that an elector has returned. -/
def electedValue (c : ElectionPool (Option (Except Raised RunResult))) : Option Nat :=
  match c.thread elector with
  | .running (.ret (some (.ok (.elected value)))) => some value
  | _ => none

theorem returned_of_value
    {c : ElectionPool (Option (Except Raised RunResult))} {value : Nat}
    (hvalue : electedValue c = some value) :
    ElectorReturned c (.ok (.elected value)) := by
  unfold electedValue at hvalue
  split at hvalue
  · rename_i hthread
    rw [← Option.some.inj hvalue]
    exact hthread
  · cases hvalue

theorem leading_kept :
    ((electionSystem keptHandle).schedule (electorPool keptHandle keptWorld) leading).map
      electedValue = some (some 7) := by
  decide +kernel

/-- The action has returned seven, and the lease was given back before anybody got it. -/
theorem action_exclusive_kept :
    ∃ ls c, Run (ElectionStep keptHandle) (electorPool keptHandle keptWorld) ls c ∧
      ElectorReturned c (.ok (.elected 7)) ∧
      BeforeAnyIssue (Executed.takesBack keptHandle.record) c.world.server.history := by
  obtain ⟨c, hschedule, hvalue⟩ := Option.map_eq_some_iff.mp leading_kept
  obtain ⟨ls, hrun⟩ := System.schedule_run hschedule
  have hreturned := returned_of_value hvalue
  exact ⟨ls, c, hrun, hreturned,
    (action_exclusive keptHandle granting_kept hrun).2 _ hreturned⟩

/--
**What an elector reports.**  In every run of an elector: when it has returned, its result
tells how the action has ended, and no failure of the lifecycle or of the action is lost.
-/
theorem elector_ends
    (h : LeaseHandle) {w : ElectionWorld} {ls : List ElectionLabel}
    {c : ElectionPool (Option (Except Raised RunResult))} {r : Except Raised RunResult}
    (hw : Granting h w)
    (hrun : Run (ElectionStep h) (electorPool h w) ls c)
    (hreturned : ElectorReturned c r) :
    ElectorEnds c.world.actions r := by
  obtain ⟨actions, hstanding, hends, -⟩ :=
    ((electorPool_sound hw).run hrun).sound.post hreturned r rfl
  rw [hstanding.2 rfl]
  exact hends

/-- The elector reports the value that its action has returned. -/
theorem elector_ends_kept :
    ∃ ls c, Run (ElectionStep keptHandle) (electorPool keptHandle keptWorld) ls c ∧
      ElectorReturned c (.ok (.elected 7)) ∧ ElectorEnds c.world.actions (.ok (.elected 7)) := by
  obtain ⟨c, hschedule, hvalue⟩ := Option.map_eq_some_iff.mp leading_kept
  obtain ⟨ls, hrun⟩ := System.schedule_run hschedule
  have hreturned := returned_of_value hvalue
  exact ⟨ls, c, hrun, hreturned, elector_ends keptHandle granting_kept hrun hreturned⟩

end Runs

end LeaderRedis
end Bluetape
