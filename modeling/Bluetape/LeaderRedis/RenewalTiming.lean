import Bluetape.LeaderRedis.LockHandle
import Bluetape.LeaderRedis.Fencing
import Mathlib.Data.Rat.Floor
import Mathlib.Tactic.Linarith

/-!
# The renewal loop in real time

One thread sends the entry renewal of a handle and then runs the loop of its
worker, against a server whose clock counts the milliseconds of the same real
time.  Replies arrive within the renewal envelope, the loop sends exactly one
interval after the last reply, and a command runs on the server at any moment
in between.  Other clients run their scripts at any time.

* `KeepsLeaseInEveryRun`: no renewal fails and the lease never expires.
* `keepsLease_of_gap`: an interval with two envelopes inside the lease time
  keeps the lease in every run.
-/

namespace Bluetape
namespace LeaderRedis

open Base

/-- The server clock in milliseconds, at a real time in seconds. -/
def serverMs (time : ℚ) : Nat :=
  ⌊1000 * time⌋₊

/-- The server clock stays below this, so that expiry times are in range. -/
def clockEnd : Nat :=
  9000000000000000000

/-- What the renewing thread waits for. -/
inductive RenewalPhase
  | idle
  | waiting (since : ℚ)
  | inFlight (dispatched : ℚ) (call : Call) (outcome : Option (Except CommandError Reply))
  | retrying (dispatched : ℚ)
  | stopped

/-- The server, the real time in seconds and the renewing thread. -/
structure RenewalWorld where
  db : Keyspace LeaseKey
  time : ℚ
  handle : HandleState
  phase : RenewalPhase
  entered : Bool

/-- What happens beside the renewing thread. -/
inductive RenewalEvent
  | pass (time : ℚ)
  | execute
  | other (call : Call)
  | stop

section System

variable (h : LeaseHandle) (timing : Timing)

/-- `interval.total_seconds()` of the loop -/
def LeaseHandle.intervalSeconds : ℚ :=
  (h.options.renewInterval.map Timedelta.totalSeconds).getD 0

/-- The lease time in the milliseconds that Redis gets. -/
def LeaseHandle.leaseMs : Nat :=
  (durationMilliseconds h.options.leaseTime).getD 0

/-- The renewal that the loop sends. -/
def LeaseHandle.renewal : Call :=
  .renew h.record.toBytes (millisecondsText h.leaseMs)

/-- The latest time up to which the phase may last. -/
def RenewalPhase.deadline (phase : RenewalPhase) : Option ℚ :=
  match phase with
  | .waiting since => some (since + h.intervalSeconds)
  | .inFlight dispatched _ _ | .retrying dispatched => some (dispatched + timing.renew)
  | .idle | .stopped => none

/-- A call that neither renews nor releases the handle's record. -/
def Call.foreign (record : LeaseRecord) : Call → Bool
  | .renew bytes _ | .release bytes _ => bytes != record.toBytes
  | _ => true

/-- The events beside the thread. -/
def renewalEvent (w : RenewalWorld) : RenewalEvent → Option RenewalWorld
  | .pass time =>
      if w.time ≤ time ∧ serverMs time ≤ clockEnd ∧
          (∀ deadline ∈ w.phase.deadline h timing, time ≤ deadline) then
        some { w with time := time, db := w.db.advance (serverMs time - w.db.now) }
      else none
  | .execute =>
      match w.phase with
      | .inFlight dispatched call none =>
          let (outcome, db) := call.script.run w.db
          -- only handles whose entry renewal succeeds are entered
          if w.entered ∨ outcome = .ok .renewed then
            some { w with
              db := db
              phase := .inFlight dispatched call (some outcome)
              entered := true }
          else none
      | _ => none
  | .other call =>
      if call.foreign h.record = true ∧ validateDispatch call = true then
        some { w with db := (call.script.run w.db).2 }
      else none
  | .stop => some { w with handle := { w.handle with stopEvent := true } }

/-- When a question is issued, and what that does. -/
def issueRenewal (w : RenewalWorld) : HandleQuestion → Option RenewalWorld
  | .evalsha call =>
      match w.phase with
      | .idle => some { w with phase := .inFlight w.time call none }
      | .waiting since =>
          if w.time = since + h.intervalSeconds then
            some { w with phase := .inFlight w.time call none }
          else none
      | _ => none
  | .eval call =>
      match w.phase with
      | .retrying dispatched => some { w with phase := .inFlight dispatched call none }
      | _ => none
  | _ => some w

/-- The reply to a command that has been executed. -/
def replyRenewal (w : RenewalWorld) (answer : ScriptAnswer) : Option RenewalWorld :=
  match w.phase with
  | .inFlight _ _ (some outcome) =>
      if answer = .ofOutcome outcome then some { w with phase := .waiting w.time } else none
  | _ => none

/-- How a question is answered. -/
def answerRenewal (w : RenewalWorld) : (q : HandleQuestion) → q.Answer → Option RenewalWorld
  | .evalsha _, .noScript =>
      match w.phase with
      | .inFlight dispatched _ none => some { w with phase := .retrying dispatched }
      | _ => none
  | .evalsha _, answer | .eval _, answer => replyRenewal w answer
  | .waitStop, true =>
      if w.handle.stopEvent then some { w with phase := .stopped } else none
  | .waitStop, false =>
      match w.phase with
      | .waiting since =>
          if w.time = since + h.intervalSeconds then some w else none
      | _ => none
  | _, _ => some w

/-- The world around the renewing thread. -/
def renewalSystem :
    System Unit RenewalWorld HandleState HandleSection HandleQuestion RenewalEvent
      HandleQuestion.Answer where
  view _ w := w.handle
  put _ s w := { w with handle := s }
  enabled _ _ _ := true
  issue _ q w := issueRenewal h w q
  answer _ q a w := answerRenewal h w q a
  env e w := renewalEvent h timing w e

/-- The entry renewal of `__enter__`, and the loop of the worker that it starts. -/
def renewingThread : HandleProc Unit := do
  match ← (renew h none).run with
  | .ok .renewed => renewLoop h
  | _ => return ()

/-- The renewing thread and its world. -/
abbrev RenewalPool :=
  System.Pool Unit RenewalWorld HandleState HandleSection HandleQuestion
    HandleQuestion.Answer Unit

/-- The thread in a world. -/
def renewalPool (w : RenewalWorld) : RenewalPool where
  world := w
  thread _ := .running (renewingThread h)

/-- Right before the entry renewal. -/
structure Entering (w : RenewalWorld) : Prop where
  handle : w.handle = { HandleState.init with state := .entered }
  phase : w.phase = .idle
  entered : w.entered = false
  nonneg : 0 ≤ w.time
  clock : w.db.now = serverMs w.time
  inRange : serverMs w.time ≤ clockEnd
  healthy : ∃ counter holder, Healthy w.db counter holder

/-- The lease key holds the handle's record, and some of its time is left. -/
def Leased (w : RenewalWorld) : Prop :=
  ∃ e, w.db.lookup .lease = some ⟨.string h.record.toBytes, some e⟩ ∧ w.db.now < e

/--
Every renewal is answered `RENEWED`, and from the entry renewal until the loop
stops the lease has not expired.
-/
def KeepsLease (w : RenewalWorld) : Prop :=
  (∀ dispatched call outcome,
    w.phase = .inFlight dispatched call (some outcome) → outcome = .ok .renewed) ∧
  (w.entered = true → w.phase ≠ .stopped → Leased h w)

/-- The lease is kept in every state of every run. -/
def KeepsLeaseInEveryRun : Prop :=
  ∀ w ls c, Entering w →
    Run (System.PoolStep (renewalSystem h timing)) (renewalPool h w) ls c →
    KeepsLease h c.world

end System

/-! ## The gap between two executions -/

section Gap

variable (h : LeaseHandle) (timing : Timing)

theorem LeaseHandle.intervalSeconds_nonneg :
    0 ≤ h.intervalSeconds := by
  unfold LeaseHandle.intervalSeconds
  cases hinterval : h.options.renewInterval with
  | none =>
      simp
  | some interval =>
      have hpos := (h.options.interval_bounds interval hinterval).1
      simp only [Option.map_some, Option.getD_some, Timedelta.totalSeconds]
      positivity

theorem LeaseHandle.intervalSeconds_le :
    h.intervalSeconds ≤ 86400000000000 := by
  unfold LeaseHandle.intervalSeconds
  cases h.options.renewInterval with
  | none =>
      norm_num
  | some interval =>
      have hmax : (interval.total : ℚ) ≤ 86399999999999999999 := by
        exact_mod_cast interval.le_max
      simp only [Option.map_some, Option.getD_some, Timedelta.totalSeconds]
      linarith

theorem LeaseHandle.leaseMs_le :
    h.leaseMs ≤ 86399999999999999 := by
  unfold LeaseHandle.leaseMs
  rw [durationMilliseconds_eq]
  have hmax := h.options.leaseTime.le_max
  split
  · simp
  · simp only [Option.getD_some]
    omega

/-- A lease time with room for the gap is positive. -/
theorem leaseMs_pos_of_gap
    {h : LeaseHandle} {timing : Timing}
    (hgap : 1000 * (h.intervalSeconds + 2 * timing.renew) ≤ (h.leaseMs : ℚ) - 1) :
    0 < h.leaseMs := by
  have hinterval := h.intervalSeconds_nonneg
  have hrenew := timing.renew_pos
  have hpos : (0 : ℚ) < h.leaseMs := by linarith
  exact_mod_cast hpos

/-- Within the gap the server clock advances by less than the lease time. -/
theorem serverMs_lt_of_gap
    {gap x time : ℚ} {ttl : Nat}
    (hgap : 1000 * gap ≤ (ttl : ℚ) - 1)
    (htime : 0 ≤ time)
    (hle : time - x ≤ gap) :
    serverMs time < serverMs x + ttl := by
  unfold serverMs
  rw [Nat.floor_lt (by positivity)]
  have hfloor := Nat.lt_floor_add_one (1000 * x)
  push_cast
  linarith

/-- A larger gap is long enough for the whole lease time, when it starts early. -/
theorem exists_serverMs_of_gap
    {gap : ℚ} {ttl : Nat}
    (hgap : (ttl : ℚ) - 1 < 1000 * gap)
    (hpos : 0 ≤ gap) :
    ∃ x, 0 ≤ x ∧ serverMs x = 0 ∧ ttl ≤ serverMs (x + gap) := by
  refine ⟨max 0 ((ttl : ℚ) / 1000 - gap), le_max_left _ _, ?_, ?_⟩
  · unfold serverMs
    rw [Nat.floor_eq_zero]
    rcases max_cases (0 : ℚ) ((ttl : ℚ) / 1000 - gap) with ⟨heq, -⟩ | ⟨heq, -⟩ <;>
      rw [heq] <;> linarith
  · unfold serverMs
    have hmax := le_max_right (0 : ℚ) ((ttl : ℚ) / 1000 - gap)
    rw [Nat.le_floor_iff (by positivity)]
    linarith

end Gap

/-! ## The lease is kept -/

/-- A foreign call leaves an unexpired lease as it is. -/
theorem Healthy.run_foreign
    {db : Keyspace LeaseKey} {counter e : Nat} {record : LeaseRecord} {call : Call}
    (hdb : Healthy db counter (some (record, e)))
    (hlt : db.now < e)
    (hforeign : call.foreign record = true)
    (hok : validateDispatch call = true) :
    (call.script.run db).2 = db := by
  have hother : ∀ r, r.toBytes ≠ record.toBytes →
      ¬ proves (some (record, e)) db.now r := by
    rintro r hne ⟨e', heq, -⟩
    obtain ⟨rfl, -⟩ := Prod.mk.inj (Option.some.inj heq)
    exact hne rfl
  cases call with
  | acquire owner ttl =>
      exact congrArg Prod.snd (hdb.acquire_held owner ttl)
  | renew bytes ttl =>
      simp only [validateDispatch, Bool.and_eq_true] at hok
      obtain ⟨r, rfl⟩ := record_of_validate hok.1
      have hne : r.toBytes ≠ record.toBytes := by simpa [Call.foreign] using hforeign
      exact congrArg Prod.snd (hdb.renew_other r ttl (hother r hne))
  | probe bytes =>
      obtain ⟨r, rfl⟩ := record_of_validate hok
      by_cases hr : proves (some (record, e)) db.now r
      · obtain ⟨e', heq, hlt'⟩ := hr
        obtain ⟨rfl, rfl⟩ := Prod.mk.inj (Option.some.inj heq)
        exact congrArg Prod.snd (hdb.probe_holder hlt')
      · exact congrArg Prod.snd (hdb.probe_other r hr)
  | release bytes remaining =>
      simp only [validateDispatch, Bool.and_eq_true] at hok
      obtain ⟨r, rfl⟩ := record_of_validate hok.1
      have hne : r.toBytes ≠ record.toBytes := by simpa [Call.foreign] using hforeign
      exact congrArg Prod.snd (hdb.release_other r remaining (hother r hne))
  | reconcile =>
      exact congrArg Prod.snd (hdb.reconcile_holder hlt)

/-- A renewal within the range of the clock: it extends a proven lease, or finds none. -/
theorem Healthy.renewal_cases
    {db : Keyspace LeaseKey} {counter : Nat} {holder : Option (LeaseRecord × Nat)}
    (hdb : Healthy db counter holder) (h : LeaseHandle)
    (hpos : 0 < h.leaseMs)
    (hrange : db.now ≤ clockEnd) :
    (proves holder db.now h.record ∧ ∃ db', db'.now = db.now ∧
        h.renewal.script.run db = (.ok .renewed, db') ∧
        Healthy db' counter (some (h.record, db.now + h.leaseMs))) ∨
      (¬ proves holder db.now h.record ∧
        h.renewal.script.run db = (.ok .notHeld, db)) := by
  by_cases hproves : proves holder db.now h.record
  · refine Or.inl ⟨hproves, ?_⟩
    obtain ⟨e, rfl, hlt⟩ := hproves
    have hmax := h.leaseMs_le
    have hle : h.leaseMs ≤ maxInt64 := by
      unfold maxInt64
      omega
    have hfits : ¬ maxInt64 < db.now + h.leaseMs := by
      unfold maxInt64
      unfold clockEnd at hrange
      omega
    obtain ⟨db', hnow, hrenew⟩ := hdb.renew_holder hlt hpos hle
    rw [if_neg hfits] at hrenew
    exact ⟨db', hnow, hrenew.1, hrenew.2⟩
  · exact Or.inr ⟨hproves, hdb.renew_other h.record _ hproves⟩

section Kept

variable (h : LeaseHandle) (timing : Timing)

/-- The record was renewed at a real time, and nothing has changed it since. -/
def RenewedAt (x : ℚ) (w : RenewalWorld) : Prop :=
  x ≤ w.time ∧ ∃ counter, Healthy w.db counter (some (h.record, serverMs x + h.leaseMs))

/-- What each phase knows about the last renewal. -/
def PhaseInvariant (w : RenewalWorld) : Prop :=
  match w.phase with
  | .idle => w.entered = false
  | .waiting since =>
      w.entered = true ∧ w.time ≤ since + h.intervalSeconds ∧
        ∃ x, RenewedAt h x w ∧ since - timing.renew ≤ x
  | .retrying dispatched =>
      w.time ≤ dispatched + timing.renew ∧ dispatched ≤ w.time ∧
        (w.entered = true →
          ∃ x, RenewedAt h x w ∧ dispatched - (h.intervalSeconds + timing.renew) ≤ x)
  | .inFlight dispatched call none =>
      call = h.renewal ∧ w.time ≤ dispatched + timing.renew ∧ dispatched ≤ w.time ∧
        (w.entered = true →
          ∃ x, RenewedAt h x w ∧ dispatched - (h.intervalSeconds + timing.renew) ≤ x)
  | .inFlight dispatched _ (some outcome) =>
      outcome = .ok .renewed ∧ w.entered = true ∧ w.time ≤ dispatched + timing.renew ∧
        ∃ x, RenewedAt h x w ∧ dispatched ≤ x
  | .stopped => True

/-- The invariant of the renewing thread's world. -/
structure RenewalInvariant (w : RenewalWorld) : Prop where
  nonneg : 0 ≤ w.time
  clock : w.db.now = serverMs w.time
  inRange : serverMs w.time ≤ clockEnd
  healthy : ∃ counter holder, Healthy w.db counter holder
  phase : PhaseInvariant h timing w

/-- The time since the last renewal is at most an interval and two envelopes. -/
theorem RenewalInvariant.recent
    {w : RenewalWorld}
    (hw : RenewalInvariant h timing w)
    (hentered : w.entered = true)
    (hphase : w.phase ≠ .stopped) :
    ∃ x, RenewedAt h x w ∧ w.time - x ≤ h.intervalSeconds + 2 * timing.renew := by
  have hinterval := h.intervalSeconds_nonneg
  have hrenew := timing.renew_pos
  have hinv := hw.phase
  unfold PhaseInvariant at hinv
  split at hinv
  · rw [hentered] at hinv
    cases hinv
  · obtain ⟨-, htime, x, hx, hle⟩ := hinv
    exact ⟨x, hx, by linarith⟩
  · obtain ⟨htime, -, hinv⟩ := hinv
    obtain ⟨x, hx, hle⟩ := hinv hentered
    exact ⟨x, hx, by linarith⟩
  · obtain ⟨-, htime, -, hinv⟩ := hinv
    obtain ⟨x, hx, hle⟩ := hinv hentered
    exact ⟨x, hx, by linarith⟩
  · obtain ⟨-, -, htime, x, hx, hle⟩ := hinv
    exact ⟨x, hx, by linarith⟩
  · contradiction

variable {h timing}

theorem serverMs_mono
    {time time' : ℚ}
    (hle : time ≤ time') :
    serverMs time ≤ serverMs time' :=
  Nat.floor_mono (by linarith)

/-- The clock of a server that is advanced to a later time. -/
theorem advance_serverMs_now
    {db : Keyspace LeaseKey} {time time' : ℚ}
    (hclock : db.now = serverMs time)
    (hle : time ≤ time') :
    (db.advance (serverMs time' - db.now)).now = serverMs time' := by
  rw [Keyspace.advance_now, hclock]
  exact Nat.add_sub_cancel' (serverMs_mono hle)

/-- What the last renewal left is still there after some time. -/
theorem RenewedAt.pass
    {w : RenewalWorld} {x time : ℚ}
    (hx : RenewedAt h x w)
    (hclock : w.db.now = serverMs w.time)
    (hle : w.time ≤ time)
    (hlt : serverMs time < serverMs x + h.leaseMs) :
    RenewedAt h x { w with time := time, db := w.db.advance (serverMs time - w.db.now) } := by
  obtain ⟨hxle, counter, hdb⟩ := hx
  refine ⟨hxle.trans hle, counter, ?_⟩
  have hmono : w.db.now ≤ serverMs time := hclock.trans_le (serverMs_mono hle)
  have hadvance := hdb.advance (serverMs time - w.db.now)
  rw [Nat.add_sub_cancel' hmono] at hadvance
  simpa [Option.filter, hlt.le] using hadvance

section Invariant

variable (hgap : 1000 * (h.intervalSeconds + 2 * timing.renew) ≤ (h.leaseMs : ℚ) - 1)

include hgap

/-- The last renewal has not expired. -/
theorem RenewalInvariant.lt_expiry
    {w : RenewalWorld} {x : ℚ}
    (hw : RenewalInvariant h timing w)
    (hrecent : w.time - x ≤ h.intervalSeconds + 2 * timing.renew) :
    w.db.now < serverMs x + h.leaseMs := by
  rw [hw.clock]
  exact serverMs_lt_of_gap hgap hw.nonneg hrecent

theorem RenewalInvariant.keepsLease
    {w : RenewalWorld}
    (hw : RenewalInvariant h timing w) :
    KeepsLease h w := by
  refine ⟨fun dispatched call outcome hphase => ?_, fun hentered hphase => ?_⟩
  · have hinv := hw.phase
    unfold PhaseInvariant at hinv
    rw [hphase] at hinv
    exact hinv.1
  · obtain ⟨x, ⟨-, counter, hdb⟩, hrecent⟩ := hw.recent h timing hentered hphase
    exact ⟨_, hdb.lease, hw.lt_expiry hgap hrecent⟩

theorem RenewalInvariant.pass
    {w : RenewalWorld} {time : ℚ}
    (hw : RenewalInvariant h timing w)
    (hle : w.time ≤ time)
    (hrange : serverMs time ≤ clockEnd)
    (hdeadline : ∀ deadline ∈ w.phase.deadline h timing, time ≤ deadline) :
    RenewalInvariant h timing
      { w with time := time, db := w.db.advance (serverMs time - w.db.now) } where
  nonneg := hw.nonneg.trans hle
  clock := advance_serverMs_now hw.clock hle
  inRange := hrange
  healthy := by
    obtain ⟨counter, holder, hdb⟩ := hw.healthy
    exact ⟨counter, _, hdb.advance _⟩
  phase := by
    have hrenew := timing.renew_pos
    have hinterval := h.intervalSeconds_nonneg
    have hkeep : ∀ x, RenewedAt h x w →
        time - x ≤ h.intervalSeconds + 2 * timing.renew →
        RenewedAt h x { w with
          time := time, db := w.db.advance (serverMs time - w.db.now) } := by
      intro x hx hrecent
      exact hx.pass hw.clock hle (serverMs_lt_of_gap hgap (hw.nonneg.trans hle) hrecent)
    have hinv := hw.phase
    cases hphase : w.phase with
    | idle =>
        simpa only [PhaseInvariant, hphase] using hinv
    | waiting since =>
        simp only [hphase, RenewalPhase.deadline, Option.mem_some_iff, forall_eq'] at hdeadline
        simp only [PhaseInvariant, hphase] at hinv ⊢
        obtain ⟨hentered, -, x, hx, hxle⟩ := hinv
        exact ⟨hentered, hdeadline, x, hkeep x hx (by linarith), hxle⟩
    | retrying dispatched =>
        simp only [hphase, RenewalPhase.deadline, Option.mem_some_iff, forall_eq'] at hdeadline
        simp only [PhaseInvariant, hphase] at hinv ⊢
        obtain ⟨-, hstart, hinv⟩ := hinv
        refine ⟨hdeadline, hstart.trans hle, fun hentered => ?_⟩
        obtain ⟨x, hx, hxle⟩ := hinv hentered
        exact ⟨x, hkeep x hx (by linarith), hxle⟩
    | inFlight dispatched call outcome =>
        simp only [hphase, RenewalPhase.deadline, Option.mem_some_iff, forall_eq'] at hdeadline
        cases outcome with
        | none =>
            simp only [PhaseInvariant, hphase] at hinv ⊢
            obtain ⟨hcall, -, hstart, hinv⟩ := hinv
            refine ⟨hcall, hdeadline, hstart.trans hle, fun hentered => ?_⟩
            obtain ⟨x, hx, hxle⟩ := hinv hentered
            exact ⟨x, hkeep x hx (by linarith), hxle⟩
        | some outcome =>
            simp only [PhaseInvariant, hphase] at hinv ⊢
            obtain ⟨hok, hentered, -, x, hx, hxle⟩ := hinv
            exact ⟨hok, hentered, hdeadline, x, hkeep x hx (by linarith), hxle⟩
    | stopped =>
        simp only [PhaseInvariant]

/-- An entered renewal that runs on the server is answered `RENEWED`. -/
theorem RenewalInvariant.execute
    {w w' : RenewalWorld}
    (hw : RenewalInvariant h timing w)
    (hstep : renewalEvent h timing w .execute = some w') :
    RenewalInvariant h timing w' := by
  simp only [renewalEvent] at hstep
  split at hstep
  case h_2 => cases hstep
  case h_1 dispatched call hphase =>
      have hinv := hw.phase
      simp only [PhaseInvariant, hphase] at hinv
      obtain ⟨rfl, htime, hstart, hinv⟩ := hinv
      obtain ⟨counter, holder, hdb⟩ := hw.healthy
      have hrange : w.db.now ≤ clockEnd := hw.clock ▸ hw.inRange
      have hlease : 0 < h.leaseMs := leaseMs_pos_of_gap hgap
      rcases hdb.renewal_cases h hlease hrange with
        ⟨-, db', hnow, hrun, hdb'⟩ | ⟨hnot, hrun⟩
      · rw [hrun] at hstep
        simp only [or_true, if_true, Option.some.injEq] at hstep
        subst hstep
        rw [hw.clock] at hnow hdb'
        exact ⟨hw.nonneg, hnow, hw.inRange, ⟨counter, _, hdb'⟩,
          rfl, rfl, htime, w.time, ⟨le_rfl, counter, hdb'⟩, hstart⟩
      · -- an entered handle still has its lease, any other renewal is not of interest
        rw [hrun] at hstep
        have hentered : w.entered = true := by
          by_contra hno
          simp [hno] at hstep
        obtain ⟨x, ⟨-, counter', hdb'⟩, hxle⟩ := hinv hentered
        have hrecent : w.time - x ≤ h.intervalSeconds + 2 * timing.renew := by linarith
        have hproves : Healthy.proves (some (h.record, serverMs x + h.leaseMs)) w.db.now h.record :=
          ⟨_, rfl, hw.lt_expiry hgap hrecent⟩
        rcases hdb'.renewal_cases h hlease hrange with ⟨-, db', -, hrun', -⟩ | ⟨hnot', -⟩
        · rw [hrun] at hrun'
          cases (Prod.mk.inj hrun').1
        · exact absurd hproves hnot'

/-- Other clients leave the invariant alone. -/
theorem RenewalInvariant.other
    {w : RenewalWorld} {call : Call}
    (hw : RenewalInvariant h timing w)
    (hforeign : call.foreign h.record = true)
    (hok : validateDispatch call = true) :
    RenewalInvariant h timing { w with db := (call.script.run w.db).2 } := by
  by_cases hactive : w.entered = true ∧ w.phase ≠ .stopped
  · -- an unexpired lease is not changed at all
    obtain ⟨x, ⟨-, counter, hdb⟩, hrecent⟩ := hw.recent h timing hactive.1 hactive.2
    have hsame := hdb.run_foreign (hw.lt_expiry hgap hrecent) hforeign hok
    rw [hsame]
    exact hw
  · obtain ⟨counter, holder, hdb⟩ := hw.healthy
    obtain ⟨counter', holder', hdb', -⟩ := effect_of_step hdb (.script w.db call hok)
    have hnow := call.frozen w.db
    refine ⟨hw.nonneg, hnow.trans hw.clock, hw.inRange, ⟨counter', holder', hdb'⟩, ?_⟩
    have hinv := hw.phase
    have hno : w.phase ≠ .stopped → w.entered = false := by
      intro hphase
      by_contra hentered
      exact hactive ⟨by simpa using hentered, hphase⟩
    cases hphase : w.phase with
    | idle =>
        simpa only [PhaseInvariant, hphase] using hinv
    | waiting since =>
        simp [PhaseInvariant, hphase, hno] at hinv
    | retrying dispatched =>
        simp only [PhaseInvariant, hphase] at hinv ⊢
        exact ⟨hinv.1, hinv.2.1, by simp [hno, hphase]⟩
    | inFlight dispatched call outcome =>
        cases outcome with
        | none =>
            simp only [PhaseInvariant, hphase] at hinv ⊢
            exact ⟨hinv.1, hinv.2.1, hinv.2.2.1, by simp [hno, hphase]⟩
        | some outcome =>
            simp [PhaseInvariant, hphase, hno] at hinv
    | stopped =>
        simp only [PhaseInvariant]

/-- Whatever happens beside the thread keeps the invariant. -/
theorem RenewalInvariant.event
    {w w' : RenewalWorld} {e : RenewalEvent}
    (hw : RenewalInvariant h timing w)
    (hstep : renewalEvent h timing w e = some w') :
    RenewalInvariant h timing w' := by
  cases e with
  | pass time =>
      obtain ⟨⟨hle, hrange, hdeadline⟩, hsome⟩ := Option.ite_none_right_eq_some.mp hstep
      obtain rfl := Option.some.inj hsome
      exact hw.pass hgap hle hrange hdeadline
  | execute =>
      exact hw.execute hgap hstep
  | other call =>
      obtain ⟨⟨hforeign, hok⟩, hsome⟩ := Option.ite_none_right_eq_some.mp hstep
      obtain rfl := Option.some.inj hsome
      exact hw.other hgap hforeign hok
  | stop =>
      obtain rfl := Option.some.inj hstep
      exact ⟨hw.nonneg, hw.clock, hw.inRange, hw.healthy, hw.phase⟩

end Invariant

/-- A renewal goes out only when the phase allows it. -/
theorem RenewalInvariant.issue
    {w w' : RenewalWorld} {q : HandleQuestion}
    (hw : RenewalInvariant h timing w)
    (hq : ∀ call, q = .evalsha call ∨ q = .eval call → call = h.renewal)
    (hstep : issueRenewal h w q = some w') :
    RenewalInvariant h timing w' := by
  have hrenew := timing.renew_pos
  have hinv := hw.phase
  cases q
  case evalsha call =>
      obtain rfl := hq call (Or.inl rfl)
      simp only [issueRenewal] at hstep
      split at hstep
      case h_1 hphase =>
          obtain rfl := Option.some.inj hstep
          simp only [PhaseInvariant, hphase] at hinv
          refine ⟨hw.nonneg, hw.clock, hw.inRange, hw.healthy, rfl, ?_, le_rfl, ?_⟩
          · dsimp only
            linarith
          · simp [hinv]
      case h_2 since hphase =>
          obtain ⟨htime, hsome⟩ := Option.ite_none_right_eq_some.mp hstep
          obtain rfl := Option.some.inj hsome
          simp only [PhaseInvariant, hphase] at hinv
          obtain ⟨-, -, x, hx, hxle⟩ := hinv
          refine ⟨hw.nonneg, hw.clock, hw.inRange, hw.healthy, rfl, ?_, le_rfl,
            fun _ => ⟨x, hx, ?_⟩⟩
          · dsimp only
            linarith
          · linarith
      case h_3 =>
          cases hstep
  case eval call =>
      obtain rfl := hq call (Or.inr rfl)
      simp only [issueRenewal] at hstep
      split at hstep
      case h_1 dispatched hphase =>
          obtain rfl := Option.some.inj hstep
          simp only [PhaseInvariant, hphase] at hinv
          exact ⟨hw.nonneg, hw.clock, hw.inRange, hw.healthy, rfl, hinv⟩
      case h_2 =>
          cases hstep
  all_goals
    obtain rfl := Option.some.inj hstep
    exact hw

/-- A reply starts the next wait. -/
theorem RenewalInvariant.reply
    {w w' : RenewalWorld} {answer : ScriptAnswer}
    (hw : RenewalInvariant h timing w)
    (hstep : replyRenewal w answer = some w') :
    RenewalInvariant h timing w' := by
  have hinv := hw.phase
  have hinterval := h.intervalSeconds_nonneg
  unfold replyRenewal at hstep
  split at hstep
  case h_1 dispatched call outcome hphase =>
      obtain ⟨-, hsome⟩ := Option.ite_none_right_eq_some.mp hstep
      obtain rfl := Option.some.inj hsome
      simp only [PhaseInvariant, hphase] at hinv
      obtain ⟨-, hentered, htime, x, hx, hxle⟩ := hinv
      refine ⟨hw.nonneg, hw.clock, hw.inRange, hw.healthy, hentered, ?_, x, hx, ?_⟩
      · dsimp only
        linarith
      · linarith
  case h_2 =>
      cases hstep

theorem RenewalInvariant.answer
    {w w' : RenewalWorld} {q : HandleQuestion} {a : q.Answer}
    (hw : RenewalInvariant h timing w)
    (hstep : answerRenewal h w q a = some w') :
    RenewalInvariant h timing w' := by
  have hinv := hw.phase
  cases q
  case evalsha call =>
      cases a with
      | noScript =>
          simp only [answerRenewal] at hstep
          split at hstep
          case h_1 dispatched call' hphase =>
              obtain rfl := Option.some.inj hstep
              simp only [PhaseInvariant, hphase] at hinv
              exact ⟨hw.nonneg, hw.clock, hw.inRange, hw.healthy, hinv.2⟩
          case h_2 =>
              cases hstep
      | reply raw =>
          exact hw.reply hstep
      | raised e =>
          exact hw.reply hstep
  case eval call =>
      exact hw.reply hstep
  case waitStop =>
      cases a with
      | true =>
          obtain ⟨-, hsome⟩ := Option.ite_none_right_eq_some.mp hstep
          obtain rfl := Option.some.inj hsome
          exact ⟨hw.nonneg, hw.clock, hw.inRange, hw.healthy, trivial⟩
      | false =>
          simp only [answerRenewal] at hstep
          split at hstep
          case h_1 since hphase =>
              obtain ⟨-, hsome⟩ := Option.ite_none_right_eq_some.mp hstep
              obtain rfl := Option.some.inj hsome
              exact hw
          case h_2 =>
              cases hstep
  all_goals
    obtain rfl := Option.some.inj hstep
    exact hw

end Kept

/-! ### The thread sends only its renewal -/

section Renews

variable (h : LeaseHandle)

/-- The questions of the renewing thread. -/
def RenewalQuestion (q : HandleQuestion) : Prop :=
  ∀ call, q = .evalsha call ∨ q = .eval call → call = h.renewal

/-- Every question of the program is one of the renewing thread. -/
def Renews {α : Type} (p : Prog α) : Prop :=
  p.run.All (fun _ _ => True) (RenewalQuestion h)

theorem Renews.bind
    {α β : Type} {p : Prog α} {next : α → Prog β}
    (hp : Renews h p)
    (hnext : ∀ a, Renews h (next a)) :
    Renews h (p >>= next) :=
  Proc.All.except_bind hp hnext

theorem renews_runScript :
    Renews h (runScript h.renewal) := by
  unfold runScript
  split
  · exact all_throw _
  · refine Renews.bind h (all_asking ?_) fun answer => ?_
    · rintro call (heq | heq) <;> cases heq
      rfl
    · cases answer with
      | reply raw =>
          exact all_pure _
      | raised e =>
          exact all_throw _
      | noScript =>
          refine Renews.bind h (all_asking ?_) fun answer => ?_
          · rintro call (heq | heq) <;> cases heq
            rfl
          · cases answer <;> first | exact all_pure _ | exact all_throw _

/-- The lease time in milliseconds, when there is at least one. -/
theorem LeaseHandle.durationMilliseconds_eq_leaseMs
    (hlease : 0 < h.leaseMs) :
    durationMilliseconds h.options.leaseTime = some h.leaseMs := by
  unfold LeaseHandle.leaseMs at hlease ⊢
  cases hms : durationMilliseconds h.options.leaseTime with
  | none =>
      simp [hms] at hlease
  | some ms =>
      rfl

theorem renews_renew
    (hlease : 0 < h.leaseMs) :
    Renews h (renew h none) := by
  refine Renews.bind h (all_locked trivial) fun gone => ?_
  split
  · exact all_pure _
  · have hms := h.durationMilliseconds_eq_leaseMs hlease
    simp only [Option.getD_none, hms]
    change Renews h (attempt (dispatchRenew h h.leaseMs) >>= fun status =>
      locked (finishRenew status.status) .ordinary)
    refine Renews.bind h (all_attempt ?_) fun status => all_locked trivial
    exact (renews_runScript h).bind h fun raw => all_orRaise _ _

theorem renewingThread_all
    (hlease : 0 < h.leaseMs) :
    (renewingThread h).All (fun _ _ => True) (RenewalQuestion h) := by
  have hround : ∀ _ : Unit, (renewRound h).All (fun _ _ => True) (RenewalQuestion h) := by
    intro _
    have hwait : RenewalQuestion h .waitStop := by
      rintro call (heq | heq) <;> cases heq
    refine ⟨hwait, fun stop => ?_⟩
    cases stop with
    | true =>
        trivial
    | false =>
        refine Proc.All.bind (p := (renew h none).run) (renews_renew h hlease)
          fun outcome => ?_
        rcases outcome with e | outcome
        · exact Proc.All.bind (all_locked trivial) fun _ =>
            Proc.All.bind (all_locked trivial) fun _ => trivial
        · cases outcome with
          | renewed =>
              trivial
          | notHeld | backendFailure =>
              exact Proc.All.bind (all_locked trivial) fun _ => trivial
  refine Proc.All.bind (renews_renew h hlease) fun outcome => ?_
  rcases outcome with e | outcome
  · trivial
  · cases outcome with
    | renewed =>
        exact Proc.All.loop hround
    | notHeld | backendFailure =>
        trivial

end Renews

/-! ## Every run -/

section Runs

variable {h : LeaseHandle} {timing : Timing}

/-- A step of the renewing thread ends in the invariant. -/
def EndsRenewing (h : LeaseHandle) (timing : Timing) (_ : Unit)
    (_ : Act HandleSection HandleQuestion HandleQuestion.Answer) (_ w' : RenewalWorld) :
    Prop :=
  RenewalInvariant h timing w'

theorem renewalPool_sound
    (hgap : 1000 * (h.intervalSeconds + 2 * timing.renew) ≤ (h.leaseMs : ℚ) - 1)
    {w : RenewalWorld}
    (hw : RenewalInvariant h timing w) :
    System.Pool.Sound (renewalSystem h timing) (EndsRenewing h timing)
      (fun _ _ => RenewalInvariant h timing) (renewalPool h w) := by
  intro t
  refine System.wp_of_all (P := fun _ _ => True) (R := RenewalQuestion h) ?_ ?_ ?_ ?_
    (renewingThread_all h (leaseMs_pos_of_gap hgap)) hw
  · exact .of_steps (fun e w w' hw hstep => hw.event hgap hstep)
      fun u _ _ _ hne => absurd rfl hne
  · intro label update w _ hw _
    have hw' : RenewalInvariant h timing { w with handle := update w.handle } :=
      ⟨hw.nonneg, hw.clock, hw.inRange, hw.healthy, hw.phase⟩
    exact ⟨hw', hw'⟩
  · intro q w w' hq hw hstep
    exact ⟨hw.issue hq hstep, hw.issue hq hstep⟩
  · intro q a w w' _ hw hstep
    exact ⟨hw.answer hstep, hw.answer hstep⟩

/-- The invariant holds in every state of a run. -/
theorem renewalInvariant_of_run
    (hgap : 1000 * (h.intervalSeconds + 2 * timing.renew) ≤ (h.leaseMs : ℚ) - 1)
    {w : RenewalWorld} {ls : List (System.PoolLabel Unit HandleSection HandleQuestion
      RenewalEvent HandleQuestion.Answer)} {c : RenewalPool}
    (hw : RenewalInvariant h timing w)
    (hrun : Run (System.PoolStep (renewalSystem h timing)) (renewalPool h w) ls c) :
    RenewalInvariant h timing c.world := by
  refine (hrun.invariant (I := fun c => System.Pool.Sound (renewalSystem h timing)
    (EndsRenewing h timing) (fun _ _ => RenewalInvariant h timing) c ∧
      RenewalInvariant h timing c.world) ?_ ⟨renewalPool_sound hgap hw, hw⟩).2
  rintro c l c' ⟨hsound, hw⟩ hstep
  obtain ⟨hguar, hsound'⟩ := System.Pool.sound_step hsound hstep
  refine ⟨hsound', ?_⟩
  cases l with
  | thread t act =>
      rcases hguar with hguar | ⟨-, hworld⟩
      · exact hguar
      · rw [hworld]
        exact hw
  | env e =>
      exact hw.event hgap hguar

theorem Entering.invariant
    {w : RenewalWorld}
    (hw : Entering w) :
    RenewalInvariant h timing w := by
  refine ⟨hw.nonneg, hw.clock, hw.inRange, hw.healthy, ?_⟩
  simp only [PhaseInvariant, hw.phase]
  exact hw.entered

/-- **The lease is kept** when the gap between two executions fits in. -/
theorem keepsLease_of_gap
    (hgap : 1000 * (h.intervalSeconds + 2 * timing.renew) ≤ (h.leaseMs : ℚ) - 1) :
    KeepsLeaseInEveryRun h timing :=
  fun _ _ _ hw hrun => (renewalInvariant_of_run hgap hw.invariant hrun).keepsLease hgap

end Runs

end LeaderRedis
end Bluetape
