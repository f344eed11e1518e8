import Bluetape.LeaderRedis.HandleRuns
import Bluetape.LeaderRedis.RenewalTiming

/-!
# Accepted timings of the renewal loop

The check of the options counts the renewal envelope once.  A renewal that
runs at its dispatch, is answered late and is followed by one that runs late
needs it twice.

* `not_keepsLease_of_gap`: the run that loses the lease.
* `autoRenew_keepsLease_iff`: which accepted options keep the lease.
-/

namespace Bluetape
namespace LeaderRedis

open Base

/-! ## A run that loses the lease -/

section Lost

variable (h : LeaseHandle) (timing : Timing)

/-- The handle's fields once it has been entered. -/
def enteredHandle : HandleState :=
  { HandleState.init with state := .entered }

/-- A world in which the entry renewal has been executed. -/
abbrev enteredWorld (db : Keyspace LeaseKey) (time : ℚ) (phase : RenewalPhase) :
    RenewalWorld :=
  ⟨db, time, enteredHandle, phase, true⟩

/-- What follows the answer to the renewal. -/
def afterRenewal (answer : ScriptAnswer) : Prog RenewOutcome := do
  let status ← attempt (afterEvalsha h.renewal answer >>= fun raw =>
    orRaise valueError (parseStatusResponse [.renewed, .notHeld, .corrupt] raw))
  locked (finishRenew status.status) .ordinary

theorem validateDispatch_renewal
    (hlease : 0 < h.leaseMs) :
    validateDispatch h.renewal = true := by
  have hmax := h.leaseMs_le
  have hcanon : isCanonicalFence (decimal h.leaseMs) = true :=
    isCanonicalFence_decimal hlease (by unfold maxRedisInteger; omega)
  simp [LeaseHandle.renewal, validateDispatch, validateMilliseconds, millisecondsText, hcanon]

/-- The renewal of a lease time that Redis can represent. -/
theorem renew_eq
    (hlease : 0 < h.leaseMs) :
    renew h none = (do
      if ← locked goneOrRaise .ordinary then return .notHeld
      afterRenewal h (← asking (.evalsha h.renewal))) := by
  have hms := h.durationMilliseconds_eq_leaseMs hlease
  have hrun : (runScript h.renewal : Prog RawReply) =
      asking (.evalsha h.renewal) >>= afterEvalsha h.renewal := by
    simp [runScript, validateDispatch_renewal h hlease]
  have hdispatch : dispatchRenew h h.leaseMs = runScript h.renewal >>= fun raw =>
      orRaise valueError (parseStatusResponse [.renewed, .notHeld, .corrupt] raw) := rfl
  simp only [renew, Option.getD_none, hms]
  change (do
    if ← locked goneOrRaise .ordinary then return .notHeld
    let status ← attempt (dispatchRenew h h.leaseMs)
    locked (finishRenew status.status) .ordinary : Prog RenewOutcome) = _
  rw [hdispatch, hrun]
  rfl

/-- A renewal of an entered handle goes out. -/
theorem reaches_renewal
    {c : RenewalPool} {w w' : RenewalWorld} {k : Except Raised RenewOutcome → HandleProc Unit}
    (hlease : 0 < h.leaseMs)
    (hhandle : w.handle = enteredHandle)
    (hissue : issueRenewal h w (.evalsha h.renewal) = some w')
    (hreach : System.Reaches (renewalSystem h timing) c
      (.solo w (.running ((renew h none).run.bind k)))) :
    System.Reaches (renewalSystem h timing) c
      (.solo w' (.waiting (.evalsha h.renewal) fun a => (afterRenewal h a).run.bind k)) := by
  rw [renew_eq h hlease] at hreach
  obtain ⟨db, time, handle, phase, entered⟩ := w
  obtain rfl : handle = enteredHandle := hhandle
  have hsection := System.Reaches.atomic (S := renewalSystem h timing) hreach rfl
  exact System.Reaches.ask hsection hissue

theorem reaches_renewed
    {c : RenewalPool} {w : RenewalWorld} {k : Except Raised RenewOutcome → HandleProc Unit}
    (hhandle : w.handle = enteredHandle)
    (hreach : System.Reaches (renewalSystem h timing) c
      (.solo w (.running ((afterRenewal h (.reply Reply.renewed.wire)).run.bind k)))) :
    System.Reaches (renewalSystem h timing) c (.solo w (.running (k (.ok .renewed)))) := by
  obtain ⟨db, time, handle, phase, entered⟩ := w
  obtain rfl : handle = enteredHandle := hhandle
  exact System.Reaches.atomic hreach rfl

/-- A keyspace that holds the handle's record for one more millisecond. -/
def heldKeyspace : Keyspace LeaseKey :=
  (((Keyspace.empty 0).write .history (some ⟨.string (ascii "v1"), none⟩)).write .fence
    (some ⟨.string (decimal h.record.fencingToken), none⟩)).write .lease
      (some (leaseEntry (h.record, 1)))

theorem healthy_heldKeyspace :
    Healthy (heldKeyspace h) h.record.fencingToken (some (h.record, 1)) := by
  have hpos : h.record.fencingToken ≠ 0 := Nat.pos_iff_ne_zero.mp h.record.fence_pos
  have hbefore : Healthy (((Keyspace.empty 0).write LeaseKey.history
      (some ⟨.string (ascii "v1"), none⟩)).write .fence
        (some ⟨.string (decimal h.record.fencingToken), none⟩))
      h.record.fencingToken none := by
    refine ⟨?_, ?_, ?_, h.record.fence_le, nofun⟩
    · simp [hpos]
    · simp [hpos]
    · simp
  exact hbefore.healthy_write_lease rfl (Nat.zero_le 1)

/-- The lease is the given one, or none any more. -/
def Fading (db : Keyspace LeaseKey) (lease : LeaseRecord × Nat) : Prop :=
  ∃ counter holder, Healthy db counter holder ∧ ∀ x ∈ holder, x = lease

theorem Fading.advance
    {db : Keyspace LeaseKey} {lease : LeaseRecord × Nat}
    (hdb : Fading db lease) (ms : Nat) :
    Fading (db.advance ms) lease := by
  obtain ⟨counter, holder, hhealthy, hholder⟩ := hdb
  refine ⟨counter, _, hhealthy.advance ms, fun x hx => hholder x ?_⟩
  exact (Option.filter_eq_some_iff.mp hx).1

/-- A command in flight runs on the server. -/
theorem renewalEvent_execute
    {w : RenewalWorld} {dispatched : ℚ} {call : Call} {outcome : Except CommandError Reply}
    {db : Keyspace LeaseKey}
    (hphase : w.phase = .inFlight dispatched call none)
    (hrun : call.script.run w.db = (outcome, db))
    (hentered : w.entered = true ∨ outcome = .ok .renewed) :
    renewalEvent h timing w .execute = some { w with
      db := db, phase := .inFlight dispatched call (some outcome), entered := true } := by
  simp only [renewalEvent, hphase, hrun]
  exact if_pos hentered

theorem renewalEvent_pass
    {w : RenewalWorld} {t : ℚ}
    (hle : w.time ≤ t)
    (hrange : serverMs t ≤ clockEnd)
    (hdeadline : ∀ deadline ∈ w.phase.deadline h timing, t ≤ deadline) :
    renewalEvent h timing w (.pass t) =
      some { w with time := t, db := w.db.advance (serverMs t - w.db.now) } :=
  if_pos ⟨hle, hrange, hdeadline⟩

/-- The reply to a renewal that was executed. -/
theorem answerRenewal_renewed
    {w : RenewalWorld} {dispatched : ℚ} {call : Call}
    (hphase : w.phase = .inFlight dispatched call (some (.ok .renewed))) :
    answerRenewal h w (.evalsha call) (.reply Reply.renewed.wire) =
      some { w with phase := .waiting w.time } := by
  simp only [answerRenewal, replyRenewal, hphase]
  exact if_pos rfl

/-- The wait of the loop runs out. -/
theorem answerRenewal_timeout
    {w : RenewalWorld} {since : ℚ}
    (hphase : w.phase = .waiting since)
    (htime : w.time = since + h.intervalSeconds) :
    answerRenewal h w .waitStop false = some w := by
  simp only [answerRenewal, hphase]
  exact if_pos htime

/-- The renewal that is due goes out. -/
theorem issueRenewal_due
    {w : RenewalWorld} {since : ℚ}
    (hphase : w.phase = .waiting since)
    (htime : w.time = since + h.intervalSeconds) (call : Call) :
    issueRenewal h w (.evalsha call) =
      some { w with phase := .inFlight w.time call none } := by
  simp only [issueRenewal, hphase]
  exact if_pos htime

section Schedule

variable {h timing}
variable {x : ℚ} (hx : 0 ≤ x) (hstart : serverMs x = 0) (hlease : 0 < h.leaseMs)
  (hrange : ∀ time, time ≤ x + (h.intervalSeconds + 2 * timing.renew) →
    serverMs time ≤ clockEnd)

include hx hstart hlease hrange

/-- The entry renewal runs at once, and its reply takes the whole envelope. -/
theorem reaches_waiting :
    ∃ w db, Entering w ∧ Fading db (h.record, h.leaseMs) ∧
      db.now = serverMs (x + timing.renew) ∧
      System.Reaches (renewalSystem h timing) (renewalPool h w)
        (.solo ⟨db, x + timing.renew, enteredHandle, .waiting (x + timing.renew), true⟩
          (.running (renewLoop h))) := by
  have hpos := timing.renew_pos
  have hinterval := h.intervalSeconds_nonneg
  have hdb₀ := healthy_heldKeyspace h
  have hnow₀ : (heldKeyspace h).now = 0 := rfl
  obtain ⟨db, hnow, hrun, hdb⟩ : ∃ db, db.now = 0 ∧
      h.renewal.script.run (heldKeyspace h) = (.ok .renewed, db) ∧
      Healthy db h.record.fencingToken (some (h.record, 0 + h.leaseMs)) := by
    rcases hdb₀.renewal_cases h hlease (Nat.zero_le _) with
      ⟨-, db, hnow, hrun, hdb⟩ | ⟨hnot, -⟩
    · exact ⟨db, hnow, hrun, hdb⟩
    · exact absurd ⟨1, rfl, Nat.zero_lt_one⟩ hnot
  rw [Nat.zero_add] at hdb
  have hfading : Fading db (h.record, h.leaseMs) :=
    ⟨_, _, hdb, fun y hy => (Option.some.inj hy).symm⟩
  refine ⟨⟨heldKeyspace h, x, enteredHandle, .idle, false⟩, _,
    ⟨rfl, rfl, rfl, hx, hstart.symm, hrange x (by linarith), _, _, hdb₀⟩,
    hfading.advance (serverMs (x + timing.renew) - db.now), ?_, ?_⟩
  · rw [Keyspace.advance_now, hnow, Nat.sub_zero, Nat.zero_add]
  · have hsent := reaches_renewal h timing hlease rfl rfl
      (System.Reaches.refl (S := renewalSystem h timing)
        (renewalPool h ⟨heldKeyspace h, x, enteredHandle, .idle, false⟩))
    have hexecute : renewalEvent h timing
        ⟨heldKeyspace h, x, enteredHandle, .inFlight x h.renewal none, false⟩ .execute =
        some (enteredWorld db x (.inFlight x h.renewal (some (.ok .renewed)))) :=
      renewalEvent_execute h timing rfl hrun (Or.inr rfl)
    have hexecuted := System.Reaches.env (S := renewalSystem h timing) .execute hsent hexecute
    have hpass := renewalEvent_pass h timing (t := x + timing.renew)
      (w := enteredWorld db x (.inFlight x h.renewal (some (.ok .renewed))))
      (by dsimp only; linarith) (hrange _ (by linarith)) (by rintro _ ⟨⟩; exact le_rfl)
    have hpassed := System.Reaches.env (S := renewalSystem h timing)
      (.pass (x + timing.renew)) hexecuted hpass
    have hanswer := answerRenewal_renewed h
      (w := enteredWorld (db.advance (serverMs (x + timing.renew) - db.now))
        (x + timing.renew) (.inFlight x h.renewal (some (.ok .renewed)))) rfl
    have hanswered := System.Reaches.answer (S := renewalSystem h timing)
      (q := .evalsha h.renewal) (ScriptAnswer.reply Reply.renewed.wire) hpassed hanswer
    exact reaches_renewed h timing rfl hanswered

/-- The loop waits for its interval and sends the next renewal. -/
theorem reaches_due :
    ∃ w db th, Entering w ∧ Fading db (h.record, h.leaseMs) ∧
      db.now = serverMs (x + timing.renew + h.intervalSeconds) ∧
      System.Reaches (renewalSystem h timing) (renewalPool h w)
        (.solo (enteredWorld db (x + timing.renew + h.intervalSeconds)
          (.inFlight (x + timing.renew + h.intervalSeconds) h.renewal none)) th) := by
  have hpos := timing.renew_pos
  have hinterval := h.intervalSeconds_nonneg
  obtain ⟨w, db, hentering, hfading, hnow, hreach⟩ :=
    reaches_waiting hx hstart hlease hrange
  have hround := System.Reaches.ask (S := renewalSystem h timing) hreach.unroll rfl
  have hwait := renewalEvent_pass h timing (t := x + timing.renew + h.intervalSeconds)
    (w := enteredWorld db (x + timing.renew) (.waiting (x + timing.renew)))
    (by dsimp only; linarith) (hrange _ (by linarith)) (by rintro _ ⟨⟩; exact le_rfl)
  have hwaited := System.Reaches.env (S := renewalSystem h timing)
    (.pass (x + timing.renew + h.intervalSeconds)) hround hwait
  let db₁ := db.advance (serverMs (x + timing.renew + h.intervalSeconds) - db.now)
  have hdue := answerRenewal_timeout h
    (w := enteredWorld db₁ (x + timing.renew + h.intervalSeconds)
      (.waiting (x + timing.renew))) rfl rfl
  have hcontinued := System.Reaches.answer (S := renewalSystem h timing) (q := .waitStop)
    false hwaited hdue
  change System.Reaches _ _ (.solo _ (.running
    (Proc.bind (Proc.bind (renew h none).run _) _))) at hcontinued
  rw [Proc.bind_assoc] at hcontinued
  have hissue := issueRenewal_due h
    (w := enteredWorld db₁ (x + timing.renew + h.intervalSeconds)
      (.waiting (x + timing.renew))) rfl rfl h.renewal
  exact ⟨w, db₁, _, hentering, hfading.advance _, advance_serverMs_now hnow (by linarith),
    reaches_renewal h timing hlease rfl hissue hcontinued⟩

end Schedule

/-- A larger gap fits between two executions of the loop. -/
theorem not_keepsLease_of_gap
    (hlease : 0 < h.leaseMs)
    (hrenew : timing.renew ≤ 2 ^ 47)
    (hgap : (h.leaseMs : ℚ) - 1 < 1000 * (h.intervalSeconds + 2 * timing.renew)) :
    ¬ KeepsLeaseInEveryRun h timing := by
  intro hkeeps
  have hpos := timing.renew_pos
  have hinterval := h.intervalSeconds_nonneg
  obtain ⟨x, hx, hstart, hlate⟩ := exists_serverMs_of_gap hgap (by linarith)
  have hx1 : 1000 * x < 1 := Nat.floor_eq_zero.mp hstart
  have hmax := h.intervalSeconds_le
  have hrange : ∀ time, time ≤ x + (h.intervalSeconds + 2 * timing.renew) →
      serverMs time ≤ clockEnd := by
    intro time htime
    refine Nat.floor_le_of_le ?_
    unfold clockEnd
    push_cast
    linarith
  obtain ⟨w, db, th, hentering, hfading, hnow, hreach⟩ :=
    reaches_due hx hstart hlease hrange
  -- the renewal runs on the server at the end of its envelope, when the lease is over
  have hlast := renewalEvent_pass h timing
    (t := x + (h.intervalSeconds + 2 * timing.renew))
    (w := enteredWorld db (x + timing.renew + h.intervalSeconds)
      (.inFlight (x + timing.renew + h.intervalSeconds) h.renewal none))
    (by dsimp only; linarith) (hrange _ le_rfl) (by rintro _ ⟨⟩; linarith)
  have harrived := System.Reaches.env (S := renewalSystem h timing)
    (.pass (x + (h.intervalSeconds + 2 * timing.renew))) hreach hlast
  let db' := db.advance (serverMs (x + (h.intervalSeconds + 2 * timing.renew)) - db.now)
  have hnow' : db'.now = serverMs (x + (h.intervalSeconds + 2 * timing.renew)) :=
    advance_serverMs_now hnow (by linarith)
  obtain ⟨counter, holder, hdb, hholder⟩ : Fading db' (h.record, h.leaseMs) :=
    hfading.advance _
  obtain ⟨-, hrun⟩ : ¬ Healthy.proves holder db'.now h.record ∧
      h.renewal.script.run db' = (.ok .notHeld, db') := by
    refine (hdb.renewal_cases h hlease (hnow'.trans_le (hrange _ le_rfl))).resolve_left ?_
    rintro ⟨⟨e, hsome, hlt⟩, -⟩
    obtain ⟨-, rfl⟩ := Prod.mk.inj (hholder _ hsome)
    exact absurd (hlate.trans hnow'.ge) (Nat.not_le.mpr hlt)
  have hexecute := renewalEvent_execute h timing
    (w := enteredWorld db' (x + (h.intervalSeconds + 2 * timing.renew))
      (.inFlight (x + timing.renew + h.intervalSeconds) h.renewal none)) rfl hrun (Or.inl rfl)
  obtain ⟨ls, hfinal⟩ := System.Reaches.env (S := renewalSystem h timing) .execute
    harrived hexecute
  have hkept := (hkeeps w ls _ hentering hfinal).1 _ _ _ rfl
  cases hkept

end Lost

/-! ## Accepted options -/

/--
**Auto-renewal**: for accepted options the lease is kept in every run exactly
when the interval and two envelopes take less than the lease time, to the
millisecond.
-/
theorem autoRenew_keepsLease_iff
    (h : LeaseHandle) (timing : Timing) (requested : LeaderElectionOptions)
    (haccepted : validatedRedisOptions requested timing = some h.options)
    (hauto : h.options.autoRenew = true) :
    KeepsLeaseInEveryRun h timing ↔
      1000 * (h.intervalSeconds + 2 * timing.renew) ≤ (h.leaseMs : ℚ) - 1 := by
  refine ⟨fun hkeeps => ?_, keepsLease_of_gap⟩
  obtain ⟨interval, hinterval, hfits⟩ := fitsLease_of_validated haccepted hauto
  obtain ⟨ms, hms, hrenew, -⟩ := fitsLease_iff.mp hfits
  have hpos : 0 < h.leaseMs := by
    simp only [LeaseHandle.leaseMs, hms, Option.getD_some]
    exact durationMilliseconds_pos hms
  by_contra hgap
  have hseconds := (le_abs_self _).trans interval.abs_floatSeconds_le
  exact not_keepsLease_of_gap h timing hpos (hrenew.le.trans hseconds) (not_le.mp hgap) hkeeps

/-- A handle with a lease time of nine seconds, renewed after every four. -/
def fourOfNine : LeaseHandle where
  record := renewedHandle.record
  options :=
    { renewedHandle.options with
      renewInterval := some ⟨4000000, by decide, by decide⟩
      interval_of_autoRenew := fun _ => rfl
      interval_bounds := by simp [renewedHandle] }
  acquiredNs := 0

theorem natCast_float
    {seconds : Nat}
    (hlt : seconds < 2 ^ 53) :
    Binary64.ofRat? (seconds : ℚ) = some (seconds : ℚ) := by
  exact_mod_cast Binary64.ofRat?_intCast (k := seconds) (by
    rw [Nat.abs_cast]
    exact_mod_cast hlt)

/-- A renewal envelope of whole seconds. -/
def renewalWithin (seconds : Nat) (hpos : 0 < seconds) (hlt : seconds < 2 ^ 53) : Timing where
  renew := seconds
  release := seconds
  renew_pos := by exact_mod_cast hpos
  release_pos := by exact_mod_cast hpos
  renew_float := natCast_float hlt
  release_float := natCast_float hlt

theorem fourOfNine_leaseMs :
    fourOfNine.leaseMs = 9000 := by
  decide

theorem fourOfNine_intervalSeconds :
    fourOfNine.intervalSeconds = 4 := by
  simp only [LeaseHandle.intervalSeconds, fourOfNine, Option.map_some, Option.getD_some,
    Timedelta.totalSeconds]
  norm_num

/-- Whole seconds are added as they are. -/
theorem fourOfNine_accepted
    (seconds : Nat) (hpos : 0 < seconds) (hlt : seconds < 4) :
    validatedRedisOptions fourOfNine.options (renewalWithin seconds hpos (by omega)) =
      some fourOfNine.options := by
  have hseconds : (seconds : ℚ) < 4 := by exact_mod_cast hlt
  have hms : durationMilliseconds fourOfNine.options.leaseTime = some 9000 := by decide
  have hinterval : (⟨4000000, by decide, by decide⟩ : Timedelta).floatSeconds = 4 := by
    have hround := Binary64.round_intCast (k := 4) (by decide)
    simp only [Timedelta.floatSeconds, Timedelta.totalSeconds]
    norm_num at hround ⊢
    exact hround
  have hlease : Binary64.round (((9000 : Nat) : ℚ) / 1000) = 9 := by
    have hround := Binary64.round_intCast (k := 9) (by decide)
    norm_num at hround ⊢
    exact hround
  have hsum : Binary64.round (seconds + 4) = seconds + 4 := by
    have hround := Binary64.round_intCast (k := (seconds + 4 : Nat)) (by
      rw [Nat.abs_cast]
      omega)
    push_cast at hround
    exact hround
  have hfits : fitsLease fourOfNine.options (renewalWithin seconds hpos (by omega))
      ⟨4000000, by decide, by decide⟩ = true := by
    refine fitsLease_iff.mpr ⟨9000, hms, ?_⟩
    rw [hinterval, hlease, renewalWithin, hsum]
    constructor
    · exact hseconds
    · linarith
  have hthird : (⟨4000000, by decide, by decide⟩ : Timedelta) ≠
      fourOfNine.options.leaseTime.third := by decide
  exact validated_of_fitsLease rfl rfl hthird hfits

theorem autoRenew_keepsLease_twoSeconds :
    KeepsLeaseInEveryRun fourOfNine (renewalWithin 2 (by decide) (by decide)) := by
  refine (autoRenew_keepsLease_iff fourOfNine _ fourOfNine.options
    (fourOfNine_accepted 2 _ (by decide)) rfl).mpr ?_
  rw [fourOfNine_leaseMs, fourOfNine_intervalSeconds]
  norm_num [renewalWithin]

/-- An envelope of three seconds is accepted, but two of them do not fit. -/
theorem accepted_loses_lease :
    validatedRedisOptions fourOfNine.options (renewalWithin 3 (by decide) (by decide)) =
      some fourOfNine.options ∧
    ¬ KeepsLeaseInEveryRun fourOfNine (renewalWithin 3 (by decide) (by decide)) := by
  refine ⟨fourOfNine_accepted 3 _ (by decide), not_keepsLease_of_gap _ _ ?_ ?_ ?_⟩
  · rw [fourOfNine_leaseMs]
    decide
  · norm_num [renewalWithin]
  · rw [fourOfNine_intervalSeconds]
    norm_num [renewalWithin, fourOfNine_leaseMs]

end LeaderRedis
end Bluetape
