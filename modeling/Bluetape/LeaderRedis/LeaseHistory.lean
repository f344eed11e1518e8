import Bluetape.LeaderRedis.Election

/-!
# The history of a lease

What the server's history says about a lease since its grant, when every command of
its handle is `Due`: it renews for at least the minimum lease time, or releases with a
remainder that reaches the guaranteed time.  Other clients run any scripts that neither
renew nor release the record.

* `ServerInvariant`: until the guaranteed time the record is the lease and no fence is
  issued; later on, a fence is issued only after the record's last confirmation;
* `LeaseInvariant`: the invariant of the world;
* `LeaseInvariant.event`: every event beside the threads keeps it.
-/

namespace Bluetape
namespace LeaderRedis

open Base

/-! ## Clocks -/

/-- The server clock shows the whole milliseconds of the monotonic clock. -/
theorem serverMs_eq_div
    {time : ℚ}
    (hnonneg : 0 ≤ time) :
    (serverMs time : Int) = ⌊1000000000 * time⌋ / 1000000 := by
  unfold serverMs
  rw [Int.natCast_floor_eq_floor (by positivity), Int.floor_eq_iff]
  have hle := Int.floor_le (1000000000 * time)
  have hlt := Int.lt_floor_add_one (1000000000 * time)
  generalize ⌊1000000000 * time⌋ = n at hle hlt
  have hlow : n / 1000000 * 1000000 ≤ n := by omega
  have hhigh : n + 1 ≤ (n / 1000000 + 1) * 1000000 := by omega
  have hlow' : ((n / 1000000 : Int) : ℚ) * 1000000 ≤ n := by exact_mod_cast hlow
  have hhigh' : (n : ℚ) + 1 ≤ ((n / 1000000 : Int) + 1) * 1000000 := by exact_mod_cast hhigh
  constructor <;> linarith

section Lease

variable (h : LeaseHandle)

/-- Until this server time the lease must not end, in milliseconds. -/
def LeaseHandle.guaranteedMs : Int :=
  h.acquiredNs / 1000000 + h.options.minLeaseTime.total / 1000

/--
A command of the handle that does not end the lease before the guaranteed time, if it
runs from now on.
-/
def Due (now : Nat) : Call → Prop
  | .renew record ttl =>
      record = h.record.toBytes ∧
        ∃ ms : Nat, ttl = decimal ms ∧ h.options.minLeaseTime.total / 1000 ≤ ms
  | .probe record => record = h.record.toBytes
  | .release record remaining =>
      record = h.record.toBytes ∧ ∃ ms : Nat, remaining = decimal ms ∧ h.guaranteedMs ≤ now + ms
  | .reconcile => True
  | .acquire .. => False

variable {h}

theorem Due.mono
    {now now' : Nat} {call : Call}
    (hdue : Due h now call)
    (hle : now ≤ now') :
    Due h now' call := by
  cases call with
  | release record remaining =>
      obtain ⟨hrecord, ms, hms, hreach⟩ := hdue
      exact ⟨hrecord, ms, hms, by omega⟩
  | _ => exact hdue

/-! ## One executed script -/

section OneScript

variable {db : Keyspace LeaseKey} {counter : Nat} {holder : Option (LeaseRecord × Nat)}

/-- A foreign script leaves an unexpired lease alone and issues no fence. -/
theorem Healthy.foreign_spares
    {e : Nat} {record : LeaseRecord} {call : Call}
    (hdb : Healthy db counter (some (record, e)))
    (hlt : db.now < e)
    (hforeign : call.foreign record = true)
    (hok : validateDispatch call = true) :
    (call.script.run db).2 = db ∧
      (ServerLabel.script call (call.script.run db).1).issued = none := by
  refine ⟨hdb.run_foreign hlt hforeign hok, Option.eq_none_iff_forall_ne_some.mpr ?_⟩
  intro fence hissued
  obtain ⟨owner, ttl, rfl⟩ := hdb.acquire_of_issued hok hissued
  have hrun := hdb.acquire_held owner ttl
  rw [if_neg (by omega)] at hrun
  simp [Call.script, hrun, ServerLabel.issued] at hissued

/-- The bytes `0` stand for no remainder. -/
theorem decimal_zero :
    decimal 0 = ascii "0" := by
  decide

/-- Before the guaranteed time a due command extends the lease at least up to it. -/
theorem Healthy.due_extends
    {e : Nat} {call : Call}
    (hdb : Healthy db counter (some (h.record, e)))
    (hacquired : h.acquiredNs / 1000000 ≤ db.now)
    (hearly : (db.now : Int) < h.guaranteedMs)
    (hreach : h.guaranteedMs ≤ e)
    (hok : validateDispatch call = true)
    (hdue : Due h db.now call) :
    ∃ e' : Nat, Healthy (call.script.run db).2 counter (some (h.record, e')) ∧
      h.guaranteedMs ≤ e' ∧
      (ServerLabel.script call (call.script.run db).1).issued = none := by
  have hlt : db.now < e := by omega
  cases call with
  | acquire owner ttl =>
      exact hdue.elim
  | reconcile =>
      obtain ⟨hrun, hissued⟩ := hdb.foreign_spares hlt rfl hok
      exact ⟨e, hrun.symm ▸ hdb, hreach, hissued⟩
  | probe record =>
      obtain rfl := hdue
      have hrun := hdb.probe_holder hlt
      exact ⟨e, by rw [Call.script, hrun]; exact hdb, hreach, by rw [Call.script, hrun]; rfl⟩
  | renew record ttl =>
      obtain ⟨rfl, ms, rfl, hlong⟩ := hdue
      simp only [validateDispatch, Bool.and_eq_true] at hok
      obtain ⟨ms', hpos, hle, hms⟩ := milliseconds_of_validate hok.2
      obtain rfl := decimal_injective hms
      obtain ⟨db', -, hcase⟩ := hdb.renew_holder hlt hpos hle
      split at hcase
      · exact ⟨e, by rw [Call.script, hcase.1]; exact hcase.2, hreach,
          by rw [Call.script, hcase.1]; rfl⟩
      · refine ⟨db.now + ms, by rw [Call.script, hcase.1]; exact hcase.2, ?_,
          by rw [Call.script, hcase.1]; rfl⟩
        unfold LeaseHandle.guaranteedMs
        push_cast
        omega
  | release record remaining =>
      obtain ⟨rfl, ms, rfl, hrest⟩ := hdue
      -- without a remainder the command would not be due yet
      have hpos : 0 < ms := by omega
      simp only [validateDispatch, Bool.and_eq_true] at hok
      rcases remaining_of_validate hok.2 with hzero | ⟨ms', -, hle, hms⟩
      · rw [← decimal_zero] at hzero
        have := decimal_injective hzero
        omega
      · obtain rfl := decimal_injective hms
        obtain ⟨db', -, hcase⟩ := hdb.release_holder_min hlt hpos hle
        split at hcase
        · exact ⟨e, by rw [Call.script, hcase.1]; exact hcase.2, hreach,
            by rw [Call.script, hcase.1]; rfl⟩
        · exact ⟨db.now + ms, by rw [Call.script, hcase.1]; exact hcase.2,
            by push_cast; exact hrest, by rw [Call.script, hcase.1]; rfl⟩

/-- The counter never goes back, and an issued fence moves it on. -/
theorem Effect.counter_mono
    {counter' : Nat} {holder' : Option (LeaseRecord × Nat)} {l : ServerLabel}
    (heffect : Effect counter holder l counter' holder') :
    counter ≤ counter' ∧ (l.issued ≠ none → counter < counter') := by
  cases heffect with
  | unchanged hl => exact ⟨le_rfl, fun hne => absurd hl hne⟩
  | lost hl => exact ⟨le_rfl, fun hne => absurd hl hne⟩
  | moved hl _ => exact ⟨le_rfl, fun hne => absurd hl hne⟩
  | burnt hl _ => exact ⟨Nat.le_succ _, fun hne => absurd hl hne⟩
  | granted _ _ _ => exact ⟨Nat.le_succ _, fun _ => Nat.lt_succ_self _⟩

end OneScript

/-! ## The server -/

variable (h)

/-- What the server's history says about the lease. -/
structure ServerInvariant (db : Keyspace LeaseKey) (history : List (Executed HandleThread)) :
    Prop where
  healthy : ∃ counter holder, Healthy db counter holder ∧
    h.record.fencingToken ≤ counter ∧
    ((db.now : Int) < h.guaranteedMs →
      ∃ e : Nat, holder = some (h.record, e) ∧ h.guaranteedMs ≤ e) ∧
    ∀ ev ∈ history, ev.issued ≠ none → h.record.fencingToken < counter
  early : ∀ ev ∈ history, (ev.after.now : Int) < h.guaranteedMs → ev.issued = none
  exclusive : history.Pairwise fun a b => b.proves h.record → a.issued = none

variable {h}

namespace ServerInvariant

variable {db : Keyspace LeaseKey} {history : List (Executed HandleThread)}

/-- Before the guaranteed time the record is the lease. -/
theorem live
    (hs : ServerInvariant h db history)
    (hearly : (db.now : Int) < h.guaranteedMs) :
    Live db h.record := by
  obtain ⟨counter, holder, hdb, -, hheld, -⟩ := hs.healthy
  obtain ⟨e, rfl, hreach⟩ := hheld hearly
  exact ⟨e, hdb.lease, by omega⟩

theorem advance
    (hs : ServerInvariant h db history)
    (ms : Nat) :
    ServerInvariant h (db.advance ms) history := by
  obtain ⟨counter, holder, hdb, hle, hheld, hissued⟩ := hs.healthy
  refine ⟨⟨counter, _, hdb.advance ms, hle, fun hearly => ?_, hissued⟩, hs.early, hs.exclusive⟩
  rw [Keyspace.advance_now] at hearly
  obtain ⟨e, rfl, hreach⟩ := hheld (by push_cast at hearly; omega)
  refine ⟨e, ?_, hreach⟩
  rw [Option.filter_some, if_pos]
  simp only [decide_eq_true_eq]
  push_cast at hearly
  omega

/-- Only the record that is the lease is confirmed, so nothing was issued before. -/
theorem none_issued
    {call : Call} {client : Option HandleThread} {ev : Executed HandleThread}
    (hs : ServerInvariant h db history)
    (hproves : Executed.proves h.record
      ⟨client, call, (call.script.run db).1, (call.script.run db).2⟩)
    (hev : ev ∈ history) :
    ev.issued = none := by
  obtain ⟨counter, holder, hdb, -, -, hissued⟩ := hs.healthy
  obtain ⟨hclaim, reply, hreply, hown⟩ := hproves
  have hcurrent := hdb.claimed_eq hclaim hreply hown
  rw [hdb.currentRecord_eq] at hcurrent
  obtain ⟨⟨r, e⟩, rfl, rfl⟩ := Option.map_eq_some_iff.mp hcurrent
  by_contra hne
  have hlt := hissued ev hev hne
  have hfence := hdb.fence_eq _ _ rfl
  omega

/-- What an own or a foreign script does to counter and holder. -/
theorem healthy_execute
    {call : Call}
    (hs : ServerInvariant h db history)
    (hacquired : h.acquiredNs / 1000000 ≤ db.now)
    (hok : validateDispatch call = true)
    (hcall : Due h db.now call ∨ call.foreign h.record = true) :
    ∃ counter' holder', Healthy (call.script.run db).2 counter' holder' ∧
      h.record.fencingToken ≤ counter' ∧
      ((db.now : Int) < h.guaranteedMs →
        (ServerLabel.script call (call.script.run db).1).issued = none ∧
        ∃ e : Nat, holder' = some (h.record, e) ∧ h.guaranteedMs ≤ e) ∧
      ((ServerLabel.script call (call.script.run db).1).issued ≠ none →
        h.record.fencingToken < counter') ∧
      ∀ ev ∈ history, ev.issued ≠ none → h.record.fencingToken < counter' := by
  obtain ⟨counter, holder, hdb, hle, hheld, hissued⟩ := hs.healthy
  by_cases hearly : (db.now : Int) < h.guaranteedMs
  · obtain ⟨e, rfl, hreach⟩ := hheld hearly
    obtain ⟨e', hdb', hreach', hnone⟩ : ∃ e' : Nat,
        Healthy (call.script.run db).2 counter (some (h.record, e')) ∧ h.guaranteedMs ≤ e' ∧
          (ServerLabel.script call (call.script.run db).1).issued = none := by
      rcases hcall with hdue | hforeign
      · exact hdb.due_extends hacquired hearly hreach hok hdue
      · obtain ⟨hrun, hnone⟩ := hdb.foreign_spares (by omega) hforeign hok
        exact ⟨e, hrun.symm ▸ hdb, hreach, hnone⟩
    exact ⟨counter, _, hdb', hle, fun _ => ⟨hnone, e', rfl, hreach'⟩,
      fun hne => absurd hnone hne, hissued⟩
  · obtain ⟨counter', holder', hdb', heffect⟩ := effect_of_step hdb (.script db call hok)
    obtain ⟨hmono, hmoved⟩ := heffect.counter_mono
    exact ⟨counter', holder', hdb', hle.trans hmono, fun hno => absurd hno hearly,
      fun hne => hle.trans_lt (hmoved hne), fun ev hev hne => (hissued ev hev hne).trans_le hmono⟩

/-- **Step lemma**: an executed script keeps the invariant. -/
theorem execute
    {w : AcquireWorld HandleThread} {call : Call}
    (hs : ServerInvariant h w.db w.history)
    (client : Option HandleThread)
    (hacquired : h.acquiredNs / 1000000 ≤ w.db.now)
    (hok : validateDispatch call = true)
    (hcall : Due h w.db.now call ∨ call.foreign h.record = true) :
    ServerInvariant h (w.execute client call).db (w.execute client call).history := by
  obtain ⟨counter', holder', hdb', hle, hearly, hnew, hold⟩ :=
    hs.healthy_execute hacquired hok hcall
  have hnow : (call.script.run w.db).2.now = w.db.now := call.frozen w.db
  refine ⟨⟨counter', holder', hdb', hle, fun hlt => ?_, fun ev hev hne => ?_⟩,
    fun ev hev hlt => ?_, ?_⟩
  · exact (hearly (hnow ▸ hlt)).2
  · rcases List.mem_append.mp hev with hev | hev
    · exact hold ev hev hne
    · obtain rfl := List.mem_singleton.mp hev
      exact hnew hne
  · rcases List.mem_append.mp hev with hev | hev
    · exact hs.early ev hev hlt
    · obtain rfl := List.mem_singleton.mp hev
      exact (hearly (hnow ▸ hlt)).1
  · refine List.pairwise_append.mpr ⟨hs.exclusive, List.pairwise_singleton .., ?_⟩
    intro a ha b hb hproves
    obtain rfl := List.mem_singleton.mp hb
    exact hs.none_issued hproves ha

end ServerInvariant

/-! ## The world -/

variable (h)

/-- A command that a thread has sent, or may send now. -/
def Sendable (w : ElectionWorld) (call : Call) : Prop :=
  validateDispatch call = true ∧ Due h w.server.db.now call

/-- The invariant of the world. -/
structure LeaseInvariant (w : ElectionWorld) : Prop where
  nonneg : 0 ≤ w.time
  clock : w.server.db.now = serverMs w.time
  acquired : (h.acquiredNs : ℚ) ≤ 1000000000 * w.time
  server : ServerInvariant h w.server.db w.server.history
  sent : ∀ t call, (w.server.wire t).current = some call ∨ call ∈ (w.server.wire t).stale →
    Sendable h w call
  retains : w.threads.handle.Retains
  released : w.threads.handle.state = .released → HandedBack h w

variable {h}

/-- The history of the world grows, and so does its time. -/
structure Later (w w' : ElectionWorld) : Prop where
  history : ∀ ev ∈ w.server.history, ev ∈ w'.server.history
  now : w.server.db.now ≤ w'.server.db.now

theorem Later.of_eq
    {w w' : ElectionWorld}
    (hhistory : w'.server.history = w.server.history)
    (hdb : w'.server.db = w.server.db) :
    Later w w' :=
  ⟨fun _ hev => hhistory ▸ hev, (congrArg Keyspace.now hdb).ge⟩

theorem Replied.later
    {t : HandleThread} {call : Call} {reply : Reply} {w w' : ElectionWorld}
    (hreplied : Replied t call reply w)
    (hlater : Later w w') :
    Replied t call reply w' := by
  obtain ⟨ev, hev, hrest⟩ := hreplied
  exact ⟨ev, hlater.history ev hev, hrest⟩

theorem Confirmed.later
    {w w' : ElectionWorld}
    (hconfirmed : Confirmed h w)
    (hlater : Later w w') :
    Confirmed h w' := by
  obtain ⟨t, hheld | ⟨ttl, hrenewed⟩⟩ := hconfirmed
  · exact ⟨t, .inl (hheld.later hlater)⟩
  · exact ⟨t, .inr ⟨ttl, hrenewed.later hlater⟩⟩

theorem HandedBack.later
    {w w' : ElectionWorld}
    (hback : HandedBack h w)
    (hlater : Later w w') :
    HandedBack h w' := by
  obtain ⟨t, remaining, hreplied⟩ := hback
  exact ⟨t, remaining, hreplied.imp (·.later hlater) (·.later hlater)⟩

theorem Sendable.later
    {w w' : ElectionWorld} {call : Call}
    (hsendable : Sendable h w call)
    (hlater : Later w w') :
    Sendable h w' call :=
  ⟨hsendable.1, hsendable.2.mono hlater.now⟩

/-- An event beside the threads appends to the history, and the action is not concerned. -/
theorem electionEvent_frame
    {w w' : ElectionWorld} {e : ElectionEvent}
    (hevent : electionEvent h w e = some w') :
    Later w w' ∧ w'.actions = w.actions := by
  cases e with
  | pass time =>
      obtain ⟨-, hsome⟩ := Option.ite_none_right_eq_some.mp hevent
      obtain rfl := Option.some.inj hsome
      exact ⟨⟨fun _ hev => hev, Nat.le_add_right _ _⟩, rfl⟩
  | foreign call =>
      obtain ⟨-, hsome⟩ := Option.ite_none_right_eq_some.mp hevent
      obtain rfl := Option.some.inj hsome
      exact ⟨⟨fun _ hev => List.mem_append_left _ hev, (call.frozen w.server.db).ge⟩, rfl⟩
  | executeCurrent t =>
      obtain ⟨server, hserver, rfl⟩ := Option.map_eq_some_iff.mp hevent
      obtain ⟨call, -, rfl⟩ := Option.map_eq_some_iff.mp hserver
      exact ⟨⟨fun _ hev => List.mem_append_left _ hev, (call.frozen w.server.db).ge⟩, rfl⟩
  | executeStale t k =>
      obtain ⟨server, hserver, rfl⟩ := Option.map_eq_some_iff.mp hevent
      obtain ⟨call, -, rfl⟩ := Option.map_eq_some_iff.mp hserver
      exact ⟨⟨fun _ hev => List.mem_append_left _ hev, (call.frozen w.server.db).ge⟩, rfl⟩

namespace LeaseInvariant

variable {w w' : ElectionWorld}

theorem acquired_le
    (hw : LeaseInvariant h w) :
    h.acquiredNs / 1000000 ≤ w.server.db.now := by
  rw [hw.clock, serverMs_eq_div hw.nonneg]
  exact Int.ediv_le_ediv (by decide) (Int.le_floor.mpr hw.acquired)

/-- The server executes a script and one connection changes. -/
theorem execute
    {server : AcquireWorld HandleThread} {call : Call}
    (hw : LeaseInvariant h w)
    (client : Option HandleThread)
    (hlater : Later w (w.withServer server))
    (hok : validateDispatch call = true)
    (hcall : Due h w.server.db.now call ∨ call.foreign h.record = true)
    (hdb : server.db = (w.server.execute client call).db)
    (hhistory : server.history = (w.server.execute client call).history)
    (hsent : ∀ t c, (server.wire t).current = some c ∨ c ∈ (server.wire t).stale →
      (w.server.wire t).current = some c ∨ c ∈ (w.server.wire t).stale) :
    LeaseInvariant h (w.withServer server) := by
  have hserver := hw.server.execute client hw.acquired_le hok hcall
  rw [← hdb, ← hhistory] at hserver
  have hnow : server.db.now = w.server.db.now := by
    rw [hdb]
    exact call.frozen w.server.db
  exact ⟨hw.nonneg, hnow.trans hw.clock, hw.acquired, hserver,
    fun t c hc => (hw.sent t c (hsent t c hc)).later hlater, hw.retains,
    fun hstate => (hw.released hstate).later hlater⟩

/-- **Every event beside the threads** keeps the invariant. -/
theorem event
    {e : ElectionEvent}
    (hw : LeaseInvariant h w)
    (hevent : electionEvent h w e = some w') :
    LeaseInvariant h w' := by
  have hlater := (electionEvent_frame hevent).1
  cases e with
  | pass time =>
      obtain ⟨hle, hsome⟩ := Option.ite_none_right_eq_some.mp hevent
      obtain rfl := Option.some.inj hsome
      exact ⟨hw.nonneg.trans hle, advance_serverMs_now hw.clock hle,
        hw.acquired.trans (by linarith), hw.server.advance _,
        fun t call hcall => (hw.sent t call hcall).later hlater, hw.retains,
        fun hstate => (hw.released hstate).later hlater⟩
  | foreign call =>
      obtain ⟨⟨hforeign, hok⟩, hsome⟩ := Option.ite_none_right_eq_some.mp hevent
      obtain rfl := Option.some.inj hsome
      exact hw.execute none hlater hok (.inr hforeign) rfl rfl fun t c hc => hc
  | executeCurrent t =>
      obtain ⟨server, hserver, rfl⟩ := Option.map_eq_some_iff.mp hevent
      obtain ⟨call, hcall, rfl⟩ := Option.map_eq_some_iff.mp hserver
      obtain ⟨hok, hdue⟩ := hw.sent t call (.inl hcall)
      refine hw.execute (some t) hlater hok (.inl hdue) rfl rfl fun u c hc => ?_
      by_cases hu : u = t
      · subst hu
        simpa [AcquireWorld.setWire] using Or.inr hc
      · simpa [AcquireWorld.setWire, AcquireWorld.execute, hu] using hc
  | executeStale t k =>
      obtain ⟨server, hserver, rfl⟩ := Option.map_eq_some_iff.mp hevent
      obtain ⟨call, hcall, rfl⟩ := Option.map_eq_some_iff.mp hserver
      obtain ⟨hok, hdue⟩ := hw.sent t call (.inr (List.mem_of_getElem? hcall))
      refine hw.execute (some t) hlater hok (.inl hdue) rfl rfl fun u c hc => ?_
      by_cases hu : u = t
      · subst hu
        have hc' : (w.server.wire u).current = some c ∨ c ∈ (w.server.wire u).stale.eraseIdx k := by
          simpa [AcquireWorld.setWire] using hc
        exact hc'.imp id List.mem_of_mem_eraseIdx
      · simpa [AcquireWorld.setWire, AcquireWorld.execute, hu] using hc

/-- The invariant holds when the lease has been granted. -/
theorem granting
    (hw : Granting h w) :
    LeaseInvariant h w := by
  have hreach : (w.server.db.now : Int) < h.guaranteedMs →
      ∃ e : Nat, some (h.record, w.server.db.now + h.leaseMs) = some (h.record, e) ∧
        h.guaranteedMs ≤ e := by
    refine fun _ => ⟨_, rfl, ?_⟩
    have hacquired : h.acquiredNs / 1000000 ≤ w.server.db.now := by
      rw [hw.clock, serverMs_eq_div hw.nonneg]
      exact Int.ediv_le_ediv (by decide) (Int.le_floor.mpr hw.acquired)
    have hlease := hw.lease
    rw [durationMilliseconds_eq] at hlease
    have hmin := h.options.min_le_lease
    split at hlease
    · cases hlease
    · have hms := Option.some.inj hlease
      unfold LeaseHandle.guaranteedMs
      push_cast
      omega
  refine ⟨hw.nonneg, hw.clock, hw.acquired,
    ⟨⟨_, _, hw.granted, le_rfl, hreach, ?_⟩, ?_, ?_⟩, fun t call hcall => ?_, ?_, ?_⟩
  · simp [hw.history]
  · simp [hw.history]
  · rw [hw.history]
    exact .nil
  · simp [hw.wire t, Wire.init] at hcall
  · rw [hw.threads]
    rintro ⟨⟩
  · rw [hw.threads]
    rintro ⟨⟩

end LeaseInvariant

end Lease

end LeaderRedis
end Bluetape
