import Bluetape.LeaderRedis.Acquisition

/-!
# What a call of `try_acquire` can know

The world of acquiring calls keeps a trace: who has created the record that the
lease key shows, that no fence was issued twice, that a call sends only its own
ACQUIRE and the read-only reconciliation, and what the replies under way mean.

* `Traced`: the invariant of the world;
* `traced_execute`, `Traced.setWire`: the two ways in which it changes;
* `traced_event`: every event that no call causes keeps it.
-/

namespace Bluetape
namespace LeaderRedis

open Base

variable {ι : Type}

/-! ## Records -/

/-- The lease key holds the record, with time left. -/
def Live (db : Keyspace LeaseKey) (r : LeaseRecord) : Prop :=
  ∃ e, db.lookup .lease = some (leaseEntry (r, e)) ∧ db.now < e

/-- The fence that an executed script has issued. -/
def Executed.issued (ev : Executed ι) : Option Nat :=
  (ServerLabel.script ev.call ev.outcome).issued

/-- An executed ACQUIRE of the call has created the record, which was live then. -/
def Created (w : AcquireWorld ι) (t : ι) (r : LeaseRecord) : Prop :=
  ∃ ev ∈ w.history, ev.client = some t ∧ (∃ ttl, ev.call = .acquire r.ownerToken ttl) ∧
    ev.issued = some r.fencingToken ∧ Live ev.after r

theorem Created.mono
    {w w' : AcquireWorld ι} {t : ι} {r : LeaseRecord}
    (h : Created w t r)
    (hsub : ∀ ev ∈ w.history, ev ∈ w'.history) :
    Created w' t r := by
  obtain ⟨ev, hev, hrest⟩ := h
  exact ⟨ev, hsub ev hev, hrest⟩

/-! ## What one script does -/

section OneScript

variable {db : Keyspace LeaseKey} {counter : Nat} {holder : Option (LeaseRecord × Nat)}

/-- An executed script has granted a lease to its owner. -/
structure Granted (counter : Nat) (owner : Bytes) (after : Keyspace LeaseKey)
    (r : LeaseRecord) (e : Nat) : Prop where
  owner : r.ownerToken = owner
  fence : r.fencingToken = counter + 1
  healthy : Healthy after (counter + 1) (some (r, e))
  live : after.now < e

theorem Granted.liveRecord
    {owner : Bytes} {after : Keyspace LeaseKey} {r : LeaseRecord} {e : Nat}
    (h : Granted counter owner after r e) :
    Live after r :=
  ⟨e, h.healthy.lease, h.live⟩

/-- Nothing was granted: the holder afterwards was there before. -/
structure NotGranted (counter : Nat) (holder : Option (LeaseRecord × Nat))
    (after : Keyspace LeaseKey) (counter' : Nat) (holder' : Option (LeaseRecord × Nat)) :
    Prop where
  healthy : Healthy after counter' holder'
  counter_le : counter ≤ counter'
  kept : ∀ r e', holder' = some (r, e') → ∃ e, holder = some (r, e)

/-- ACQUIRE grants the next fence to its owner, or answers something else. -/
theorem acquire_cases
    {owner ttl : Bytes}
    (h : Healthy db counter holder)
    (hok : validateDispatch (.acquire owner ttl) = true) :
    (∃ r e, ((acquireScript owner ttl).run db).1 = .ok (.acquired (decimal (counter + 1))) ∧
        Granted counter owner ((acquireScript owner ttl).run db).2 r e) ∨
      (∃ counter' holder',
        (((acquireScript owner ttl).run db).1 = .ok .contended ∨
          ((acquireScript owner ttl).run db).1 = .ok .corrupt ∨
          ∃ e, ((acquireScript owner ttl).run db).1 = .error e) ∧
        NotGranted counter holder ((acquireScript owner ttl).run db).2 counter' holder') := by
  cases holder with
  | some x =>
      obtain ⟨r, e⟩ := x
      rw [h.acquire_held]
      refine .inr ⟨_, _, ?_, h, le_refl _, fun r' e' he => ⟨e', he⟩⟩
      split
      · exact .inr (.inl rfl)
      · exact .inl rfl
  | none =>
      rcases Nat.lt_or_ge counter maxRedisInteger with hlt | hge
      · simp only [validateDispatch, Bool.and_eq_true] at hok
        obtain ⟨ms, hpos, hle, rfl⟩ := milliseconds_of_validate hok.2
        obtain ⟨db', hnow, hcase⟩ := h.acquire_vacant hlt hok.1 hpos hle
        split at hcase
        · obtain ⟨hrun, hdb'⟩ := hcase
          rw [hrun]
          exact .inr ⟨_, _, .inr (.inr ⟨_, rfl⟩), hdb', Nat.le_succ _, fun _ _ he => by cases he⟩
        · obtain ⟨hrun, r, howner, hfence, hdb'⟩ := hcase
          rw [hrun]
          refine .inl ⟨r, _, rfl, howner, hfence, hdb', ?_⟩
          show db'.now < db.now + ms
          omega
      · have hmax : counter = maxRedisInteger := le_antisymm h.counter_le hge
        subst hmax
        rw [h.acquire_exhausted]
        exact .inr ⟨_, _, .inr (.inl rfl), h, le_refl _, fun _ _ he => by cases he⟩

/-- Only ACQUIRE issues a fence. -/
theorem Healthy.acquire_of_issued
    {call : Call} {fence : Nat}
    (h : Healthy db counter holder)
    (hok : validateDispatch call = true)
    (hissued : (ServerLabel.script call (call.script.run db).1).issued = some fence) :
    ∃ owner ttl, call = .acquire owner ttl := by
  cases houtcome : (call.script.run db).1 with
  | error e =>
      simp [houtcome, ServerLabel.issued] at hissued
  | ok reply =>
      cases reply with
      | acquired text =>
          exact h.acquire_of_reply hok (.inr ⟨text, rfl⟩) houtcome
      | _ =>
          simp [houtcome, ServerLabel.issued] at hissued

/-- What an accepted script does: ACQUIRE may grant, and nothing else does. -/
theorem executed_cases
    {call : Call}
    (h : Healthy db counter holder)
    (hok : validateDispatch call = true) :
    (∃ owner ttl r e, call = .acquire owner ttl ∧
        (call.script.run db).1 = .ok (.acquired (decimal (counter + 1))) ∧
        Granted counter owner (call.script.run db).2 r e) ∨
      (∃ counter' holder',
        (ServerLabel.script call (call.script.run db).1).issued = none ∧
        NotGranted counter holder (call.script.run db).2 counter' holder') := by
  by_cases hacquire : ∃ owner ttl, call = .acquire owner ttl
  · obtain ⟨owner, ttl, rfl⟩ := hacquire
    rcases acquire_cases h hok with ⟨r, e, hreply, hgranted⟩ | ⟨counter', holder', hreply, hnot⟩
    · exact .inl ⟨owner, ttl, r, e, rfl, hreply, hgranted⟩
    · refine .inr ⟨counter', holder', ?_, hnot⟩
      rcases hreply with hreply | hreply | ⟨e, hreply⟩ <;>
        exact congrArg (fun o => (ServerLabel.script (.acquire owner ttl) o).issued) hreply
  · obtain ⟨counter', holder', hdb', heffect⟩ := effect_of_step h (.script db call hok)
    cases heffect with
    | unchanged hl =>
        exact .inr ⟨_, _, hl, hdb', le_refl _, fun r e he => ⟨e, he⟩⟩
    | lost hl =>
        exact .inr ⟨_, _, hl, hdb', le_refl _, fun _ _ he => by cases he⟩
    | @moved r e e' hl hholder =>
        refine .inr ⟨_, _, hl, hdb', le_refl _, fun r' e'' he => ⟨e, ?_⟩⟩
        obtain ⟨rfl, -⟩ := Prod.mk.inj (Option.some.inj he)
        exact hholder
    | burnt hl hnone =>
        exact .inr ⟨_, _, hl, hdb', Nat.le_succ _, fun _ _ he => by cases he⟩
    | granted hl hnone hfence =>
        exact absurd (h.acquire_of_issued hok hl) hacquire

/-- RECONCILE shows a record only while it is live. -/
theorem reconcile_present
    {record : Bytes}
    (h : Healthy db counter holder)
    (hreply : (reconcileScript.run db).1 = .ok (.present record)) :
    ∃ r e, holder = some (r, e) ∧ record = r.toBytes := by
  by_cases hp : ∃ r, Healthy.proves holder db.now r
  · obtain ⟨r, e, rfl, hlt⟩ := hp
    rw [h.reconcile_holder hlt] at hreply
    exact ⟨r, e, rfl, (Reply.present.inj (Except.ok.inj hreply)).symm⟩
  · rw [h.reconcile_vacant fun r hr => hp ⟨r, hr⟩] at hreply
    cases hreply

end OneScript

/-! ## The trace -/

/-- The commands of a call: its own ACQUIRE, and the reconciliation. -/
def Own (token : Bytes) (call : Call) : Prop :=
  validateDispatch call = true ∧ ((∃ ttl, call = .acquire token ttl) ∨ call = .reconcile)

/-- What a reply to a call means. -/
def Told (tokens : ι → Bytes) (w : AcquireWorld ι) (t : ι) : Reply → Prop
  | .acquired fence =>
      ∃ r, r.ownerToken = tokens t ∧ r.fencingToken = decimalValue fence ∧ Created w t r
  | .present record => ∀ r : LeaseRecord, record = r.toBytes → r.ownerToken = tokens t →
      Created w t r
  | _ => True

theorem Told.mono
    {tokens : ι → Bytes} {w w' : AcquireWorld ι} {t : ι} {reply : Reply}
    (h : Told tokens w t reply)
    (hsub : ∀ ev ∈ w.history, ev ∈ w'.history) :
    Told tokens w' t reply := by
  cases reply with
  | acquired fence =>
      obtain ⟨r, howner, hfence, hcreated⟩ := h
      exact ⟨r, howner, hfence, hcreated.mono hsub⟩
  | present record => exact fun r hr howner => (h r hr howner).mono hsub
  | _ => trivial

/-- The reply to an ACQUIRE was lost, or came as an error that leaves it open. -/
def WireEvent.uncertain : WireEvent → Prop
  | .answered (.acquire _ _) (.raised .uncertain) => True
  | _ => False

/-- An ACQUIRE was sent. -/
def WireEvent.sendsAcquire : WireEvent → Prop
  | .sent (.acquire _ _) => True
  | _ => False

/-- No ACQUIRE is sent after an uncertain one. -/
def Ordered (events : List WireEvent) : Prop :=
  events.Pairwise fun a b => a.uncertain → ¬ b.sendsAcquire

/-- The invariant of the world of acquiring calls. -/
structure Traced (tokens : ι → Bytes) (w : AcquireWorld ι) : Prop where
  server : ∃ counter holder, Healthy w.db counter holder ∧
    (∀ r e, holder = some (r, e) → ∀ t, tokens t = r.ownerToken → Created w t r) ∧
    ∀ ev ∈ w.history, ∀ fence, ev.issued = some fence → fence ≤ counter
  distinct : w.history.Pairwise fun a b => ∀ fence, a.issued = some fence → b.issued ≠ some fence
  own : ∀ t call, (w.wire t).current = some call ∨ call ∈ (w.wire t).stale →
    Own (tokens t) call
  told : ∀ t reply, (w.wire t).reply = some (.ok reply) → Told tokens w t reply
  ordered : ∀ t, Ordered (w.wire t).events

namespace Traced

variable {tokens : ι → Bytes} {w : AcquireWorld ι}

theorem init
    (now : Nat) :
    Traced tokens (AcquireWorld.init ι now) where
  server := ⟨0, none, Healthy.empty now, fun _ _ h => (by cases h), fun _ h => (by cases h)⟩
  distinct := .nil
  own t call h := by simp [AcquireWorld.init, Wire.init] at h
  told t reply h := by simp [AcquireWorld.init, Wire.init] at h
  ordered _ := .nil

theorem advance
    (h : Traced tokens w)
    (ms : Nat) :
    Traced tokens { w with db := w.db.advance ms } := by
  obtain ⟨counter, holder, hdb, hcreated, hbound⟩ := h.server
  refine ⟨⟨counter, _, hdb.advance ms, fun r e he => ?_, hbound⟩, h.distinct, h.own, h.told,
    h.ordered⟩
  exact hcreated r e (Option.eq_some_of_filter_eq_some he)

/-- The executed scripts stay in the history. -/
theorem mem_execute
    (w : AcquireWorld ι) (client : Option ι) (call : Call) :
    ∀ ev ∈ w.history, ev ∈ (w.execute client call).history :=
  fun _ hev => List.mem_append_left _ hev

/-- The server executes a script, whose ACQUIRE is charged to the call with its owner. -/
theorem execute
    {client : Option ι} {call : Call}
    (h : Traced tokens w)
    (hok : validateDispatch call = true)
    (hclient : ∀ owner ttl, call = .acquire owner ttl → ∀ t, tokens t = owner → client = some t) :
    Traced tokens (w.execute client call) := by
  obtain ⟨counter, holder, hdb, hcreated, hbound⟩ := h.server
  have hsub := mem_execute w client call
  have htold : ∀ t reply, (w.wire t).reply = some (.ok reply) →
      Told tokens (w.execute client call) t reply :=
    fun t reply hreply => (h.told t reply hreply).mono hsub
  have hmem : ∀ ev ∈ (w.execute client call).history, ev ∈ w.history ∨
      ev = ⟨client, call, (call.script.run w.db).1, (call.script.run w.db).2⟩ := by
    intro ev hev
    exact (List.mem_append.mp hev).imp id List.mem_singleton.mp
  rcases executed_cases hdb hok with ⟨owner, ttl, r, e, rfl, hreply, hgranted⟩ |
    ⟨counter', holder', hnone, hnot⟩
  · -- a grant: the new event carries a fence above all the others
    have hissued : (ServerLabel.script (.acquire owner ttl)
        ((Call.acquire owner ttl).script.run w.db).1).issued = some (counter + 1) := by
      rw [hreply]
      simp [ServerLabel.issued]
    refine ⟨⟨counter + 1, _, hgranted.healthy, fun r' e' he t ht => ?_, fun ev hev fence hf => ?_⟩,
      ?_, h.own, htold, h.ordered⟩
    · obtain ⟨rfl, rfl⟩ := Prod.mk.inj (Option.some.inj he)
      have howner := hgranted.owner
      refine ⟨_, List.mem_append_right _ (List.mem_singleton_self _),
        hclient owner ttl rfl t (ht.trans howner), ⟨ttl, by rw [howner]⟩, ?_, hgranted.liveRecord⟩
      rw [hgranted.fence]
      exact hissued
    · rcases hmem ev hev with hev | rfl
      · exact (hbound ev hev fence hf).trans (Nat.le_succ _)
      · exact le_of_eq (Option.some.inj (hf.symm.trans hissued))
    · refine List.pairwise_append.mpr ⟨h.distinct, List.pairwise_singleton .., ?_⟩
      intro ev hev new hnew fence hf hfence
      obtain rfl := List.mem_singleton.mp hnew
      have hle := hbound ev hev fence hf
      have heq := Option.some.inj (hfence.symm.trans hissued)
      omega
  · refine ⟨⟨counter', holder', hnot.healthy, fun r e' he t ht => ?_, fun ev hev fence hf => ?_⟩,
      ?_, h.own, htold, h.ordered⟩
    · obtain ⟨e, hold⟩ := hnot.kept r e' he
      exact (hcreated r e hold t ht).mono hsub
    · rcases hmem ev hev with hev | rfl
      · exact (hbound ev hev fence hf).trans hnot.counter_le
      · exact absurd (hf.symm.trans hnone) (by simp)
    · refine List.pairwise_append.mpr ⟨h.distinct, List.pairwise_singleton .., ?_⟩
      intro ev hev new hnew fence hf hfence
      obtain rfl := List.mem_singleton.mp hnew
      exact absurd (hfence.symm.trans hnone) (by simp)

/-- What the reply to an own command means, right after its execution. -/
theorem told_execute
    {t : ι} {call : Call} {reply : Reply}
    (h : Traced tokens w)
    (hown : Own (tokens t) call)
    (hreply : (call.script.run w.db).1 = .ok reply) :
    Told tokens (w.execute (some t) call) t reply := by
  obtain ⟨counter, holder, hdb, hcreated, -⟩ := h.server
  obtain ⟨hok, ⟨ttl, rfl⟩ | rfl⟩ := hown
  · rcases acquire_cases hdb hok with ⟨r, e, hgrant, hgranted⟩ | ⟨counter', holder', hother, -⟩
    · obtain rfl := Except.ok.inj (hreply.symm.trans hgrant)
      have hissued : (ServerLabel.script (.acquire (tokens t) ttl)
          ((Call.acquire (tokens t) ttl).script.run w.db).1).issued = some (counter + 1) := by
        rw [hreply]
        simp [ServerLabel.issued]
      refine ⟨r, hgranted.owner, by rw [hgranted.fence, decimalValue_decimal], _,
        List.mem_append_right _ (List.mem_singleton_self _), rfl, ⟨ttl, by rw [hgranted.owner]⟩, ?_,
        hgranted.liveRecord⟩
      rw [hgranted.fence]
      exact hissued
    · rcases hother with hother | hother | ⟨e, hother⟩
      · obtain rfl := Except.ok.inj (hreply.symm.trans hother)
        trivial
      · obtain rfl := Except.ok.inj (hreply.symm.trans hother)
        trivial
      · exact absurd (hreply.symm.trans hother) (by simp)
  · cases reply with
    | present record =>
        obtain ⟨r, e, hholder, hrecord⟩ := reconcile_present hdb hreply
        intro r' hr' howner
        obtain rfl := LeaseRecord.toBytes_injective (hrecord.symm.trans hr')
        exact (hcreated r e hholder t howner.symm).mono (mem_execute w _ _)
    | acquired fence =>
        obtain ⟨owner, ttl, hcall⟩ := hdb.acquire_of_reply rfl (.inr ⟨fence, rfl⟩) hreply
        cases hcall
    | _ => trivial

variable [DecidableEq ι]

/-- The connection of one call changes. -/
theorem setWire
    {t : ι} {wire : Wire}
    (h : Traced tokens w)
    (hown : ∀ call, wire.current = some call ∨ call ∈ wire.stale → Own (tokens t) call)
    (htold : ∀ reply, wire.reply = some (.ok reply) → Told tokens w t reply)
    (hordered : Ordered wire.events) :
    Traced tokens (w.setWire t wire) := by
  refine ⟨h.server, h.distinct, fun u call hcall => ?_, fun u reply hreply => ?_, fun u => ?_⟩
  · by_cases hu : u = t
    · subst hu
      exact hown call (by simpa [AcquireWorld.setWire] using hcall)
    · exact h.own u call (by simpa [AcquireWorld.setWire, hu] using hcall)
  · by_cases hu : u = t
    · subst hu
      exact htold reply (by simpa [AcquireWorld.setWire] using hreply)
    · exact h.told u reply (by simpa [AcquireWorld.setWire, hu] using hreply)
  · by_cases hu : u = t
    · subst hu
      simpa [AcquireWorld.setWire] using hordered
    · simpa [AcquireWorld.setWire, hu] using h.ordered u

/-- What happens without a step of a call keeps the trace. -/
theorem event
    {e : AcquireEvent tokens} {w' : AcquireWorld ι}
    (htokens : Function.Injective tokens)
    (h : Traced tokens w)
    (hevent : acquireEvent w e = some w') :
    Traced tokens w' := by
  have hexecute : ∀ t call, Own (tokens t) call → Traced tokens (w.execute (some t) call) := by
    intro t call hown
    refine h.execute hown.1 fun owner ttl hcall u hu => ?_
    rcases hown.2 with ⟨ttl', hacquire⟩ | hreconcile
    · obtain ⟨hsame, -⟩ := Call.acquire.inj (hcall.symm.trans hacquire)
      rw [htokens (hu.trans hsame)]
    · rw [hreconcile] at hcall
      cases hcall
  cases e with
  | advance ms =>
      obtain rfl := Option.some.inj hevent
      exact h.advance ms
  | foreign call hforeign =>
      obtain rfl := Option.some.inj hevent
      exact h.execute hforeign.1 fun owner ttl hcall t ht =>
        absurd ht (hforeign.2 owner ttl hcall t)
  | executeCurrent t =>
      obtain ⟨call, hcall, rfl⟩ := Option.map_eq_some_iff.mp hevent
      have hown := h.own t call (.inl hcall)
      refine (hexecute t call hown).setWire (fun call' hcall' => ?_) (fun reply hreply => ?_)
        (h.ordered t)
      · exact h.own t call' (hcall'.elim (by simp) .inr)
      · exact h.told_execute hown (Option.some.inj hreply)
  | executeStale t k =>
      obtain ⟨call, hcall, rfl⟩ := Option.map_eq_some_iff.mp hevent
      have hown := h.own t call (.inr (List.mem_of_getElem? hcall))
      refine (hexecute t call hown).setWire (fun call' hcall' => ?_) (fun reply hreply => ?_)
        (h.ordered t)
      · exact h.own t call' (hcall'.imp id fun hmem => List.mem_of_mem_eraseIdx hmem)
      · exact (h.told t reply hreply).mono (mem_execute w _ _)

end Traced

end LeaderRedis
end Bluetape
