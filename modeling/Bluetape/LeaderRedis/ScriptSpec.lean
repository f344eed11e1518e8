import Bluetape.LeaderRedis.LuaRecord

/-!
# What the lease scripts do to a healthy keyspace

`Healthy db counter holder` describes every keyspace that only the lease
scripts have written: the marker and the counter exist together and never
expire, and the visible lease, if any, is the canonical record of `holder`,
whose fence is the counter.

There is one specification lemma for each script and each case of the holder.
They give the reply and the new counter and holder, so later proofs do not
look into the scripts again.
-/

namespace Bluetape
namespace LeaderRedis

open Base

/-- The entry that a holder with its expiry leaves under the lease key. -/
def leaseEntry (holder : LeaseRecord × Nat) : Entry :=
  ⟨.string holder.1.toBytes, some holder.2⟩

/-- A keyspace that the lease scripts alone have written. -/
structure Healthy (db : Keyspace LeaseKey) (counter : Nat)
    (holder : Option (LeaseRecord × Nat)) : Prop where
  history : db.lookup .history =
    if counter = 0 then none else some ⟨.string (ascii "v1"), none⟩
  fence : db.lookup .fence =
    if counter = 0 then none else some ⟨.string (decimal counter), none⟩
  lease : db.lookup .lease = holder.map leaseEntry
  counter_le : counter ≤ maxRedisInteger
  fence_eq : ∀ r e, holder = some (r, e) → r.fencingToken = counter

namespace Healthy

variable {db : Keyspace LeaseKey} {counter : Nat}

theorem empty
    (now : Nat) :
    Healthy (Keyspace.empty now) 0 none where
  history := by simp
  fence := by simp
  lease := by simp
  counter_le := Nat.zero_le _
  fence_eq := by simp

theorem counter_ne_zero
    {r : LeaseRecord} {e : Nat}
    (h : Healthy db counter (some (r, e))) :
    counter ≠ 0 := by
  have hpos := r.fence_pos
  have heq := h.fence_eq r e rfl
  omega

/-- A visible lease has not passed its expiry. -/
theorem now_le
    {r : LeaseRecord} {e : Nat}
    (h : Healthy db counter (some (r, e))) :
    db.now ≤ e :=
  Keyspace.now_le_of_lookup h.lease rfl

/-- Time only takes a lease away, once its expiry has passed. -/
theorem advance
    {holder : Option (LeaseRecord × Nat)}
    (h : Healthy db counter holder) (ms : Nat) :
    Healthy (db.advance ms) counter
      (holder.filter (fun x => decide (db.now + ms ≤ x.2))) where
  history := by
    have hh := h.history
    split at hh
    · rw [if_pos ‹_›]
      exact Keyspace.lookup_advance_none hh ms
    · rw [if_neg ‹_›]
      exact Keyspace.lookup_advance_persistent hh ms
  fence := by
    have hf := h.fence
    split at hf
    · rw [if_pos ‹_›]
      exact Keyspace.lookup_advance_none hf ms
    · rw [if_neg ‹_›]
      exact Keyspace.lookup_advance_persistent hf ms
  lease := by
    have hl := h.lease
    cases holder with
    | none =>
        exact Keyspace.lookup_advance_none hl ms
    | some x =>
        have hentry : db.entries .lease = some (leaseEntry x) :=
          (Keyspace.lookup_eq_some.mp hl).1
        by_cases hle : db.now + ms ≤ x.2
        · simp [Keyspace.lookup, Keyspace.advance, hentry, leaseEntry,
            Entry.expired, Option.filter, hle, Nat.not_lt.mpr hle]
        · simp [Keyspace.lookup, Keyspace.advance, hentry, leaseEntry,
            Entry.expired, Option.filter, hle, Nat.lt_of_not_le hle]
  counter_le := h.counter_le
  fence_eq := by
    intro r e hre
    exact h.fence_eq r e (Option.filter_eq_some_iff.mp hre).1

/-! ## The blocks of `ACQUIRE_SCRIPT` -/

/-- The marker's type, by whether anything was ever issued. -/
def historyType (counter : Nat) : KeyType :=
  if counter = 0 then .none else .string

/-- The counter as `previous` sees it. -/
def previous (counter : Nat) : Option Bytes :=
  if counter = 0 then none else some (decimal counter)

theorem run_acquireHistory
    {holder : Option (LeaseRecord × Nat)}
    (h : Healthy db counter holder) :
    acquireHistory.run db = (.ok (some (historyType counter)), db) := by
  have hh := h.history
  by_cases hc : counter = 0
  · rw [if_pos hc] at hh
    simp [acquireHistory, hh, Script.typeOf, historyType, hc]
  · rw [if_neg hc] at hh
    simp [acquireHistory, hh, Script.typeOf, Script.pttlOf, historyType, hc,
      Script.run_get_string hh]

theorem run_acquirePrevious
    {holder : Option (LeaseRecord × Nat)}
    (h : Healthy db counter holder) :
    (acquirePrevious (historyType counter)).run db =
      (.ok (some (previous counter)), db) := by
  have hf := h.fence
  by_cases hc : counter = 0
  · rw [if_pos hc] at hf
    simp [acquirePrevious, hf, Script.typeOf, historyType, previous, hc]
  · rw [if_neg hc] at hf
    have hvalid : validFence (decimal counter) = true := by
      rw [validFence_eq]
      exact isCanonicalFence_decimal (Nat.pos_of_ne_zero hc) h.counter_le
    simp [acquirePrevious, hf, Script.typeOf, Script.pttlOf, historyType,
      previous, hc, Script.run_getString hf, hvalid]

theorem run_acquireContention_none
    (h : Healthy db counter none) :
    (acquireContention (historyType counter) (previous counter)).run db =
      (.ok none, db) := by
  have hl : db.lookup .lease = none := h.lease
  simp [acquireContention, hl, Script.typeOf]

/-- At the last visible instant PTTL is 0 and the script reports corruption. -/
theorem run_acquireContention_some
    {r : LeaseRecord} {e : Nat}
    (h : Healthy db counter (some (r, e))) :
    (acquireContention (historyType counter) (previous counter)).run db =
      (.ok (some (if e = db.now then .corrupt else .contended)), db) := by
  have hl : db.lookup .lease = some ⟨.string r.toBytes, some e⟩ := h.lease
  have hc := h.counter_ne_zero
  have hfence := h.fence_eq r e rfl
  have hle := h.now_le
  have hpttl : ((e - db.now : Nat) : Int) ≤ 0 ↔ e = db.now := by
    omega
  simp only [acquireContention, Script.run_bind, Script.run_type, hl,
    Script.typeOf, historyType, if_neg hc, ne_eq, reduceCtorEq,
    not_false_eq_true, not_true_eq_false, if_true, if_false,
    Script.run_getString hl, luaRecord_toBytes, previous, hfence,
    Script.run_pttl, Script.pttlOf, hpttl]
  split <;> simp

/-! ## `ACQUIRE_SCRIPT` -/

theorem run_acquireScript
    {holder : Option (LeaseRecord × Nat)}
    (h : Healthy db counter holder) (owner ttl : Bytes) :
    (acquireScript owner ttl).run db =
      ((acquireContention (historyType counter) (previous counter)) >>= fun reply =>
        match reply with
        | some reply => pure reply
        | none => acquireIssue (historyType counter) (previous counter) owner ttl).run
          db := by
  unfold acquireScript
  rw [Script.run_bind_ok h.run_acquireHistory]
  exact Script.run_bind_ok h.run_acquirePrevious

/-- ACQUIRE on a visible lease: contention, except at the last instant. -/
theorem acquire_held
    {r : LeaseRecord} {e : Nat}
    (h : Healthy db counter (some (r, e))) (owner ttl : Bytes) :
    (acquireScript owner ttl).run db =
      (.ok (if e = db.now then .corrupt else .contended), db) := by
  rw [h.run_acquireScript, Script.run_bind_ok h.run_acquireContention_some]
  simp

/-- ACQUIRE once every fence has been issued. -/
theorem acquire_exhausted
    (h : Healthy db maxRedisInteger none) (owner ttl : Bytes) :
    (acquireScript owner ttl).run db = (.ok .corrupt, db) := by
  rw [h.run_acquireScript, Script.run_bind_ok h.run_acquireContention_none]
  have hmax : previous maxRedisInteger = some (ascii "9223372036854775807") := by
    decide
  simp [acquireIssue, hmax]

/-- The counter after the block that increments it. -/
theorem run_incr_fence
    (h : Healthy db counter none)
    (hlt : counter < maxRedisInteger)
    (db' : Keyspace LeaseKey)
    (hfence : db'.lookup .fence = db.lookup .fence) :
    ∃ n, (Script.incr LeaseKey.fence).run db' =
      (.ok n, db'.write .fence (some ⟨.string (decimal (counter + 1)), none⟩)) := by
  have hf := h.fence
  rw [← hfence] at hf
  by_cases hc : counter = 0
  · rw [if_pos hc] at hf
    subst hc
    exact ⟨1, Script.run_incr_missing hf⟩
  · rw [if_neg hc] at hf
    exact ⟨_, Script.run_incr_decimal hf (Nat.pos_of_ne_zero hc) hlt⟩

/-- The keyspace in which the marker and the next fence have been written. -/
def issued (db : Keyspace LeaseKey) (counter : Nat) : Keyspace LeaseKey :=
  (if counter = 0 then
      db.write .history (some ⟨.string (ascii "v1"), none⟩)
    else db).write .fence (some ⟨.string (decimal (counter + 1)), none⟩)

theorem issued_now
    (db : Keyspace LeaseKey) (counter : Nat) :
    (issued db counter).now = db.now := by
  unfold issued
  split <;> rfl

theorem healthy_issued
    (h : Healthy db counter none)
    (hlt : counter < maxRedisInteger) :
    Healthy (issued db counter) (counter + 1) none where
  history := by
    have hh := h.history
    unfold issued
    by_cases hc : counter = 0
    · simp [hc]
    · simpa [hc] using hh
  fence := by
    simp [issued]
  lease := by
    have hl := h.lease
    unfold issued
    by_cases hc : counter = 0
    · simpa [hc] using hl
    · simpa [hc] using hl
  counter_le := hlt
  fence_eq := by simp

/-- The keyspace in which a lease has been written over no lease. -/
theorem healthy_write_lease
    {holder : Option (LeaseRecord × Nat)} {r : LeaseRecord} {e : Nat}
    (h : Healthy db counter holder)
    (hfence : r.fencingToken = counter)
    (hle : db.now ≤ e) :
    Healthy (db.write .lease (some (leaseEntry (r, e)))) counter
      (some (r, e)) where
  history := by simpa using h.history
  fence := by simpa using h.fence
  lease := by
    simp [Keyspace.lookup_write, leaseEntry, Entry.expired, Option.filter,
      Nat.not_lt.mpr hle]
  counter_le := h.counter_le
  fence_eq := by
    intro r' e' heq
    simp only [Option.some.injEq, Prod.mk.injEq] at heq
    rw [← heq.1, hfence]

theorem healthy_delete_lease
    {holder : Option (LeaseRecord × Nat)}
    (h : Healthy db counter holder) :
    Healthy (db.write .lease none) counter none where
  history := by simpa using h.history
  fence := by simpa using h.fence
  lease := by simp
  counter_le := h.counter_le
  fence_eq := by simp

theorem previous_ne_max
    (hlt : counter < maxRedisInteger) :
    previous counter ≠ some (ascii "9223372036854775807") := by
  have hmax : ascii "9223372036854775807" = decimal maxRedisInteger := by
    decide
  unfold previous
  rw [hmax]
  split
  · simp
  · rw [Ne, Option.some.injEq]
    intro heq
    have := decimal_injective heq
    omega

/-- The block that issues a fence, from the keyspace after INCR on. -/
theorem run_acquireIssue
    (h : Healthy db counter none)
    (hlt : counter < maxRedisInteger)
    (owner ttl : Bytes) :
    (acquireIssue (historyType counter) (previous counter) owner ttl).run db =
      (do
        Script.setPX LeaseKey.lease
          (ascii "v1" ++ byte ':' :: (owner ++ byte ':' :: decimal (counter + 1))) ttl
        return .acquired (decimal (counter + 1)) : Script LeaseKey Reply).run
        (issued db counter) := by
  have hprev := previous_ne_max hlt
  have hfence : (issued db counter).lookup .fence =
      some ⟨.string (decimal (counter + 1)), none⟩ := by
    simp [issued]
  have hget := Script.run_getString hfence
  have hvalid : validFence (decimal (counter + 1)) = true := by
    rw [validFence_eq]
    exact isCanonicalFence_decimal (Nat.succ_pos _) hlt
  by_cases hc : counter = 0
  · subst hc
    obtain ⟨n, hn⟩ := run_incr_fence h hlt
      (db.write .history (some ⟨.string (ascii "v1"), none⟩)) (by simp)
    simp only [issued, if_true, Nat.zero_add] at hget hn hvalid ⊢
    simp [acquireIssue, hprev, historyType, hn, hget, hvalid]
  · obtain ⟨n, hn⟩ := run_incr_fence h hlt db rfl
    simp only [issued, if_neg hc] at hget ⊢
    simp [acquireIssue, hprev, historyType, hc, hn, hget, hvalid]

/--
ACQUIRE without a visible lease issues the next fence.  When the server
rejects the expiry the fence is burnt, otherwise the owner holds the lease.
-/
theorem acquire_vacant
    (h : Healthy db counter none)
    (hlt : counter < maxRedisInteger)
    {owner : Bytes} {ms : Nat}
    (howner : isOwnerToken owner = true)
    (hpos : 0 < ms)
    (hle : ms ≤ maxInt64) :
    ∃ db', db'.now = db.now ∧
      if maxInt64 < db.now + ms then
        (acquireScript owner (decimal ms)).run db =
          (.error .invalidExpireTime, db') ∧
        Healthy db' (counter + 1) none
      else
        (acquireScript owner (decimal ms)).run db =
          (.ok (.acquired (decimal (counter + 1))), db') ∧
        ∃ r : LeaseRecord, r.ownerToken = owner ∧ r.fencingToken = counter + 1 ∧
          Healthy db' (counter + 1) (some (r, db.now + ms)) := by
  have hissued := healthy_issued h hlt
  have hnow := issued_now db counter
  have hrun : (acquireScript owner (decimal ms)).run db =
      (acquireIssue (historyType counter) (previous counter) owner
        (decimal ms)).run db := by
    rw [h.run_acquireScript, Script.run_bind_ok h.run_acquireContention_none]
  rw [hrun, run_acquireIssue h hlt, Script.run_bind,
    Script.run_setPX_decimal _ _ _ hpos hle, hnow]
  by_cases hover : maxInt64 < db.now + ms
  · simp only [if_pos hover]
    exact ⟨issued db counter, hnow, rfl, hissued⟩
  · simp only [if_neg hover]
    let r : LeaseRecord := ⟨owner, counter + 1, howner, Nat.succ_pos _, hlt⟩
    refine ⟨(issued db counter).write .lease (some (leaseEntry (r, db.now + ms))),
      hnow, rfl, r, rfl, rfl, ?_⟩
    exact healthy_write_lease hissued rfl (by rw [hnow]; omega)

/-! ## The scripts on an existing lease -/

theorem run_leaseGuard_none
    (h : Healthy db counter none) (missing : Reply) :
    (leaseGuard missing).run db = (.ok (.error missing), db) := by
  have hl : db.lookup .lease = none := h.lease
  simp [leaseGuard, hl, Script.typeOf]

theorem run_leaseGuard_some
    {r : LeaseRecord} {e : Nat}
    (h : Healthy db counter (some (r, e))) (missing : Reply) :
    (leaseGuard missing).run db =
      (.ok (if e = db.now then .error missing else .ok r.toBytes), db) := by
  have hl : db.lookup .lease = some ⟨.string r.toBytes, some e⟩ := h.lease
  have hle := h.now_le
  have hpttl : ((e - db.now : Nat) : Int) ≤ 0 ↔ e = db.now := by
    omega
  simp only [leaseGuard, Script.run_bind, Script.run_type, hl, Script.typeOf,
    ne_eq, reduceCtorEq, not_true_eq_false, if_false,
    Script.run_getString hl, luaRecord_toBytes, Option.isNone_some,
    Bool.false_eq_true, Script.run_pttl, Script.pttlOf]
  simp only [Script.run_ite, hpttl]
  split <;> simp

/-- RENEW, PROBE and RELEASE find the caller's record in time. -/
def proves (holder : Option (LeaseRecord × Nat)) (now : Nat) (r : LeaseRecord) :
    Prop :=
  ∃ e, holder = some (r, e) ∧ now < e

theorem run_guarded
    {holder : Option (LeaseRecord × Nat)}
    (h : Healthy db counter holder) (r : LeaseRecord)
    (success : Script LeaseKey Reply) :
    (proves holder db.now r →
      (leaseGuard .notHeld >>= fun guard =>
        match guard with
        | .error reply => pure reply
        | .ok current => if current ≠ r.toBytes then pure .notHeld else success).run
          db = success.run db) ∧
    (¬ proves holder db.now r →
      (leaseGuard .notHeld >>= fun guard =>
        match guard with
        | .error reply => pure reply
        | .ok current => if current ≠ r.toBytes then pure .notHeld else success).run
          db = (.ok .notHeld, db)) := by
  cases holder with
  | none =>
      refine ⟨fun hp => ?_, fun _ => ?_⟩
      · obtain ⟨e, he, -⟩ := hp
        simp at he
      · rw [Script.run_bind_ok (h.run_leaseGuard_none _)]
        rfl
  | some x =>
      obtain ⟨held, e⟩ := x
      rw [Script.run_bind_ok (h.run_leaseGuard_some _)]
      have hle := h.now_le
      refine ⟨fun hp => ?_, fun hp => ?_⟩
      · obtain ⟨e', he, hlt⟩ := hp
        simp only [Option.some.injEq, Prod.mk.injEq] at he
        obtain ⟨rfl, rfl⟩ := he
        rw [if_neg (by omega)]
        simp
      · by_cases hnow : e = db.now
        · simp [hnow]
        · have hne : held.toBytes ≠ r.toBytes := by
            intro heq
            refine hp ⟨e, ?_, by omega⟩
            rw [LeaseRecord.toBytes_injective heq]
          simp [hnow, hne]

/-- RENEW by the holder moves the expiry. -/
theorem renew_holder
    {r : LeaseRecord} {e ms : Nat}
    (h : Healthy db counter (some (r, e)))
    (hlt : db.now < e)
    (hpos : 0 < ms)
    (hle : ms ≤ maxInt64) :
    ∃ db', db'.now = db.now ∧
      if maxInt64 < db.now + ms then
        (renewScript r.toBytes (decimal ms)).run db =
          (.error .invalidExpireTime, db') ∧
        Healthy db' counter (some (r, e))
      else
        (renewScript r.toBytes (decimal ms)).run db = (.ok .renewed, db') ∧
        Healthy db' counter (some (r, db.now + ms)) := by
  have hl : db.lookup .lease = some ⟨.string r.toBytes, some e⟩ := h.lease
  have hfence := h.fence_eq r e rfl
  have hrun := (h.run_guarded r
    (do
      let _ ← Script.pexpire LeaseKey.lease (decimal ms)
      return .renewed)).1 ⟨e, rfl, hlt⟩
  have hexp := Script.run_pexpire_decimal hl hpos hle
  by_cases hover : maxInt64 < db.now + ms
  · simp only [if_pos hover] at hexp ⊢
    refine ⟨db, rfl, ?_, h⟩
    refine hrun.trans ?_
    rw [Script.run_bind_error hexp]
  · simp only [if_neg hover] at hexp ⊢
    refine ⟨db.write .lease (some (leaseEntry (r, db.now + ms))), rfl, ?_,
      healthy_write_lease h hfence (by omega)⟩
    refine hrun.trans ?_
    rw [Script.run_bind_ok hexp]
    rfl

theorem renew_other
    {holder : Option (LeaseRecord × Nat)}
    (h : Healthy db counter holder) (r : LeaseRecord) (ttl : Bytes)
    (hnot : ¬ proves holder db.now r) :
    (renewScript r.toBytes ttl).run db = (.ok .notHeld, db) :=
  (h.run_guarded r _).2 hnot

theorem probe_holder
    {r : LeaseRecord} {e : Nat}
    (h : Healthy db counter (some (r, e)))
    (hlt : db.now < e) :
    (probeScript r.toBytes).run db = (.ok .held, db) :=
  (h.run_guarded r (pure .held)).1 ⟨e, rfl, hlt⟩

theorem probe_other
    {holder : Option (LeaseRecord × Nat)}
    (h : Healthy db counter holder) (r : LeaseRecord)
    (hnot : ¬ proves holder db.now r) :
    (probeScript r.toBytes).run db = (.ok .notHeld, db) :=
  (h.run_guarded r (pure .held)).2 hnot

/-- RELEASE by the holder without a remaining minimum deletes the lease. -/
theorem release_holder_now
    {r : LeaseRecord} {e : Nat}
    (h : Healthy db counter (some (r, e)))
    (hlt : db.now < e) :
    ∃ db', db'.now = db.now ∧
      (releaseScript r.toBytes (ascii "0")).run db = (.ok .deleted, db') ∧
      Healthy db' counter none := by
  have hl : db.lookup .lease = some ⟨.string r.toBytes, some e⟩ := h.lease
  refine ⟨db.write .lease none, rfl, ?_, healthy_delete_lease h⟩
  refine ((h.run_guarded r _).1 ⟨e, rfl, hlt⟩).trans ?_
  rw [if_pos rfl, Script.run_bind_ok (Script.run_del hl)]
  rfl

/-- RELEASE by the holder with a remaining minimum keeps the lease that long. -/
theorem release_holder_min
    {r : LeaseRecord} {e ms : Nat}
    (h : Healthy db counter (some (r, e)))
    (hlt : db.now < e)
    (hpos : 0 < ms)
    (hle : ms ≤ maxInt64) :
    ∃ db', db'.now = db.now ∧
      if maxInt64 < db.now + ms then
        (releaseScript r.toBytes (decimal ms)).run db =
          (.error .invalidExpireTime, db') ∧
        Healthy db' counter (some (r, e))
      else
        (releaseScript r.toBytes (decimal ms)).run db = (.ok .minTtlApplied, db') ∧
        Healthy db' counter (some (r, db.now + ms)) := by
  have hl : db.lookup .lease = some ⟨.string r.toBytes, some e⟩ := h.lease
  have hfence := h.fence_eq r e rfl
  have hne : decimal ms ≠ ascii "0" := by
    have hzero : ascii "0" = decimal 0 := by
      decide
    rw [hzero]
    intro heq
    have := decimal_injective heq
    omega
  have hrun : (releaseScript r.toBytes (decimal ms)).run db =
      (Script.pexpire LeaseKey.lease (decimal ms) >>= fun _ =>
        pure .minTtlApplied).run db := by
    refine ((h.run_guarded r _).1 ⟨e, rfl, hlt⟩).trans ?_
    rw [if_neg hne]
  have hexp := Script.run_pexpire_decimal hl hpos hle
  by_cases hover : maxInt64 < db.now + ms
  · simp only [if_pos hover] at hexp ⊢
    refine ⟨db, rfl, ?_, h⟩
    rw [hrun, Script.run_bind_error hexp]
  · simp only [if_neg hover] at hexp ⊢
    refine ⟨db.write .lease (some (leaseEntry (r, db.now + ms))), rfl, ?_,
      healthy_write_lease h hfence (by omega)⟩
    rw [hrun, Script.run_bind_ok hexp]
    rfl

theorem release_other
    {holder : Option (LeaseRecord × Nat)}
    (h : Healthy db counter holder) (r : LeaseRecord) (remaining : Bytes)
    (hnot : ¬ proves holder db.now r) :
    (releaseScript r.toBytes remaining).run db = (.ok .notHeld, db) :=
  (h.run_guarded r _).2 hnot

theorem reconcile_holder
    {r : LeaseRecord} {e : Nat}
    (h : Healthy db counter (some (r, e)))
    (hlt : db.now < e) :
    reconcileScript.run db = (.ok (.present r.toBytes), db) := by
  unfold reconcileScript
  rw [Script.run_bind_ok (h.run_leaseGuard_some _), if_neg (by omega)]
  rfl

theorem reconcile_vacant
    {holder : Option (LeaseRecord × Nat)}
    (h : Healthy db counter holder)
    (hnot : ∀ r, ¬ proves holder db.now r) :
    reconcileScript.run db = (.ok .absent, db) := by
  unfold reconcileScript
  cases holder with
  | none =>
      rw [Script.run_bind_ok (h.run_leaseGuard_none _)]
      rfl
  | some x =>
      obtain ⟨r, e⟩ := x
      have hle := h.now_le
      have he : e = db.now := by
        by_contra hne
        exact hnot r ⟨e, rfl, by omega⟩
      rw [Script.run_bind_ok (h.run_leaseGuard_some _), if_pos he]
      rfl

end Healthy
end LeaderRedis
end Bluetape
