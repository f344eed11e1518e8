import Bluetape.Base.FencedLease
import Bluetape.LeaderRedis.ScriptSpec

/-!
# Runs of the lease scripts

A server run interleaves script calls of any number of clients with the
passing of time.  Calls carry any arguments that the dispatcher accepts, so
every assignment of owner tokens to clients is covered.

The keyspace refines a `FencedLease`: every step of the server is a step of
that object, with the visible lease as its holder.  Fencing and mutual
exclusion then follow from the general theory.  The second part asks when a
script reports corruption of a keyspace that only the scripts have written.
-/

namespace Bluetape
namespace LeaderRedis

open Base

/-- A step of the server: time passes, or a script answers a call. -/
inductive ServerLabel
  | advance (ms : Nat)
  | script (call : Call) (outcome : Except CommandError Reply)

/-- The steps of the server over the keys of one lock. -/
inductive ServerStep :
    Keyspace LeaseKey → ServerLabel → Keyspace LeaseKey → Prop
  | advance (db : Keyspace LeaseKey) (ms : Nat) :
      ServerStep db (.advance ms) (db.advance ms)
  | script (db : Keyspace LeaseKey) (call : Call) :
      validateDispatch call = true →
      ServerStep db (.script call (call.script.run db).1) (call.script.run db).2

/-- A request to the server: let time pass, or run a script. -/
inductive ServerInput
  | advance (ms : Nat)
  | call (call : Call)

/-- The server on a list of requests: the labels, and the keyspace it leaves. -/
def serve (db : Keyspace LeaseKey) :
    List ServerInput → List ServerLabel × Keyspace LeaseKey
  | [] => ([], db)
  | .advance ms :: rest =>
      let (ls, db') := serve (db.advance ms) rest
      (.advance ms :: ls, db')
  | .call call :: rest =>
      let (outcome, after) := call.script.run db
      let (ls, db') := serve after rest
      (.script call outcome :: ls, db')

/-- Serving accepted requests is a run. -/
theorem serve_run
    (db : Keyspace LeaseKey) (inputs : List ServerInput)
    (hok : ∀ call, ServerInput.call call ∈ inputs → validateDispatch call = true) :
    Run ServerStep db (serve db inputs).1 (serve db inputs).2 := by
  induction inputs generalizing db with
  | nil =>
      exact .nil db
  | cons input rest ih =>
      have hrest := fun call hmem => hok call (List.mem_cons_of_mem input hmem)
      cases input with
      | advance ms =>
          exact .cons (.advance db ms) (ih _ hrest)
      | call call =>
          exact .cons (.script db call (hok call (by simp))) (ih _ hrest)

/-- A property of all steps holds of each call that is served. -/
theorem eachStep_serve_call
    {P : Keyspace LeaseKey → ServerLabel → Keyspace LeaseKey → Prop}
    {db : Keyspace LeaseKey} (before after : List ServerInput) {call : Call}
    (h : Run.EachStep ServerStep P db (serve db (before ++ .call call :: after)).1
      (serve db (before ++ .call call :: after)).2) :
    P (serve db before).2 (.script call (call.script.run (serve db before).2).1)
      (call.script.run (serve db before).2).2 := by
  induction before generalizing db with
  | nil =>
      cases h with
      | cons hstep hp _ =>
          cases hstep
          exact hp
  | cons input before ih =>
      cases input with
      | advance ms =>
          cases h with
          | cons hstep _ hrest =>
              cases hstep
              exact ih hrest
      | call first =>
          cases h with
          | cons hstep _ hrest =>
              cases hstep
              exact ih hrest

/-- The fence of an `ACQUIRED` reply. -/
def ServerLabel.issued : ServerLabel → Option Nat
  | .script _ (.ok (.acquired fence)) => some (decimalValue fence)
  | _ => none

/-- The fences of the `ACQUIRED` replies of a run, in order. -/
def issuedFences (ls : List ServerLabel) : List Nat :=
  ls.filterMap ServerLabel.issued

/-- The value of the fence counter key. -/
def fenceCounter (db : Keyspace LeaseKey) : Nat :=
  match db.lookup .fence with
  | some ⟨.string v, _⟩ => decimalValue v
  | _ => 0

/-- The record in the visible lease key. -/
def currentRecord (db : Keyspace LeaseKey) : Option LeaseRecord :=
  match db.lookup .lease with
  | some ⟨.string v, _⟩ => LeaseRecord.parse v
  | _ => none

namespace Healthy

variable {db : Keyspace LeaseKey} {counter : Nat}
  {holder : Option (LeaseRecord × Nat)}

theorem fenceCounter_eq
    (h : Healthy db counter holder) :
    fenceCounter db = counter := by
  have hf := h.fence
  unfold fenceCounter
  split at hf
  case isTrue hc =>
      rw [hf, hc]
  case isFalse =>
      rw [hf]
      simp

theorem currentRecord_eq
    (h : Healthy db counter holder) :
    currentRecord db = holder.map Prod.fst := by
  unfold currentRecord
  rw [h.lease]
  cases holder <;> simp [leaseEntry]

end Healthy

/-! ## Accepted arguments -/

theorem milliseconds_of_validate
    {value : Bytes}
    (h : validateMilliseconds value false = true) :
    ∃ ms, 0 < ms ∧ ms ≤ maxInt64 ∧ value = decimal ms := by
  simp only [validateMilliseconds, Bool.false_and, Bool.false_or] at h
  obtain ⟨hcanon, hle⟩ := (isCanonicalFence_iff value).mp h
  exact ⟨decimalValue value, decimalValue_pos hcanon, hle,
    (decimal_decimalValue hcanon).symm⟩

theorem remaining_of_validate
    {value : Bytes}
    (h : validateMilliseconds value true = true) :
    value = ascii "0" ∨ ∃ ms, 0 < ms ∧ ms ≤ maxInt64 ∧ value = decimal ms := by
  by_cases hz : value = ascii "0"
  · exact Or.inl hz
  · refine Or.inr (milliseconds_of_validate ?_)
    simpa [validateMilliseconds, hz] using h

theorem record_of_validate
    {value : Bytes}
    (h : (LeaseRecord.parse value).isSome = true) :
    ∃ r : LeaseRecord, value = r.toBytes := by
  obtain ⟨r, hr⟩ := Option.isSome_iff_exists.mp h
  exact ⟨r, LeaseRecord.toBytes_of_parse hr⟩

/-! ## What one server step can do -/

/--
Every step of a healthy server, by its effect on counter and holder.  The
cases are: nothing changed, the lease expired or was deleted, the holder got
another expiry, a fence was burnt, and a fence was granted.
-/
inductive Effect (counter : Nat) (holder : Option (LeaseRecord × Nat)) :
    ServerLabel → Nat → Option (LeaseRecord × Nat) → Prop
  | unchanged {l : ServerLabel} :
      l.issued = none →
      Effect counter holder l counter holder
  | lost {l : ServerLabel} :
      l.issued = none →
      Effect counter holder l counter none
  | moved {l : ServerLabel} {r : LeaseRecord} {e e' : Nat} :
      l.issued = none →
      holder = some (r, e) →
      Effect counter holder l counter (some (r, e'))
  | burnt {l : ServerLabel} :
      l.issued = none →
      holder = none →
      Effect counter holder l (counter + 1) none
  | granted {l : ServerLabel} {r : LeaseRecord} {e : Nat} :
      l.issued = some (counter + 1) →
      holder = none →
      r.fencingToken = counter + 1 →
      Effect counter holder l (counter + 1) (some (r, e))

section OneStep

variable {db : Keyspace LeaseKey} {counter : Nat}
  {holder : Option (LeaseRecord × Nat)}

theorem effect_acquire
    (h : Healthy db counter holder) {owner ttl : Bytes}
    (hok : validateDispatch (.acquire owner ttl) = true) :
    ∃ counter' holder',
      Healthy ((acquireScript owner ttl).run db).2 counter' holder' ∧
      Effect counter holder
        (.script (.acquire owner ttl) ((acquireScript owner ttl).run db).1)
        counter' holder' := by
  cases holder with
  | some x =>
      obtain ⟨r, e⟩ := x
      rw [h.acquire_held]
      refine ⟨_, _, h, .unchanged ?_⟩
      split <;> rfl
  | none =>
      rcases Nat.lt_or_ge counter maxRedisInteger with hlt | hge
      · simp only [validateDispatch, Bool.and_eq_true] at hok
        obtain ⟨ms, hpos, hle, rfl⟩ := milliseconds_of_validate hok.2
        obtain ⟨db', -, hcase⟩ := h.acquire_vacant hlt hok.1 hpos hle
        split at hcase
        · obtain ⟨hrun, hdb'⟩ := hcase
          rw [hrun]
          exact ⟨_, _, hdb', .burnt rfl rfl⟩
        · obtain ⟨hrun, r, -, hfence, hdb'⟩ := hcase
          rw [hrun]
          refine ⟨_, _, hdb', .granted ?_ rfl hfence⟩
          simp [ServerLabel.issued]
      · have hmax : counter = maxRedisInteger :=
          le_antisymm h.counter_le hge
        subst hmax
        rw [h.acquire_exhausted]
        exact ⟨_, _, h, .unchanged rfl⟩

theorem effect_renew
    (h : Healthy db counter holder) {record ttl : Bytes}
    (hok : validateDispatch (.renew record ttl) = true) :
    ∃ counter' holder',
      Healthy ((renewScript record ttl).run db).2 counter' holder' ∧
      Effect counter holder
        (.script (.renew record ttl) ((renewScript record ttl).run db).1)
        counter' holder' := by
  simp only [validateDispatch, Bool.and_eq_true] at hok
  obtain ⟨r, rfl⟩ := record_of_validate hok.1
  obtain ⟨ms, hpos, hle, rfl⟩ := milliseconds_of_validate hok.2
  by_cases hp : Healthy.proves holder db.now r
  · obtain ⟨e, rfl, hlt⟩ := hp
    obtain ⟨db', -, hcase⟩ := h.renew_holder hlt hpos hle
    split at hcase
    · rw [hcase.1]
      exact ⟨_, _, hcase.2, .unchanged rfl⟩
    · rw [hcase.1]
      exact ⟨_, _, hcase.2, .moved rfl rfl⟩
  · rw [h.renew_other r _ hp]
    exact ⟨_, _, h, .unchanged rfl⟩

theorem effect_probe
    (h : Healthy db counter holder) {record : Bytes}
    (hok : validateDispatch (.probe record) = true) :
    ∃ counter' holder',
      Healthy ((probeScript record).run db).2 counter' holder' ∧
      Effect counter holder
        (.script (.probe record) ((probeScript record).run db).1)
        counter' holder' := by
  obtain ⟨r, rfl⟩ := record_of_validate hok
  by_cases hp : Healthy.proves holder db.now r
  · obtain ⟨e, rfl, hlt⟩ := hp
    rw [h.probe_holder hlt]
    exact ⟨_, _, h, .unchanged rfl⟩
  · rw [h.probe_other r hp]
    exact ⟨_, _, h, .unchanged rfl⟩

theorem effect_release
    (h : Healthy db counter holder) {record remaining : Bytes}
    (hok : validateDispatch (.release record remaining) = true) :
    ∃ counter' holder',
      Healthy ((releaseScript record remaining).run db).2 counter' holder' ∧
      Effect counter holder
        (.script (.release record remaining)
          ((releaseScript record remaining).run db).1)
        counter' holder' := by
  simp only [validateDispatch, Bool.and_eq_true] at hok
  obtain ⟨r, rfl⟩ := record_of_validate hok.1
  by_cases hp : Healthy.proves holder db.now r
  · obtain ⟨e, rfl, hlt⟩ := hp
    rcases remaining_of_validate hok.2 with rfl | ⟨ms, hpos, hle, rfl⟩
    · obtain ⟨db', -, hrun, hdb'⟩ := h.release_holder_now hlt
      rw [hrun]
      exact ⟨_, _, hdb', .lost rfl⟩
    · obtain ⟨db', -, hcase⟩ := h.release_holder_min hlt hpos hle
      split at hcase
      · rw [hcase.1]
        exact ⟨_, _, hcase.2, .unchanged rfl⟩
      · rw [hcase.1]
        exact ⟨_, _, hcase.2, .moved rfl rfl⟩
  · rw [h.release_other r _ hp]
    exact ⟨_, _, h, .unchanged rfl⟩

theorem effect_reconcile
    (h : Healthy db counter holder) :
    ∃ counter' holder',
      Healthy (reconcileScript.run db).2 counter' holder' ∧
      Effect counter holder (.script .reconcile (reconcileScript.run db).1)
        counter' holder' := by
  by_cases hp : ∃ r, Healthy.proves holder db.now r
  · obtain ⟨r, e, rfl, hlt⟩ := hp
    rw [h.reconcile_holder hlt]
    exact ⟨_, _, h, .unchanged rfl⟩
  · rw [h.reconcile_vacant (fun r hr => hp ⟨r, hr⟩)]
    exact ⟨_, _, h, .unchanged rfl⟩

/-- **Step lemma**: a server step keeps the keyspace healthy and has an effect. -/
theorem effect_of_step
    {db' : Keyspace LeaseKey} {l : ServerLabel}
    (h : Healthy db counter holder)
    (hstep : ServerStep db l db') :
    ∃ counter' holder', Healthy db' counter' holder' ∧
      Effect counter holder l counter' holder' := by
  cases hstep with
  | advance ms =>
      have hadv := h.advance ms
      refine ⟨_, _, hadv, ?_⟩
      cases holder with
      | none =>
          exact .unchanged rfl
      | some x =>
          by_cases hle : db.now + ms ≤ x.2
          · have hkeep : Effect counter (some x) (.advance ms) counter (some x) :=
              .unchanged rfl
            simpa [Option.filter, hle] using hkeep
          · simpa [Option.filter, hle] using Effect.lost rfl
  | script call hok =>
      cases call with
      | acquire owner ttl =>
          exact effect_acquire h hok
      | renew record ttl =>
          exact effect_renew h hok
      | probe record =>
          exact effect_probe h hok
      | release record remaining =>
          exact effect_release h hok
      | reconcile =>
          exact effect_reconcile h

end OneStep

/-! ## The keyspace refines a fenced lease -/

/-- The fenced lease that a keyspace implements. -/
def Refines (db : Keyspace LeaseKey) (s : FencedLease Bytes) : Prop :=
  ∃ holder : Option (LeaseRecord × Nat),
    Healthy db s.counter holder ∧
    s.holder = holder.map (fun x => (x.1.ownerToken, x.1.fencingToken))

namespace Refines

variable {db : Keyspace LeaseKey} {s : FencedLease Bytes}

theorem empty
    (now : Nat) :
    Refines (Keyspace.empty now) FencedLease.initial :=
  ⟨none, Healthy.empty now, rfl⟩

theorem fenceCounter_eq
    (h : Refines db s) :
    fenceCounter db = s.counter := by
  obtain ⟨holder, hdb, -⟩ := h
  exact hdb.fenceCounter_eq

/-- The visible record is the holder with its fence. -/
theorem currentRecord_iff
    (h : Refines db s) (r : LeaseRecord) :
    currentRecord db = some r ↔
      s.holder = some (r.ownerToken, r.fencingToken) := by
  obtain ⟨holder, hdb, hs⟩ := h
  rw [hdb.currentRecord_eq, hs]
  cases holder with
  | none =>
      simp
  | some x =>
      simp [LeaseRecord.ext_iff]

theorem fenceIsCounter
    (h : Refines db s) :
    s.FenceIsCounter := by
  obtain ⟨holder, hdb, hs⟩ := h
  intro owner fence hholder
  rw [hs] at hholder
  cases holder with
  | none =>
      simp at hholder
  | some x =>
      simp only [Option.map_some, Option.some.injEq, Prod.mk.injEq] at hholder
      rw [← hholder.2]
      exact hdb.fence_eq x.1 x.2 rfl

end Refines

/-- An effect on counter and holder is a step of the fenced lease. -/
theorem Effect.step
    {counter counter' : Nat} {holder holder' : Option (LeaseRecord × Nat)}
    {l : ServerLabel}
    (h : Effect counter holder l counter' holder') :
    FencedLease.Step
      ⟨counter, holder.map (fun x => (x.1.ownerToken, x.1.fencingToken))⟩ l.issued
      ⟨counter', holder'.map (fun x => (x.1.ownerToken, x.1.fencingToken))⟩ := by
  cases h with
  | unchanged hl =>
      rw [hl]
      exact .idle _
  | lost hl =>
      rw [hl]
      exact .lose _
  | moved hl hholder =>
      rw [hl, hholder]
      exact .idle _
  | burnt hl hnone =>
      rw [hl, hnone]
      exact .burn _ rfl
  | granted hl hnone hfence =>
      rw [hl, hnone, Option.map_some, hfence]
      exact .grant _ _ rfl

/-- **Simulation**: a server step is a step of the refined fenced lease. -/
theorem simulate_step
    (db : Keyspace LeaseKey) (l : ServerLabel) (db' : Keyspace LeaseKey)
    (s : FencedLease Bytes)
    (h : Refines db s)
    (hstep : ServerStep db l db') :
    ∃ s', FencedLease.Step s l.issued s' ∧ Refines db' s' := by
  obtain ⟨holder, hdb, hs⟩ := h
  obtain ⟨counter', holder', hdb', heffect⟩ := effect_of_step hdb hstep
  obtain ⟨counter, shown⟩ := s
  subst hs
  exact ⟨_, heffect.step, holder', hdb', rfl⟩

/-- The simulation of whole runs. -/
theorem simulate_run
    {db db' : Keyspace LeaseKey} {ls : List ServerLabel}
    {s : FencedLease Bytes}
    (hrun : Run ServerStep db ls db')
    (h : Refines db s) :
    ∃ s', Run FencedLease.Step s (ls.map ServerLabel.issued) s' ∧
      Refines db' s' :=
  Run.simulate simulate_step hrun h

theorem grants_issued
    (ls : List ServerLabel) :
    FencedLease.grants (ls.map ServerLabel.issued) = issuedFences ls := by
  simp [FencedLease.grants, issuedFences, List.filterMap_map]

/-! ## Fencing and mutual exclusion -/

/-- The record that RENEW, PROBE and RELEASE are asked about. -/
def Call.claimed : Call → Option Bytes
  | .renew record _ | .probe record | .release record _ => some record
  | .acquire .. | .reconcile => none

/-- The replies that report ownership. -/
def Reply.provesOwnership : Reply → Bool
  | .renewed | .held | .deleted | .minTtlApplied => true
  | _ => false

/-- The dispatcher accepts canonical records only. -/
theorem record_of_claimed
    {call : Call} {record : Bytes}
    (hok : validateDispatch call = true)
    (hclaim : call.claimed = some record) :
    ∃ r : LeaseRecord, record = r.toBytes := by
  cases call with
  | acquire owner ttl =>
      simp [Call.claimed] at hclaim
  | reconcile =>
      simp [Call.claimed] at hclaim
  | renew record' ttl =>
      simp only [Call.claimed, Option.some.injEq] at hclaim
      simp only [validateDispatch, Bool.and_eq_true] at hok
      exact record_of_validate (hclaim ▸ hok.1)
  | probe record' =>
      simp only [Call.claimed, Option.some.injEq] at hclaim
      exact record_of_validate (hclaim ▸ hok)
  | release record' remaining =>
      simp only [Call.claimed, Option.some.injEq] at hclaim
      simp only [validateDispatch, Bool.and_eq_true] at hok
      exact record_of_validate (hclaim ▸ hok.1)

/-- Ownership is reported only for the visible record. -/
theorem Healthy.claimed_eq
    {db : Keyspace LeaseKey} {counter : Nat}
    {holder : Option (LeaseRecord × Nat)}
    (h : Healthy db counter holder)
    {call : Call} {r : LeaseRecord} {reply : Reply}
    (hclaim : call.claimed = some r.toBytes)
    (hreply : (call.script.run db).1 = .ok reply)
    (hproves : reply.provesOwnership = true) :
    currentRecord db = some r := by
  have hp : Healthy.proves holder db.now r := by
    by_contra hnot
    have hnotHeld : (call.script.run db).1 = .ok .notHeld := by
      cases call with
      | acquire owner ttl =>
          simp [Call.claimed] at hclaim
      | reconcile =>
          simp [Call.claimed] at hclaim
      | renew record ttl =>
          simp only [Call.claimed, Option.some.injEq] at hclaim
          simp [Call.script, hclaim, h.renew_other r ttl hnot]
      | probe record =>
          simp only [Call.claimed, Option.some.injEq] at hclaim
          simp [Call.script, hclaim, h.probe_other r hnot]
      | release record remaining =>
          simp only [Call.claimed, Option.some.injEq] at hclaim
          simp [Call.script, hclaim, h.release_other r remaining hnot]
    rw [hnotHeld] at hreply
    cases hreply
    simp [Reply.provesOwnership] at hproves
  obtain ⟨e, rfl, -⟩ := hp
  rw [h.currentRecord_eq]
  rfl

/--
**Fencing and mutual exclusion.**  In every run of the lease scripts from an
empty keyspace:

* the issued fences strictly increase, and the counter bounds them;
* the visible lease is a record whose fence is the counter;
* a record that is no longer visible never becomes visible again;
* only the visible record is reported as owned.

Nothing is assumed about how clients choose their owner tokens.
-/
theorem fencing_and_exclusion
    {now : Nat} {ls : List ServerLabel} {db : Keyspace LeaseKey}
    (hrun : Run ServerStep (Keyspace.empty now) ls db) :
    (issuedFences ls).Pairwise (· < ·) ∧
    (∀ fence ∈ issuedFences ls, fence ≤ fenceCounter db) ∧
    (∀ entry, db.lookup .lease = some entry →
      ∃ r, currentRecord db = some r ∧ r.fencingToken = fenceCounter db) ∧
    (∀ r ls₁ db₁ ls₂ db₂, Run ServerStep db ls₁ db₁ → Run ServerStep db₁ ls₂ db₂ →
      currentRecord db = some r → currentRecord db₁ ≠ some r →
      currentRecord db₂ ≠ some r) ∧
    (∀ (call : Call) (record : Bytes) (reply : Reply),
      validateDispatch call = true → call.claimed = some record →
      (call.script.run db).1 = .ok reply → reply.provesOwnership = true →
      (currentRecord db).map LeaseRecord.toBytes = some record) := by
  obtain ⟨s, hsrun, hs⟩ := simulate_run hrun (Refines.empty now)
  obtain ⟨holder, hdb, -⟩ := id hs
  refine ⟨?_, ?_, ?_, ?_, ?_⟩
  · rw [← grants_issued]
    exact FencedLease.grants_increase hsrun
  · rw [← grants_issued, hs.fenceCounter_eq]
    exact FencedLease.grant_le_counter hsrun
  · intro entry hentry
    rw [hdb.lease] at hentry
    obtain ⟨x, rfl, -⟩ := Option.map_eq_some_iff.mp hentry
    refine ⟨x.1, by rw [hdb.currentRecord_eq]; rfl, ?_⟩
    rw [hdb.fenceCounter_eq]
    exact hdb.fence_eq x.1 x.2 rfl
  · intro r ls₁ db₁ ls₂ db₂ hrun₁ hrun₂ hcur hlost
    obtain ⟨s₁, hsrun₁, hs₁⟩ := simulate_run hrun₁ hs
    obtain ⟨s₂, hsrun₂, hs₂⟩ := simulate_run hrun₂ hs₁
    rw [Ne, hs₁.currentRecord_iff] at hlost
    rw [Ne, hs₂.currentRecord_iff]
    exact FencedLease.lost_never_returns hs.fenceIsCounter hsrun₁ hsrun₂
      ((hs.currentRecord_iff r).mp hcur) hlost
  · intro call record reply hok hclaim hreply hproves
    obtain ⟨r, rfl⟩ := record_of_claimed hok hclaim
    rw [hdb.claimed_eq hclaim hreply hproves]
    rfl

/-- One owner acquires, its lease runs out, and another owner acquires. -/
def takeover : List ServerInput :=
  [.call (.acquire (ascii "AAAAAAAAAAAAAAAAAAAAAAAAAAAAAAAA") (ascii "10")),
   .advance 11,
   .call (.acquire (ascii "BBBBBBBBBBBBBBBBBBBBBBBBBBBBBBBB") (ascii "10"))]

theorem fencing_and_exclusion_takeover :
    issuedFences (serve (Keyspace.empty 0) takeover).1 = [1, 2] ∧
    (issuedFences (serve (Keyspace.empty 0) takeover).1).Pairwise (· < ·) :=
  ⟨by decide,
    (fencing_and_exclusion
      (serve_run (Keyspace.empty 0) takeover (by simp [takeover]; decide))).1⟩

/-! ## Reports of corruption -/

/--
What a step may report about a keyspace that only the scripts have written:
corruption only when `ACQUIRE` has run out of fences, and contention whenever
`ACQUIRE` meets a visible lease.
-/
def ReportsHealthy (db : Keyspace LeaseKey) (l : ServerLabel)
    (_ : Keyspace LeaseKey) : Prop :=
  ∀ call outcome, l = .script call outcome →
    (outcome = .ok .corrupt →
      (∃ owner ttl, call = .acquire owner ttl) ∧
        fenceCounter db = maxRedisInteger) ∧
    (∀ owner ttl, call = .acquire owner ttl → db.lookup .lease ≠ none →
      outcome = .ok .contended)

/-- No `ACQUIRE` runs in the millisecond at which the visible lease expires. -/
def NotAtExpiry (db : Keyspace LeaseKey) (l : ServerLabel)
    (_ : Keyspace LeaseKey) : Prop :=
  ∀ owner ttl outcome, l = .script (.acquire owner ttl) outcome →
    ∀ entry, db.lookup .lease = some entry → entry.expireAt ≠ some db.now

section Corruption

variable {db : Keyspace LeaseKey} {counter : Nat}
  {holder : Option (LeaseRecord × Nat)}

/-- Only ACQUIRE can answer `CORRUPT` or `ACQUIRED` on a healthy keyspace. -/
theorem Healthy.acquire_of_reply
    (h : Healthy db counter holder) {call : Call} {reply : Reply}
    (hok : validateDispatch call = true)
    (hreply : reply = .corrupt ∨ ∃ fence, reply = .acquired fence)
    (hanswer : (call.script.run db).1 = .ok reply) :
    ∃ owner ttl, call = .acquire owner ttl := by
  rcases hreply with rfl | ⟨fence, rfl⟩ <;> cases call with
  | acquire owner ttl =>
      exact ⟨owner, ttl, rfl⟩
  | renew record ttl =>
      simp only [validateDispatch, Bool.and_eq_true] at hok
      obtain ⟨r, rfl⟩ := record_of_validate hok.1
      obtain ⟨ms, hpos, hle, rfl⟩ := milliseconds_of_validate hok.2
      by_cases hp : Healthy.proves holder db.now r
      · obtain ⟨e, rfl, hlt⟩ := hp
        obtain ⟨db', -, hcase⟩ := h.renew_holder hlt hpos hle
        split at hcase <;> simp [Call.script, hcase.1] at hanswer
      · simp [Call.script, h.renew_other r _ hp] at hanswer
  | probe record =>
      obtain ⟨r, rfl⟩ := record_of_validate hok
      by_cases hp : Healthy.proves holder db.now r
      · obtain ⟨e, rfl, hlt⟩ := hp
        simp [Call.script, h.probe_holder hlt] at hanswer
      · simp [Call.script, h.probe_other r hp] at hanswer
  | release record remaining =>
      simp only [validateDispatch, Bool.and_eq_true] at hok
      obtain ⟨r, rfl⟩ := record_of_validate hok.1
      by_cases hp : Healthy.proves holder db.now r
      · obtain ⟨e, rfl, hlt⟩ := hp
        rcases remaining_of_validate hok.2 with rfl | ⟨ms, hpos, hle, rfl⟩
        · obtain ⟨db', -, hrun, -⟩ := h.release_holder_now hlt
          simp [Call.script, hrun] at hanswer
        · obtain ⟨db', -, hcase⟩ := h.release_holder_min hlt hpos hle
          split at hcase <;> simp [Call.script, hcase.1] at hanswer
      · simp [Call.script, h.release_other r _ hp] at hanswer
  | reconcile =>
      by_cases hp : ∃ r, Healthy.proves holder db.now r
      · obtain ⟨r, e, rfl, hlt⟩ := hp
        simp [Call.script, h.reconcile_holder hlt] at hanswer
      · simp [Call.script, h.reconcile_vacant (fun r hr => hp ⟨r, hr⟩)] at hanswer

/-- Without a visible lease ACQUIRE answers `CORRUPT` only when exhausted. -/
theorem Healthy.exhausted_of_corrupt
    (h : Healthy db counter none) {owner ttl : Bytes}
    (hok : validateDispatch (.acquire owner ttl) = true)
    (hcorrupt : ((acquireScript owner ttl).run db).1 = .ok .corrupt) :
    counter = maxRedisInteger := by
  by_contra hne
  have hlt : counter < maxRedisInteger :=
    lt_of_le_of_ne h.counter_le hne
  simp only [validateDispatch, Bool.and_eq_true] at hok
  obtain ⟨ms, hpos, hle, rfl⟩ := milliseconds_of_validate hok.2
  obtain ⟨db', -, hcase⟩ := h.acquire_vacant hlt hok.1 hpos hle
  split at hcase <;> simp [hcase.1] at hcorrupt

theorem reportsHealthy_iff
    {db' : Keyspace LeaseKey} {l : ServerLabel}
    (h : Healthy db counter holder)
    (hstep : ServerStep db l db') :
    ReportsHealthy db l db' ↔ NotAtExpiry db l db' := by
  cases hstep with
  | advance ms =>
      simp [ReportsHealthy, NotAtExpiry]
  | script call hok =>
      constructor
      · intro hreports owner ttl outcome hl entry hentry hexp
        obtain ⟨rfl, -⟩ := ServerLabel.script.inj hl
        have hcontended := (hreports _ _ rfl).2 owner ttl rfl (by simp [hentry])
        rw [h.lease] at hentry
        obtain ⟨⟨r, e⟩, rfl, rfl⟩ := Option.map_eq_some_iff.mp hentry
        have he : e = db.now := by
          simpa [leaseEntry] using hexp
        simp [Call.script, h.acquire_held, he] at hcontended
      · intro hnot call' outcome hl
        obtain ⟨rfl, rfl⟩ := ServerLabel.script.inj hl
        refine ⟨fun hcorrupt => ?_, ?_⟩
        · obtain ⟨owner, ttl, rfl⟩ := h.acquire_of_reply hok (.inl rfl) hcorrupt
          refine ⟨⟨owner, ttl, rfl⟩, ?_⟩
          rw [h.fenceCounter_eq]
          cases holder with
          | none =>
              exact h.exhausted_of_corrupt hok hcorrupt
          | some x =>
              obtain ⟨r, e⟩ := x
              have hne : e ≠ db.now := by
                simpa [leaseEntry] using hnot owner ttl _ rfl _ h.lease
              simp [Call.script, h.acquire_held, hne] at hcorrupt
        · rintro owner ttl rfl hvisible
          cases holder with
          | none =>
              exact absurd h.lease hvisible
          | some x =>
              obtain ⟨r, e⟩ := x
              have hne : e ≠ db.now := by
                simpa [leaseEntry] using hnot owner ttl _ rfl _ h.lease
              simp [Call.script, h.acquire_held, hne]

end Corruption

/--
**When a healthy keyspace is reported corrupt.**  Every step of a run from an
empty keyspace reports health exactly when no `ACQUIRE` of the run meets a
visible lease in the millisecond of its expiry.  There PTTL is 0, which the
other scripts read as no lease and `ACQUIRE` as corruption.
-/
theorem healthy_reports_iff
    {now : Nat} {ls : List ServerLabel} {db : Keyspace LeaseKey} :
    Run.EachStep ServerStep ReportsHealthy (Keyspace.empty now) ls db ↔
      Run.EachStep ServerStep NotAtExpiry (Keyspace.empty now) ls db := by
  refine Run.eachStep_iff (fun db => ∃ counter holder, Healthy db counter holder)
    ?_ ?_ ⟨0, none, Healthy.empty now⟩
  · rintro s l t ⟨counter, holder, h⟩ hstep
    obtain ⟨counter', holder', h', -⟩ := effect_of_step h hstep
    exact ⟨counter', holder', h'⟩
  · rintro s l t ⟨counter, holder, h⟩ hstep
    exact reportsHealthy_iff h hstep

/-- The second owner asks in the last millisecond of the first lease. -/
def lastInstant : List ServerInput :=
  [.call (.acquire (ascii "AAAAAAAAAAAAAAAAAAAAAAAAAAAAAAAA") (ascii "10")),
   .advance 10,
   .call (.acquire (ascii "BBBBBBBBBBBBBBBBBBBBBBBBBBBBBBBB") (ascii "10"))]

theorem acquire_corrupt_at_last_instant :
    Run ServerStep (Keyspace.empty 0) (serve (Keyspace.empty 0) lastInstant).1
      (serve (Keyspace.empty 0) lastInstant).2 ∧
    ¬ Run.EachStep ServerStep ReportsHealthy (Keyspace.empty 0)
      (serve (Keyspace.empty 0) lastInstant).1
      (serve (Keyspace.empty 0) lastInstant).2 := by
  refine ⟨serve_run _ _ (by simp [lastInstant]; decide), fun h => ?_⟩
  have hlast := eachStep_serve_call (lastInstant.take 2) [] h
  have hcontended := (hlast _ _ rfl).2 _ _ rfl (by decide)
  revert hcontended
  decide

end LeaderRedis
end Bluetape
