import Bluetape.Resilience.Bulkhead

/-!
# The sections of a bulkhead

What every section under the lock keeps, and where it leaves its caller.

* `Bulkhead.Inv`: the invariant of the counters, the waiters and the permits;
* `enter_spec`, `resume_spec`, `abandon_spec`, `releaseLocked_spec`: one
  specification for each section.
-/

namespace Bluetape
namespace Resilience

open Base

namespace Bulkhead

/-- The counters count what they are meant to count. -/
structure Counted (b : Bulkhead) (s : BulkheadState) : Prop where
  queue : s.queue.WellFormed
  permits : s.permits.Balanced
  inFlight : s.inFlight = s.permits.outstanding.length
  limit : s.inFlight ≤ b.maxConcurrency
  waiters : s.waiters = s.queue.size

/-- The permits that nobody has. -/
def free (b : Bulkhead) (s : BulkheadState) : Int :=
  b.maxConcurrency - s.inFlight

/-- The invariant of a bulkhead. -/
structure Inv (b : Bulkhead) (s : BulkheadState) : Prop extends Counted b s where
  covered : s.queue.Covers (b.free s)

theorem inv_init
    (b : Bulkhead) :
    b.Inv .init where
  queue := WaitQueue.wellFormed_empty
  permits := Ledger.balanced_empty
  inFlight := rfl
  limit := Int.natCast_nonneg _
  waiters := rfl
  covered := Or.inr rfl

/-! ## Where a caller stands -/

/-- The caller has no permit and does not wait. -/
def Idle (t : Caller) (s : BulkheadState) : Prop :=
  ¬ s.queue.Waits t ∧ t ∉ s.permits.names

/-- The caller waits for a permit. -/
def Waiting (t : Caller) (s : BulkheadState) : Prop :=
  s.queue.Waits t ∧ t ∉ s.permits.names

/-- The caller has a permit. -/
def Holding (t : Caller) (s : BulkheadState) : Prop :=
  ¬ s.queue.Waits t ∧ (t, ()) ∈ s.permits.outstanding

/-- The caller has given its permit back. -/
def Returned (t : Caller) (s : BulkheadState) : Prop :=
  ¬ s.queue.Waits t ∧ t ∈ s.permits.settled

/-- Where a section of `_acquire` leaves its caller. -/
def EntryStanding {ω : Type} (t : Caller) : Entry ω → BulkheadState → Prop
  | .admitted _ => Holding t
  | .refused => Idle t
  | .waits _ => Waiting t

/-- Nothing has changed for a caller. -/
structure Untouched (u : Caller) (s s' : BulkheadState) : Prop where
  waits : s'.queue.Waits u ↔ s.queue.Waits u
  permits : Ledger.SameFor u s.permits s'.permits

theorem Untouched.refl
    (u : Caller) (s : BulkheadState) :
    Untouched u s s :=
  ⟨Iff.rfl, .refl u s.permits⟩

section

variable {t : Caller} {s s' : BulkheadState}

theorem Untouched.idle
    (h : Untouched t s s')
    (hs : Idle t s) :
    Idle t s' :=
  ⟨h.waits.not.mpr hs.1, h.permits.mem_names.not.mpr hs.2⟩

theorem Untouched.waiting
    (h : Untouched t s s')
    (hs : Waiting t s) :
    Waiting t s' :=
  ⟨h.waits.mpr hs.1, h.permits.mem_names.not.mpr hs.2⟩

theorem Untouched.holding
    (h : Untouched t s s')
    (hs : Holding t s) :
    Holding t s' :=
  ⟨h.waits.not.mpr hs.1, (h.permits.mem_outstanding ()).mpr hs.2⟩

theorem Untouched.returned
    (h : Untouched t s s')
    (hs : Returned t s) :
    Returned t s' :=
  ⟨h.waits.not.mpr hs.1, h.permits.settled.mpr hs.2⟩

end

/-- What a section does, when it leaves its caller in a given standing. -/
structure SectionSpec (b : Bulkhead) (t : Caller) (s s' : BulkheadState)
    (standing : BulkheadState → Prop) : Prop where
  inv : b.Inv s'
  others : ∀ u, u ≠ t → Untouched u s s'
  standing : standing s'

/-! ## Specifications -/

section Specifications

variable {b : Bulkhead} {t : Caller} {s : BulkheadState}

theorem takePermit_spec
    {ω : Type}
    (h : b.Counted s)
    (hfree : s.inFlight < b.maxConcurrency)
    (hidle : Idle t s)
    (hcovers : s.queue.Covers (b.free s - 1)) :
    SectionSpec b t s (b.takePermit (ω := ω) t s).2
      (EntryStanding t (b.takePermit (ω := ω) t s).1) where
  inv := by
    refine ⟨⟨h.queue, h.permits.grant hidle.2 (), ?_, ?_, h.waiters⟩, ?_⟩
    · change s.inFlight + 1 = ((s.permits.grant t ()).outstanding.length : Int)
      rw [Ledger.outstanding_grant h.permits hidle.2, h.inFlight, List.length_cons]
      push_cast
      rfl
    · change s.inFlight + 1 ≤ (b.maxConcurrency : Int)
      omega
    · have hless : b.free (b.takePermit (ω := ω) t s).2 = b.free s - 1 := by
        change (b.maxConcurrency : Int) - (s.inFlight + 1) = b.maxConcurrency - s.inFlight - 1
        omega
      rw [hless]
      exact hcovers
  others := fun u hu => ⟨Iff.rfl, .grant hu s.permits ()⟩
  standing := ⟨hidle.1, Ledger.mem_outstanding_grant_self h.permits hidle.2⟩

/-- A caller that goes to sleep finds no free permit. -/
theorem sleep_spec
    (h : b.Counted { s with waiters := s.waiters - 1 })
    (hfull : (b.maxConcurrency : Int) ≤ s.inFlight)
    (hidle : Idle t s) :
    SectionSpec b t s { s with queue := s.queue.sleep t } (Waiting t) where
  inv := by
    refine ⟨⟨h.queue.sleep hidle.1, h.permits, h.inFlight, h.limit, ?_⟩, ?_⟩
    · have hwaiters : s.waiters - 1 = s.queue.size := h.waiters
      rw [WaitQueue.size_sleep]
      push_cast
      omega
    · refine WaitQueue.covers_of_nonpos _ ?_
      change (b.maxConcurrency : Int) - s.inFlight ≤ 0
      omega
  others := fun u hu =>
    ⟨WaitQueue.waits_sleep.trans (or_iff_left hu), .refl u s.permits⟩
  standing := ⟨WaitQueue.waits_sleep.mpr (Or.inr rfl), hidle.2⟩

/-- The loop of `_acquire`, with the lock held and the caller not in the queue. -/
theorem waitLoop_spec
    (deadline : ℚ)
    (h : b.Counted { s with waiters := s.waiters - 1 })
    (hidle : Idle t s)
    (hcovers : s.queue.Covers (b.free s - 1)) :
    SectionSpec b t s (b.waitLoop t deadline s).2
      (EntryStanding t (b.waitLoop t deadline s).1) := by
  unfold waitLoop
  split
  case isTrue hfull =>
    dsimp only
    split
    · refine ⟨⟨h, WaitQueue.covers_of_nonpos _ ?_⟩,
        fun u _ => ⟨Iff.rfl, .refl u s.permits⟩, hidle⟩
      change (b.maxConcurrency : Int) - s.inFlight ≤ 0
      omega
    · exact sleep_spec h hfull hidle
  case isFalse hroom =>
    obtain ⟨hinv, hothers, hstanding⟩ :=
      takePermit_spec (ω := Timer) h (not_le.mp hroom) hidle hcovers
    exact ⟨hinv, fun u hu => ⟨(hothers u hu).waits, (hothers u hu).permits⟩, hstanding⟩

theorem asyncWaitLoop_spec
    (h : b.Counted { s with waiters := s.waiters - 1 })
    (hidle : Idle t s)
    (hcovers : s.queue.Covers (b.free s - 1)) :
    SectionSpec b t s (b.asyncWaitLoop t s).2 (EntryStanding t (b.asyncWaitLoop t s).1) := by
  unfold asyncWaitLoop
  split
  case isTrue hfull =>
    exact sleep_spec h hfull hidle
  case isFalse hroom =>
    obtain ⟨hinv, hothers, hstanding⟩ :=
      takePermit_spec (ω := Unit) h (not_le.mp hroom) hidle hcovers
    exact ⟨hinv, fun u hu => ⟨(hothers u hu).waits, (hothers u hu).permits⟩, hstanding⟩

/-- The state with one more waiter, as the loop finds it. -/
theorem counted_startWaiting
    (h : b.Inv s) :
    b.Counted { startWaiting s with waiters := (startWaiting s).waiters - 1 } := by
  have hsame : { startWaiting s with waiters := (startWaiting s).waiters - 1 } = s := by
    cases s
    simp [startWaiting]
  rw [hsame]
  exact h.toCounted

theorem enter_spec
    (h : b.Inv s)
    (hidle : Idle t s) :
    SectionSpec b t s (b.enter t s).2 (EntryStanding t (b.enter t s).1) := by
  unfold enter
  split
  case isTrue hfull =>
    split
    · exact ⟨h, fun u _ => .refl u s, hidle⟩
    · have hmoved : b.Inv (moveOn s) :=
        ⟨⟨h.queue, h.permits, h.inFlight, h.limit, h.waiters⟩, h.covered⟩
      have hloop := waitLoop_spec (b := b) (t := t) (s := startWaiting (moveOn s))
        (s.clock + b.maxWait) (counted_startWaiting hmoved) hidle (h.covered.mono (by
          change b.free s - 1 ≤ b.free s
          omega))
      exact ⟨hloop.inv, fun u hu => ⟨(hloop.others u hu).waits, (hloop.others u hu).permits⟩,
        hloop.standing⟩
  case isFalse hroom =>
    exact takePermit_spec h.toCounted (not_le.mp hroom) hidle (h.covered.mono (by omega))

theorem asyncEnter_spec
    (h : b.Inv s)
    (hidle : Idle t s) :
    SectionSpec b t s (b.asyncEnter t s).2 (EntryStanding t (b.asyncEnter t s).1) := by
  unfold asyncEnter
  split
  case isTrue hfull =>
    split
    · exact ⟨h, fun u _ => .refl u s, hidle⟩
    · have hloop := asyncWaitLoop_spec (b := b) (t := t) (s := startWaiting s)
        (counted_startWaiting h) hidle (h.covered.mono (by
          change b.free s - 1 ≤ b.free s
          omega))
      exact ⟨hloop.inv, fun u hu => ⟨(hloop.others u hu).waits, (hloop.others u hu).permits⟩,
        hloop.standing⟩
  case isFalse hroom =>
    exact takePermit_spec h.toCounted (not_le.mp hroom) hidle (h.covered.mono (by omega))

/-- A waiter that has left the queue is counted once too often. -/
theorem counted_resume
    (h : b.Inv s)
    (hwaiting : Waiting t s) :
    b.Counted { s with queue := s.queue.resume t, waiters := s.waiters - 1 } where
  queue := h.queue.resume t
  permits := h.permits
  inFlight := h.inFlight
  limit := h.limit
  waiters := by
    have hsize := WaitQueue.size_resume h.queue hwaiting.1
    have hwaiters := h.waiters
    change s.waiters - 1 = ((s.queue.resume t).size : Int)
    omega

theorem idle_resume
    (h : b.Inv s)
    (hwaiting : Waiting t s) :
    Idle t { s with queue := s.queue.resume t } :=
  ⟨fun hwaits => ((WaitQueue.waits_resume h.queue).mp hwaits).2 rfl, hwaiting.2⟩

theorem untouched_resume
    (h : b.Inv s) {u : Caller}
    (hu : u ≠ t) {s' : BulkheadState}
    (hs' : Untouched u { s with queue := s.queue.resume t } s') :
    Untouched u s s' where
  waits := hs'.waits.trans ((WaitQueue.waits_resume h.queue).trans (and_iff_left hu))
  permits := hs'.permits

theorem resume_spec
    (deadline : ℚ)
    (h : b.Inv s)
    (hwaiting : Waiting t s) :
    SectionSpec b t s (b.resume t deadline s).2
      (EntryStanding t (b.resume t deadline s).1) := by
  have hloop := waitLoop_spec deadline (counted_resume h hwaiting)
    (idle_resume h hwaiting) (h.covered.take t)
  exact ⟨hloop.inv, fun u hu => untouched_resume h hu (hloop.others u hu), hloop.standing⟩

theorem asyncResume_spec
    (h : b.Inv s)
    (hwaiting : Waiting t s) :
    SectionSpec b t s (b.asyncResume t s).2 (EntryStanding t (b.asyncResume t s).1) := by
  have hloop := asyncWaitLoop_spec (counted_resume h hwaiting) (idle_resume h hwaiting)
    (h.covered.take t)
  exact ⟨hloop.inv, fun u hu => untouched_resume h hu (hloop.others u hu), hloop.standing⟩

/-- A cancelled waiter leaves; its notification goes to another one. -/
theorem abandon_spec
    (again : Bool)
    (h : b.Inv s)
    (hwaiting : Waiting t s) :
    SectionSpec b t s (abandon t again s).2 (Idle t) := by
  have hcounted := counted_resume h hwaiting
  have hidle := idle_resume h hwaiting
  by_cases hpass : t ∈ s.queue.notified ∨ again = true
  · have hstate : (abandon t again s).2 =
        { s with queue := (s.queue.resume t).notify, waiters := s.waiters - 1 } := by
      simp [abandon, stopWaiting, hpass]
    rw [hstate]
    refine ⟨⟨⟨hcounted.queue.notify, h.permits, h.inFlight, h.limit, ?_⟩, ?_⟩, ?_, ?_⟩
    · rw [WaitQueue.size_notify hcounted.queue]
      exact hcounted.waiters
    · refine ((h.covered.take t).notify hcounted.queue).mono ?_
      change b.free s ≤ b.free s - 1 + 1
      omega
    · exact fun u hu => untouched_resume h hu ⟨WaitQueue.waits_notify, .refl u s.permits⟩
    · exact ⟨fun hwaits => hidle.1 (WaitQueue.waits_notify.mp hwaits), hwaiting.2⟩
  · have hstate : (abandon t again s).2 =
        { s with queue := s.queue.resume t, waiters := s.waiters - 1 } := by
      simp [abandon, stopWaiting, hpass]
    rw [hstate]
    refine ⟨⟨hcounted, h.covered.resume fun hmem => hpass (Or.inl hmem)⟩, ?_, hidle⟩
    exact fun u hu => untouched_resume h hu ⟨Iff.rfl, .refl u s.permits⟩

theorem releaseLocked_spec
    (h : b.Inv s)
    (hholding : Holding t s) :
    SectionSpec b t s (b.releaseLocked t s).2 (Returned t) where
  inv := by
    have hlength := Ledger.length_outstanding_settle h.permits hholding.2
    have hinFlight := h.inFlight
    have hlimit := h.limit
    refine ⟨⟨h.queue.notify, h.permits.settle hholding.2, ?_, ?_, ?_⟩, ?_⟩
    · change s.inFlight - 1 = ((s.permits.settle t).outstanding.length : Int)
      omega
    · change s.inFlight - 1 ≤ (b.maxConcurrency : Int)
      omega
    · change s.waiters = (s.queue.notify.size : Int)
      rw [WaitQueue.size_notify h.queue]
      exact h.waiters
    · refine (h.covered.notify h.queue).mono ?_
      change (b.maxConcurrency : Int) - (s.inFlight - 1) ≤ b.maxConcurrency - s.inFlight + 1
      omega
  others := fun u hu => ⟨WaitQueue.waits_notify, .settle hu s.permits⟩
  standing :=
    ⟨fun hwaits => hholding.1 (WaitQueue.waits_notify.mp hwaits), List.mem_cons_self⟩

end Specifications

end Bulkhead
end Resilience
end Bluetape
