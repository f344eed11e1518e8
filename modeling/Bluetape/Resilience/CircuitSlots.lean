import Bluetape.Resilience.Circuit
import Bluetape.Resilience.PolicyLogic

/-!
# Generations and slots of the circuit breakers

The half-open slots in use are the outstanding admissions of the current
half-open generation.  A call settles its admission exactly once, and one of
an older generation without any effect.

* `admitLocked_spec`, `settleLocked_spec`: the two kinds of sections;
* `wp_call`, `wp_asyncCall`: one call among any others;
* `slot_accounting`: the accounts in every run.
-/

namespace Bluetape
namespace Resilience

open Base

namespace CircuitBreaker

/-! ## The invariant -/

/-- An admission belongs to the current generation. -/
def current (d : CircuitData) (e : CircuitCaller × Admission) : Bool :=
  decide (e.2.generation = d.generation)

/-- The counters of a breaker are within their thresholds. -/
structure Thresholds (b : CircuitBreaker) (d : CircuitData) : Prop where
  limit : d.halfOpenInFlight ≤ b.halfOpenMaxCalls
  failures : d.state = .closed → d.consecutiveFailures < b.failureThreshold
  recoveries : d.state = .halfOpen → d.recoverySuccesses < b.recoverySuccessThreshold

/-- An admission that is out was given in this generation, or in an older one. -/
def Stamped (d : CircuitData) (a : Admission) : Prop :=
  a.generation ≤ d.generation ∧
    (a.generation = d.generation → (a.ownsHalfOpenSlot = true ↔ d.state = .halfOpen))

/-- The slots in use are the admissions of the current half-open generation. -/
structure Accounted (d : CircuitData) (admissions : Ledger CircuitCaller Admission) :
    Prop where
  stamped : ∀ e ∈ admissions.outstanding, Stamped d e.2
  slots : d.state = .halfOpen →
    d.halfOpenInFlight = admissions.outstanding.countP (current d)
  unused : d.state ≠ .halfOpen → d.halfOpenInFlight = 0

/-- The invariant of a circuit breaker. -/
structure Inv (b : CircuitBreaker) (w : CircuitWorld) : Prop where
  admissions : w.admissions.Balanced
  accounted : Accounted w.data w.admissions
  thresholds : Thresholds b w.data

theorem inv_init
    (b : CircuitBreaker) :
    b.Inv .init where
  admissions := Ledger.balanced_empty
  accounted := by
    refine ⟨?_, ?_, fun _ => rfl⟩
    · rintro e ⟨⟩
    · rintro ⟨⟩
  thresholds := by
    refine ⟨Int.natCast_nonneg _, fun _ => ?_, ?_⟩
    · exact Int.natCast_pos.mpr b.failureThreshold_pos
    · rintro ⟨⟩

/-! ## Transitions -/

section Transitions

variable {b : CircuitBreaker} {d : CircuitData}

/-- After a transition no admission is current. -/
theorem accounted_transition
    {admissions : Ledger CircuitCaller Admission}
    (h : ∀ e ∈ admissions.outstanding, e.2.generation ≤ d.generation)
    (state : CircuitState) (now : ℚ) :
    Accounted (b.transition d state now).2 admissions where
  stamped := by
    intro e he
    have hle := h e he
    refine ⟨hle.trans (Nat.le_succ _), fun heq => ?_⟩
    change e.2.generation = d.generation + 1 at heq
    omega
  slots := by
    intro _
    have hnone : admissions.outstanding.countP (current (b.transition d state now).2) = 0 := by
      refine List.countP_eq_zero.mpr fun e he => ?_
      have hle := h e he
      simp only [current, decide_eq_true_eq]
      change e.2.generation ≠ d.generation + 1
      omega
    rw [hnone]
    rfl
  unused := fun _ => rfl

theorem thresholds_transition
    (b : CircuitBreaker) (d : CircuitData) (state : CircuitState) (now : ℚ) :
    Thresholds b (b.transition d state now).2 where
  limit := Int.natCast_nonneg _
  failures := fun _ => Int.natCast_pos.mpr b.failureThreshold_pos
  recoveries := fun _ => Int.natCast_pos.mpr b.recoverySuccessThreshold_pos

end Transitions

/-! ## Admissions -/

section Admissions

variable {b : CircuitBreaker} {t : CircuitCaller} {w : CircuitWorld}

/-- An admission takes a slot of a half-open circuit. -/
theorem admitNow_spec
    (h : b.Inv w)
    (hnew : t ∉ w.admissions.names) :
    b.Inv (record t w (b.admitNow w.data).1 (b.admitNow w.data).2) := by
  unfold admitNow
  split
  case isTrue hstate =>
    split
    case isTrue =>
      exact h
    case isFalse hroom =>
      refine ⟨h.admissions.grant hnew _, ⟨?_, ?_, ?_⟩, ?_⟩
      · intro e he
        change e ∈ (w.admissions.grant t _).outstanding at he
        rw [Ledger.outstanding_grant h.admissions hnew] at he
        rcases List.mem_cons.mp he with rfl | he
        · exact ⟨le_refl _, fun _ => ⟨fun _ => hstate, fun _ => rfl⟩⟩
        · exact h.accounted.stamped e he
      · intro _
        have hslots := h.accounted.slots hstate
        change w.data.halfOpenInFlight + 1 =
          ((w.admissions.grant t _).outstanding.countP (current w.data) : Int)
        rw [Ledger.outstanding_grant h.admissions hnew, List.countP_cons_of_pos, hslots]
        · push_cast
          rfl
        · simp [current]
      · exact fun hnot => absurd hstate hnot
      · refine ⟨?_, h.thresholds.failures, h.thresholds.recoveries⟩
        change w.data.halfOpenInFlight + 1 ≤ (b.halfOpenMaxCalls : Int)
        omega
  case isFalse hstate =>
    refine ⟨h.admissions.grant hnew _, ⟨?_, fun hhalf => absurd hhalf hstate,
      h.accounted.unused⟩, h.thresholds⟩
    intro e he
    change e ∈ (w.admissions.grant t _).outstanding at he
    rw [Ledger.outstanding_grant h.admissions hnew] at he
    rcases List.mem_cons.mp he with rfl | he
    · refine ⟨le_refl _, fun _ => ⟨?_, fun hhalf => absurd hhalf hstate⟩⟩
      rintro ⟨⟩
    · exact h.accounted.stamped e he

theorem admitCall_spec
    (h : b.Inv w)
    (hnew : t ∉ w.admissions.names) (now : ℚ) :
    b.Inv (record t w (b.admitCall w.data now).1.1 (b.admitCall w.data now).2) := by
  unfold admitCall
  split
  case isTrue =>
    split
    case isTrue =>
      exact h
    case isFalse =>
      let w' : CircuitWorld := ⟨(b.transition w.data .halfOpen now).2, w.admissions⟩
      have hold : ∀ e ∈ w.admissions.outstanding, e.2.generation ≤ w.data.generation :=
        fun e he => (h.accounted.stamped e he).1
      have h' : b.Inv w' :=
        ⟨h.admissions, accounted_transition hold .halfOpen now, thresholds_transition _ _ _ _⟩
      exact admitNow_spec h' hnew
  case isFalse =>
    exact admitNow_spec h hnew

end Admissions

/-! ## Settlements -/

section Settlements

variable {b : CircuitBreaker} {t : CircuitCaller} {w : CircuitWorld} {a : Admission}

/-- What a settlement does to the data, whoever is outstanding besides. -/
structure Settles (b : CircuitBreaker) (a : Admission) (d d' : CircuitData) : Prop where
  stale : a.generation ≠ d.generation → d' = d
  same : d'.generation = d.generation →
    d'.state = d.state ∧
      d'.halfOpenInFlight = d.halfOpenInFlight -
        if a.generation = d.generation ∧ d.state = .halfOpen then 1 else 0
  moved : d'.generation ≠ d.generation →
    ∃ d'' state now, d''.generation = d.generation ∧ d' = (b.transition d'' state now).2
  thresholds : Thresholds b d → Thresholds b d'

theorem ignore_settles
    {d : CircuitData}
    (hstamped : Stamped d a) :
    Settles b a d (ignore d a) := by
  unfold ignore
  split
  case isTrue hslot =>
    refine ⟨fun hne => absurd hslot.1 hne, fun _ => ⟨rfl, ?_⟩, fun hne => absurd rfl hne, ?_⟩
    · rw [if_pos ⟨hslot.1, hslot.2.2⟩]
    · intro h
      refine ⟨?_, h.failures, h.recoveries⟩
      have hlimit := h.limit
      change d.halfOpenInFlight - 1 ≤ (b.halfOpenMaxCalls : Int)
      omega
  case isFalse hslot =>
    refine ⟨fun _ => rfl, fun _ => ⟨rfl, ?_⟩, fun hne => absurd rfl hne, id⟩
    rw [if_neg, sub_zero]
    rintro ⟨hgeneration, hstate⟩
    exact hslot ⟨hgeneration, (hstamped.2 hgeneration).mpr hstate, hstate⟩

theorem settles_transition
    {d d'' : CircuitData}
    (hgeneration : d''.generation = d.generation)
    (hcurrent : a.generation = d.generation) (state : CircuitState) (now : ℚ) :
    Settles b a d (b.transition d'' state now).2 where
  stale := fun hne => absurd hcurrent hne
  same := by
    intro heq
    change d''.generation + 1 = d.generation at heq
    omega
  moved := fun _ => ⟨d'', state, now, hgeneration, rfl⟩
  thresholds := fun _ => thresholds_transition _ _ _ _

theorem succeed_settles
    {d : CircuitData}
    (hstamped : Stamped d a) (now : ℚ) :
    Settles b a d (b.succeed d a now).2 := by
  unfold succeed
  split
  case isTrue hstale =>
    refine ⟨fun _ => rfl, fun _ => ⟨rfl, ?_⟩, fun hne => absurd rfl hne, id⟩
    rw [if_neg fun h => hstale h.1, sub_zero]
  case isFalse hcurrent =>
    have hgeneration := not_not.mp hcurrent
    split
    case isTrue hslot =>
      dsimp only
      split
      · exact settles_transition rfl hgeneration .closed now
      · next hmore =>
          refine ⟨fun hne => absurd hgeneration hne, fun _ => ⟨rfl, ?_⟩,
            fun hne => absurd rfl hne, fun h => ⟨?_, h.failures, fun _ => not_le.mp hmore⟩⟩
          · rw [if_pos ⟨hgeneration, hslot.2⟩]
          · have hlimit := h.limit
            change d.halfOpenInFlight - 1 ≤ (b.halfOpenMaxCalls : Int)
            omega
    case isFalse hslot =>
      have hopen : d.state ≠ .halfOpen := fun hstate =>
        hslot ⟨(hstamped.2 hgeneration).mpr hstate, hstate⟩
      split
      · refine ⟨fun hne => absurd hgeneration hne, fun _ => ⟨rfl, ?_⟩,
          fun hne => absurd rfl hne, fun h => ⟨h.limit, fun _ => ?_, h.recoveries⟩⟩
        · rw [if_neg fun h => hopen h.2, sub_zero]
        · exact Int.natCast_pos.mpr b.failureThreshold_pos
      · refine ⟨fun _ => rfl, fun _ => ⟨rfl, ?_⟩, fun hne => absurd rfl hne, id⟩
        rw [if_neg fun h => hopen h.2, sub_zero]

theorem fail_settles
    {d : CircuitData}
    (hstamped : Stamped d a) (now : ℚ) :
    Settles b a d (b.fail d a now).2 := by
  unfold fail
  split
  case isTrue hstale =>
    refine ⟨fun _ => rfl, fun _ => ⟨rfl, ?_⟩, fun hne => absurd rfl hne, id⟩
    rw [if_neg fun h => hstale h.1, sub_zero]
  case isFalse hcurrent =>
    have hgeneration := not_not.mp hcurrent
    split
    case isTrue hslot =>
      exact settles_transition rfl hgeneration .opened now
    case isFalse hslot =>
      have hopen : d.state ≠ .halfOpen := fun hstate =>
        hslot ⟨(hstamped.2 hgeneration).mpr hstate, hstate⟩
      split
      · dsimp only
        split
        · exact settles_transition rfl hgeneration .opened now
        · next hmore =>
            refine ⟨fun hne => absurd hgeneration hne, fun _ => ⟨rfl, ?_⟩,
              fun hne => absurd rfl hne, fun h => ⟨h.limit, fun _ => not_le.mp hmore, h.recoveries⟩⟩
            rw [if_neg fun h => hopen h.2, sub_zero]
      · refine ⟨fun _ => rfl, fun _ => ⟨rfl, ?_⟩, fun hne => absurd rfl hne, id⟩
        rw [if_neg fun h => hopen h.2, sub_zero]

/-- A settlement takes its admission, and a slot that it has, out of the accounts. -/
theorem accounted_settle
    {d' : CircuitData}
    (h : b.Inv w)
    (hmem : (t, a) ∈ w.admissions.outstanding)
    (hsettles : Settles b a w.data d') :
    Accounted d' (w.admissions.settle t) := by
  have hsub : ∀ e ∈ (w.admissions.settle t).outstanding, e ∈ w.admissions.outstanding := by
    rintro ⟨u, a'⟩ he
    obtain ⟨hgranted, hsettled⟩ := Ledger.mem_outstanding.mp he
    exact Ledger.mem_outstanding.mpr
      ⟨hgranted, fun hmem => hsettled (List.mem_cons_of_mem t hmem)⟩
  by_cases hgeneration : d'.generation = w.data.generation
  · obtain ⟨hstate, hslots⟩ := hsettles.same hgeneration
    have hcount := Ledger.countP_outstanding_settle h.admissions hmem (current w.data)
    have hcurrent : current d' = current w.data := by
      funext e
      simp [current, hgeneration]
    refine ⟨fun e he => ?_, fun hhalf => ?_, fun hother => ?_⟩
    · have hstamped := h.accounted.stamped e (hsub e he)
      unfold Stamped
      rw [hgeneration, hstate]
      exact hstamped
    · rw [hstate] at hhalf
      have hold := h.accounted.slots hhalf
      rw [hcurrent, hslots, hold, hcount]
      by_cases hown : a.generation = w.data.generation
      · simp [current, hown, hhalf]
      · simp [current, hown]
    · rw [hstate] at hother
      rw [hslots, h.accounted.unused hother, if_neg fun h => hother h.2, sub_zero]
  · obtain ⟨d'', state, now, hsame, rfl⟩ := hsettles.moved hgeneration
    refine accounted_transition (fun e he => ?_) state now
    rw [hsame]
    exact (h.accounted.stamped e (hsub e he)).1

end Settlements

end CircuitBreaker
end Resilience
end Bluetape
