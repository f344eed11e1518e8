import Bluetape.LeaderRedis.AsyncHandle

/-!
# The minimum lease on both clocks

What is left of the minimum lease when a handle is released.  The synchronous handle counts
integer nanoseconds, the asynchronous one seconds in floats.

* `minimumMs_le`, `Async.minimumMs_le`: Redis can represent both results;
* `sameMinimum_of_none`: without a minimum lease time the results are the same.
-/

namespace Bluetape
namespace LeaderRedis

open Base

/-- The asynchronous handle for the lease of a synchronous one, on the same clock. -/
def LeaseHandle.toAsync (h : LeaseHandle) : Async.AsyncLeaseHandle where
  record := h.record
  options := h.options
  acquiredAt := Async.loopTime h.acquiredNs

/-- What `_remaining_minimum_ms` returns at a reading of the clock. -/
def LeaseHandle.minimumMs (h : LeaseHandle) (now : Int) : Nat :=
  let remainingNs := durationNanoseconds h.options.minLeaseTime - (now - h.acquiredNs)
  if remainingNs ≤ 0 then 0 else ((remainingNs + 999999) / 1000000).toNat

/-- The clock counts in 64 bits, when the lease was acquired and now. -/
def LeaseHandle.ClockReading (h : LeaseHandle) (now : Int) : Prop :=
  (-2 ^ 63 ≤ h.acquiredNs ∧ h.acquiredNs < 2 ^ 63) ∧ -2 ^ 63 ≤ now ∧ now < 2 ^ 63

/-- Both handles find the same time left. -/
def LeaseHandle.SameMinimum (h : LeaseHandle) (now : Int) : Prop :=
  Async.minimumMs h.toAsync (Async.loopTime now) = h.minimumMs now

/-! ## Bounds -/

/-- The seconds of a clock that counts in 64 bits. -/
theorem Async.abs_loopTime_le
    {nanoseconds : Int}
    (hlow : -2 ^ 63 ≤ nanoseconds)
    (hhigh : nanoseconds < 2 ^ 63) :
    |Async.loopTime nanoseconds| ≤ 2 ^ (34 : Int) := by
  unfold Async.loopTime
  split
  · refine Binary64.abs_round_le (by norm_num) ?_
    have hseconds : |nanoseconds / 1000000000| ≤ 2 ^ 34 := by
      rw [abs_le]
      omega
    exact_mod_cast hseconds
  · refine Binary64.abs_round_le (by norm_num) ?_
    have hnanoseconds : |(nanoseconds : ℚ)| ≤ 2 ^ (63 : Int) := by
      have habs : |nanoseconds| ≤ 2 ^ 63 := abs_le.mpr ⟨hlow, hhigh.le⟩
      exact_mod_cast habs
    have hround := Binary64.abs_round_le (by norm_num) hnanoseconds
    rw [abs_div, abs_of_pos (by norm_num : (0 : ℚ) < 1000000000),
      div_le_iff₀ (by norm_num)]
    refine hround.trans ?_
    norm_num

variable {h : LeaseHandle} {now : Int}

theorem Async.minimumMs_le
    (hnow : h.ClockReading now) :
    Async.minimumMs h.toAsync (Async.loopTime now) ≤ maxRedisInteger := by
  obtain ⟨⟨hacquired, hacquired'⟩, hlow, hhigh⟩ := hnow
  have hlast : |Async.loopTime now| ≤ 2 ^ (34 : Int) := Async.abs_loopTime_le hlow hhigh
  have hfirst : |-Async.loopTime h.acquiredNs| ≤ 2 ^ (34 : Int) := by
    rw [abs_neg]
    exact Async.abs_loopTime_le hacquired hacquired'
  have hminimum : |h.options.minLeaseTime.floatSeconds| ≤ 2 ^ (47 : Int) := by
    exact_mod_cast h.options.minLeaseTime.abs_floatSeconds_le
  have helapsed := Binary64.abs_round_add_le (by norm_num) hlast hfirst
  rw [← sub_eq_add_neg] at helapsed
  have hremaining := Binary64.abs_round_add_le (by norm_num) hminimum
    ((abs_neg _).trans_le (helapsed.trans (by norm_num)))
  rw [← sub_eq_add_neg] at hremaining
  unfold Async.minimumMs
  dsimp only [LeaseHandle.toAsync]
  generalize Binary64.round (h.options.minLeaseTime.floatSeconds -
    Binary64.round (Async.loopTime now - Async.loopTime h.acquiredNs)) = remaining
    at hremaining
  split
  · exact Nat.zero_le _
  · have hproduct : |Binary64.round (remaining * 1000)| ≤ 2 ^ (58 : Int) := by
      refine Binary64.abs_round_le (by norm_num) ?_
      rw [abs_mul, abs_of_pos (by norm_num : (0 : ℚ) < 1000)]
      refine (mul_le_mul_of_nonneg_right hremaining (by norm_num)).trans ?_
      norm_num
    have hlittle : |Binary64.round (999999 / 1000000)| ≤ 2 ^ (58 : Int) :=
      Binary64.abs_round_le (by norm_num) (by norm_num)
    have hsum := Binary64.abs_round_add_le (by norm_num) hproduct hlittle
    have hfloor : ⌊Binary64.round (Binary64.round (remaining * 1000) +
        Binary64.round (999999 / 1000000))⌋ ≤ 2 ^ 59 := by
      refine Int.floor_le_iff.mpr (lt_of_le_of_lt ((le_abs_self _).trans hsum) ?_)
      norm_num
    unfold maxRedisInteger
    omega

theorem LeaseHandle.minimumMs_le
    (hnow : h.ClockReading now) :
    h.minimumMs now ≤ maxRedisInteger := by
  obtain ⟨⟨hacquired, hacquired'⟩, hlow, hhigh⟩ := hnow
  have hmax := h.options.minLeaseTime.le_max
  unfold LeaseHandle.minimumMs maxRedisInteger
  rw [durationNanoseconds_eq]
  dsimp only
  split <;> omega

/-- A release may be sent with every number that Redis can represent. -/
theorem validateDispatch_release
    (record : LeaseRecord) {remaining : Nat}
    (hle : remaining ≤ maxRedisInteger) :
    validateDispatch (.release record.toBytes (millisecondsText remaining)) = true := by
  rcases remaining.eq_zero_or_pos with rfl | hpos
  · have hzero : validateMilliseconds (millisecondsText 0) true = true := by
      decide
    simp [validateDispatch, hzero]
  · have hcanon : isCanonicalFence (decimal remaining) = true := isCanonicalFence_decimal hpos hle
    simp [validateDispatch, validateMilliseconds, millisecondsText, hcanon]

/-! ## No minimum -/

/-- Up to 146 years, a later reading is not an earlier time. -/
theorem Async.loopTime_mono
    {first last : Int}
    (hfirst : -2 ^ 62 < first)
    (hle : first ≤ last)
    (hlast : last < 2 ^ 62) :
    Async.loopTime first ≤ Async.loopTime last := by
  have hexponent : ∀ n : Int, -2 ^ 62 < n → n < 2 ^ 62 → Binary64.exponent (n : ℚ) ≤ 9 := by
    intro n hlow hhigh
    have habs : |(n : ℚ)| < 2 ^ (62 : Int) := by
      have habs : |n| < 2 ^ 62 := abs_lt.mpr ⟨hlow, hhigh⟩
      exact_mod_cast habs
    exact Binary64.exponent_le (by norm_num) habs
  -- whole seconds are doubles, also when they are counted in nanoseconds
  have hsecond : ∀ n : Int, -2 ^ 62 < n → n < 2 ^ 62 → n % 1000000000 = 0 →
      Binary64.round (n : ℚ) = n := by
    intro n hlow hhigh hwhole
    obtain ⟨k, rfl⟩ := Int.dvd_of_emod_eq_zero hwhole
    refine Binary64.round_eq_self (m := 1953125 * k) (hexponent _ hlow hhigh) ?_
    push_cast
    ring
  have hdivided : ∀ n : Int, -2 ^ 62 < n → n < 2 ^ 62 →
      Async.loopTime n = Binary64.round (Binary64.round n / 1000000000) := by
    intro n hlow hhigh
    unfold Async.loopTime
    split
    case isTrue hwhole =>
      rw [hsecond n hlow hhigh hwhole]
      obtain ⟨k, rfl⟩ := Int.dvd_of_emod_eq_zero hwhole
      rw [Int.mul_ediv_cancel_left k (by norm_num), Int.cast_mul, Int.cast_ofNat,
        mul_div_cancel_left₀ _ (by norm_num)]
    case isFalse => rfl
  rw [hdivided first hfirst (by omega), hdivided last (by omega) hlast]
  exact Binary64.round_mono (div_le_div_of_nonneg_right
    (Binary64.round_mono (Int.cast_le.mpr hle)) (by norm_num))

/-- **Without a minimum lease time** there is nothing left on either clock. -/
theorem sameMinimum_of_none
    (hnone : h.options.minLeaseTime.total = 0)
    (hacquired : -2 ^ 62 < h.acquiredNs)
    (hle : h.acquiredNs ≤ now)
    (hnow : now < 2 ^ 62) :
    h.SameMinimum now := by
  have hfloat : h.options.minLeaseTime.floatSeconds = 0 := by
    rw [Timedelta.floatSeconds, Timedelta.totalSeconds, hnone, Int.cast_zero, zero_div,
      Binary64.round_zero]
  have helapsed : 0 ≤ Binary64.round (Async.loopTime now - Async.loopTime h.acquiredNs) :=
    Binary64.round_nonneg (sub_nonneg.mpr (Async.loopTime_mono hacquired hle hnow))
  unfold LeaseHandle.SameMinimum Async.minimumMs LeaseHandle.minimumMs
  dsimp only [LeaseHandle.toAsync]
  rw [durationNanoseconds_eq, hnone, hfloat, if_pos, if_pos]
  · omega
  · exact Binary64.round_nonpos (by linarith)

end LeaderRedis
end Bluetape
