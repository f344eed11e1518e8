import Bluetape.LeaderRedis.Support
import Bluetape.Base.RoundingError

/-!
# Election options

The timing policy of a lock, with what its constructor checks as fields, and
the additional check of a client that renews by itself.  That check adds and
compares seconds in floats, which are the doubles among the rationals here.
-/

namespace Bluetape
namespace LeaderRedis

open Base

/-- Division of whole microseconds: to the nearest, ties to even. -/
def roundedQuotient (value n : Int) : Int :=
  let quotient := value / n
  let twice := 2 * (value % n)
  if n < twice ∨ twice = n ∧ quotient % 2 = 1 then quotient + 1 else quotient

/-- `value / 3` of a `timedelta` -/
def Timedelta.third (value : Timedelta) : Timedelta where
  total := roundedQuotient value.total 3
  min_le := by
    have hmin := value.min_le
    unfold roundedQuotient
    dsimp only
    split <;> omega
  le_max := by
    have hmax := value.le_max
    unfold roundedQuotient
    dsimp only
    split <;> omega

/-- The seconds of a `timedelta`. -/
def Timedelta.totalSeconds (value : Timedelta) : ℚ :=
  (value.total : ℚ) / 1000000

/-- `timedelta.total_seconds`: the microseconds over a million, divided as floats are -/
def Timedelta.floatSeconds (value : Timedelta) : ℚ :=
  Binary64.round value.totalSeconds

/-- `timedelta(milliseconds=...)`, none for the raised `OverflowError` -/
def Timedelta.ofMilliseconds (milliseconds : Nat) : Option Timedelta :=
  if h : milliseconds * 1000 ≤ 86399999999999999999 then
    some ⟨milliseconds * 1000, by omega, by omega⟩
  else none

/-- `LeaderElectionOptions`, with what `__post_init__` has checked. -/
structure LeaderElectionOptions where
  waitTime : Timedelta
  leaseTime : Timedelta
  minLeaseTime : Timedelta
  autoRenew : Bool
  renewInterval : Option Timedelta
  wait_nonneg : 0 ≤ waitTime.total
  lease_pos : 0 < leaseTime.total
  min_nonneg : 0 ≤ minLeaseTime.total
  min_le_lease : minLeaseTime.total ≤ leaseTime.total
  interval_of_autoRenew : autoRenew = true → renewInterval.isSome = true
  interval_bounds : ∀ interval ∈ renewInterval,
    0 < interval.total ∧ interval.total < leaseTime.total

namespace LeaderElectionOptions

/-- The interval that `__post_init__` derives from the lease time. -/
def derivedInterval (leaseTime : Timedelta) (autoRenew : Bool)
    (renewInterval : Option Timedelta) : Option Timedelta :=
  match renewInterval with
  | none => if autoRenew then some (leaseTime.third) else none
  | some interval => some interval

/-- `__post_init__`, none for the raised `InvalidLeaderOptionsError` -/
def make (waitTime leaseTime minLeaseTime : Timedelta) (autoRenew : Bool)
    (renewInterval : Option Timedelta) : Option LeaderElectionOptions :=
  if h : 0 ≤ waitTime.total ∧ 0 < leaseTime.total ∧ 0 ≤ minLeaseTime.total ∧
      minLeaseTime.total ≤ leaseTime.total ∧
      (∀ interval ∈ derivedInterval leaseTime autoRenew renewInterval,
        0 < interval.total ∧ interval.total < leaseTime.total) then
    some
      { waitTime := waitTime
        leaseTime := leaseTime
        minLeaseTime := minLeaseTime
        autoRenew := autoRenew
        renewInterval := derivedInterval leaseTime autoRenew renewInterval
        wait_nonneg := h.1
        lease_pos := h.2.1
        min_nonneg := h.2.2.1
        min_le_lease := h.2.2.2.1
        interval_of_autoRenew := by
          intro hauto
          cases renewInterval <;> simp [derivedInterval, hauto]
        interval_bounds := h.2.2.2.2 }
  else none

/-- The constructor keeps the interval that it derives. -/
theorem renewInterval_of_make
    {waitTime leaseTime minLeaseTime : Timedelta} {autoRenew : Bool}
    {renewInterval : Option Timedelta} {options : LeaderElectionOptions}
    (h : make waitTime leaseTime minLeaseTime autoRenew renewInterval = some options) :
    options.renewInterval = derivedInterval leaseTime autoRenew renewInterval := by
  unfold make at h
  split at h
  · obtain rfl := Option.some.inj h
    rfl
  · cases h

end LeaderElectionOptions

/-- `_Timing`, as far as the lock uses it: finite command envelopes in seconds. -/
structure Timing where
  renew : ℚ
  release : ℚ
  renew_pos : 0 < renew
  release_pos : 0 < release
  renew_float : Binary64.ofRat? renew = some renew
  release_float : Binary64.ofRat? release = some release

/-- The last check of `_validated_redis_options`, on the final interval. -/
def fitsLease (options : LeaderElectionOptions) (timing : Timing)
    (interval : Timedelta) : Bool :=
  match durationMilliseconds options.leaseTime with
  | none => false
  | some milliseconds =>
      let effectiveLeaseSeconds := Binary64.round ((milliseconds : ℚ) / 1000)
      let intervalSeconds := interval.floatSeconds
      decide (timing.renew < intervalSeconds ∧
        Binary64.round (timing.renew + intervalSeconds) < effectiveLeaseSeconds)

/-- `timedelta(milliseconds=_duration_milliseconds(interval))`, none where it raises -/
def roundedInterval (interval : Timedelta) : Option Timedelta := do
  let milliseconds ← durationMilliseconds interval
  Timedelta.ofMilliseconds milliseconds

/-- `replace(options, renew_interval=interval)`, none where it raises -/
def LeaderElectionOptions.withInterval (options : LeaderElectionOptions)
    (interval : Timedelta) : Option LeaderElectionOptions :=
  make options.waitTime options.leaseTime options.minLeaseTime options.autoRenew
    (some interval)

/-- `_validated_redis_options`, none for the raised `InvalidLeaderOptionsError` -/
def validatedRedisOptions (options : LeaderElectionOptions) (timing : Timing) :
    Option LeaderElectionOptions :=
  if options.autoRenew then do
    let interval ← options.renewInterval
    if interval = options.leaseTime.third then
      let interval ← roundedInterval interval
      let options ← options.withInterval interval
      if fitsLease options timing interval then return options else none
    else if fitsLease options timing interval then return options
    else none
  else some options

/-- What the last check has found out about accepted options that renew by themselves. -/
theorem fitsLease_of_validated
    {requested options : LeaderElectionOptions} {timing : Timing}
    (h : validatedRedisOptions requested timing = some options)
    (hauto : options.autoRenew = true) :
    ∃ interval, options.renewInterval = some interval ∧
      fitsLease options timing interval = true := by
  unfold validatedRedisOptions at h
  split at h
  case isFalse hno =>
      obtain rfl := Option.some.inj h
      exact absurd hauto hno
  case isTrue =>
      obtain ⟨interval, hinterval, h⟩ := Option.bind_eq_some_iff.mp h
      split at h
      case isTrue =>
          obtain ⟨rounded, -, h⟩ := Option.bind_eq_some_iff.mp h
          obtain ⟨replaced, hreplaced, h⟩ := Option.bind_eq_some_iff.mp h
          split at h
          case isFalse => cases h
          case isTrue hfits =>
              obtain rfl := Option.some.inj h
              exact ⟨rounded, LeaderElectionOptions.renewInterval_of_make hreplaced, hfits⟩
      case isFalse =>
          split at h
          case isFalse => cases h
          case isTrue hfits =>
              obtain rfl := Option.some.inj h
              exact ⟨interval, hinterval, hfits⟩

/-- No `timedelta` has as many seconds as the 47th power of two. -/
theorem Timedelta.abs_floatSeconds_le
    (value : Timedelta) :
    |value.floatSeconds| ≤ 2 ^ 47 := by
  have habs : |value.totalSeconds| ≤ 2 ^ (47 : Int) := by
    have hmin : (-86399999913600000000 : ℚ) ≤ value.total := by exact_mod_cast value.min_le
    have hmax : (value.total : ℚ) ≤ 86399999999999999999 := by exact_mod_cast value.le_max
    unfold Timedelta.totalSeconds
    rw [abs_le]
    norm_num
    constructor <;> linarith
  exact_mod_cast Binary64.abs_round_le (by norm_num) habs

/-- The inequalities of the last check. -/
theorem fitsLease_iff
    {options : LeaderElectionOptions} {timing : Timing} {interval : Timedelta} :
    fitsLease options timing interval = true ↔
      ∃ milliseconds, durationMilliseconds options.leaseTime = some milliseconds ∧
        timing.renew < interval.floatSeconds ∧
        Binary64.round (timing.renew + interval.floatSeconds) <
          Binary64.round ((milliseconds : ℚ) / 1000) := by
  unfold fitsLease
  cases durationMilliseconds options.leaseTime with
  | none =>
      simp
  | some milliseconds =>
      simp

/-- An explicit interval that fits is accepted as it is. -/
theorem validated_of_fitsLease
    {options : LeaderElectionOptions} {timing : Timing} {interval : Timedelta}
    (hauto : options.autoRenew = true)
    (hinterval : options.renewInterval = some interval)
    (hthird : interval ≠ options.leaseTime.third)
    (hfits : fitsLease options timing interval = true) :
    validatedRedisOptions options timing = some options := by
  simp [validatedRedisOptions, hauto, hinterval, hthird, hfits]

end LeaderRedis
end Bluetape
