import Bluetape.Jwt.Claims
import Mathlib.Algebra.Order.Floor.Semifield
import Mathlib.Data.Int.Log

/-!
# Numeric dates

`datetime.timestamp` divides the microseconds by a million and rounds to a float, whose
significand has 53 bits; the numeric date is the floor of that.  Far from 1970 the spacing
of floats is wider than a microsecond, so that the last microseconds of a second are rounded
to the next second.

* `floor_roundToFloat`: when the rounding reaches the next integer;
* `datetimeToNumericDate_eq`: the numeric date in integers;
* `numericDate_round_trip`: which instants come back with their second.
-/

namespace Bluetape
namespace Jwt

open Base

/-- The nearest number with a 53-bit significand. -/
def roundToFloat (x : ℚ) : ℚ :=
  let ulp := (2 : ℚ) ^ (Int.log 2 |x| - 52)
  roundHalfEven (x / ulp) * ulp

namespace Instant

/-- `timestamp` -/
def timestamp (t : Instant) : ℚ :=
  roundToFloat (t.micros / 1000000)

/-- The whole second, in seconds since 1970. -/
def second (t : Instant) : Int :=
  t.micros / 1000000

/-- The next second is further away than half the spacing of the floats of this size. -/
def KeepsSecond (t : Instant) : Prop :=
  2 ^ Nat.log 2 (t.micros.natAbs / 1000000) * 1000000 <
    (1000000 - t.micros % 1000000).toNat * 2 ^ 53

instance (t : Instant) : Decidable t.KeepsSecond :=
  inferInstanceAs (Decidable (_ < _))

theorem floorSecond_range
    (t : Instant) :
    -62135596800000000 ≤ t.second * 1000000 ∧ t.second * 1000000 ≤ 253402300799999999 := by
  have hrange := t.range
  have hsecond : t.second = t.micros / 1000000 := rfl
  omega

/-- The start of the second. -/
def floorSecond (t : Instant) : Instant :=
  ⟨t.second * 1000000, t.floorSecond_range⟩

/-- The second that a numeric date gives. -/
def wireSecond (t : Instant) : Int :=
  t.second + if t.KeepsSecond then 0 else 1

end Instant

/-- `_datetime_to_numeric_date` -/
def datetimeToNumericDate (t : Instant) : Int :=
  ⌊t.timestamp⌋

/-! ## Rounding -/

section Rounding

theorem roundHalfEven_intCast
    (k : Int) :
    roundHalfEven k = k := by
  simp [roundHalfEven]

theorem le_roundHalfEven
    {k : Int} {q : ℚ}
    (h : (k : ℚ) ≤ q) :
    k ≤ roundHalfEven q := by
  have hfloor : k ≤ ⌊q⌋ := Int.le_floor.mpr h
  unfold roundHalfEven
  dsimp only
  split_ifs
  all_goals omega

theorem roundHalfEven_le
    {k : Int} {q : ℚ}
    (h : q < k) :
    roundHalfEven q ≤ k := by
  have hfloor : ⌊q⌋ < k := Int.floor_lt.mpr h
  unfold roundHalfEven
  dsimp only
  split_ifs
  all_goals omega

/-- Which numbers below an even integer are rounded to it. -/
theorem roundHalfEven_eq_iff
    {k : Int} {q : ℚ}
    (hk : k % 2 = 0)
    (h : q < k) :
    roundHalfEven q = k ↔ k - q ≤ 1 / 2 := by
  have hfloor : ⌊q⌋ < k := Int.floor_lt.mpr h
  have hle := Int.floor_le q
  rcases Int.lt_or_le ⌊q⌋ (k - 1) with hlow | hhigh
  · have hlow' : (⌊q⌋ : ℚ) + 1 ≤ k - 1 := by exact_mod_cast (by omega : ⌊q⌋ + 1 ≤ k - 1)
    have hlt := Int.lt_floor_add_one q
    constructor
    · intro heq
      have hround := roundHalfEven_le (k := k - 1) (q := q) (by push_cast; linarith)
      omega
    · intro hnear
      linarith
  · obtain hsame : ⌊q⌋ = k - 1 := by omega
    have hrest : q - ((k - 1 : Int) : ℚ) = 1 - (k - q) := by push_cast; ring
    unfold roundHalfEven
    dsimp only
    rw [hsame, hrest]
    split_ifs with hless hmore heven
    · exact iff_of_false (by omega) (by linarith)
    · exact iff_of_true (by omega) (by linarith)
    · omega
    · exact iff_of_true (by omega) (by linarith)

/-- **When the rounding reaches the next integer.** -/
theorem floor_roundToFloat
    {x : ℚ} {places : Nat}
    (hplaces : Int.log 2 |x| = 52 - (places + 1 : Nat)) :
    ⌊roundToFloat x⌋ =
      ⌊x⌋ + if (⌊x⌋ + 1 - x) * 2 ^ (places + 2) ≤ 1 then 1 else 0 := by
  have hpos : (0 : ℚ) < 2 ^ (places + 1) := by positivity
  have hulp : (2 : ℚ) ^ (Int.log 2 |x| - 52) = (2 ^ (places + 1))⁻¹ := by
    rw [hplaces, show (52 - (places + 1 : Nat) - 52 : Int) = -((places + 1 : Nat) : Int) by ring,
      zpow_neg, zpow_natCast]
  have hvalue : roundToFloat x = roundHalfEven (x * 2 ^ (places + 1)) / 2 ^ (places + 1) := by
    rw [roundToFloat, hulp, div_inv_eq_mul]
    exact (div_eq_mul_inv _ _).symm
  have hlow : ⌊x⌋ * 2 ^ (places + 1) ≤ roundHalfEven (x * 2 ^ (places + 1)) := by
    refine le_roundHalfEven ?_
    push_cast
    exact mul_le_mul_of_nonneg_right (Int.floor_le x) hpos.le
  have hbelow : x * 2 ^ (places + 1) < ((⌊x⌋ + 1) * 2 ^ (places + 1) : Int) := by
    push_cast
    exact mul_lt_mul_of_pos_right (Int.lt_floor_add_one x) hpos
  have hhigh := roundHalfEven_le hbelow
  have heven : ((⌊x⌋ + 1) * 2 ^ (places + 1) : Int) % 2 = 0 := by
    rw [pow_succ, ← mul_assoc]
    exact Int.mul_emod_left _ _
  have hreaches := roundHalfEven_eq_iff heven hbelow
  have hdistance : (((⌊x⌋ + 1) * 2 ^ (places + 1) : Int) : ℚ) - x * 2 ^ (places + 1) ≤ 1 / 2 ↔
      (⌊x⌋ + 1 - x) * 2 ^ (places + 2) ≤ 1 := by
    have hdouble : (⌊x⌋ + 1 - x) * 2 ^ (places + 2) =
        ((((⌊x⌋ + 1) * 2 ^ (places + 1) : Int) : ℚ) - x * 2 ^ (places + 1)) * 2 := by
      push_cast
      ring
    rw [hdouble]
    constructor
    · intro hnear
      linarith
    · intro hnear
      linarith
  have hiff := hreaches.trans hdistance
  rw [hvalue, Int.floor_eq_iff, le_div_iff₀ hpos, div_lt_iff₀ hpos]
  split_ifs with hnear
  · rw [hiff.mpr hnear]
    push_cast
    constructor
    · exact le_rfl
    · exact mul_lt_mul_of_pos_right (lt_add_one _) hpos
  · have hless : roundHalfEven (x * 2 ^ (places + 1)) < (⌊x⌋ + 1) * 2 ^ (places + 1) :=
      lt_of_le_of_ne hhigh fun heq => hnear (hiff.mp heq)
    rw [add_zero]
    constructor
    · exact_mod_cast hlow
    · exact_mod_cast hless

end Rounding

/-! ## Instants -/

section Instants

/-- Between 1 and 9999, the integer part of a timestamp has 38 bits at most. -/
theorem Instant.log_le
    (t : Instant) :
    Nat.log 2 (t.micros.natAbs / 1000000) ≤ 37 := by
  have hrange := t.range
  refine Nat.lt_succ_iff.mp (Nat.log_lt_of_lt_pow' (by decide) ?_)
  omega

/-- The exponent of a timestamp, and the bits that are left for its fraction. -/
theorem Instant.log_timestamp
    (t : Instant) :
    ∃ places, Int.log 2 |(t.micros : ℚ) / 1000000| = 52 - (places + 1 : Nat) ∧
      (places + 1 + Nat.log 2 (t.micros.natAbs / 1000000) = 52 ∨
        52 ≤ places + 1 ∧ Nat.log 2 (t.micros.natAbs / 1000000) = 0) := by
  have habs : |(t.micros : ℚ) / 1000000| = (t.micros.natAbs : ℚ) / (1000000 : Nat) := by
    rw [abs_div, Nat.cast_natAbs]
    norm_num
  have hle := t.log_le
  rcases Nat.lt_or_ge t.micros.natAbs 1000000 with hsmall | hlarge
  · have hzero : t.micros.natAbs / 1000000 = 0 := Nat.div_eq_of_lt hsmall
    have hone : |(t.micros : ℚ) / 1000000| ≤ 1 := by
      rw [habs, div_le_one (by positivity)]
      exact_mod_cast hsmall.le
    refine ⟨51 + Nat.clog 2 ⌈|(t.micros : ℚ) / 1000000|⁻¹⌉₊, ?_, Or.inr ⟨by omega, ?_⟩⟩
    · rw [Int.log_of_right_le_one _ hone]
      push_cast
      ring
    · rw [hzero]
      rfl
  · have hone : 1 ≤ |(t.micros : ℚ) / 1000000| := by
      rw [habs, one_le_div (by positivity)]
      exact_mod_cast hlarge
    have hfloor : ⌊|(t.micros : ℚ) / 1000000|⌋₊ = t.micros.natAbs / 1000000 := by
      rw [habs, Nat.floor_div_eq_div]
    refine ⟨51 - Nat.log 2 (t.micros.natAbs / 1000000), ?_, Or.inl (by omega)⟩
    rw [Int.log_of_one_le_right _ hone, hfloor]
    omega

theorem Instant.floor_seconds
    (t : Instant) :
    ⌊(t.micros : ℚ) / 1000000⌋ = t.second := by
  have hfloor := Rat.floor_intCast_div_natCast t.micros 1000000
  rw [Instant.second]
  exact_mod_cast hfloor

theorem Instant.keepsSecond_iff
    {t : Instant} {places : Nat}
    (hplaces : places + 1 + Nat.log 2 (t.micros.natAbs / 1000000) = 52 ∨
      52 ≤ places + 1 ∧ Nat.log 2 (t.micros.natAbs / 1000000) = 0) :
    t.KeepsSecond ↔ 1000000 < (1000000 - t.micros % 1000000).toNat * 2 ^ (places + 2) := by
  unfold Instant.KeepsSecond
  rcases hplaces with hsum | ⟨hmany, hzero⟩
  · have hpow : 2 ^ 53 = 2 ^ Nat.log 2 (t.micros.natAbs / 1000000) * 2 ^ (places + 2) := by
      rw [← pow_add]
      congr 1
      omega
    rw [hpow, Nat.mul_left_comm]
    exact Nat.mul_lt_mul_left (by positivity)
  · have hslack : 1 ≤ (1000000 - t.micros % 1000000).toNat := by omega
    have hpow : 2 ^ 53 ≤ 2 ^ (places + 2) := Nat.pow_le_pow_right (by decide) (by omega)
    rw [hzero, pow_zero, Nat.one_mul]
    refine iff_of_true ?_ ?_
    · omega
    · exact lt_of_lt_of_le (by norm_num : 1000000 < 1 * 2 ^ 53) (Nat.mul_le_mul hslack hpow)

/-- **The numeric date**, in integers. -/
theorem datetimeToNumericDate_eq
    (t : Instant) :
    datetimeToNumericDate t = t.wireSecond := by
  obtain ⟨places, hlog, hplaces⟩ := t.log_timestamp
  have hmod : (t.second : ℚ) * 1000000 + (t.micros % 1000000 : Int) = t.micros := by
    rw [Instant.second]
    exact_mod_cast Int.ediv_mul_add_emod t.micros 1000000
  have hslack : ((t.second : ℚ) + 1 - t.micros / 1000000) * 1000000 =
      ((1000000 - t.micros % 1000000).toNat : Nat) := by
    have hnonneg : 0 ≤ 1000000 - t.micros % 1000000 := by omega
    rw [← Int.cast_natCast, Int.toNat_of_nonneg hnonneg]
    push_cast
    linarith
  have hcrosses : ((t.second : ℚ) + 1 - t.micros / 1000000) * 2 ^ (places + 2) ≤ 1 ↔
      ¬ t.KeepsSecond := by
    rw [Instant.keepsSecond_iff hplaces, not_lt]
    have hscaled : ((t.second : ℚ) + 1 - t.micros / 1000000) * 2 ^ (places + 2) * 1000000 =
        (((1000000 - t.micros % 1000000).toNat * 2 ^ (places + 2) : Nat) : ℚ) := by
      push_cast
      rw [← hslack]
      ring
    have hnat : (((1000000 - t.micros % 1000000).toNat * 2 ^ (places + 2) : Nat) : ℚ) ≤ 1000000 ↔
        (1000000 - t.micros % 1000000).toNat * 2 ^ (places + 2) ≤ 1000000 := by
      exact_mod_cast Iff.rfl
    rw [← hnat, ← hscaled]
    constructor
    · intro hle
      linarith
    · intro hle
      linarith
  rw [datetimeToNumericDate, Instant.timestamp, floor_roundToFloat hlog, Instant.floor_seconds,
    Instant.wireSecond]
  by_cases hkeeps : t.KeepsSecond
  · rw [if_neg fun hle => hcrosses.mp hle hkeeps, if_pos hkeeps]
  · rw [if_pos (hcrosses.mpr hkeeps), if_neg hkeeps]

/-! ### Reading them back -/

theorem Instant.eq_of_micros
    {t u : Instant}
    (h : t.micros = u.micros) :
    t = u := by
  cases t
  cases u
  cases h
  rfl

theorem fromTimestamp_intCast
    {n : Int} {t : Instant} :
    fromTimestamp n = some t ↔ t.micros = n * 1000000 := by
  have hround : roundHalfEven ((n : ℚ) * 1000000) = n * 1000000 := by
    exact_mod_cast roundHalfEven_intCast (n * 1000000)
  have hrange := t.range
  unfold fromTimestamp
  simp only [hround]
  split
  · constructor
    · intro heq
      rw [← Option.some.inj heq]
    · intro hmicros
      exact congrArg some (Instant.eq_of_micros hmicros.symm)
  · next hout =>
      refine iff_of_false (by simp) fun hmicros => hout ?_
      rwa [← hmicros]

/-- What a numeric date is read as. -/
theorem numericDateToDatetime_eq_ok
    {t u : Instant} :
    numericDateToDatetime (.int (datetimeToNumericDate t)) = .ok u ↔
      u.micros = t.wireSecond * 1000000 := by
  rw [numericDateToDatetime, orRaise_eq_ok, fromTimestamp_intCast, datetimeToNumericDate_eq]

/-- **An instant comes back with its second** exactly when the rounding keeps it. -/
theorem numericDate_round_trip
    (t : Instant) :
    numericDateToDatetime (.int (datetimeToNumericDate t)) = .ok t.floorSecond ↔
      t.KeepsSecond := by
  rw [numericDateToDatetime_eq_ok, Instant.wireSecond, Instant.floorSecond]
  dsimp only
  split
  · next hkeeps =>
      exact iff_of_true (by ring) hkeeps
  · next hcrosses =>
      exact iff_of_false (by omega) hcrosses

end Instants

end Jwt
end Bluetape
