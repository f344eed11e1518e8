import Bluetape.Base.NearestRank
import Bluetape.Base.RoundingError
import Bluetape.Benchmark.Contracts

/-!
# Timing summaries

`nearest_rank` and `summarize_timings`.  The rank is computed in doubles; compared with the
percentile that counts samples, it is never too low, and too high only for percentiles whose
hundredth part is rounded up.

* `percentileIndex_bounds`: the index that the doubles give;
* `nearest_rank`: what the function returns for each percentile;
* `summarize_timings`: when a summary is made, and that its statistics are exact.
-/

namespace Bluetape
namespace Benchmark

open Base

/-! ## The functions -/

/-- A percentile is an int or a float, which may be infinite or no number. -/
inductive Percentile
  | int (value : Int)
  | float (value : Option ℚ)

/-- `_validated_samples` -/
def validatedSamples (samples : List Int) : Except ContractError (List Int) := do
  raiseIf (samples = []) (.valueError (text "samples must not be empty"))
  raiseIf (∃ value ∈ samples, value < 0) (.valueError (text "samples must be non-negative"))
  return samples

/-- The float of a percentile in its range. -/
def checkedPercentile (percentile : Percentile) : Except ContractError ℚ := do
  let message := text "percentile must be in (0, 100]"
  match percentile with
  | .int value =>
      -- `math.isfinite` converts the int
      let _ ← orRaise .overflow (Binary64.ofRat? value)
      raiseIf (¬(0 < value ∧ value ≤ 100)) (.valueError message)
      return Binary64.round value
  | .float value =>
      let value ← orRaise (.valueError message) value
      raiseIf (¬(0 < value ∧ value ≤ 100)) (.valueError message)
      return value

/-- `math.ceil(percentile / 100 * length) - 1` -/
def percentileIndex (percentile : ℚ) (length : Nat) : Int :=
  ⌈Binary64.round (Binary64.round (percentile / 100) * Binary64.round length)⌉ - 1

/-- The item at an index, which counts from the end when it is negative. -/
def item? (l : List Int) (index : Int) : Option Int :=
  if 0 ≤ index then l[index.toNat]?
  else if 0 ≤ l.length + index then l[(l.length + index).toNat]?
  else none

/-- `nearest_rank` -/
def nearestRank (samples : List Int) (percentile : Percentile) : Except ContractError Int := do
  let values ← validatedSamples samples
  let percentile ← checkedPercentile percentile
  let ordered := values.insertionSort (· ≤ ·)
  orRaise .indexError (item? ordered (percentileIndex percentile ordered.length))

/-- A tail of a summary, when there are enough samples for it. -/
def tail (values : List Int) (least : Nat) (percentile : Int) :
    Except ContractError (Option Int) :=
  if least ≤ values.length then some <$> nearestRank values (.int percentile) else .ok none

/-- `summarize_timings` -/
def summarizeTimings (samplesNs : List Int) (operationsPerSample : Int) :
    Except ContractError TimingSummary := do
  let values ← validatedSamples samplesNs
  raiseIf (operationsPerSample ≤ 0)
    (.valueError (text "operations_per_sample must be positive"))
  let total := values.sum
  raiseIf (total ≤ 0) (.valueError (text "total sample duration must be positive"))
  let minNs ← orRaise (.valueError (text "min() iterable argument is empty")) values.min?
  let medianNs ← nearestRank values (.int 50)
  let p95Ns ← tail values 20 95
  let p99Ns ← tail values 100 99
  let maxNs ← orRaise (.valueError (text "max() iterable argument is empty")) values.max?
  let throughput ← trueDivide (operationsPerSample * values.length * 1000000000) total
  TimingSummary.postInit
    { operationsPerSample := operationsPerSample
      rawSamplesNs := values
      minNs := minNs
      medianNs := medianNs
      p95Ns := p95Ns
      p99Ns := p99Ns
      maxNs := maxNs
      throughputOpsPerSec := some throughput }

/-! ## The rank in doubles -/

section Index

variable {x : ℚ} {n : Nat}

theorem round_length
    (hn : n < 2 ^ 53) :
    Binary64.round (n : ℚ) = n := by
  have hround := Binary64.round_intCast (k := (n : Int)) (by rw [Nat.abs_cast]; omega)
  rwa [Int.cast_natCast] at hround

/-- A fraction is rounded to a fraction. -/
theorem round_fraction
    (hx : 0 ≤ x)
    (hx' : x ≤ 1) :
    0 ≤ Binary64.round x ∧ Binary64.round x ≤ 1 ∧
      |Binary64.round x - x| ≤ 1 / 2 ^ 53 := by
  have hexponent : Binary64.exponent x ≤ 1 - 53 := by
    refine Binary64.exponent_le le_rfl ?_
    rw [abs_of_nonneg hx, zpow_one]
    linarith
  refine ⟨Binary64.round_nonneg hx, ?_, ?_⟩
  · have hone := Binary64.round_le_intCast (x := x) (k := 1) (by omega) (by simpa using hx')
    simpa using hone
  · have herror := Binary64.abs_round_sub_le x
    have hpow : (2 : ℚ) ^ Binary64.exponent x ≤ 2 ^ (-52 : Int) :=
      zpow_le_zpow_right₀ (by norm_num) hexponent
    norm_num at hpow ⊢
    linarith

/-- A fraction of the samples, in doubles: near the exact one and not more than all. -/
theorem round_product
    (hx : 0 ≤ x)
    (hx' : x ≤ 1)
    (hn : n < 2 ^ 53) :
    let product := Binary64.round (Binary64.round x * Binary64.round n)
    0 ≤ product ∧ product ≤ n ∧ (n < 2 ^ 45 → |product - x * n| ≤ 1 / 2 ^ 7) ∧
      ∀ m : Int, Binary64.round x ≤ x → x * n = m → product ≤ m := by
  obtain ⟨hlow, hhigh, herror⟩ := round_fraction hx hx'
  rw [round_length hn]
  have hn0 : (0 : ℚ) ≤ n := Nat.cast_nonneg n
  have hn53 : (n : ℚ) < 2 ^ 53 := by exact_mod_cast hn
  have hproduct : 0 ≤ Binary64.round x * n := mul_nonneg hlow hn0
  have hle : Binary64.round x * n ≤ n := mul_le_of_le_one_left hn0 hhigh
  have hexponent : Binary64.exponent (Binary64.round x * n) ≤ 0 := by
    refine Binary64.exponent_le (k := 53) (by norm_num) ?_
    rw [abs_of_nonneg hproduct]
    exact hle.trans_lt (by exact_mod_cast hn53)
  refine ⟨Binary64.round_nonneg hproduct, ?_, fun hn45 => ?_, fun m hdown hm => ?_⟩
  · have hround := Binary64.round_le_intCast (k := (n : Int)) hexponent (by simpa using hle)
    simpa using hround
  · have hn45' : (n : ℚ) < 2 ^ 45 := by exact_mod_cast hn45
    have hsmall : Binary64.exponent (Binary64.round x * n) ≤ 46 - 53 := by
      refine Binary64.exponent_le (by norm_num) ?_
      rw [abs_of_nonneg hproduct]
      refine hle.trans_lt (hn45'.trans ?_)
      norm_num
    have hpow : (2 : ℚ) ^ Binary64.exponent (Binary64.round x * n) ≤ 2 ^ (-7 : Int) :=
      zpow_le_zpow_right₀ (by norm_num) hsmall
    have hround := Binary64.abs_round_sub_le (Binary64.round x * n)
    -- the error of the fraction grows with the number of samples
    have hscaled : |Binary64.round x * n - x * n| ≤ 1 / 2 ^ 8 := by
      rw [← sub_mul, abs_mul, abs_of_nonneg hn0]
      have hmul := mul_le_mul herror hn45'.le hn0 (by positivity)
      norm_num at hmul ⊢
      linarith
    have htriangle := abs_sub_le (Binary64.round (Binary64.round x * n)) (Binary64.round x * n)
      (x * n)
    norm_num at hpow hscaled ⊢
    linarith
  · refine Binary64.round_le_intCast hexponent ?_
    rw [← hm]
    exact mul_le_mul_of_nonneg_right hdown hn0

/-- **The index in doubles**: not too low, and at most one too high. -/
theorem percentileIndex_bounds
    {p : Nat}
    (hp : 0 < p)
    (hp' : p ≤ 100)
    (hn : 0 < n)
    (hn' : n < 2 ^ 45) :
    let index := percentileIndex p n
    0 ≤ index ∧ index < n ∧ 100 * index ≤ p * n ∧ p * n ≤ 100 * (index + 1) ∧
      (¬100 ∣ p * n ∨ Binary64.round (p / 100) ≤ p / 100 → 100 * index < p * n) := by
  intro index
  have hx : (0 : ℚ) ≤ p / 100 := by positivity
  have hx' : (p : ℚ) / 100 ≤ 1 := by
    have hcast : (p : ℚ) ≤ 100 := by exact_mod_cast hp'
    rw [div_le_one (by norm_num)]
    exact hcast
  obtain ⟨-, hmost, hnear, hexact⟩ := round_product hx hx' (show n < 2 ^ 53 by omega)
  have hceil := Int.le_ceil (Binary64.round (Binary64.round ((p : ℚ) / 100) * Binary64.round n))
  have hceil' := Int.ceil_lt_add_one
    (Binary64.round (Binary64.round ((p : ℚ) / 100) * Binary64.round n))
  have hindex : ⌈Binary64.round (Binary64.round ((p : ℚ) / 100) * Binary64.round n)⌉ =
      index + 1 := by
    simp only [index, percentileIndex]
    omega
  rw [hindex] at hceil hceil'
  obtain ⟨hbelow, habove⟩ := abs_le.mp (hnear hn')
  push_cast at hceil hceil'
  have hlow : 100 * index ≤ p * n := by
    have hcast : ((100 * index : Int) : ℚ) < ((p * n + 1 : Int) : ℚ) := by
      push_cast
      norm_num at habove
      linarith
    have hlt := Int.cast_lt.mp hcast
    omega
  have hhigh : p * n ≤ 100 * (index + 1) := by
    have hcast : ((p * n : Int) : ℚ) < ((100 * (index + 1) + 1 : Int) : ℚ) := by
      push_cast
      norm_num at hbelow
      linarith
    have hlt := Int.cast_lt.mp hcast
    omega
  have hpn : 0 < p * n := Nat.mul_pos hp hn
  refine ⟨by zify at hpn; omega, ?_, hlow, hhigh, ?_⟩
  · have hle : index + 1 ≤ n := by
      rw [← hindex, Int.ceil_le]
      simpa using hmost
    omega
  · intro hcases
    refine lt_of_le_of_ne hlow fun heq => ?_
    have hdvd : 100 ∣ p * n := by
      zify
      exact ⟨index, heq.symm⟩
    rcases hcases with hnot | hdown
    · exact hnot hdvd
    · -- the exact product is the integer `index`, which rounding does not exceed
      have hproduct : (p : ℚ) / 100 * n = index := by
        have hcast : (100 : ℚ) * index = p * n := by exact_mod_cast heq
        linarith
      have hle := hexact index hdown hproduct
      linarith

/-- Every percentile has an item: the index is in range, or counts from the end. -/
theorem exists_item
    {ordered : List Int} {percentile : ℚ}
    (hne : ordered ≠ [])
    (hlen : ordered.length < 2 ^ 53)
    (hlow : 0 < percentile)
    (hhigh : percentile ≤ 100) :
    ∃ value ∈ ordered, item? ordered (percentileIndex percentile ordered.length) = some value := by
  have hpos : 0 < ordered.length := List.length_pos_iff.mpr hne
  have hx : (0 : ℚ) ≤ percentile / 100 := by positivity
  have hx' : percentile / 100 ≤ 1 := by
    rw [div_le_one (by norm_num)]
    exact hhigh
  obtain ⟨hnonneg, hmost, -, -⟩ := round_product hx hx' hlen
  have hle : percentileIndex percentile ordered.length + 1 ≤ ordered.length := by
    have hceil : ⌈Binary64.round (Binary64.round (percentile / 100) *
        Binary64.round ordered.length)⌉ ≤ (ordered.length : Int) := by
      rw [Int.ceil_le]
      simpa using hmost
    unfold percentileIndex
    omega
  have hge : 0 ≤ percentileIndex percentile ordered.length + 1 := by
    have hceil := Int.ceil_nonneg hnonneg
    unfold percentileIndex
    omega
  have hget : ∀ k : Nat, k < ordered.length → ∃ value ∈ ordered, ordered[k]? = some value :=
    fun k hk => ⟨_, List.getElem_mem hk, List.getElem?_eq_getElem hk⟩
  unfold item?
  split
  case isTrue h =>
    exact hget _ (by omega)
  case isFalse h =>
    rw [if_pos (by omega)]
    exact hget _ (by omega)

end Index

/-! ## Nearest ranks -/

section Ranks

variable {samples : List Int} {percentile : Percentile} {value : Int}

/-- Samples that can be summarized. -/
def ValidSamples (samples : List Int) : Prop :=
  samples ≠ [] ∧ ∀ value ∈ samples, 0 ≤ value

theorem validatedSamples_eq_ok_iff
    {values : List Int} :
    validatedSamples samples = .ok values ↔ ValidSamples samples ∧ values = samples := by
  simp only [validatedSamples, except_bind_eq_ok, raiseIf_eq_ok, ValidSamples]
  constructor
  · rintro ⟨-, hne, -, hnonneg, hvalues⟩
    refine ⟨⟨hne, fun value hvalue => ?_⟩, (Except.ok.inj hvalues).symm⟩
    by_contra hneg
    exact hnonneg ⟨value, hvalue, by omega⟩
  · rintro ⟨⟨hne, hnonneg⟩, rfl⟩
    refine ⟨(), hne, (), ?_, rfl⟩
    rintro ⟨value, hvalue, hneg⟩
    exact absurd (hnonneg value hvalue) (by omega)

/-- The percentiles that are accepted. -/
def Percentile.InRange : Percentile → Prop
  | .int value => 0 < value ∧ value ≤ 100
  | .float value => ∃ x ∈ value, 0 < x ∧ x ≤ 100

/-- The number of a percentile. -/
def Percentile.number : Percentile → ℚ
  | .int value => value
  | .float value => value.getD 0

theorem checkedPercentile_eq_ok_iff
    {x : ℚ} :
    checkedPercentile percentile = .ok x ↔ percentile.InRange ∧ x = percentile.number := by
  cases percentile with
  | int value =>
      simp only [checkedPercentile, except_bind_eq_ok, orRaise_eq_ok, raiseIf_eq_ok, not_not,
        Percentile.InRange, Percentile.number]
      have hround : 0 < value ∧ value ≤ 100 → Binary64.round (value : ℚ) = value :=
        fun hrange => Binary64.round_intCast (by rw [abs_of_pos hrange.1]; omega)
      constructor
      · rintro ⟨-, -, -, hrange, hx⟩
        exact ⟨hrange, (Except.ok.inj hx).symm.trans (hround hrange)⟩
      · rintro ⟨hrange, rfl⟩
        refine ⟨_, Binary64.ofRat?_of_abs_le (k := 7) (by norm_num) (by norm_num) ?_, (), hrange,
          congrArg _ (hround hrange)⟩
        have hcast : (value : ℚ) ≤ 100 := by exact_mod_cast hrange.2
        have hpos : (0 : ℚ) < value := by exact_mod_cast hrange.1
        rw [abs_of_pos hpos]
        norm_num
        linarith
  | float value =>
      simp only [checkedPercentile, except_bind_eq_ok, orRaise_eq_ok, raiseIf_eq_ok, not_not,
        Percentile.InRange, Percentile.number]
      constructor
      · rintro ⟨y, rfl, -, hrange, hx⟩
        exact ⟨⟨y, rfl, hrange⟩, (Except.ok.inj hx).symm⟩
      · rintro ⟨⟨y, rfl, hrange⟩, rfl⟩
        exact ⟨_, rfl, (), hrange, rfl⟩

theorem number_of_inRange
    (h : percentile.InRange) :
    0 < percentile.number ∧ percentile.number ≤ 100 := by
  cases percentile with
  | int value =>
      have hpos : (0 : ℚ) < value := by exact_mod_cast h.1
      have hle : (value : ℚ) ≤ 100 := by exact_mod_cast h.2
      exact ⟨hpos, hle⟩
  | float value =>
      obtain ⟨x, rfl, hrange⟩ := h
      exact hrange

/-- What `nearest_rank` looks up. -/
theorem nearestRank_eq_ok_iff :
    nearestRank samples percentile = .ok value ↔
      ValidSamples samples ∧ percentile.InRange ∧
        item? (samples.insertionSort (· ≤ ·)) (percentileIndex percentile.number samples.length) =
          some value := by
  simp only [nearestRank, except_bind_eq_ok, validatedSamples_eq_ok_iff,
    checkedPercentile_eq_ok_iff, orRaise_eq_ok]
  constructor
  · rintro ⟨_, ⟨hvalid, rfl⟩, _, ⟨hrange, rfl⟩, hitem⟩
    rw [List.length_insertionSort] at hitem
    exact ⟨hvalid, hrange, hitem⟩
  · rintro ⟨hvalid, hrange, hitem⟩
    refine ⟨_, ⟨hvalid, rfl⟩, _, ⟨hrange, rfl⟩, ?_⟩
    rwa [List.length_insertionSort]

/-- Valid samples have a value for every percentile in range. -/
theorem exists_nearestRank
    (hlen : samples.length < 2 ^ 53)
    (hvalid : ValidSamples samples)
    (hrange : percentile.InRange) :
    ∃ value ∈ samples, nearestRank samples percentile = .ok value := by
  have hperm := List.perm_insertionSort (· ≤ ·) samples
  obtain ⟨hlow, hhigh⟩ := number_of_inRange hrange
  have hne : samples.insertionSort (· ≤ ·) ≠ [] := fun hnil =>
    hvalid.1 (List.eq_nil_of_length_eq_zero (by rw [← hperm.length_eq, hnil, List.length_nil]))
  obtain ⟨value, hmem, hitem⟩ := exists_item hne (by rwa [hperm.length_eq]) hlow hhigh
  rw [hperm.length_eq] at hitem
  exact ⟨value, hperm.mem_iff.mp hmem, nearestRank_eq_ok_iff.mpr ⟨hvalid, hrange, hitem⟩⟩

/-- The item of a whole percentile, by its count of smaller samples. -/
theorem nearestRank_int
    {p : Nat}
    (hlen : samples.length < 2 ^ 45)
    (h : nearestRank samples (.int p) = .ok value) :
    value ∈ samples ∧ p * samples.length ≤ 100 * samples.countP (· ≤ value) ∧
      100 * samples.countP (· < value) ≤ p * samples.length ∧
      (¬100 ∣ p * samples.length ∨ Binary64.round (p / 100) ≤ p / 100 →
        NearestRank p samples value) := by
  obtain ⟨⟨hne, -⟩, ⟨hp, hp'⟩, hitem⟩ := nearestRank_eq_ok_iff.mp h
  obtain ⟨hlow, hhigh, hleast, hreached, hexact⟩ := percentileIndex_bounds (p := p)
    (by exact_mod_cast hp) (by exact_mod_cast hp') (List.length_pos_iff.mpr hne) hlen
  have hnumber : (Percentile.int p).number = p := by
    simp [Percentile.number]
  rw [hnumber] at hitem
  generalize percentileIndex p samples.length = index at hlow hhigh hleast hreached hexact hitem
  obtain ⟨i, rfl⟩ := Int.eq_ofNat_of_zero_le hlow
  rw [item?, if_pos hlow, Int.toNat_natCast] at hitem
  have hsorted : (samples.insertionSort (· ≤ ·)).Pairwise (· ≤ ·) :=
    List.pairwise_insertionSort _ _
  have hperm := List.perm_insertionSort (· ≤ ·) samples
  obtain ⟨hless, hmore⟩ := countP_of_sorted hsorted hitem
  rw [hperm.countP_eq] at hless hmore
  refine ⟨hperm.mem_iff.mp (List.mem_of_getElem? hitem), ?_, ?_, fun hcases => ?_⟩
  · zify at *
    omega
  · zify at *
    omega
  · refine .of_perm hperm (.of_sorted hsorted hitem ?_ ?_)
    · rw [hperm.length_eq]
      zify
      exact hreached
    · rw [hperm.length_eq]
      zify
      exact hexact hcases

/--
**The nearest rank.**  Valid samples have a value for every percentile in range, and nothing
else has.  It is a sample; for a whole percentile it is never below the percentile, and it is
the percentile unless the hundredth part was rounded up and the rank is a whole number.
-/
theorem nearest_rank
    (samples : List Int) (percentile : Percentile)
    (hlen : samples.length < 2 ^ 45) :
    ((∃ value, nearestRank samples percentile = .ok value) ↔
      ValidSamples samples ∧ percentile.InRange) ∧
    (∀ value, nearestRank samples percentile = .ok value → value ∈ samples) ∧
    ∀ (p : Nat) value, nearestRank samples (.int p) = .ok value →
      p * samples.length ≤ 100 * samples.countP (· ≤ value) ∧
      100 * samples.countP (· < value) ≤ p * samples.length ∧
      (¬100 ∣ p * samples.length ∨ Binary64.round (p / 100) ≤ p / 100 →
        NearestRank p samples value) := by
  refine ⟨⟨?_, ?_⟩, fun value hvalue => ?_, fun p value hvalue =>
    (nearestRank_int hlen hvalue).2⟩
  · rintro ⟨value, hvalue⟩
    obtain ⟨hvalid, hrange, -⟩ := nearestRank_eq_ok_iff.mp hvalue
    exact ⟨hvalid, hrange⟩
  · rintro ⟨hvalid, hrange⟩
    obtain ⟨value, -, hvalue⟩ := exists_nearestRank (show samples.length < 2 ^ 53 by omega)
      hvalid hrange
    exact ⟨value, hvalue⟩
  · obtain ⟨hvalid, hrange, -⟩ := nearestRank_eq_ok_iff.mp hvalue
    obtain ⟨value', hmem, hvalue'⟩ := exists_nearestRank (show samples.length < 2 ^ 53 by omega)
      hvalid hrange
    rw [hvalue] at hvalue'
    rwa [Except.ok.inj hvalue']

/-- The second of three samples is their median. -/
theorem nearest_rank_three :
    ∃ value ∈ [30, 10, 20], nearestRank [30, 10, 20] (.int 50) = .ok value := by
  obtain ⟨hiff, hmem, -⟩ := nearest_rank [30, 10, 20] (.int 50) (by norm_num)
  obtain ⟨value, hvalue⟩ := hiff.mpr ⟨⟨by simp, by simp⟩, by norm_num, by norm_num⟩
  exact ⟨value, hmem value hvalue, hvalue⟩

-- `7 / 100` is rounded up, and with a hundred samples the rank is one too high
example : percentileIndex 7 100 = 7 := by
  decide +kernel

end Ranks

/-! ## Summaries -/

section Summaries

/-- The percentiles of a summary are not rounded up in doubles. -/
theorem round_le_of_summarized
    {p : Nat}
    (hp : p = 50 ∨ p = 95 ∨ p = 99) :
    Binary64.round ((p : ℚ) / 100) ≤ (p : ℚ) / 100 := by
  rcases hp with rfl | rfl | rfl
  · refine Binary64.round_le_self (m := 4503599627370496)
      (Binary64.exponent_eq (e := -53) ?_ ?_ ?_) ?_ ?_ <;> norm_num
  · refine Binary64.round_le_self (m := 8556839292003942)
      (Binary64.exponent_eq (e := -53) ?_ ?_ ?_) ?_ ?_ <;> norm_num
  · refine Binary64.round_le_self (m := 8917127262193582)
      (Binary64.exponent_eq (e := -53) ?_ ?_ ?_) ?_ ?_ <;> norm_num

variable {samples : List Int} {operations : Int} {timing : TimingSummary}

/-- The nearest rank of a whole percentile as the constructor computes it. -/
theorem rank_of_nearestRank
    {p : Nat} {value : Int}
    (hlen : samples.length < 2 ^ 45)
    (h : nearestRank samples (.int p) = .ok value) :
    rank samples p = .ok value := by
  obtain ⟨⟨hne, -⟩, ⟨hp, hp'⟩, hitem⟩ := nearestRank_eq_ok_iff.mp h
  obtain ⟨hlow, -⟩ := percentileIndex_bounds (p := p) (by exact_mod_cast hp)
    (by exact_mod_cast hp') (List.length_pos_iff.mpr hne) hlen
  have hnumber : (Percentile.int p).number = p := by
    simp [Percentile.number]
  rw [hnumber, item?, if_pos hlow] at hitem
  refine orRaise_eq_ok.mpr ?_
  rw [List.length_insertionSort]
  exact hitem

/-- The tails of a summary as the constructor computes them. -/
theorem tailRank_of_tail
    {least p : Nat} {found : Option Int}
    (hlen : samples.length < 2 ^ 45)
    (h : tail samples least p = .ok found) :
    tailRank samples least p = .ok found := by
  unfold tail at h
  unfold tailRank
  split at h
  case isTrue henough =>
    rw [if_pos henough]
    cases hrank : nearestRank samples (.int p) with
    | error e =>
        rw [hrank] at h
        cases h
    | ok value =>
        rw [hrank] at h
        rw [rank_of_nearestRank hlen hrank]
        exact h
  case isFalse hfew =>
    rw [if_neg hfew]
    exact h

/-- A summary that its constructor accepts is returned as it is. -/
theorem postInit_of_checks
    {throughput expected : ℚ}
    (hoperations : 0 < timing.operationsPerSample)
    (hvalid : ValidSamples timing.rawSamplesNs)
    (htotal : 0 < timing.rawSamplesNs.sum)
    (hmin : timing.rawSamplesNs.min? = some timing.minNs)
    (hmax : timing.rawSamplesNs.max? = some timing.maxNs)
    (hmedian : rank timing.rawSamplesNs 50 = .ok timing.medianNs)
    (hp95 : tailRank timing.rawSamplesNs 20 95 = .ok timing.p95Ns)
    (hp99 : tailRank timing.rawSamplesNs 100 99 = .ok timing.p99Ns)
    (hthroughput : timing.throughputOpsPerSec = some throughput)
    (hpos : 0 < throughput)
    (hexpected : trueDivide (timing.operationsPerSample * timing.rawSamplesNs.length * 1000000000)
      timing.rawSamplesNs.sum = .ok expected)
    (hclose : isClose throughput expected = true) :
    timing.postInit = .ok timing := by
  simp only [TimingSummary.postInit, except_bind_eq_ok, raiseIf_eq_ok, orRaise_eq_ok]
  refine ⟨(), by omega, (), hvalid.1, (), ?_, (), ?_, _, hmedian, (), not_not_intro rfl, _, hp95,
    _, hp99, (), ?_, throughput, hthroughput, (), not_le.mpr hpos, expected, hexpected, (),
    by rw [hclose]; decide, rfl⟩
  · rintro (⟨value, hvalue, hneg⟩ | hle)
    · exact absurd (hvalid.2 value hvalue) (by omega)
    · omega
  · rw [hmin, hmax]
    simp
  · simp

/-- What `summarize_timings` computes. -/
theorem summarizeTimings_eq_ok_iff
    (hlen : samples.length < 2 ^ 45) :
    summarizeTimings samples operations = .ok timing ↔
      ValidSamples samples ∧ 0 < operations ∧ 0 < samples.sum ∧
      timing.operationsPerSample = operations ∧ timing.rawSamplesNs = samples ∧
      samples.min? = some timing.minNs ∧ samples.max? = some timing.maxNs ∧
      nearestRank samples (.int 50) = .ok timing.medianNs ∧
      tail samples 20 95 = .ok timing.p95Ns ∧ tail samples 100 99 = .ok timing.p99Ns ∧
      ∃ throughput, 0 < throughput ∧ timing.throughputOpsPerSec = some throughput ∧
        trueDivide (operations * samples.length * 1000000000) samples.sum = .ok throughput := by
  simp only [summarizeTimings, except_bind_eq_ok, validatedSamples_eq_ok_iff, raiseIf_eq_ok,
    orRaise_eq_ok]
  constructor
  · rintro ⟨_, ⟨hvalid, rfl⟩, -, hoperations, -, htotal, minNs, hmin, median, hmedian, p95, hp95,
      p99, hp99, maxNs, hmax, throughput, hthroughput, hpost⟩
    simp only [TimingSummary.postInit, except_bind_eq_ok, raiseIf_eq_ok, orRaise_eq_ok] at hpost
    obtain ⟨-, -, -, -, -, -, -, -, -, -, -, -, -, -, -, -, -, -, _, hsome, -, hpos, -, -, -, -,
      hreturn⟩ := hpost
    obtain rfl := Option.some.inj hsome
    obtain rfl := Except.ok.inj hreturn
    exact ⟨hvalid, not_le.mp hoperations, not_le.mp htotal, rfl, rfl, hmin, hmax, hmedian, hp95,
      hp99, _, not_le.mp hpos, rfl, hthroughput⟩
  · rintro ⟨hvalid, hoperations, htotal, rfl, rfl, hmin, hmax, hmedian, hp95, hp99, throughput,
      hpos, hsome, hthroughput⟩
    refine ⟨_, ⟨hvalid, rfl⟩, (), not_le.mpr hoperations, (), not_le.mpr htotal, _, hmin, _,
      hmedian, _, hp95, _, hp99, _, hmax, throughput, hthroughput, ?_⟩
    rw [← hsome]
    exact postInit_of_checks hoperations hvalid htotal hmin hmax (rank_of_nearestRank hlen hmedian)
      (tailRank_of_tail hlen hp95) (tailRank_of_tail hlen hp99) hsome hpos hthroughput
      (by simp [isClose])

/-- A tail is the percentile of enough samples. -/
theorem tail_eq_some_iff
    {least p : Nat} {found : Option Int}
    (hlen : samples.length < 2 ^ 45)
    (hp : p = 50 ∨ p = 95 ∨ p = 99)
    (h : tail samples least p = .ok found) (value : Int) :
    found = some value ↔ least ≤ samples.length ∧ NearestRank p samples value := by
  unfold tail at h
  split at h
  case isTrue henough =>
    cases hrank : nearestRank samples (.int p) with
    | error e =>
        rw [hrank] at h
        cases h
    | ok value' =>
        rw [hrank] at h
        obtain rfl := Except.ok.inj h
        obtain ⟨-, -, -, hexact⟩ := nearestRank_int hlen hrank
        have hnearest := hexact (.inr (round_le_of_summarized hp))
        constructor
        · intro hsome
          exact ⟨henough, Option.some.inj hsome ▸ hnearest⟩
        · rintro ⟨-, hvalue⟩
          exact congrArg some (hnearest.unique hvalue)
  case isFalse hfew =>
    obtain rfl := Except.ok.inj h
    simp [hfew]

/-- What a summary says about its samples, with exact percentiles. -/
structure Summarizes (samples : List Int) (operations : Int) (timing : TimingSummary) : Prop where
  operationsPerSample : timing.operationsPerSample = operations
  rawSamplesNs : timing.rawSamplesNs = samples
  min : timing.minNs ∈ samples ∧ ∀ value ∈ samples, timing.minNs ≤ value
  max : timing.maxNs ∈ samples ∧ ∀ value ∈ samples, value ≤ timing.maxNs
  median : NearestRank 50 samples timing.medianNs
  p95 : ∀ value, timing.p95Ns = some value ↔ 20 ≤ samples.length ∧ NearestRank 95 samples value
  p99 : ∀ value, timing.p99Ns = some value ↔ 100 ≤ samples.length ∧ NearestRank 99 samples value
  throughput : timing.throughputOpsPerSec =
    Binary64.ofRat? ((operations * samples.length * 1000000000 : Int) / (samples.sum : Int))

/-- The statistics of a summary do not decrease from the minimum to the maximum. -/
theorem Summarizes.ordered
    (h : Summarizes samples operations timing) :
    ([timing.minNs, timing.medianNs] ++ timing.p95Ns.toList ++ timing.p99Ns.toList ++
      [timing.maxNs]).Pairwise (· ≤ ·) := by
  have hmedian := h.median
  have hp95 : ∀ value ∈ timing.p95Ns.toList, NearestRank 95 samples value := fun value hvalue =>
    ((h.p95 value).mp (Option.mem_toList.mp hvalue)).2
  have hp99 : ∀ value ∈ timing.p99Ns.toList, NearestRank 99 samples value := fun value hvalue =>
    ((h.p99 value).mp (Option.mem_toList.mp hvalue)).2
  have hsingle : ∀ found : Option Int, found.toList.Pairwise (· ≤ ·) := by
    rintro (_ | value)
    · exact .nil
    · exact List.pairwise_singleton _ _
  have hmin := h.min.2
  have hmax := h.max.2
  simp only [List.pairwise_append, List.mem_append, List.mem_cons, List.not_mem_nil, or_false]
  refine ⟨⟨⟨?_, hsingle _, ?_⟩, hsingle _, ?_⟩, List.pairwise_singleton _ _, ?_⟩
  · exact List.pairwise_pair.mpr (hmin _ hmedian.mem)
  · rintro a (rfl | rfl) b hb
    · exact hmin _ (hp95 b hb).mem
    · exact hmedian.mono (by norm_num) (hp95 b hb)
  · rintro a ((rfl | rfl) | ha) b hb
    · exact hmin _ (hp99 b hb).mem
    · exact hmedian.mono (by norm_num) (hp99 b hb)
    · exact (hp95 a ha).mono (by norm_num) (hp99 b hb)
  · rintro a (((rfl | rfl) | ha) | ha) b rfl
    · exact hmax _ h.min.1
    · exact hmax _ hmedian.mem
    · exact hmax _ (hp95 a ha).mem
    · exact hmax _ (hp99 a ha).mem

/--
**Timing summaries.**  Samples are summarized when they are valid with a positive total, the
number of operations is positive and the throughput is a positive double; then the statistics
are the exact minimum, percentiles and maximum, in this order, and the nearest throughput.
-/
theorem summarize_timings
    (samples : List Int) (operations : Int)
    (hlen : samples.length < 2 ^ 45) :
    ((∃ timing, summarizeTimings samples operations = .ok timing) ↔
      ValidSamples samples ∧ 0 < operations ∧ 0 < samples.sum ∧
      ∃ throughput, 0 < throughput ∧
        trueDivide (operations * samples.length * 1000000000) samples.sum = .ok throughput) ∧
    ∀ timing, summarizeTimings samples operations = .ok timing →
      Summarizes samples operations timing ∧
      ([timing.minNs, timing.medianNs] ++ timing.p95Ns.toList ++ timing.p99Ns.toList ++
        [timing.maxNs]).Pairwise (· ≤ ·) := by
  refine ⟨⟨?_, ?_⟩, fun timing htiming => ?_⟩
  · rintro ⟨timing, htiming⟩
    obtain ⟨hvalid, hoperations, htotal, -, -, -, -, -, -, -, throughput, hpos, -, hthroughput⟩ :=
      (summarizeTimings_eq_ok_iff hlen).mp htiming
    exact ⟨hvalid, hoperations, htotal, throughput, hpos, hthroughput⟩
  · rintro ⟨hvalid, hoperations, htotal, throughput, hpos, hthroughput⟩
    obtain ⟨minNs, hmin⟩ := Option.isSome_iff_exists.mp (List.isSome_min?_of_ne_nil hvalid.1)
    obtain ⟨maxNs, hmax⟩ := Option.isSome_iff_exists.mp (List.isSome_max?_of_ne_nil hvalid.1)
    have hrank : ∀ p : Int, 0 < p → p ≤ 100 →
        ∃ value, nearestRank samples (.int p) = .ok value := by
      intro p hp hp'
      obtain ⟨value, -, hvalue⟩ := exists_nearestRank (show samples.length < 2 ^ 53 by omega) hvalid
        (show (Percentile.int p).InRange from ⟨hp, hp'⟩)
      exact ⟨value, hvalue⟩
    have htail : ∀ (least : Nat) (p : Int), 0 < p → p ≤ 100 →
        ∃ found, tail samples least p = .ok found := by
      intro least p hp hp'
      unfold tail
      split
      case isTrue =>
        obtain ⟨value, hvalue⟩ := hrank p hp hp'
        exact ⟨some value, by rw [hvalue]; rfl⟩
      case isFalse =>
        exact ⟨none, rfl⟩
    obtain ⟨medianNs, hmedian⟩ := hrank 50 (by norm_num) (by norm_num)
    obtain ⟨p95Ns, hp95⟩ := htail 20 95 (by norm_num) (by norm_num)
    obtain ⟨p99Ns, hp99⟩ := htail 100 99 (by norm_num) (by norm_num)
    exact ⟨⟨operations, samples, minNs, medianNs, p95Ns, p99Ns, maxNs, some throughput⟩,
      (summarizeTimings_eq_ok_iff hlen).mpr ⟨hvalid, hoperations, htotal, rfl, rfl, hmin, hmax,
        hmedian, hp95, hp99, throughput, hpos, rfl, hthroughput⟩⟩
  · obtain ⟨hvalid, hoperations, htotal, hops, hraw, hmin, hmax, hmedian, hp95, hp99, throughput,
      hpos, hsome, hthroughput⟩ := (summarizeTimings_eq_ok_iff hlen).mp htiming
    have hsummarizes : Summarizes samples operations timing := by
      refine ⟨hops, hraw, ?_, ?_, ?_, tail_eq_some_iff hlen (by simp) hp95,
        tail_eq_some_iff hlen (by simp) hp99, ?_⟩
      · exact List.min?_eq_some_iff.mp hmin
      · exact List.max?_eq_some_iff.mp hmax
      · obtain ⟨-, -, -, hexact⟩ := nearestRank_int (p := 50) hlen hmedian
        exact hexact (.inr (round_le_of_summarized (.inl rfl)))
      · rw [hsome]
        obtain ⟨-, -, hquotient⟩ := except_bind_eq_ok.mp hthroughput
        exact (orRaise_eq_ok.mp hquotient).symm
    exact ⟨hsummarizes, hsummarizes.ordered⟩

/-- Three operations in sixty nanoseconds are fifty million in a second. -/
theorem summarize_timings_three :
    ∃ timing, summarizeTimings [30, 10, 20] 1 = .ok timing ∧ Summarizes [30, 10, 20] 1 timing := by
  obtain ⟨hiff, hsummarizes⟩ := summarize_timings [30, 10, 20] 1 (by norm_num)
  have hthroughput : Binary64.ofRat? ((1 * 3 * 1000000000 : Int) / (60 : Int)) = some 50000000 := by
    decide +kernel
  obtain ⟨timing, htiming⟩ := hiff.mpr ⟨⟨by simp, by simp⟩, by norm_num, by norm_num, 50000000,
    by norm_num, except_bind_eq_ok.mpr ⟨(), raiseIf_eq_ok.mpr (by norm_num),
      orRaise_eq_ok.mpr hthroughput⟩⟩
  exact ⟨timing, htiming, (hsummarizes timing htiming).1⟩

end Summaries

end Benchmark
end Bluetape
