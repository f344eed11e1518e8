import Mathlib.Algebra.Order.Floor.Semifield
import Mathlib.Data.Int.Log
import Mathlib.Data.Rat.Floor
import Mathlib.Tactic

/-!
# Numbers in 64 bits

The finite doubles as rational numbers: the nearest one to a number, of two the one with the
even significand, and none where the nearest one would need an exponent that is too large.

* `nearestEven_le_iff`: which numbers are rounded to at most a given integer;
* `round_cases`: which numbers are rounded to at most a given double;
* `ofRat?_eq_some_iff`: which nonnegative numbers are in range.
-/

namespace Bluetape
namespace Base

/-! ## Nearest integers -/

/-- The nearest integer, and of two the even one. -/
def nearestEven (q : ℚ) : Int :=
  if q - ⌊q⌋ < 1 / 2 then ⌊q⌋
  else if 1 / 2 < q - ⌊q⌋ then ⌊q⌋ + 1
  else ⌊q⌋ + ⌊q⌋ % 2

/-- **Which numbers are rounded to at most a given integer.** -/
theorem nearestEven_le_iff
    (q : ℚ) (k : Int) :
    nearestEven q ≤ k ↔ q < k + 1 / 2 ∨ q = k + 1 / 2 ∧ k % 2 = 0 := by
  have hle := Int.floor_le q
  have hlt := Int.lt_floor_add_one q
  rcases lt_trichotomy ⌊q⌋ k with hlow | hsame | hhigh
  · -- even the next integer is at most `k`
    have hcast : (⌊q⌋ : ℚ) + 1 ≤ k := by exact_mod_cast hlow
    refine iff_of_true ?_ (.inl (by linarith))
    unfold nearestEven
    split_ifs
    all_goals omega
  · subst hsame
    unfold nearestEven
    split_ifs with hless hmore
    · exact iff_of_true le_rfl (.inl (by linarith))
    · refine iff_of_false (by omega) ?_
      rintro (hnear | ⟨htie, -⟩)
      · linarith
      · linarith
    · have htie : q = ⌊q⌋ + 1 / 2 := by linarith
      constructor
      · intro hround
        exact .inr ⟨htie, by omega⟩
      · rintro (hnear | ⟨-, heven⟩)
        · exact absurd htie hnear.ne
        · omega
  · have hcast : (k : ℚ) + 1 ≤ ⌊q⌋ := by exact_mod_cast hhigh
    refine iff_of_false ?_ ?_
    · unfold nearestEven
      split_ifs
      all_goals omega
    · rintro (hnear | ⟨htie, -⟩)
      · linarith
      · linarith

theorem nearestEven_le
    {q : ℚ} {k : Int}
    (h : q ≤ k) :
    nearestEven q ≤ k :=
  (nearestEven_le_iff q k).mpr (.inl (by linarith))

theorem le_nearestEven
    {q : ℚ} {k : Int}
    (h : (k : ℚ) ≤ q) :
    k ≤ nearestEven q := by
  by_contra hlt
  have hround := (nearestEven_le_iff q (k - 1)).mp (by omega)
  push_cast at hround
  rcases hround with hnear | ⟨htie, -⟩
  · linarith
  · linarith

theorem nearestEven_intCast
    (k : Int) :
    nearestEven k = k :=
  le_antisymm (nearestEven_le le_rfl) (le_nearestEven le_rfl)

namespace Binary64

/-! ## Rounding -/

/-- The exponent of the last bit: 53 bits, or fewer for the smallest numbers. -/
def exponent (x : ℚ) : Int :=
  max (Int.log 2 |x| - 52) (-1074)

/-- The nearest number with these bits. -/
def round (x : ℚ) : ℚ :=
  nearestEven (x / 2 ^ exponent x) * 2 ^ exponent x

/-- The nearest double, none when it is too large. -/
def ofRat? (x : ℚ) : Option ℚ :=
  if |round x| < 2 ^ 1024 then some (round x) else none

section Rounding

variable {x : ℚ}

theorem pow_pos
    (e : Int) :
    (0 : ℚ) < 2 ^ e :=
  zpow_pos (by norm_num) e

theorem abs_lt_pow
    (x : ℚ) :
    |x| < 2 ^ (exponent x + 53) := by
  have hlog : Int.log 2 |x| + 1 ≤ exponent x + 53 := by
    have hmax := le_max_left (Int.log 2 |x| - 52) (-1074)
    unfold exponent
    omega
  have hlt : |x| < ((2 : Nat) : ℚ) ^ (Int.log 2 |x| + 1) :=
    Int.lt_zpow_succ_log_self (by norm_num) _
  exact hlt.trans_le (zpow_le_zpow_right₀ (by norm_num) hlog)

/-- Above the smallest exponent all 53 bits are there. -/
theorem pow_le_abs
    (hx : x ≠ 0)
    (he : -1074 < exponent x) :
    2 ^ (exponent x + 52) ≤ |x| := by
  have hlog : exponent x + 52 = Int.log 2 |x| := by
    unfold exponent at he ⊢
    rcases le_total (Int.log 2 |x| - 52) (-1074) with hle | hle
    · rw [max_eq_right hle] at he
      exact absurd he (lt_irrefl _)
    · rw [max_eq_left hle]
      ring
  have hle : ((2 : Nat) : ℚ) ^ Int.log 2 |x| ≤ |x| :=
    Int.zpow_log_le_self (by norm_num) (abs_pos.mpr hx)
  rw [hlog]
  exact hle

/-- What is at most so many of the last bits is rounded to at most so many. -/
theorem round_le
    {n : Int}
    (h : x ≤ n * 2 ^ exponent x) :
    round x ≤ n * 2 ^ exponent x :=
  mul_le_mul_of_nonneg_right
    (Int.cast_le.mpr (nearestEven_le ((div_le_iff₀ (pow_pos _)).mpr h))) (pow_pos _).le

theorem le_round
    {n : Int}
    (h : n * 2 ^ exponent x ≤ x) :
    n * 2 ^ exponent x ≤ round x :=
  mul_le_mul_of_nonneg_right
    (Int.cast_le.mpr (le_nearestEven ((le_div_iff₀ (pow_pos _)).mpr h))) (pow_pos _).le

theorem pow_split
    (n : Nat) (e : Int) :
    (2 : ℚ) ^ (e + n) = ((2 ^ n : Int) : ℚ) * 2 ^ e := by
  rw [zpow_add₀ (by norm_num), zpow_natCast, mul_comm]
  norm_cast

/-- A power of two bounds what is rounded. -/
theorem abs_round_le
    {k : Int}
    (hk : -1074 ≤ k)
    (h : |x| ≤ 2 ^ k) :
    |round x| ≤ 2 ^ k := by
  rcases eq_or_ne x 0 with rfl | hx
  · have hzero : round 0 = 0 := by
      rw [round, zero_div, show nearestEven 0 = 0 from nearestEven_intCast 0, Int.cast_zero,
        zero_mul]
    rw [hzero, abs_zero]
    exact (pow_pos k).le
  · have hle : exponent x ≤ k := by
      by_contra hlt
      have hpow := (pow_le_abs hx (by omega)).trans h
      have hexponent := (zpow_le_zpow_iff_right₀ (by norm_num : (1 : ℚ) < 2)).mp hpow
      omega
    obtain ⟨n, rfl⟩ : ∃ n : Nat, k = exponent x + n := ⟨(k - exponent x).toNat, by omega⟩
    rw [pow_split] at h ⊢
    obtain ⟨hlow, hhigh⟩ := abs_le.mp h
    refine abs_le.mpr ⟨?_, round_le hhigh⟩
    rw [← neg_mul, ← Int.cast_neg] at hlow ⊢
    exact le_round hlow

/-- A number that is rounded to at most `m` times `2 ^ e`. -/
def Below (m e : Int) (x : ℚ) : Prop :=
  x < (m + 1 / 2) * 2 ^ e ∨ x = (m + 1 / 2) * 2 ^ e ∧ m % 2 = 0

/-- **Which numbers are rounded to at most a given double.** -/
theorem round_cases
    {m e : Int}
    (hlow : 2 ^ 52 ≤ m)
    (hhigh : m < 2 ^ 53)
    (he : -1074 ≤ e) (x : ℚ) :
    Below m e x ∧ round x ≤ m * 2 ^ e ∨ ¬Below m e x ∧ (m + 1) * 2 ^ e ≤ round x := by
  have hpos := pow_pos e
  have hlow' : ((2 ^ 52 : Int) : ℚ) * 2 ^ e ≤ m * 2 ^ e :=
    mul_le_mul_of_nonneg_right (Int.cast_le.mpr hlow) hpos.le
  have hhigh' : (m + 1) * 2 ^ e ≤ ((2 ^ 53 : Int) : ℚ) * 2 ^ e :=
    mul_le_mul_of_nonneg_right (by exact_mod_cast hhigh) hpos.le
  rcases le_or_gt x 0 with hneg | hx
  · have hm : 0 < (m : ℚ) * 2 ^ e := lt_of_lt_of_le (by positivity) hlow'
    refine .inl ⟨.inl (by linarith), ?_⟩
    have hround : round x ≤ (0 : Int) * 2 ^ exponent x := round_le (by simpa using hneg)
    rw [Int.cast_zero, zero_mul] at hround
    exact hround.trans hm.le
  · have habs : |x| = x := abs_of_pos hx
    rcases lt_trichotomy (exponent x) e with hless | hsame | hmore
    · -- the number has a smaller last bit: it is below `2 ^ (e + 52)`
      have hbound := abs_lt_pow x
      have hpow : (2 : ℚ) ^ (exponent x + 53) ≤ 2 ^ (e + 52) :=
        zpow_le_zpow_right₀ (by norm_num) (by omega)
      rw [habs] at hbound
      rw [show (53 : Int) = (53 : Nat) from rfl, pow_split] at hbound hpow
      rw [show (52 : Int) = (52 : Nat) from rfl, pow_split] at hpow
      refine .inl ⟨.inl (by linarith), ?_⟩
      exact (round_le hbound.le).trans (hpow.trans hlow')
    · subst hsame
      have hround := nearestEven_le_iff (x / 2 ^ exponent x) m
      rw [div_lt_iff₀ hpos, div_eq_iff hpos.ne'] at hround
      by_cases hbelow : Below m (exponent x) x
      · exact .inl
          ⟨hbelow, mul_le_mul_of_nonneg_right (Int.cast_le.mpr (hround.mpr hbelow)) hpos.le⟩
      · refine .inr ⟨hbelow, mul_le_mul_of_nonneg_right ?_ hpos.le⟩
        exact_mod_cast not_le.mp (mt hround.mp hbelow)
    · -- the number has a greater last bit: it is at least `2 ^ (e + 53)`
      have hbound := pow_le_abs hx.ne' (by omega)
      have hpow : (2 : ℚ) ^ (e + 53) ≤ 2 ^ (exponent x + 52) :=
        zpow_le_zpow_right₀ (by norm_num) (by omega)
      rw [habs] at hbound
      rw [show (52 : Int) = (52 : Nat) from rfl, pow_split] at hbound hpow
      rw [show (53 : Int) = (53 : Nat) from rfl, pow_split] at hpow
      refine .inr ⟨?_, hhigh'.trans (hpow.trans (le_round hbound))⟩
      rintro (hless | ⟨htie, -⟩)
      · linarith
      · linarith

/-! ## Range -/

theorem round_nonneg
    (hx : 0 ≤ x) :
    0 ≤ round x := by
  have hround : (0 : Int) * 2 ^ exponent x ≤ round x := le_round (by simpa using hx)
  simpa using hround

/-- A number that a power of two bounds is in range. -/
theorem ofRat?_of_abs_le
    {k : Int}
    (hk : -1074 ≤ k)
    (hk' : k < 1024)
    (h : |x| ≤ 2 ^ k) :
    ofRat? x = some (round x) := by
  have hlt : (2 : ℚ) ^ k < 2 ^ (1024 : Int) := zpow_lt_zpow_right₀ (by norm_num) hk'
  rw [ofRat?, if_pos]
  exact_mod_cast (abs_round_le hk h).trans_lt hlt

/-- **Which nonnegative numbers are in range.** -/
theorem ofRat?_eq_some_iff
    {y : ℚ}
    (hx : 0 ≤ x) :
    ofRat? x = some y ↔ x < (2 ^ 53 - 1 / 2) * 2 ^ (971 : Int) ∧ round x = y := by
  have hpos := pow_pos 971
  have htop : (2 : ℚ) ^ 1024 = 2 ^ 53 * 2 ^ (971 : Int) := by
    rw [← zpow_natCast, ← zpow_natCast, ← zpow_add₀ (by norm_num)]
    rfl
  have hrange : |round x| < 2 ^ 1024 ↔ x < (2 ^ 53 - 1 / 2) * 2 ^ (971 : Int) := by
    rw [abs_of_nonneg (round_nonneg hx), htop]
    have hcases := round_cases (m := 2 ^ 53 - 1) (e := 971) (by norm_num) (by norm_num)
      (by norm_num) x
    unfold Below at hcases
    generalize (2 : ℚ) ^ (971 : Int) = top at hpos hcases ⊢
    push_cast at hcases
    rcases hcases with ⟨hless | ⟨-, hodd⟩, hround⟩ | ⟨hbelow, hround⟩
    · exact iff_of_true (by linarith) (by linarith)
    · norm_num at hodd
    · refine iff_of_false (by linarith) fun hless => hbelow (.inl ?_)
      linarith
  unfold ofRat?
  rw [← hrange]
  split
  case isTrue hfits =>
    simp [hfits]
  case isFalse hlarge =>
    simp [hlarge]

end Rounding

end Binary64
end Base
end Bluetape
