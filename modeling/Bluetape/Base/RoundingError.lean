import Bluetape.Base.Binary64

/-!
# How far rounding is off

Bounds on the difference between a number and the nearest double, and the numbers that are
doubles already.

* `abs_round_sub_le`: at most half of the last bit;
* `exponent_le`: which bit that is, by the size of the number;
* `round_eq`: which double is nearest;
* `round_eq_self`, `round_intCast`: multiples of the last bit are doubles;
* `round_le_intCast`: no number is rounded over an integer;
* `round_mono`: the order of numbers is kept.
-/

namespace Bluetape
namespace Base

theorem abs_nearestEven_sub_le
    (q : ℚ) :
    |(nearestEven q : ℚ) - q| ≤ 1 / 2 := by
  have hlow := (nearestEven_le_iff q (nearestEven q)).mp le_rfl
  have hhigh := (nearestEven_le_iff q (nearestEven q - 1)).not.mp (by omega)
  push_cast at hhigh
  rw [not_or, not_lt] at hhigh
  rw [abs_le]
  constructor
  · rcases hlow with hless | ⟨htie, -⟩
    · linarith
    · linarith
  · linarith [hhigh.1]

theorem nearestEven_mono
    {p q : ℚ}
    (h : p ≤ q) :
    nearestEven p ≤ nearestEven q := by
  refine (nearestEven_le_iff p _).mpr ?_
  rcases (nearestEven_le_iff q _).mp le_rfl with hless | ⟨htie, heven⟩
  · exact .inl (h.trans_lt hless)
  · rcases h.lt_or_eq with hlt | rfl
    · exact .inl (htie ▸ hlt)
    · exact .inr ⟨htie, heven⟩

namespace Binary64

variable {x : ℚ}

/-- **Half of the last bit** is the most that rounding changes. -/
theorem abs_round_sub_le
    (x : ℚ) :
    |round x - x| ≤ 2 ^ exponent x / 2 := by
  have hpos := pow_pos (exponent x)
  have hround : round x - x =
      ((nearestEven (x / 2 ^ exponent x) : ℚ) - x / 2 ^ exponent x) * 2 ^ exponent x := by
    rw [round, sub_mul, div_mul_cancel₀ _ hpos.ne']
  rw [hround, abs_mul, abs_of_pos hpos]
  have hbound := mul_le_mul_of_nonneg_right
    (abs_nearestEven_sub_le (x / 2 ^ exponent x)) hpos.le
  linarith

/-- Small numbers have small last bits. -/
theorem exponent_le
    {k : Int}
    (hk : 1 ≤ k)
    (h : |x| < 2 ^ k) :
    exponent x ≤ k - 53 := by
  rcases eq_or_ne x 0 with rfl | hx
  · rw [exponent, abs_zero, Int.log_zero_right]
    omega
  · have hlog : Int.log 2 |x| < k :=
      (Int.lt_zpow_iff_log_lt (b := 2) (by norm_num) (abs_pos.mpr hx)).mp (by exact_mod_cast h)
    unfold exponent
    omega

theorem exponent_eq
    {e : Int}
    (he : -1074 ≤ e)
    (hlow : 2 ^ (e + 52) ≤ x)
    (hhigh : x < 2 ^ (e + 53)) :
    exponent x = e := by
  have hx : 0 < x := (pow_pos _).trans_le hlow
  have hlog : Int.log 2 x = e + 52 := by
    have hle : e + 52 ≤ Int.log 2 x :=
      (Int.zpow_le_iff_le_log (b := 2) (by norm_num) hx).mp (by exact_mod_cast hlow)
    have hlt : Int.log 2 x < e + 53 :=
      (Int.lt_zpow_iff_log_lt (b := 2) (by norm_num) hx).mp (by exact_mod_cast hhigh)
    omega
  rw [exponent, abs_of_pos hx, hlog]
  omega

/-- The double that is nearer than half of the last bit is the nearest one. -/
theorem round_eq
    {e m : Int}
    (he : -1074 ≤ e)
    (hlow : 2 ^ (e + 52) ≤ x)
    (hhigh : x < 2 ^ (e + 53))
    (hnear : |x - m * 2 ^ e| < 2 ^ e / 2) :
    round x = m * 2 ^ e := by
  obtain rfl := exponent_eq he hlow hhigh
  have hpos := pow_pos (exponent x)
  obtain ⟨hless, hmore⟩ := abs_lt.mp hnear
  have hle : nearestEven (x / 2 ^ exponent x) ≤ m := by
    refine (nearestEven_le_iff _ _).mpr (.inl ?_)
    rw [div_lt_iff₀ hpos]
    linarith
  have hge : m ≤ nearestEven (x / 2 ^ exponent x) := by
    by_contra hlt
    have hbelow := (nearestEven_le_iff (x / 2 ^ exponent x) (m - 1)).mp (by omega)
    rw [div_lt_iff₀ hpos, div_eq_iff hpos.ne'] at hbelow
    push_cast at hbelow
    rcases hbelow with hbelow | ⟨hbelow, -⟩
    · linarith
    · linarith
  rw [round, le_antisymm hle hge]

/-- A number is not rounded up when it lies in the lower half of its last bit. -/
theorem round_le_self
    {e m : Int}
    (he : exponent x = e)
    (hlow : m * 2 ^ e ≤ x)
    (hhigh : x < (m + 1 / 2) * 2 ^ e) :
    round x ≤ x := by
  subst he
  have hpos := pow_pos (exponent x)
  have hnearest : nearestEven (x / 2 ^ exponent x) ≤ m :=
    (nearestEven_le_iff _ _).mpr (.inl ((div_lt_iff₀ hpos).mpr hhigh))
  exact (mul_le_mul_of_nonneg_right (Int.cast_le.mpr hnearest) hpos.le).trans hlow

/-- Bits of one size count smaller ones. -/
theorem mul_pow_eq
    (m : Int) {e f : Int}
    (hle : f ≤ e) :
    (m : ℚ) * 2 ^ e = ((m * 2 ^ (e - f).toNat : Int) : ℚ) * 2 ^ f := by
  have hpow : ((2 ^ (e - f).toNat : Int) : ℚ) * 2 ^ f = 2 ^ e := by
    push_cast
    rw [← zpow_natCast, Int.toNat_of_nonneg (by omega), ← zpow_add₀ (by norm_num),
      sub_add_cancel]
  rw [Int.cast_mul, mul_assoc, hpow]

/-- **Whole numbers of bits** that are not smaller than the last one are doubles. -/
theorem round_eq_self
    {m e : Int}
    (he : exponent x ≤ e)
    (hx : x = m * 2 ^ e) :
    round x = x := by
  have hbits := hx.trans (mul_pow_eq m he)
  exact le_antisymm ((round_le hbits.le).trans_eq hbits.symm)
    (hbits.le.trans (le_round hbits.ge))

/-- An integer counts last bits that are not greater than one. -/
theorem intCast_eq_mul
    (k : Int) {e : Int}
    (he : e ≤ 0) :
    (k : ℚ) = ((k * 2 ^ (0 - e).toNat : Int) : ℚ) * 2 ^ e := by
  rw [← mul_pow_eq k he, zpow_zero, mul_one]

/-- Numbers whose last bit is at most one are not rounded over an integer. -/
theorem round_le_intCast
    {k : Int}
    (he : exponent x ≤ 0)
    (h : x ≤ k) :
    round x ≤ k := by
  rw [intCast_eq_mul k he] at h ⊢
  exact round_le h

/-- **Integers of 53 bits** are doubles. -/
theorem round_intCast
    {k : Int}
    (hk : |k| < 2 ^ 53) :
    round (k : ℚ) = k := by
  have he : exponent (k : ℚ) ≤ 0 := by
    have hlt : |(k : ℚ)| < 2 ^ (53 : Int) := by
      exact_mod_cast hk
    exact exponent_le (by norm_num) hlt
  exact round_eq_self he (by rw [zpow_zero, mul_one])

theorem round_zero :
    round 0 = 0 := by
  exact_mod_cast round_intCast (k := 0) (by decide)

theorem exponent_mono
    {x y : ℚ}
    (hx : x ≠ 0)
    (h : |x| ≤ |y|) :
    exponent x ≤ exponent y := by
  have hlog : Int.log 2 |x| ≤ Int.log 2 |y| := Int.log_mono_right (abs_pos.mpr hx) h
  exact max_le_max_right _ (by omega)

/-- Numbers with smaller last bits are below the powers of two that start with greater ones. -/
theorem abs_round_le_pow
    {x y : ℚ}
    (h : exponent x < exponent y) :
    |round x| ≤ (2 ^ 52 : Int) * 2 ^ exponent y := by
  have hmin : -1074 ≤ exponent x := le_max_right _ _
  have hround := abs_round_le (by omega) (abs_lt_pow x).le
  have hpow : (2 : ℚ) ^ (exponent x + 53) ≤ 2 ^ (exponent y + (52 : Nat)) :=
    zpow_le_zpow_right₀ (by norm_num) (by push_cast; omega)
  rw [pow_split] at hpow
  exact hround.trans hpow

/-- **The order of numbers** is kept by rounding. -/
theorem round_mono
    {x y : ℚ}
    (h : x ≤ y) :
    round x ≤ round y := by
  have hsame : exponent x = exponent y → round x ≤ round y := by
    intro hexponent
    have hpos := pow_pos (exponent y)
    rw [round, round, hexponent]
    have hquot : x / 2 ^ exponent y ≤ y / 2 ^ exponent y :=
      div_le_div_of_nonneg_right h hpos.le
    exact mul_le_mul_of_nonneg_right (Int.cast_le.mpr (nearestEven_mono hquot)) hpos.le
  have hmin : ∀ z, -1074 ≤ exponent z := fun _ => le_max_right _ _
  rcases lt_or_ge 0 x with hx | hx
  · have hy : 0 < y := hx.trans_le h
    rcases (exponent_mono hx.ne' (abs_le_abs_of_nonneg hx.le h)).eq_or_lt with heq | hless
    · exact hsame heq
    · have hlow := pow_le_abs hy.ne' ((hmin x).trans_lt hless)
      rw [abs_of_pos hy, show (52 : Int) = (52 : Nat) from rfl, pow_split] at hlow
      exact (le_abs_self _).trans ((abs_round_le_pow hless).trans (le_round hlow))
  · rcases lt_or_ge y 0 with hy | hy
    · have hx' : x < 0 := h.trans_lt hy
      rcases (exponent_mono hy.ne (abs_le_abs_of_nonpos hy.le h)).eq_or_lt with heq | hless
      · exact hsame heq.symm
      · have hlow := pow_le_abs hx'.ne ((hmin y).trans_lt hless)
        rw [abs_of_neg hx', show (52 : Int) = (52 : Nat) from rfl, pow_split] at hlow
        have hfirst : round x ≤ (-2 ^ 52 : Int) * 2 ^ exponent x :=
          round_le (by push_cast at hlow ⊢; linarith)
        have hlast := neg_le_of_abs_le (abs_round_le_pow hless)
        push_cast at hfirst hlast
        linarith
    · have hround : round x ≤ (0 : Int) * 2 ^ exponent x := round_le (by simpa using hx)
      rw [Int.cast_zero, zero_mul] at hround
      exact hround.trans (round_nonneg hy)

/-- Twice the bound of two numbers is one of their rounded sum. -/
theorem abs_round_add_le
    {y : ℚ} {k : Int}
    (hk : -1074 ≤ k)
    (hx : |x| ≤ 2 ^ k)
    (hy : |y| ≤ 2 ^ k) :
    |round (x + y)| ≤ 2 ^ (k + 1) := by
  refine abs_round_le (by omega) ((abs_add_le x y).trans ?_)
  rw [zpow_add_one₀ (by norm_num)]
  linarith

theorem round_nonpos
    (hx : x ≤ 0) :
    round x ≤ 0 :=
  (round_mono hx).trans_eq round_zero

/-- They are in range. -/
theorem ofRat?_intCast
    {k : Int}
    (hk : |k| < 2 ^ 53) :
    ofRat? (k : ℚ) = some (k : ℚ) := by
  have habs : |(k : ℚ)| ≤ 2 ^ (53 : Int) := by
    exact_mod_cast hk.le
  rw [ofRat?_of_abs_le (by norm_num) (by norm_num) habs, round_intCast hk]

end Binary64
end Base
end Bluetape
