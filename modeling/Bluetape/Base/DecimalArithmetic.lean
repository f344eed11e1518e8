import Mathlib.Algebra.Field.Rat
import Mathlib.Algebra.Order.Field.Rat
import Mathlib.Algebra.GroupWithZero.Basic
import Mathlib.Data.Nat.Log
import Mathlib.Tactic

/-!
# Exact decimal arithmetic

Decimal numbers with a sign, a coefficient and an exponent, and the operations of the
General Decimal Arithmetic under a context that traps every loss of information: an
operation gives the exact result, in the representation that the specification asks for,
or it raises a signal.

* `finalize`: what a context accepts; `finalize_eq_ok_iff` says when;
* `finalize_value`, `add_value`, `mul_value`, `div_value`: results are exact.
-/

namespace Bluetape
namespace Base

/-! ## Counting digits -/

/-- The number of decimal digits; zero has one. -/
def digitCount (n : Nat) : Nat :=
  Nat.log 10 n + 1

theorem digitCount_le_iff
    {n k : Nat}
    (hk : k ≠ 0) :
    digitCount n ≤ k ↔ n < 10 ^ k := by
  rw [digitCount, Nat.add_one_le_iff]
  rcases Nat.eq_zero_or_pos n with rfl | hn
  · simp [Nat.pos_of_ne_zero hk]
  · exact Nat.log_lt_iff_lt_pow (by decide) hn.ne'

theorem lt_pow_digitCount
    (n : Nat) :
    n < 10 ^ digitCount n :=
  Nat.lt_pow_succ_log_self (by decide) n

theorem pow_le_of_digitCount
    {n : Nat}
    (hn : n ≠ 0) :
    10 ^ (digitCount n - 1) ≤ n :=
  Nat.pow_log_le_self 10 hn

theorem digitCount_mul_pow
    {n : Nat}
    (hn : n ≠ 0) (k : Nat) :
    digitCount (n * 10 ^ k) = digitCount n + k := by
  induction k with
  | zero =>
      simp
  | succ k ih =>
      have hne : n * 10 ^ k ≠ 0 := by positivity
      rw [Nat.pow_succ, ← Nat.mul_assoc, digitCount, Nat.log_mul_base (by decide) hne]
      rw [digitCount] at ih
      omega

/-! ## Numbers -/

/-- A finite decimal number. -/
structure Decimal where
  negative : Bool
  coefficient : Nat
  exponent : Int
deriving DecidableEq, Repr

namespace Decimal

/-- The digits of the coefficient. -/
def digits (d : Decimal) : Nat :=
  digitCount d.coefficient

/-- The exponent of the first digit. -/
def adjusted (d : Decimal) : Int :=
  d.exponent + d.digits - 1

/-- The coefficient with its sign. -/
def signed (d : Decimal) : Int :=
  if d.negative then -(d.coefficient : Int) else d.coefficient

/-- The number itself. -/
def value (d : Decimal) : ℚ :=
  d.signed * 10 ^ d.exponent

/-- The sign and the magnitude of an integer, with an exponent. -/
def ofInt (n : Int) (exponent : Int) : Decimal :=
  ⟨decide (n < 0), n.natAbs, exponent⟩

theorem signed_ofInt
    (n exponent : Int) :
    (ofInt n exponent).signed = n := by
  unfold ofInt signed
  by_cases hn : n < 0
  · simp only [hn, decide_true, if_true]
    omega
  · simp only [hn, decide_false, Bool.false_eq_true, if_false]
    omega

theorem value_eq_zero_iff
    (d : Decimal) :
    d.value = 0 ↔ d.coefficient = 0 := by
  have hpow : (10 : ℚ) ^ d.exponent ≠ 0 := zpow_ne_zero _ (by norm_num)
  have hsigned : d.signed = 0 ↔ d.coefficient = 0 := by
    unfold signed
    split <;> omega
  rw [value, mul_eq_zero, or_iff_left hpow, Int.cast_eq_zero, hsigned]

/-- The coefficient with so many zeros more, at the same value. -/
theorem value_shift
    (negative : Bool) (coefficient k : Nat) (exponent : Int) :
    (⟨negative, coefficient * 10 ^ k, exponent - k⟩ : Decimal).value =
      (⟨negative, coefficient, exponent⟩ : Decimal).value := by
  have hten : (10 : ℚ) ≠ 0 := by norm_num
  have hsigned : (⟨negative, coefficient * 10 ^ k, exponent - k⟩ : Decimal).signed =
      (⟨negative, coefficient, exponent⟩ : Decimal).signed * 10 ^ k := by
    unfold signed
    cases negative <;> simp
  rw [value, value, hsigned]
  push_cast
  rw [zpow_sub₀ hten, zpow_natCast]
  field_simp

end Decimal

/-! ## Contexts -/

/-- A context that traps overflow, inexact and rounded results, and invalid operations. -/
structure DecimalContext where
  precision : Nat
  emin : Int
  emax : Int

/-- What is trapped. -/
inductive DecimalSignal
  | divisionUndefined
  | divisionByZero
  | invalidOperation
  | overflow
  | inexact
  | rounded
deriving DecidableEq, Repr

namespace DecimalContext

variable (ctx : DecimalContext)

/-- The smallest exponent of a subnormal number. -/
def etiny : Int :=
  ctx.emin - (ctx.precision - 1)

/-- The signal of a rounding that drops the last digits. -/
def lossOf (coefficient dropped : Nat) : DecimalSignal :=
  if coefficient % 10 ^ dropped = 0 then .rounded else .inexact

/-- The exact result of an operation meets the bounds of the context, or it is trapped. -/
def finalize (d : Decimal) : Except DecimalSignal Decimal :=
  if ctx.emax < d.adjusted then
    -- a zero is clamped, which no context of this kind traps
    if d.coefficient = 0 then .ok { d with exponent := ctx.emax }
    else .error .overflow
  else if d.adjusted < ctx.emin ∧ d.exponent < ctx.etiny then
    if d.coefficient = 0 then .ok { d with exponent := ctx.etiny }
    else .error (lossOf d.coefficient (ctx.etiny - d.exponent).toNat)
  else if ctx.precision < d.digits then
    .error (lossOf d.coefficient (d.digits - ctx.precision))
  else .ok d

/-- The representation is one of the context's own. -/
structure Fits (d : Decimal) : Prop where
  digits_le : d.digits ≤ ctx.precision
  adjusted_le : d.adjusted ≤ ctx.emax
  etiny_le : ctx.etiny ≤ d.exponent

variable {ctx}

/-- A result in bounds is left as it is. -/
theorem finalize_of_fits
    {d : Decimal}
    (h : ctx.Fits d) :
    ctx.finalize d = .ok d := by
  obtain ⟨hdigits, hadjusted, hetiny⟩ := h
  unfold finalize
  rw [if_neg (not_lt.mpr hadjusted), if_neg fun hlow => not_le.mpr hlow.2 hetiny,
    if_neg (not_lt.mpr hdigits)]

/-- A number other than zero is accepted in bounds only. -/
theorem finalize_eq_ok_iff
    {d r : Decimal}
    (hne : d.coefficient ≠ 0) :
    ctx.finalize d = .ok r ↔ ctx.Fits d ∧ r = d := by
  constructor
  · intro h
    unfold finalize at h
    split at h
    case isTrue hover =>
        cases h
    case isFalse hover =>
        split at h
        case isTrue hlow =>
            cases h
        case isFalse hlow =>
            split at h
            case isTrue hlong =>
                cases h
            case isFalse hlong =>
                refine ⟨⟨not_lt.mp hlong, not_lt.mp hover, ?_⟩, (Except.ok.inj h).symm⟩
                by_contra hetiny
                refine hlow ⟨?_, not_le.mp hetiny⟩
                unfold Decimal.adjusted etiny at *
                omega
  · rintro ⟨hfits, rfl⟩
    exact finalize_of_fits hfits

/-- A zero is always accepted; an exponent out of reach is clamped. -/
theorem finalize_zero
    {d : Decimal}
    (hzero : d.coefficient = 0)
    (hprecision : 1 ≤ ctx.precision) :
    ∃ exponent, ctx.finalize d = .ok { d with exponent := exponent } ∧
      (exponent = d.exponent ∨ ctx.emax < d.exponent ∧ exponent = ctx.emax ∨
        exponent = ctx.etiny) := by
  have hdigits : d.digits = 1 := by
    simp [Decimal.digits, digitCount, hzero]
  unfold finalize
  by_cases hover : ctx.emax < d.adjusted
  · rw [if_pos hover, if_pos hzero]
    refine ⟨_, rfl, Or.inr (Or.inl ⟨?_, rfl⟩)⟩
    rw [Decimal.adjusted, hdigits] at hover
    omega
  · rw [if_neg hover]
    by_cases hlow : d.adjusted < ctx.emin ∧ d.exponent < ctx.etiny
    · rw [if_pos hlow, if_pos hzero]
      exact ⟨_, rfl, Or.inr (Or.inr rfl)⟩
    · rw [if_neg hlow, if_neg (by omega)]
      exact ⟨d.exponent, rfl, Or.inl rfl⟩

/-- **Nothing is lost**: what is accepted has the exact value. -/
theorem finalize_value
    {d r : Decimal}
    (h : ctx.finalize d = .ok r) :
    r.value = d.value := by
  by_cases hzero : d.coefficient = 0
  · have hr : r.coefficient = 0 := by
      unfold finalize at h
      split at h
      · obtain rfl := Except.ok.inj h
        exact hzero
      · split at h
        · obtain rfl := Except.ok.inj h
          exact hzero
        · split at h
          · cases h
          · obtain rfl := Except.ok.inj h
            exact hzero
    rw [(Decimal.value_eq_zero_iff _).mpr hr, (Decimal.value_eq_zero_iff _).mpr hzero]
  · obtain ⟨-, rfl⟩ := (finalize_eq_ok_iff hzero).mp h
    rfl

end DecimalContext

/-! ## Operations -/

namespace Decimal

variable (ctx : DecimalContext)

/-- The unary minus; a zero becomes positive. -/
def neg (d : Decimal) : Except DecimalSignal Decimal :=
  ctx.finalize { d with negative := !d.negative && decide (d.coefficient ≠ 0) }

/-- The absolute value. -/
def abs (d : Decimal) : Except DecimalSignal Decimal :=
  ctx.finalize { d with negative := false }

/-- The exact sum, at the smaller of the two exponents; a sum of two negative zeros is one. -/
def exactSum (a b : Decimal) : Decimal :=
  let exponent := min a.exponent b.exponent
  let n := a.signed * 10 ^ (a.exponent - exponent).toNat +
    b.signed * 10 ^ (b.exponent - exponent).toNat
  ⟨if n = 0 then a.negative && b.negative else decide (n < 0), n.natAbs, exponent⟩

/-- Addition -/
def add (a b : Decimal) : Except DecimalSignal Decimal :=
  ctx.finalize (exactSum a b)

/-- Subtraction -/
def sub (a b : Decimal) : Except DecimalSignal Decimal :=
  ctx.finalize (exactSum a { b with negative := !b.negative })

/-- The exact product. -/
def exactProduct (a b : Decimal) : Decimal :=
  ⟨a.negative ^^ b.negative, a.coefficient * b.coefficient, a.exponent + b.exponent⟩

/-- Multiplication -/
def mul (a b : Decimal) : Except DecimalSignal Decimal :=
  ctx.finalize (exactProduct a b)

/-- Drop zeros at the end of the coefficient, so many at most, and count them. -/
def stripZeros : Nat → Nat → Nat × Nat
  | 0, n => (n, 0)
  | k + 1, n =>
      if n % 10 = 0 then ((stripZeros k (n / 10)).1, (stripZeros k (n / 10)).2 + 1) else (n, 0)

/-- Division: an exact quotient comes as close to the ideal exponent as it can. -/
def div (a b : Decimal) : Except DecimalSignal Decimal :=
  if b.coefficient = 0 then
    if a.coefficient = 0 then .error .divisionUndefined else .error .divisionByZero
  else if a.coefficient = 0 then
    ctx.finalize ⟨a.negative ^^ b.negative, 0, a.exponent - b.exponent⟩
  else
    let shift : Int := b.digits - a.digits + ctx.precision + 1
    let dividend := a.coefficient * 10 ^ shift.toNat
    let divisor := b.coefficient * 10 ^ (-shift).toNat
    let quotient := dividend / divisor
    let ideal := a.exponent - b.exponent
    if dividend % divisor = 0 then
      let (coefficient, zeros) := stripZeros shift.toNat quotient
      ctx.finalize ⟨a.negative ^^ b.negative, coefficient, ideal - shift + zeros⟩
    else
      -- a last digit that keeps the rounding correct
      ctx.finalize ⟨a.negative ^^ b.negative,
        if quotient % 5 = 0 then quotient + 1 else quotient, ideal - shift⟩

/-- `scaleb`: the exponent moves, by a bounded amount. -/
def scaleb (d : Decimal) (n : Int) : Except DecimalSignal Decimal :=
  if n.natAbs ≤ 2 * (ctx.emax + ctx.precision) then
    ctx.finalize { d with exponent := d.exponent + n }
  else .error .invalidOperation

/-! ## Results are exact -/

variable {ctx} {a b d r : Decimal}

theorem signed_neg
    (negative : Bool) (coefficient : Nat) (exponent : Int) :
    (⟨!negative, coefficient, exponent⟩ : Decimal).signed =
      -(⟨negative, coefficient, exponent⟩ : Decimal).signed := by
  unfold signed
  cases negative <;> simp

theorem neg_value
    (h : neg ctx d = .ok r) :
    r.value = -d.value := by
  rw [DecimalContext.finalize_value h]
  by_cases hzero : d.coefficient = 0
  · rw [(value_eq_zero_iff d).mpr hzero, neg_zero]
    exact (value_eq_zero_iff _).mpr hzero
  · simp only [hzero, ne_eq, not_false_eq_true, decide_true, Bool.and_true, value]
    rw [signed_neg, Int.cast_neg, neg_mul]

theorem abs_value
    (h : abs ctx d = .ok r) :
    r.value = |d.value| := by
  have hpow : (0 : ℚ) < 10 ^ d.exponent := zpow_pos (by norm_num) _
  rw [DecimalContext.finalize_value h]
  unfold value
  rw [abs_mul, abs_of_pos hpow, ← Int.cast_abs]
  congr 2
  unfold signed
  cases d.negative <;> simp

/-- A signed integer with its sign, whatever the sign of a zero is. -/
theorem signed_natAbs
    (n exponent : Int) (zeroSign : Bool) :
    (⟨if n = 0 then zeroSign else decide (n < 0), n.natAbs, exponent⟩ : Decimal).signed = n := by
  by_cases hzero : n = 0
  · subst hzero
    simp [signed]
  · simp only [hzero, if_false]
    exact signed_ofInt n exponent

/-- A number at a smaller exponent. -/
theorem value_at
    (d : Decimal) {exponent : Int}
    (hle : exponent ≤ d.exponent) :
    d.value = (d.signed * 10 ^ (d.exponent - exponent).toNat : Int) * 10 ^ exponent := by
  have hten : (10 : ℚ) ≠ 0 := by norm_num
  have hsplit : (10 : ℚ) ^ d.exponent =
      10 ^ (d.exponent - exponent).toNat * 10 ^ exponent := by
    rw [← zpow_natCast, ← zpow_add₀ hten, Int.toNat_of_nonneg (by omega)]
    congr 1
    omega
  rw [value, hsplit]
  push_cast
  ring

theorem exactSum_value
    (a b : Decimal) :
    (exactSum a b).value = a.value + b.value := by
  rw [value_at a (min_le_left a.exponent b.exponent),
    value_at b (min_le_right a.exponent b.exponent), ← add_mul, ← Int.cast_add, value]
  congr 2
  exact signed_natAbs _ _ _

theorem add_value
    (h : add ctx a b = .ok r) :
    r.value = a.value + b.value := by
  rw [DecimalContext.finalize_value h, exactSum_value]

theorem sub_value
    (h : sub ctx a b = .ok r) :
    r.value = a.value - b.value := by
  rw [DecimalContext.finalize_value h, exactSum_value, sub_eq_add_neg]
  congr 1
  simp only [value, signed_neg, Int.cast_neg, neg_mul]

theorem exactSum_comm
    (a b : Decimal) :
    exactSum a b = exactSum b a := by
  unfold exactSum
  dsimp only
  rw [min_comm b.exponent, add_comm (b.signed * _), Bool.and_comm b.negative]

/-- A zero brings its exponent only. -/
theorem exactSum_zero
    (a : Decimal) (hzero : b.coefficient = 0) :
    ∃ negative, exactSum a b =
      ⟨negative, a.coefficient * 10 ^ (a.exponent - b.exponent).toNat,
        a.exponent - (a.exponent - b.exponent).toNat⟩ := by
  have hsigned : b.signed = 0 := by
    simp [signed, hzero]
  have hmin : min a.exponent b.exponent = a.exponent - (a.exponent - b.exponent).toNat := by
    omega
  have hshift : (a.exponent - (a.exponent - (a.exponent - b.exponent).toNat)).toNat =
      (a.exponent - b.exponent).toNat := by
    omega
  have hcoefficient : (exactSum a b).coefficient =
      a.coefficient * 10 ^ (a.exponent - b.exponent).toNat := by
    unfold exactSum
    dsimp only
    rw [hmin, hshift, hsigned, Int.zero_mul, Int.add_zero, Int.natAbs_mul, Int.natAbs_pow]
    congr 1
    unfold signed
    cases a.negative <;> simp
  refine ⟨(exactSum a b).negative, ?_⟩
  rw [← hcoefficient, ← hmin]
  rfl

theorem exactProduct_value
    (a b : Decimal) :
    (exactProduct a b).value = a.value * b.value := by
  have hten : (10 : ℚ) ≠ 0 := by norm_num
  have hsigned : (exactProduct a b).signed = a.signed * b.signed := by
    unfold exactProduct signed
    cases a.negative <;> cases b.negative <;> simp
  rw [value, hsigned, exactProduct, zpow_add₀ hten, value, value]
  push_cast
  ring

theorem mul_value
    (h : mul ctx a b = .ok r) :
    r.value = a.value * b.value := by
  rw [DecimalContext.finalize_value h, exactProduct_value]

/-! ## Division -/

theorem stripZeros_spec
    (k n : Nat) :
    n = (stripZeros k n).1 * 10 ^ (stripZeros k n).2 := by
  induction k generalizing n with
  | zero =>
      simp [stripZeros]
  | succ k ih =>
      unfold stripZeros
      by_cases hdvd : n % 10 = 0
      · have htenth := ih (n / 10)
        rw [if_pos hdvd]
        calc
          n = n / 10 * 10 := by omega
          _ = (stripZeros k (n / 10)).1 * 10 ^ (stripZeros k (n / 10)).2 * 10 := by
            rw [← htenth]
          _ = _ := by
            rw [Nat.pow_succ, Nat.mul_assoc]
      · rw [if_neg hdvd]
        simp

/-- Zeros that were just added are dropped, and no others. -/
theorem stripZeros_mul_pow
    (k n : Nat) :
    stripZeros k (n * 10 ^ k) = (n, k) := by
  induction k with
  | zero =>
      simp [stripZeros]
  | succ k ih =>
      have hmod : n * 10 ^ (k + 1) % 10 = 0 := by
        rw [Nat.pow_succ, ← Nat.mul_assoc, Nat.mul_mod_left]
      have hdiv : n * 10 ^ (k + 1) / 10 = n * 10 ^ k := by
        rw [Nat.pow_succ, ← Nat.mul_assoc, Nat.mul_div_cancel _ (by decide)]
      rw [stripZeros, if_pos hmod, hdiv, ih]

/-- A zero is divided to a zero. -/
theorem div_of_zero
    (hdividend : a.coefficient = 0)
    (hdivisor : b.coefficient ≠ 0) :
    div ctx a b =
      ctx.finalize ⟨a.negative ^^ b.negative, 0, a.exponent - b.exponent⟩ := by
  rw [div, if_neg hdivisor, if_pos hdividend]

/-- **What was multiplied is divided back**, to the same representation. -/
theorem div_exactProduct
    (hdividend : a.coefficient ≠ 0)
    (hdivisor : b.coefficient ≠ 0)
    (hdigits : (exactProduct a b).digits ≤ ctx.precision) :
    div ctx (exactProduct a b) b = ctx.finalize a := by
  have hproduct : (exactProduct a b).coefficient ≠ 0 := Nat.mul_ne_zero hdividend hdivisor
  obtain ⟨k, hshift⟩ : ∃ k : Nat,
      ((b.digits : Int) - (exactProduct a b).digits + ctx.precision + 1) = k :=
    Int.eq_ofNat_of_zero_le (by omega)
  have hquotient :
      (exactProduct a b).coefficient * 10 ^ k = a.coefficient * 10 ^ k * b.coefficient := by
    rw [exactProduct]
    ring
  have hsame : (⟨(exactProduct a b).negative ^^ b.negative, a.coefficient,
      (exactProduct a b).exponent - b.exponent - k + k⟩ : Decimal) = a := by
    obtain ⟨negative, coefficient, exponent⟩ := a
    simp only [exactProduct, Decimal.mk.injEq, true_and]
    refine ⟨?_, by omega⟩
    cases negative <;> cases b.negative <;> rfl
  unfold div
  simp only [if_neg hdivisor, if_neg hproduct, hshift, Int.toNat_natCast, Int.toNat_neg_natCast,
    Nat.pow_zero, Nat.mul_one, hquotient, Nat.mul_mod_left, if_true,
    Nat.mul_div_cancel _ (Nat.pos_of_ne_zero hdivisor), stripZeros_mul_pow, hsame]

/-- A quotient has more digits than the context, before its zeros are dropped. -/
theorem precision_lt_quotient
    {dividend divisor : Nat} {shift : Int} (precision : Nat)
    (hdividend : dividend ≠ 0)
    (hdivisor : divisor ≠ 0)
    (hshift : shift = digitCount divisor - digitCount dividend + precision + 1) :
    10 ^ precision ≤ dividend * 10 ^ shift.toNat / (divisor * 10 ^ (-shift).toNat) := by
  have hpos : 0 < divisor * 10 ^ (-shift).toNat := by positivity
  have hlow := pow_le_of_digitCount hdividend
  have hhigh := (lt_pow_digitCount divisor).le
  have hone : 1 ≤ digitCount dividend := Nat.le_add_left 1 _
  rw [Nat.le_div_iff_mul_le hpos]
  calc
    10 ^ precision * (divisor * 10 ^ (-shift).toNat)
        ≤ 10 ^ precision * (10 ^ digitCount divisor * 10 ^ (-shift).toNat) := by gcongr
    _ = 10 ^ (digitCount dividend - 1) * 10 ^ shift.toNat := by
      rw [← pow_add, ← pow_add, ← pow_add]
      congr 1
      omega
    _ ≤ dividend * 10 ^ shift.toNat := by gcongr

/-- The sign as a factor. -/
def sign (negative : Bool) : ℚ :=
  if negative then -1 else 1

theorem sign_xor
    (p q : Bool) :
    sign (p ^^ q) = sign p * sign q := by
  cases p <;> cases q <;> simp [sign]

theorem sign_mul_self
    (p : Bool) :
    sign p * sign p = 1 := by
  cases p <;> simp [sign]

theorem value_eq_sign
    (d : Decimal) :
    d.value = sign d.negative * d.coefficient * 10 ^ d.exponent := by
  unfold value signed sign
  cases d.negative <;> simp

/-- The quotient of the coefficients gives the quotient of the numbers. -/
theorem value_of_quotient
    {coefficient zeros : Nat} {shift : Int}
    (hdivisor : b.coefficient ≠ 0)
    (hquotient : coefficient * 10 ^ zeros * (b.coefficient * 10 ^ (-shift).toNat) =
      a.coefficient * 10 ^ shift.toNat) :
    (⟨a.negative ^^ b.negative, coefficient, a.exponent - b.exponent - shift + zeros⟩ :
      Decimal).value = a.value / b.value := by
  have hten : (10 : ℚ) ≠ 0 := by norm_num
  have hvalue : b.value ≠ 0 := fun hzero => hdivisor ((value_eq_zero_iff b).mp hzero)
  have hbalance : (coefficient : ℚ) * 10 ^ zeros * b.coefficient = a.coefficient * 10 ^ shift := by
    have hcast := congrArg (Nat.cast (R := ℚ)) hquotient
    have hparts : (10 : ℚ) ^ shift = 10 ^ shift.toNat / 10 ^ (-shift).toNat := by
      rw [← zpow_natCast, ← zpow_natCast, ← zpow_sub₀ hten]
      congr 1
      omega
    push_cast at hcast
    rw [hparts]
    field_simp
    linarith
  have hexponents : (10 : ℚ) ^ (a.exponent - b.exponent - shift + zeros) * 10 ^ b.exponent *
      10 ^ shift = 10 ^ zeros * 10 ^ a.exponent := by
    rw [← zpow_natCast, ← zpow_add₀ hten, ← zpow_add₀ hten, ← zpow_add₀ hten]
    congr 1
    omega
  have hshift : (10 : ℚ) ^ shift ≠ 0 := zpow_ne_zero _ hten
  rw [eq_div_iff hvalue, value_eq_sign, value_eq_sign a, value_eq_sign b, sign_xor]
  refine mul_right_cancel₀ hshift ?_
  calc
    sign a.negative * sign b.negative * coefficient *
          10 ^ (a.exponent - b.exponent - shift + zeros) *
          (sign b.negative * b.coefficient * 10 ^ b.exponent) * 10 ^ shift
        = sign a.negative * (sign b.negative * sign b.negative) *
          (coefficient * b.coefficient) *
          (10 ^ (a.exponent - b.exponent - shift + zeros) * 10 ^ b.exponent * 10 ^ shift) := by
      ring
    _ = sign a.negative * (coefficient * 10 ^ zeros * b.coefficient) * 10 ^ a.exponent := by
      rw [sign_mul_self, hexponents]
      ring
    _ = sign a.negative * a.coefficient * 10 ^ a.exponent * 10 ^ shift := by
      rw [hbalance]
      ring

/-- **A quotient is exact**, or it is trapped. -/
theorem div_value
    (h : div ctx a b = .ok r) :
    r.value = a.value / b.value := by
  have hten : (10 : ℚ) ≠ 0 := by norm_num
  unfold div at h
  by_cases hdivisor : b.coefficient = 0
  · rw [if_pos hdivisor] at h
    split at h <;> cases h
  · rw [if_neg hdivisor] at h
    by_cases hdividend : a.coefficient = 0
    · rw [if_pos hdividend] at h
      rw [DecimalContext.finalize_value h, (value_eq_zero_iff a).mpr hdividend, zero_div]
      exact (value_eq_zero_iff _).mpr rfl
    · rw [if_neg hdividend] at h
      generalize hshift : (b.digits : Int) - a.digits + ctx.precision + 1 = shift at h
      have hlarge := precision_lt_quotient ctx.precision hdividend hdivisor hshift.symm
      dsimp only at h
      split at h
      case isTrue hexact =>
          rw [DecimalContext.finalize_value h]
          refine value_of_quotient hdivisor ?_
          rw [← stripZeros_spec]
          exact Nat.div_mul_cancel (Nat.dvd_of_mod_eq_zero hexact)
      case isFalse hinexact =>
          have hnonzero : ∀ q : Nat, 10 ^ ctx.precision ≤ q →
              ∀ negative exponent, ctx.finalize ⟨negative, q, exponent⟩ ≠ .ok r := by
            intro q hq negative exponent hok
            have hne : q ≠ 0 := by
              have : 0 < 10 ^ ctx.precision := by positivity
              omega
            obtain ⟨hfits, -⟩ := (DecimalContext.finalize_eq_ok_iff hne).mp hok
            have hdigits := hfits.digits_le
            rcases Nat.eq_zero_or_pos ctx.precision with hzero | hpos
            · rw [hzero, digits, digitCount] at hdigits
              omega
            · exact absurd ((digitCount_le_iff hpos.ne').mp hdigits) (not_lt.mpr hq)
          refine absurd h (hnonzero _ ?_ _ _)
          split
          · exact Nat.le_succ_of_le hlarge
          · exact hlarge

/-- One is a power of ten with its zeros behind the point. -/
theorem eq_of_value_one
    (h : d.value = 1) :
    ∃ k : Nat, d = ⟨false, 10 ^ k, -k⟩ := by
  have hten : (10 : ℚ) ≠ 0 := by norm_num
  obtain ⟨negative, coefficient, exponent⟩ := d
  have hpow : (0 : ℚ) < 10 ^ exponent := zpow_pos (by norm_num) _
  have hpositive : negative = false := by
    by_contra hnegative
    have hvalue : (-(coefficient : ℚ)) * 10 ^ exponent = 1 := by
      simpa [value, signed, Bool.not_eq_false _ ▸ hnegative] using h
    have hnonpos : (-(coefficient : ℚ)) * 10 ^ exponent ≤ 0 :=
      mul_nonpos_of_nonpos_of_nonneg (by simp) hpow.le
    linarith
  subst hpositive
  have hvalue : (coefficient : ℚ) * 10 ^ exponent = 1 := by
    simpa [value, signed] using h
  rcases le_or_gt 0 exponent with hnonneg | hneg
  · obtain ⟨n, rfl⟩ := Int.eq_ofNat_of_zero_le hnonneg
    have hnat : coefficient * 10 ^ n = 1 := by
      rw [zpow_natCast] at hvalue
      exact_mod_cast hvalue
    obtain ⟨rfl, hone⟩ : coefficient = 1 ∧ 10 ^ n = 1 := mul_eq_one.mp hnat
    have hn : n = 0 := by
      by_contra hne
      have := Nat.one_lt_pow hne (by decide : 1 < 10)
      omega
    subst hn
    exact ⟨0, rfl⟩
  · obtain ⟨n, hn⟩ := Int.eq_ofNat_of_zero_le (neg_nonneg.mpr hneg.le)
    have hexponent : exponent = -(n : Int) := by omega
    subst hexponent
    refine ⟨n, ?_⟩
    have hcoefficient : (coefficient : ℚ) = 10 ^ n := by
      rw [zpow_neg, zpow_natCast] at hvalue
      field_simp at hvalue
      exact hvalue
    have hnat : coefficient = 10 ^ n := by
      exact_mod_cast hcoefficient
    rw [hnat]

end Decimal

end Base
end Bluetape
