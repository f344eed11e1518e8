import Bluetape.Base.DecimalText
import Bluetape.Monetary.Currency

/-!
# Money values

Amounts are finite decimal numbers within bounds on their digits and on their exponent.
Arithmetic runs in a context of its own that traps every rounding; its result must be
within the same bounds.

* `calculate_of_fits`, `calculate_eq_ok`: when a calculation gives an amount, and which;
* `calculate_error`: it fails in one way only.
-/

namespace Bluetape
namespace Monetary

open Base

/-! ## Amounts -/

/-- `MAX_TEXT_LENGTH` -/
def maxTextLength : Nat := 512

/-- `MAX_COEFFICIENT_DIGITS` -/
def maxCoefficientDigits : Nat := 256

/-- `MAX_ABS_EXPONENT` -/
def maxAbsExponent : Nat := 256

/-- `MONEY_CONTEXT` -/
def moneyContext : DecimalContext where
  precision := 256
  emin := -256
  emax := 256

/-- The values of `Decimal`, as far as `is_finite` tells them apart. -/
inductive DecimalValue
  | finite (d : Decimal)
  | infinity (negative : Bool)
  | nan
deriving DecidableEq, Repr

/-- The bounds of `validate_decimal`. -/
structure Bounded (d : Decimal) : Prop where
  digits_le : d.digits ≤ maxCoefficientDigits
  exponent_le : d.exponent.natAbs ≤ maxAbsExponent

instance (d : Decimal) : Decidable (Bounded d) :=
  decidable_of_iff (d.digits ≤ maxCoefficientDigits ∧ d.exponent.natAbs ≤ maxAbsExponent)
    ⟨fun h => ⟨h.1, h.2⟩, fun h => ⟨h.1, h.2⟩⟩

/-- What `validate_decimal` accepts. -/
structure Amount where
  value : Decimal
  bounded : Bounded value
deriving DecidableEq

/-- The number itself. -/
def Amount.number (a : Amount) : ℚ :=
  a.value.value

/-- The error of `_raise_invalid`. -/
def invalid (errorType : String → MoneyError) (label : String) : MoneyError :=
  errorType (label ++ " must be a finite bounded decimal")

/-- `validate_decimal` -/
def validateDecimal (errorType : String → MoneyError) (label : String) :
    DecimalValue → Except MoneyError Amount
  | .finite d => if h : Bounded d then .ok ⟨d, h⟩ else .error (invalid errorType label)
  | .infinity _ | .nan => .error (invalid errorType label)

/-- What amounts are made from. -/
inductive DecimalInput
  | decimal (value : DecimalValue)
  | int (value : Int)
  | str (value : Text)

/-- `parse_decimal` -/
def parseDecimal (errorType : String → MoneyError) (label : String) :
    DecimalInput → Except MoneyError Amount
  | .decimal value => validateDecimal errorType label value
  | .int value => validateDecimal errorType label (.finite (.ofInt value 0))
  | .str value =>
      if value = [] ∨ maxTextLength < value.length ∨ isUntrimmed value then
        .error (invalid errorType label)
      else
        match Decimal.parse value with
        | none => .error (invalid errorType label)
        | some parsed => validateDecimal errorType label (.finite parsed)

/-- `calculate`, without `allow_rounding` -/
def calculate (operation : Except DecimalSignal Decimal) : Except MoneyError Amount :=
  match operation with
  | .error _ => .error (invalid .invalidAmount "amount")
  | .ok result => validateDecimal .invalidAmount "amount" (.finite result)

/-! ## What is calculated -/

theorem validateDecimal_of_bounded
    {errorType : String → MoneyError} {label : String} {d : Decimal}
    (h : Bounded d) :
    validateDecimal errorType label (.finite d) = .ok ⟨d, h⟩ :=
  dif_pos h

theorem validateDecimal_eq_ok
    {errorType : String → MoneyError} {label : String} {d : Decimal} {a : Amount}
    (h : validateDecimal errorType label (.finite d) = .ok a) :
    a.value = d := by
  simp only [validateDecimal] at h
  split at h
  · obtain rfl := Except.ok.inj h
    rfl
  · cases h

/-- The context accepts every bounded number whose first digit is not too far to the left. -/
theorem fits_of_bounded
    {d : Decimal}
    (h : Bounded d)
    (hadjusted : d.adjusted ≤ 256) :
    moneyContext.Fits d := by
  refine ⟨h.digits_le, hadjusted, ?_⟩
  have hexponent := h.exponent_le
  simp only [maxAbsExponent, DecimalContext.etiny, moneyContext] at hexponent ⊢
  omega

/-- A calculation succeeds with a bounded result of its operation. -/
theorem calculate_eq_ok
    {operation : Except DecimalSignal Decimal} {a : Amount} :
    calculate operation = .ok a ↔ operation = .ok a.value := by
  constructor
  · intro h
    cases operation with
    | error signal =>
        cases h
    | ok result =>
        rw [validateDecimal_eq_ok h]
  · rintro rfl
    exact validateDecimal_of_bounded a.bounded

/-- **A calculation fails** with the error of the package for invalid amounts only. -/
theorem calculate_error
    {operation : Except DecimalSignal Decimal} {e : MoneyError}
    (h : calculate operation = .error e) :
    e = invalid .invalidAmount "amount" := by
  cases operation with
  | error signal =>
      exact (Except.error.inj h).symm
  | ok result =>
      simp only [calculate, validateDecimal] at h
      split at h
      · cases h
      · exact (Except.error.inj h).symm

/-- An exact result in bounds is the amount that a calculation gives. -/
theorem calculate_finalize
    {d : Decimal}
    (h : Bounded d)
    (hadjusted : d.adjusted ≤ 256) :
    calculate (moneyContext.finalize d) = .ok ⟨d, h⟩ := by
  rw [calculate_eq_ok, DecimalContext.finalize_of_fits (fits_of_bounded h hadjusted)]

/-- A zero whose exponent is bounded is calculated as it is. -/
theorem calculate_finalize_zero
    {d : Decimal}
    (hzero : d.coefficient = 0)
    (hexponent : d.exponent.natAbs ≤ maxAbsExponent) :
    ∃ h, calculate (moneyContext.finalize d) = .ok ⟨d, h⟩ := by
  have hdigits : d.digits = 1 := by
    simp [Decimal.digits, digitCount, hzero]
  have hbounded : Bounded d := ⟨by simp [hdigits, maxCoefficientDigits], hexponent⟩
  refine ⟨hbounded, calculate_finalize hbounded ?_⟩
  simp only [Decimal.adjusted, hdigits, maxAbsExponent] at hexponent ⊢
  omega

/-! ## Money -/

/-- `Money` -/
structure Money where
  amount : Amount
  currency : Currency
deriving DecidableEq

namespace Money

/-- The number of units of the currency. -/
def number (m : Money) : ℚ :=
  m.amount.number

/-- `==`, which compares amounts as numbers. -/
def Same (m other : Money) : Prop :=
  m.number = other.number ∧ m.currency = other.currency

/-- `Money.of` -/
def of (value : DecimalInput) (currency : Currency) : Except MoneyError Money := do
  return ⟨← parseDecimal .invalidAmount "amount" value, currency⟩

/-- The amount of a calculation, as money. -/
def calculated (operation : Except DecimalSignal Decimal) (currency : Currency) :
    Except MoneyError Money := do
  return ⟨← calculate operation, currency⟩

theorem calculated_eq_ok
    {operation : Except DecimalSignal Decimal} {currency : Currency} {m : Money} :
    calculated operation currency = .ok m ↔
      operation = .ok m.amount.value ∧ m.currency = currency := by
  unfold calculated
  rw [except_bind_eq_ok]
  constructor
  · rintro ⟨a, hcalculate, hmoney⟩
    obtain rfl := Except.ok.inj hmoney
    exact ⟨calculate_eq_ok.mp hcalculate, rfl⟩
  · rintro ⟨hoperation, rfl⟩
    exact ⟨m.amount, calculate_eq_ok.mpr hoperation, rfl⟩

end Money

end Monetary
end Bluetape
