import Bluetape.Monetary.Core

/-!
# Arithmetic of money

The operators of `Money` and `sum_money`.  They are exact: an operation that would have to
round is rejected.

* `add_number`, `neg_number`, `mul_number`: what succeeds is exact;
* `neutral_operations`: when a neutral operation succeeds, and when it is rejected;
* `sumMoney_exact`: a sum is the sum of the numbers, in whatever order.
-/

namespace Bluetape
namespace Monetary

open Base

namespace Money

/-- `_same_currency`, before the rest of the operation -/
def sameCurrency (m other : Money) : Except MoneyError Unit :=
  raiseIf (m.currency ≠ other.currency)
    (.currencyMismatch "money currencies must match")

/-- `__add__` -/
def add (m other : Money) : Except MoneyError Money := do
  m.sameCurrency other
  calculated (Decimal.add moneyContext m.amount.value other.amount.value) m.currency

/-- `__sub__` -/
def sub (m other : Money) : Except MoneyError Money := do
  m.sameCurrency other
  calculated (Decimal.sub moneyContext m.amount.value other.amount.value) m.currency

/-- `__neg__` -/
def neg (m : Money) : Except MoneyError Money :=
  calculated (Decimal.neg moneyContext m.amount.value) m.currency

/-- `__abs__` -/
def abs (m : Money) : Except MoneyError Money :=
  calculated (Decimal.abs moneyContext m.amount.value) m.currency

/-- `__mul__` -/
def mul (m : Money) (scalar : DecimalInput) : Except MoneyError Money := do
  let normalized ← parseDecimal .invalidAmount "scalar" scalar
  calculated (Decimal.mul moneyContext m.amount.value normalized.value) m.currency

/-! ## What succeeds is exact -/

section Exact

variable {m other r : Money}

/-- Addition, on one currency. -/
theorem add_of_currency
    (h : other.currency = m.currency) :
    m.add other =
      calculated (Decimal.add moneyContext m.amount.value other.amount.value) m.currency := by
  simp [add, sameCurrency, raiseIf, h, bind, Except.bind]

theorem sub_of_currency
    (h : other.currency = m.currency) :
    m.sub other =
      calculated (Decimal.sub moneyContext m.amount.value other.amount.value) m.currency := by
  simp [sub, sameCurrency, raiseIf, h, bind, Except.bind]

theorem add_number
    (hcurrency : other.currency = m.currency)
    (h : m.add other = .ok r) :
    r.number = m.number + other.number ∧ r.currency = m.currency := by
  rw [add_of_currency hcurrency, calculated_eq_ok] at h
  exact ⟨Decimal.add_value h.1, h.2⟩

theorem sub_number
    (hcurrency : other.currency = m.currency)
    (h : m.sub other = .ok r) :
    r.number = m.number - other.number ∧ r.currency = m.currency := by
  rw [sub_of_currency hcurrency, calculated_eq_ok] at h
  exact ⟨Decimal.sub_value h.1, h.2⟩

theorem neg_number
    (h : m.neg = .ok r) :
    r.number = -m.number ∧ r.currency = m.currency := by
  obtain ⟨hneg, hcurrency⟩ := calculated_eq_ok.mp h
  exact ⟨Decimal.neg_value hneg, hcurrency⟩

theorem abs_number
    (h : m.abs = .ok r) :
    r.number = |m.number| ∧ r.currency = m.currency := by
  obtain ⟨habs, hcurrency⟩ := calculated_eq_ok.mp h
  exact ⟨Decimal.abs_value habs, hcurrency⟩

theorem mul_number
    {scalar : DecimalInput} {normalized : Amount}
    (hscalar : parseDecimal .invalidAmount "scalar" scalar = .ok normalized)
    (h : m.mul scalar = .ok r) :
    r.number = m.number * normalized.number ∧ r.currency = m.currency := by
  unfold mul at h
  rw [hscalar] at h
  obtain ⟨hmul, hcurrency⟩ := calculated_eq_ok.mp h
  exact ⟨Decimal.mul_value hmul, hcurrency⟩

end Exact

end Money

/-! ## Neutral operations -/

/-- The first digit is within the exponents of the context. -/
def InRange (a : Amount) : Prop :=
  a.value.coefficient = 0 ∨ a.value.adjusted ≤ 256

/-- So many zeros more keep the amount within its bounds. -/
def HasRoom (a : Amount) (zeros : Nat) : Prop :=
  (a.value.coefficient = 0 ∨ a.value.digits + zeros ≤ 256) ∧ -256 ≤ a.value.exponent - zeros

instance (a : Amount) (zeros : Nat) : Decidable (HasRoom a zeros) :=
  inferInstanceAs (Decidable (_ ∧ _))

section Neutral

variable {a : Amount}

theorem InRange.adjusted_le
    (h : InRange a) :
    a.value.adjusted ≤ 256 := by
  rcases h with hzero | hle
  · have hexponent := a.bounded.exponent_le
    simp only [Decimal.adjusted, Decimal.digits, digitCount, hzero, Nat.log_zero_right,
      maxAbsExponent] at hexponent ⊢
    omega
  · exact hle

/-- The amount with so many zeros more at the end. -/
theorem bounded_shift
    {zeros : Nat}
    (h : HasRoom a zeros) (negative : Bool) :
    Bounded ⟨negative, a.value.coefficient * 10 ^ zeros, a.value.exponent - zeros⟩ := by
  have hexponent := a.bounded.exponent_le
  have hlow := h.2
  simp only [maxAbsExponent] at hexponent
  refine ⟨?_, by simp only [maxAbsExponent]; omega⟩
  simp only [Decimal.digits, maxCoefficientDigits]
  by_cases hzero : a.value.coefficient = 0
  · simp [hzero, digitCount]
  · rw [digitCount_mul_pow hzero]
    exact h.1.resolve_left hzero

theorem adjusted_shift
    (h : InRange a) (negative : Bool) {zeros : Nat}
    (hroom : HasRoom a zeros) :
    (⟨negative, a.value.coefficient * 10 ^ zeros, a.value.exponent - zeros⟩ :
      Decimal).adjusted ≤ 256 := by
  by_cases hzero : a.value.coefficient = 0
  · have hexponent := a.bounded.exponent_le
    have hlow := hroom.2
    simp only [Decimal.adjusted, Decimal.digits, digitCount, hzero, Nat.zero_mul,
      Nat.log_zero_right, maxAbsExponent] at hexponent ⊢
    omega
  · have hadjusted := h.adjusted_le
    simp only [Decimal.adjusted, Decimal.digits, digitCount_mul_pow hzero] at hadjusted ⊢
    omega

/-- The amount with its sign changed and zeros added is calculated as it is. -/
theorem calculated_shift
    (h : InRange a) (negative : Bool) {zeros : Nat}
    (hroom : HasRoom a zeros) (currency : Currency) :
    Money.calculated (moneyContext.finalize
        ⟨negative, a.value.coefficient * 10 ^ zeros, a.value.exponent - zeros⟩) currency =
      .ok ⟨⟨_, bounded_shift hroom negative⟩, currency⟩ := by
  rw [Money.calculated_eq_ok]
  exact ⟨DecimalContext.finalize_of_fits
    (fits_of_bounded (bounded_shift hroom negative) (adjusted_shift h negative hroom)), rfl⟩

theorem hasRoom_zero
    (a : Amount) :
    HasRoom a 0 := by
  have hexponent := a.bounded.exponent_le
  have hdigits := a.bounded.digits_le
  simp only [maxAbsExponent, maxCoefficientDigits] at hexponent hdigits
  exact ⟨Or.inr hdigits, by omega⟩

/-- The zeros that an amount needs to meet the exponent of another. -/
def zerosTo (a other : Amount) : Nat :=
  (a.value.exponent - other.value.exponent).toNat

/-- A zero addend calls for zeros, and for nothing else. -/
theorem calculated_add_zero
    {z : Amount}
    (h : InRange a)
    (hzero : z.value.coefficient = 0)
    (hroom : a.value.coefficient = 0 ∨ a.value.digits + zerosTo a z ≤ 256)
    (currency : Currency) :
    ∃ r, Money.calculated (Decimal.add moneyContext a.value z.value) currency = .ok r ∧
      Money.calculated (Decimal.add moneyContext z.value a.value) currency = .ok r := by
  obtain ⟨negative, hsum⟩ := Decimal.exactSum_zero a.value hzero
  have hexponent := z.bounded.exponent_le
  have hown := a.bounded.exponent_le
  simp only [maxAbsExponent] at hexponent hown
  have hfull : HasRoom a (zerosTo a z) := ⟨hroom, by unfold zerosTo; omega⟩
  have hcalculated := calculated_shift h negative hfull currency
  unfold Decimal.add
  rw [Decimal.exactSum_comm z.value a.value, hsum]
  exact ⟨_, hcalculated, hcalculated⟩

/-- Without room for the zeros the context would have to round. -/
theorem calculated_add_zero_error
    {z : Amount}
    (hzero : z.value.coefficient = 0)
    (hne : a.value.coefficient ≠ 0)
    (hfull : 256 < a.value.digits + zerosTo a z) (currency : Currency) :
    Money.calculated (Decimal.add moneyContext a.value z.value) currency =
      .error (invalid .invalidAmount "amount") := by
  obtain ⟨negative, hsum⟩ := Decimal.exactSum_zero a.value hzero
  cases hresult : Money.calculated (Decimal.add moneyContext a.value z.value) currency with
  | ok r =>
      have hok := (Money.calculated_eq_ok.mp hresult).1
      rw [Decimal.add, hsum] at hok
      have hpositive :
          a.value.coefficient * 10 ^ (a.value.exponent - z.value.exponent).toNat ≠ 0 := by
        positivity
      obtain ⟨hfits, -⟩ := (DecimalContext.finalize_eq_ok_iff hpositive).mp hok
      have hdigits := hfits.digits_le
      rw [Decimal.digits, digitCount_mul_pow hne] at hdigits
      exact absurd hdigits (not_le.mpr hfull)
  | error e =>
      rcases except_bind_eq_error.mp hresult with herror | ⟨b, -, hcontra⟩
      · rw [calculate_error herror]
      · cases hcontra

/-- A factor of one calls for the zeros behind its point. -/
theorem calculated_mul_one
    {one : Decimal}
    (h : InRange a)
    (hone : one.value = 1)
    (hroom : HasRoom a (-one.exponent).toNat) (currency : Currency) :
    ∃ r, Money.calculated (Decimal.mul moneyContext a.value one) currency = .ok r := by
  obtain ⟨k, rfl⟩ := Decimal.eq_of_value_one hone
  rw [neg_neg, Int.toNat_natCast] at hroom
  exact ⟨_, calculated_shift h (a.value.negative ^^ false) hroom currency⟩

/-- Without room for the zeros the product is no amount. -/
theorem hasRoom_of_calculated_shift
    {zeros : Nat} {negative : Bool} {currency : Currency} {r : Money}
    (h : Money.calculated (moneyContext.finalize
      ⟨negative, a.value.coefficient * 10 ^ zeros, a.value.exponent - zeros⟩) currency = .ok r) :
    HasRoom a zeros := by
  have hfinal := (Money.calculated_eq_ok.mp h).1
  have hbounded := r.amount.bounded
  have hexponent := hbounded.exponent_le
  have hown := a.bounded.exponent_le
  simp only [maxAbsExponent] at hexponent hown
  by_cases hzero : a.value.coefficient = 0
  · -- a zero keeps its exponent or takes one outside the bounds
    have hproduct : a.value.coefficient * 10 ^ zeros = 0 := by
      rw [hzero, Nat.zero_mul]
    obtain ⟨exponent, hclamped, hcases⟩ := @DecimalContext.finalize_zero moneyContext
      ⟨negative, a.value.coefficient * 10 ^ zeros, a.value.exponent - zeros⟩
      hproduct (by decide)
    have hvalue := Except.ok.inj (hclamped.symm.trans hfinal)
    rw [← hvalue] at hexponent
    simp only [DecimalContext.etiny, moneyContext] at hexponent hcases
    exact ⟨Or.inl hzero, by omega⟩
  · have hproduct : a.value.coefficient * 10 ^ zeros ≠ 0 := by
      positivity
    obtain ⟨hfits, hvalue⟩ := (DecimalContext.finalize_eq_ok_iff hproduct).mp hfinal
    have hdigits := hfits.digits_le
    rw [Decimal.digits, digitCount_mul_pow hzero] at hdigits
    rw [hvalue] at hexponent
    dsimp only at hexponent
    exact ⟨Or.inr hdigits, by omega⟩

/-- A factor of one with more zeros than there is room for is rejected. -/
theorem calculated_mul_one_error
    {one : Decimal}
    (hone : one.value = 1)
    (hroom : ¬HasRoom a (-one.exponent).toNat) (currency : Currency) :
    Money.calculated (Decimal.mul moneyContext a.value one) currency =
      .error (invalid .invalidAmount "amount") := by
  cases hresult : Money.calculated (Decimal.mul moneyContext a.value one) currency with
  | ok r =>
      obtain ⟨k, rfl⟩ := Decimal.eq_of_value_one hone
      rw [neg_neg, Int.toNat_natCast] at hroom
      exact absurd (hasRoom_of_calculated_shift hresult) hroom
  | error e =>
      rcases except_bind_eq_error.mp hresult with herror | ⟨b, -, hcontra⟩
      · rw [calculate_error herror]
      · cases hcontra

end Neutral

/-- An amount less itself is a zero at its exponent. -/
theorem calculated_sub_self
    (a : Amount) (currency : Currency) :
    ∃ r, Money.calculated (Decimal.sub moneyContext a.value a.value) currency = .ok r := by
  have hsum : (Decimal.exactSum a.value { a.value with negative := !a.value.negative }).coefficient
      = 0 := by
    simp [Decimal.exactSum, Decimal.signed_neg]
  have hexponent : (Decimal.exactSum a.value
      { a.value with negative := !a.value.negative }).exponent = a.value.exponent := by
    simp [Decimal.exactSum]
  have hbound := a.bounded.exponent_le
  rw [← hexponent] at hbound
  obtain ⟨hbounded, hcalculate⟩ := calculate_finalize_zero hsum hbound
  refine ⟨⟨⟨_, hbounded⟩, currency⟩, ?_⟩
  exact Money.calculated_eq_ok.mpr ⟨calculate_eq_ok.mp hcalculate, rfl⟩

/--
**Neutral operations**: an amount less itself is zero, for every amount.  In range, the sign
operations succeed with the exact number, and a zero addend and a factor of one do so exactly
when there is room for their zeros.
-/
theorem neutral_operations
    (m : Money) :
    (∃ r, m.sub m = .ok r ∧ r.number = 0 ∧ r.currency = m.currency) ∧
    (InRange m.amount →
      (∃ r, m.neg = .ok r ∧ r.number = -m.number ∧ r.currency = m.currency) ∧
      (∃ r, m.abs = .ok r ∧ r.number = |m.number| ∧ r.currency = m.currency) ∧
      (∀ z : Money, z.currency = m.currency → z.number = 0 →
        if m.amount.value.coefficient = 0 ∨
            m.amount.value.digits + zerosTo m.amount z.amount ≤ 256 then
          ∃ r, m.add z = .ok r ∧ z.add m = .ok r ∧ r.number = m.number ∧
            r.currency = m.currency
        else m.add z = .error (.invalidAmount "amount must be a finite bounded decimal")) ∧
      ∀ scalar one, parseDecimal .invalidAmount "scalar" scalar = .ok one → one.number = 1 →
        if HasRoom m.amount (-one.value.exponent).toNat then
          ∃ r, m.mul scalar = .ok r ∧ r.number = m.number ∧ r.currency = m.currency
        else m.mul scalar =
          .error (.invalidAmount "amount must be a finite bounded decimal")) := by
  constructor
  · obtain ⟨r, hsub⟩ := calculated_sub_self m.amount m.currency
    have hdifference : m.sub m = .ok r := by
      rw [Money.sub_of_currency rfl, hsub]
    have hnumber := Money.sub_number rfl hdifference
    rw [sub_self] at hnumber
    exact ⟨r, hdifference, hnumber⟩
  intro hrange
  have hself : ∀ negative, ∃ r, Money.calculated (moneyContext.finalize
      { m.amount.value with negative := negative }) m.currency = .ok r := by
    intro negative
    have h := calculated_shift hrange negative (hasRoom_zero m.amount) m.currency
    simp only [Nat.pow_zero, Nat.mul_one, Nat.cast_zero, Int.sub_zero] at h
    exact ⟨_, h⟩
  refine ⟨?_, ?_, fun z hcurrency hzero => ?_, fun scalar one hscalar hone => ?_⟩
  · obtain ⟨r, hneg⟩ := hself (!m.amount.value.negative && decide (m.amount.value.coefficient ≠ 0))
    exact ⟨r, hneg, Money.neg_number hneg⟩
  · obtain ⟨r, habs⟩ := hself false
    exact ⟨r, habs, Money.abs_number habs⟩
  · have hcoefficient : z.amount.value.coefficient = 0 := (Decimal.value_eq_zero_iff _).mp hzero
    split
    case isTrue hroom =>
        obtain ⟨r, hadd, hadd'⟩ := calculated_add_zero hrange hcoefficient hroom m.currency
        have hsum : m.add z = .ok r := by
          rw [Money.add_of_currency hcurrency, hadd]
        refine ⟨r, hsum, ?_, ?_⟩
        · rw [Money.add_of_currency hcurrency.symm, hcurrency, hadd']
        · have hnumber := Money.add_number hcurrency hsum
          rwa [hzero, add_zero] at hnumber
    case isFalse hfull =>
        rw [not_or, not_le] at hfull
        rw [Money.add_of_currency hcurrency]
        exact calculated_add_zero_error hcoefficient hfull.1 hfull.2 m.currency
  · have hmul : m.mul scalar =
        Money.calculated (Decimal.mul moneyContext m.amount.value one.value) m.currency := by
      rw [Money.mul, hscalar]
      rfl
    split
    case isTrue hroom =>
        obtain ⟨r, hproduct⟩ := calculated_mul_one hrange hone hroom m.currency
        rw [← hmul] at hproduct
        have hnumber := Money.mul_number hscalar hproduct
        rw [hone, mul_one] at hnumber
        exact ⟨r, hproduct, hnumber⟩
    case isFalse hfull =>
        rw [hmul]
        exact calculated_mul_one_error hone hfull m.currency

/-- One dollar. -/
def oneDollar : Money :=
  ⟨⟨⟨false, 1, 0⟩, by decide⟩, usd⟩

/-- An amount at the largest exponent, with two digits. -/
def tenE256 : Money :=
  ⟨⟨⟨false, 10, 256⟩, by decide⟩, usd⟩

/-- A zero at the smallest exponent. -/
def zeroE256 : Money :=
  ⟨⟨⟨false, 0, -256⟩, by decide⟩, usd⟩

/-- The smallest positive amount. -/
def oneE_256 : Money :=
  ⟨⟨⟨false, 1, -256⟩, by decide⟩, usd⟩

/-- One dollar is in range, and its negation is calculated. -/
theorem neutral_operations_oneDollar :
    ∃ r, oneDollar.neg = .ok r ∧ r.number = -oneDollar.number ∧ r.currency = usd :=
  ((neutral_operations oneDollar).2 (Or.inr (by decide))).1

/--
A valid amount that has no negation, a zero that cannot be added to one dollar, and a factor
of one with a zero behind its point that does not multiply the smallest amount.
-/
theorem neutral_operations_rejected :
    tenE256.neg = .error (.invalidAmount "amount must be a finite bounded decimal") ∧
    tenE256.abs = .error (.invalidAmount "amount must be a finite bounded decimal") ∧
    tenE256.mul (.int 1) = .error (.invalidAmount "amount must be a finite bounded decimal") ∧
    zeroE256.number = 0 ∧
    oneDollar.add zeroE256 =
      .error (.invalidAmount "amount must be a finite bounded decimal") ∧
    (∃ one, parseDecimal .invalidAmount "scalar" (.str (text "1.0")) = .ok one ∧
      one.number = 1) ∧
    oneE_256.mul (.str (text "1.0")) =
      .error (.invalidAmount "amount must be a finite bounded decimal") := by
  refine ⟨by rfl, by rfl, by rfl, (Decimal.value_eq_zero_iff _).mpr rfl, ?_, ?_, by rfl⟩
  case refine_2 =>
      refine ⟨⟨⟨false, 10, -1⟩, by decide⟩, by rfl, ?_⟩
      norm_num [Amount.number, Decimal.value, Decimal.signed]
  have hsame : zeroE256.currency = oneDollar.currency := rfl
  rw [Money.add_of_currency hsame]
  exact calculated_add_zero_error rfl (by decide) (by decide) _

/-! ## Sums -/

/-- The loop of `sum_money`. -/
def sumFrom (total : Money) : List Money → Except MoneyError Money
  | [] => .ok total
  | value :: values => do
      let total ← total.add value
      sumFrom total values

/-- `sum_money` -/
def sumMoney (currency : Currency) (values : List Money) : Except MoneyError Money := do
  let total ← Money.of (.int 0) currency
  sumFrom total values

section Sums

variable {currency : Currency} {total r : Money} {values : List Money}

/-- Every partial sum is exact. -/
theorem sumFrom_number
    (htotal : total.currency = currency)
    (hvalues : ∀ v ∈ values, v.currency = currency)
    (h : sumFrom total values = .ok r) :
    r.number = total.number + (values.map Money.number).sum ∧ r.currency = currency := by
  induction values generalizing total with
  | nil =>
      obtain rfl := Except.ok.inj h
      exact ⟨by simp, htotal⟩
  | cons value values ih =>
      obtain ⟨next, hnext, hrest⟩ := except_bind_eq_ok.mp h
      have hvalue : value.currency = total.currency := by
        rw [htotal]
        exact hvalues value List.mem_cons_self
      obtain ⟨hnumber, hcurrency⟩ := Money.add_number hvalue hnext
      obtain ⟨hsum, hlast⟩ := ih (hcurrency.trans htotal)
        (fun v hv => hvalues v (List.mem_cons_of_mem value hv)) hrest
      refine ⟨?_, hlast⟩
      rw [hsum, hnumber, List.map_cons, List.sum_cons, add_assoc]

/-- A sum fails where a partial sum does. -/
theorem sumFrom_error
    {e : MoneyError}
    (htotal : total.currency = currency)
    (hvalues : ∀ v ∈ values, v.currency = currency)
    (h : sumFrom total values = .error e) :
    e = invalid .invalidAmount "amount" := by
  induction values generalizing total with
  | nil =>
      cases h
  | cons value values ih =>
      have hvalue : value.currency = total.currency := by
        rw [htotal]
        exact hvalues value List.mem_cons_self
      rcases except_bind_eq_error.mp h with hfirst | ⟨next, hnext, hrest⟩
      · rw [Money.add_of_currency hvalue] at hfirst
        rcases except_bind_eq_error.mp hfirst with hcalculate | ⟨a, -, hcontra⟩
        · exact calculate_error hcalculate
        · cases hcontra
      · exact ih ((Money.add_number hvalue hnext).2.trans htotal)
          (fun v hv => hvalues v (List.mem_cons_of_mem value hv)) hrest

/-- The sum starts with a zero of the currency. -/
theorem of_zero
    (currency : Currency) :
    ∃ zero : Money, Money.of (.int 0) currency = .ok zero ∧ zero.number = 0 ∧
      zero.currency = currency := by
  refine ⟨⟨⟨.ofInt 0 0, by decide⟩, currency⟩, rfl, ?_, rfl⟩
  exact (Decimal.value_eq_zero_iff _).mpr rfl

/--
**A sum of money is exact**: a successful evaluation, in whatever order, gives the sum of
the numbers, and a failing one raises `InvalidAmountError`.
-/
theorem sumMoney_exact
    (currency : Currency) (values : List Money)
    (hvalues : ∀ v ∈ values, v.currency = currency) :
    (∀ r, sumMoney currency values = .ok r →
      r.number = (values.map Money.number).sum ∧ r.currency = currency) ∧
    (∀ order, order.Perm values → ∀ r r', sumMoney currency values = .ok r →
      sumMoney currency order = .ok r' → r.Same r') ∧
    ∀ e, sumMoney currency values = .error e →
      e = .invalidAmount "amount must be a finite bounded decimal" := by
  obtain ⟨zero, hzero, hnumber, hcurrency⟩ := of_zero currency
  have hsum : ∀ order : List Money, (∀ v ∈ order, v.currency = currency) →
      ∀ r, sumMoney currency order = .ok r →
        r.number = (order.map Money.number).sum ∧ r.currency = currency := by
    intro order horder r h
    rw [sumMoney, hzero] at h
    have hexact := sumFrom_number hcurrency horder h
    rwa [hnumber, zero_add] at hexact
  refine ⟨hsum values hvalues, fun order hperm r r' h h' => ?_, fun e h => ?_⟩
  · obtain ⟨hr, hrc⟩ := hsum values hvalues r h
    obtain ⟨hr', hrc'⟩ := hsum order (fun v hv => hvalues v (hperm.mem_iff.mp hv)) r' h'
    refine ⟨?_, hrc.trans hrc'.symm⟩
    rw [hr, hr', (hperm.map Money.number).sum_eq]
  · rw [sumMoney, hzero] at h
    exact sumFrom_error hcurrency hvalues h

end Sums

/-- Ten cents. -/
def tenCents : Money :=
  ⟨⟨⟨false, 10, -2⟩, by decide⟩, usd⟩

/-- A dollar and ten cents, in either order. -/
theorem sumMoney_exact_dollars :
    ∃ r r', sumMoney usd [oneDollar, tenCents] = .ok r ∧
      sumMoney usd [tenCents, oneDollar] = .ok r' ∧
      r.number = ([oneDollar, tenCents].map Money.number).sum ∧ r.Same r' := by
  obtain ⟨hnumber, horder, -⟩ :=
    sumMoney_exact usd [oneDollar, tenCents] (by simp [oneDollar, tenCents])
  have hsum : sumMoney usd [oneDollar, tenCents] = .ok ⟨⟨⟨false, 110, -2⟩, by decide⟩, usd⟩ := by
    decide
  have hswapped : sumMoney usd [tenCents, oneDollar] =
      .ok ⟨⟨⟨false, 110, -2⟩, by decide⟩, usd⟩ := by
    decide
  exact ⟨_, _, hsum, hswapped, (hnumber _ hsum).1,
    horder _ (List.Perm.swap _ _ _) _ _ hsum hswapped⟩

end Monetary
end Bluetape
