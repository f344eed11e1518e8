import Bluetape.Monetary.Arithmetic

/-!
# Exchange rates

A rate from a base to a quote currency, and the conversion of money in both directions.

* `convert_quote`: the way back from the quote currency divides what was multiplied;
* `convert_back`: what comes back is the same money, and when it does come back.
-/

namespace Bluetape
namespace Monetary

open Base

/-- `ExchangeRate` -/
structure ExchangeRate where
  base : Currency
  quote : Currency
  rate : Amount
  positive : 0 < rate.number
  one_of_same : base = quote → rate.number = 1

namespace ExchangeRate

/-- The constructor of `ExchangeRate`. -/
def make (base quote : Currency) (rate : DecimalValue) : Except MoneyError ExchangeRate := do
  let normalized ← validateDecimal .invalidExchangeRate "rate" rate
  if hpositive : 0 < normalized.number then
    if hsame : base = quote → normalized.number = 1 then
      .ok ⟨base, quote, normalized, hpositive, hsame⟩
    else .error (.invalidExchangeRate "same-currency rate must equal one")
  else .error (.invalidExchangeRate "rate must be positive")

theorem coefficient_ne_zero
    (r : ExchangeRate) :
    r.rate.value.coefficient ≠ 0 := by
  intro hzero
  exact absurd ((Decimal.value_eq_zero_iff _).mpr hzero) r.positive.ne'

end ExchangeRate

/-- `convert` -/
def convert (money : Money) (rate : ExchangeRate) : Except MoneyError Money :=
  if money.currency = rate.base then
    Money.calculated (Decimal.mul moneyContext money.amount.value rate.rate.value) rate.quote
  else if money.currency = rate.quote then
    Money.calculated (Decimal.div moneyContext money.amount.value rate.rate.value) rate.base
  else .error (.currencyMismatch "money currency is unrelated to the exchange rate")

section Convert

variable {r : ExchangeRate} {m c b : Money}

/-- A conversion from the base currency multiplies. -/
theorem convert_base
    (hbase : m.currency = r.base)
    (h : convert m r = .ok c) :
    Decimal.mul moneyContext m.amount.value r.rate.value = .ok c.amount.value ∧
      c.currency = r.quote := by
  rw [convert, if_pos hbase] at h
  exact Money.calculated_eq_ok.mp h

/-- What an operation has given is in range. -/
theorem inRange_of_finalize
    {d : Decimal} {a : Amount}
    (h : moneyContext.finalize d = .ok a.value) :
    InRange a := by
  by_cases hzero : d.coefficient = 0
  · left
    rw [← Decimal.value_eq_zero_iff, DecimalContext.finalize_value h]
    exact (Decimal.value_eq_zero_iff d).mpr hzero
  · obtain ⟨hfits, hvalue⟩ := (DecimalContext.finalize_eq_ok_iff hzero).mp h
    right
    rw [hvalue]
    exact hfits.adjusted_le

/-- **The way back divides what was multiplied**: to the same amount when it is in range. -/
theorem convert_quote
    {c : Amount} {m : Amount}
    (hrange : InRange m)
    (hmul : Decimal.mul moneyContext m.value r.rate.value = .ok c.value)
    (currency : Currency) :
    ∃ b, Money.calculated (Decimal.div moneyContext c.value r.rate.value) currency = .ok b := by
  by_cases hzero : m.value.coefficient = 0
  · -- a zero has lost its exponent to the clamp, if any
    have hproduct : (Decimal.exactProduct m.value r.rate.value).coefficient = 0 := by
      rw [Decimal.exactProduct, hzero, Nat.zero_mul]
    obtain ⟨exponent, hfinal, hexponent⟩ :=
      @DecimalContext.finalize_zero moneyContext _ hproduct (by decide)
    have hc : c.value = { Decimal.exactProduct m.value r.rate.value with exponent := exponent } :=
      Except.ok.inj (hmul.symm.trans hfinal)
    have hbounds := c.bounded.exponent_le
    have hown := m.bounded.exponent_le
    have hrate := r.rate.bounded.exponent_le
    have hcoefficient : c.value.coefficient = 0 := by
      rw [hc, hproduct]
    have hexp : c.value.exponent = exponent := by
      rw [hc]
    rw [hexp] at hbounds
    simp only [Decimal.exactProduct, moneyContext, DecimalContext.etiny, maxAbsExponent]
      at hexponent hbounds hown hrate
    have hquotient : (exponent - r.rate.value.exponent).natAbs ≤ maxAbsExponent := by
      simp only [maxAbsExponent]
      omega
    rw [Decimal.div_of_zero hcoefficient r.coefficient_ne_zero, hexp]
    obtain ⟨hbounded, hcalculate⟩ := calculate_finalize_zero
      (d := ⟨c.value.negative ^^ r.rate.value.negative, 0, exponent - r.rate.value.exponent⟩) rfl
      hquotient
    exact ⟨⟨⟨_, hbounded⟩, currency⟩,
      Money.calculated_eq_ok.mpr ⟨calculate_eq_ok.mp hcalculate, rfl⟩⟩
  · have hproduct : (Decimal.exactProduct m.value r.rate.value).coefficient ≠ 0 :=
      Nat.mul_ne_zero hzero r.coefficient_ne_zero
    obtain ⟨hfits, hc⟩ := (DecimalContext.finalize_eq_ok_iff hproduct).mp hmul
    have hdiv : Decimal.div moneyContext c.value r.rate.value = .ok m.value := by
      rw [hc, Decimal.div_exactProduct hzero r.coefficient_ne_zero hfits.digits_le]
      exact DecimalContext.finalize_of_fits (fits_of_bounded m.bounded hrange.adjusted_le)
    exact ⟨⟨m, currency⟩, Money.calculated_eq_ok.mpr ⟨hdiv, rfl⟩⟩

/-- Whatever comes back is the same money. -/
theorem convert_same
    (hbase : m.currency = r.base)
    (hconvert : convert m r = .ok c)
    (hback : convert c r = .ok b) :
    b.Same m := by
  obtain ⟨hmul, hquote⟩ := convert_base hbase hconvert
  have hnumber : c.number = m.number * r.rate.number := Decimal.mul_value hmul
  by_cases hsame : r.base = r.quote
  · obtain ⟨hagain, hcurrency⟩ := convert_base (hquote.trans hsame.symm) hback
    have hone := r.one_of_same hsame
    refine ⟨?_, by rw [hcurrency, hbase, hsame]⟩
    calc
      b.number = c.number * r.rate.number := Decimal.mul_value hagain
      _ = m.number := by rw [hnumber, hone, mul_one, mul_one]
  · have hne : c.currency ≠ r.base := by
      rw [hquote]
      exact fun h => hsame h.symm
    rw [convert, if_neg hne, if_pos hquote] at hback
    obtain ⟨hdiv, hcurrency⟩ := Money.calculated_eq_ok.mp hback
    refine ⟨?_, hcurrency.trans hbase.symm⟩
    calc
      b.number = c.number / r.rate.number := Decimal.div_value hdiv
      _ = m.number := by rw [hnumber, mul_div_cancel_right₀ _ r.positive.ne']

/--
**The way back**: whatever comes back is the same money, and it does come back when the
amount is in range, or when there is room for the zeros of a rate of one.
-/
theorem convert_back
    (r : ExchangeRate) (m c : Money)
    (hbase : m.currency = r.base)
    (hconvert : convert m r = .ok c) :
    (∀ b, convert c r = .ok b → b.Same m) ∧
    (r.base ≠ r.quote → InRange m.amount → ∃ b, convert c r = .ok b ∧ b.Same m) ∧
    (r.base = r.quote → HasRoom c.amount (-r.rate.value.exponent).toNat →
      ∃ b, convert c r = .ok b ∧ b.Same m) := by
  obtain ⟨hmul, hquote⟩ := convert_base hbase hconvert
  have hsame : ∀ b, convert c r = .ok b → b.Same m := fun b => convert_same hbase hconvert
  refine ⟨hsame, fun hne hrange => ?_, fun heq hroom => ?_⟩
  · have hother : c.currency ≠ r.base := by
      rw [hquote]
      exact hne.symm
    obtain ⟨b, hdiv⟩ := convert_quote hrange hmul r.base
    have hback : convert c r = .ok b := by
      rw [convert, if_neg hother, if_pos hquote, hdiv]
    exact ⟨b, hback, hsame b hback⟩
  · obtain ⟨b, hagain⟩ :=
      calculated_mul_one (inRange_of_finalize hmul) (r.one_of_same heq) hroom r.quote
    have hback : convert c r = .ok b := by
      rw [convert, if_pos (hquote.trans heq.symm), hagain]
    exact ⟨b, hback, hsame b hback⟩

end Convert

/-! ## Two ways back that fail -/

/-- A ten-billionth. -/
def oneE_10 : Amount :=
  ⟨⟨false, 1, -10⟩, by decide⟩

/-- One, with a zero behind its point. -/
def pointedOne : Amount :=
  ⟨⟨false, 10, -1⟩, by decide⟩

/-- An amount next to the smallest exponent. -/
def oneE_255 : Amount :=
  ⟨⟨false, 1, -255⟩, by decide⟩

/-- The same number, at the smallest exponent. -/
def tenE_256 : Amount :=
  ⟨⟨false, 10, -256⟩, by decide⟩

/-- A ten-billionth of the largest amount. -/
def tenE246 : Amount :=
  ⟨⟨false, 10, 246⟩, by decide⟩

/-- An amount without a sign is positive, unless it is zero. -/
theorem number_pos
    {a : Amount}
    (hsign : a.value.negative = false)
    (hne : a.value.coefficient ≠ 0) :
    0 < a.number := by
  have hpow : (0 : ℚ) < 10 ^ a.value.exponent := zpow_pos (by norm_num) _
  have hcoefficient : (0 : ℚ) < a.value.coefficient := by
    exact_mod_cast Nat.pos_of_ne_zero hne
  simp only [Amount.number, Decimal.value, Decimal.signed, hsign, Bool.false_eq_true, if_false,
    Int.cast_natCast]
  positivity

theorem usd_ne_eur :
    usd ≠ eur := by
  decide

/-- Dollars to euros at a rate of 1E-10. -/
def smallRate : ExchangeRate :=
  ⟨usd, eur, oneE_10, number_pos rfl (by decide), fun h => absurd h usd_ne_eur⟩

theorem pointedOne_number :
    pointedOne.number = 1 := by
  norm_num [pointedOne, Amount.number, Decimal.value, Decimal.signed]

/-- Dollars to dollars, at a one with a zero behind its point. -/
def pointedRate : ExchangeRate :=
  ⟨usd, usd, pointedOne, number_pos rfl (by decide), fun _ => pointedOne_number⟩

set_option maxRecDepth 50000 in
/-- An amount out of range, and one that has no room for zeros, are converted but not back. -/
theorem convert_lost :
    (convert tenE256 smallRate = .ok ⟨tenE246, eur⟩ ∧
      convert ⟨tenE246, eur⟩ smallRate =
        .error (.invalidAmount "amount must be a finite bounded decimal")) ∧
    convert ⟨oneE_255, usd⟩ pointedRate = .ok ⟨tenE_256, usd⟩ ∧
    convert ⟨tenE_256, usd⟩ pointedRate =
      .error (.invalidAmount "amount must be a finite bounded decimal") := by
  decide

/-- One dollar comes back. -/
theorem convert_back_oneDollar :
    ∃ c b, convert oneDollar smallRate = .ok c ∧ convert c smallRate = .ok b ∧
      b.Same oneDollar := by
  have hconvert : convert oneDollar smallRate = .ok ⟨oneE_10, eur⟩ := by
    decide
  obtain ⟨b, hback, hsame⟩ := (convert_back smallRate oneDollar _ rfl hconvert).2.1 usd_ne_eur
    (Or.inr (by decide))
  exact ⟨_, b, hconvert, hback, hsame⟩

end Monetary
end Bluetape
