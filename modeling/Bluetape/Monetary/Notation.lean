import Bluetape.Monetary.Arithmetic

/-!
# Notations of money

The primitive schema of an amount and a code, the canonical text of a code and a
fixed-point amount, and the count of minor units.

* `fromDict_toDict`: the schema gives back the same representation;
* `parseMoney_format`: the canonical text is read as long as its digits are few enough;
* `minorUnits_fromMinor`: a number of minor units is counted again;
* `money_round_trips`: the three together.
-/

namespace Bluetape
namespace Monetary

open Base

/-! ## The schema -/

namespace Money

/-- `to_dict` -/
def toDict (m : Money) : List (Text × Text) :=
  [(text "amount", m.amount.value.str), (text "currency", m.currency.row.code)]

/-- `from_dict`, of a mapping with strings -/
def fromDict (value : List (Text × Text)) : Except MoneyError Money := do
  let amount := value.lookup (text "amount")
  let currency := value.lookup (text "currency")
  raiseIf (amount = none ∨ currency = none ∨
      ∃ entry ∈ value, entry.1 ≠ text "amount" ∧ entry.1 ≠ text "currency")
    (.invalidAmount "value must contain exactly amount and currency")
  let currency ← getCurrency (currency.getD [])
  Money.of (.str (amount.getD [])) currency

/-! ## The canonical text -/

/-- `format`, without `quantize` -/
def format (m : Money) : Text :=
  m.currency.row.code ++ (text " " ++ m.amount.value.fixed)

end Money

/-- `[A-Za-z]` -/
def isLetter (p : CodePoint) : Bool :=
  decide (0x41 ≤ p.ord ∧ p.ord ≤ 0x5A ∨ 0x61 ≤ p.ord ∧ p.ord ≤ 0x7A)

/-- `_MONEY_PATTERN.fullmatch`, with its two groups -/
def matchMoney : Text → Option (Text × Text)
  | a :: b :: c :: .scalar ' ' :: amount =>
      if isLetter a && isLetter b && isLetter c && (Decimal.parse amount).isSome then
        some ([a, b, c], amount)
      else none
  | _ => none

/-- `parse_money` -/
def parseMoney (value : Text) : Except MoneyError Money := do
  raiseIf (maxTextLength + 4 < value.length)
    (.invalidAmount "text must contain at most 516 characters")
  let (code, amount) ← orRaise (.invalidAmount "text must use the strict money grammar")
    (matchMoney value)
  let currency ← getCurrency code
  Money.of (.str amount) currency

/-! ## Minor units -/

/--
`_quantum`: one shifted by the minor unit, by a `scaleb` in the caller's own context,
which is taken for one in which that number is exact, as the default context is.
-/
def quantum (minorUnit : Nat) : Decimal :=
  ⟨false, 1, -minorUnit⟩

/-- The integer that a decimal number is, if any. -/
def toIntegral? (d : Decimal) : Option Int :=
  if 0 ≤ d.exponent then some (d.signed * 10 ^ d.exponent.toNat)
  else if d.coefficient % 10 ^ (-d.exponent).toNat = 0 then
    some (d.signed / 10 ^ (-d.exponent).toNat)
  else none

namespace Money

/-- `from_minor` -/
def fromMinor (units : Int) (currency : Currency) : Except MoneyError Money :=
  match currency.row.minorUnit with
  | none => .error (.invalidCurrency "currency does not define a minor unit")
  | some minorUnit =>
      calculated (Decimal.scaleb moneyContext (.ofInt units 0) (-minorUnit)) currency

/-- `minor_units`, without `rounding` -/
def minorUnits (m : Money) : Except MoneyError Int :=
  match m.currency.row.minorUnit with
  | none => .error (.invalidCurrency "currency does not define a minor unit")
  | some minorUnit => do
      let scaled ← calculate
        (Decimal.div moneyContext m.amount.value (quantum minorUnit))
      orRaise (.invalidAmount "amount has fractional minor units") (toIntegral? scaled.value)

end Money

/-! ## What is read back -/

theorem isSpace_symbol :
    ∀ d : Fin 10, isSpace (decimalAlphabet.symbol d) = false := by
  decide

theorem isSpace_of_isNumeric
    {p : CodePoint}
    (h : Decimal.isNumeric p = true) :
    isSpace p = false := by
  simp only [Decimal.isNumeric, Bool.or_eq_true, decide_eq_true_eq] at h
  rcases h with (((hdigit | rfl) | rfl) | rfl) | rfl
  · obtain ⟨d, hd⟩ := Option.isSome_iff_exists.mp hdigit
    rw [decimalAlphabet.digit?_eq_some_iff.mp hd]
    exact isSpace_symbol d
  all_goals decide

/-- A notation has no space at its ends. -/
theorem isUntrimmed_of_numeric
    {t : Text}
    (h : ∀ p ∈ t, Decimal.isNumeric p = true) :
    isUntrimmed t = false := by
  have hhead : t.head?.any isSpace = false := by
    cases hp : t.head? with
    | none =>
        rfl
    | some p =>
        exact isSpace_of_isNumeric (h p (List.mem_of_mem_head? hp))
  have hlast : t.getLast?.any isSpace = false := by
    cases hp : t.getLast? with
    | none =>
        rfl
    | some p =>
        exact isSpace_of_isNumeric (h p (List.mem_of_getLast? hp))
  rw [isUntrimmed, hhead, hlast]
  rfl

/-- `parse_decimal` of a notation that is not too long. -/
theorem parseDecimal_numeric
    {errorType : String → MoneyError} {label : String} {t : Text} {d : Decimal}
    (hnumeric : ∀ p ∈ t, Decimal.isNumeric p = true)
    (hparse : Decimal.parse t = some d)
    (hlength : t.length ≤ maxTextLength) :
    parseDecimal errorType label (.str t) = validateDecimal errorType label (.finite d) := by
  have hne : t ≠ [] := by
    rintro rfl
    cases hparse
  simp only [parseDecimal, hne, isUntrimmed_of_numeric hnumeric, not_lt.mpr hlength, hparse,
    Bool.false_eq_true, or_self, if_false]

section Lengths

variable {d : Decimal}

theorem length_str_le
    (h : Bounded d) :
    d.str.length ≤ maxTextLength := by
  have hdigits := h.digits_le
  have hexponent := h.exponent_le
  have hsign := Decimal.length_signText_le d.negative
  have hplaced := Decimal.length_placed_le d
  have hscientific := Decimal.length_scientific d
  have hadjusted : digitCount d.adjusted.natAbs ≤ 3 := by
    rw [digitCount_le_iff (by decide)]
    simp only [Decimal.adjusted, maxCoefficientDigits, maxAbsExponent] at *
    omega
  simp only [maxTextLength, maxCoefficientDigits, maxAbsExponent] at *
  unfold Decimal.str
  rw [List.length_append]
  split
  · next hplain =>
      have hzero : d.exponent.toNat = 0 := by omega
      omega
  · omega

/-- The fixed-point notation is short when the digits before the point are few. -/
theorem length_fixed_le
    (h : Bounded d)
    (hshort : d.coefficient = 0 ∨ d.digits + d.exponent ≤ 256) :
    d.fixed.length ≤ maxTextLength := by
  have hdigits := h.digits_le
  have hexponent := h.exponent_le
  have hsign := Decimal.length_signText_le d.negative
  simp only [maxTextLength, maxCoefficientDigits, maxAbsExponent] at *
  unfold Decimal.fixed
  rw [List.length_append]
  split
  · next hzero =>
      have hplaced := Decimal.length_placed_le { d with exponent := 0 }
      have hsame : ({ d with exponent := 0 } : Decimal).digits = d.digits := rfl
      rw [hsame] at hplaced
      simp only [Int.toNat_zero, Int.neg_zero] at hplaced
      omega
  · next hnot =>
      have hplaced := Decimal.length_placed_le d
      omega

end Lengths

/-! ## The schema, read back -/

/-- **The schema** gives back the same representation. -/
theorem fromDict_toDict
    (m : Money) :
    Money.fromDict m.toDict = .ok m := by
  have hparse : parseDecimal .invalidAmount "amount" (.str m.amount.value.str) =
      .ok m.amount := by
    rw [parseDecimal_numeric (fun p => Decimal.isNumeric_str) (Decimal.parse_str _)
      (length_str_le m.amount.bounded), validateDecimal_of_bounded m.amount.bounded]
  have hamount : m.toDict.lookup (text "amount") = some m.amount.value.str := by
    simp [Money.toDict]
  have hcurrency : m.toDict.lookup (text "currency") = some m.currency.row.code := by
    have hne : (text "currency" == text "amount") = false := by decide
    simp [Money.toDict, List.lookup_cons, hne]
  have hkeys : ¬ ∃ entry ∈ m.toDict, entry.1 ≠ text "amount" ∧ entry.1 ≠ text "currency" := by
    simp [Money.toDict]
  unfold Money.fromDict
  rw [hamount, hcurrency]
  simp only [raiseIf, hkeys, reduceCtorEq, or_self, if_false, Option.getD_some]
  refine except_bind_eq_ok.mpr ⟨(), rfl, except_bind_eq_ok.mpr ⟨_, getCurrency_code _, ?_⟩⟩
  exact except_bind_eq_ok.mpr ⟨m.amount, hparse, rfl⟩

/-! ## The canonical text, read back -/

set_option maxRecDepth 50000 in
theorem code_letters :
    ∀ row ∈ currencyRows, row.code.all isLetter = true := by
  decide

/-- The canonical text is a code and a numeric string. -/
theorem matchMoney_format
    (m : Money) :
    matchMoney m.format = some (m.currency.row.code, m.amount.value.fixed) := by
  have hletters := code_letters m.currency.row m.currency.registered
  have hlength := (code_capitals m.currency.row m.currency.registered).1
  obtain ⟨a, b, c, hcode⟩ := List.length_eq_three.mp hlength
  have hparse : (Decimal.parse m.amount.value.fixed).isSome = true := by
    rw [Decimal.parse_fixed]
    rfl
  rw [hcode] at hletters
  simp only [List.all_cons, List.all_nil, Bool.and_true, Bool.and_eq_true] at hletters
  rw [Money.format, hcode]
  change matchMoney (a :: b :: c :: .scalar ' ' :: m.amount.value.fixed) = _
  rw [matchMoney, hletters.1, hletters.2.1, hletters.2.2, hparse]
  rfl

theorem length_format
    (m : Money) :
    m.format.length = m.amount.value.fixed.length + 4 := by
  have hlength := (code_capitals m.currency.row m.currency.registered).1
  rw [Money.format, List.length_append, List.length_append, hlength]
  simp [text]
  omega

/-- Short texts are read as the number that they write out. -/
theorem parseMoney_format
    (m : Money)
    (hshort : m.amount.value.fixed.length ≤ maxTextLength) :
    parseMoney m.format = (validateDecimal .invalidAmount "amount" (.finite
      ⟨m.amount.value.negative, m.amount.value.coefficient * 10 ^ m.amount.value.exponent.toNat,
        min m.amount.value.exponent 0⟩)).map fun amount => ⟨amount, m.currency⟩ := by
  have hparse := @parseDecimal_numeric .invalidAmount "amount" _ _
    (fun p => Decimal.isNumeric_fixed) (Decimal.parse_fixed m.amount.value) hshort
  have hlength : ¬ maxTextLength + 4 < m.format.length := by
    rw [length_format]
    omega
  unfold parseMoney
  simp only [raiseIf, if_neg hlength, matchMoney_format, orRaise]
  change (getCurrency m.currency.row.code >>= fun currency =>
    Money.of (.str m.amount.value.fixed) currency) = _
  rw [getCurrency_code]
  change (parseDecimal .invalidAmount "amount" (.str m.amount.value.fixed) >>= fun amount =>
    pure (⟨amount, m.currency⟩ : Money)) = _
  rw [hparse]
  rfl

/-- A positive exponent written out. -/
theorem value_written
    (d : Decimal) :
    (⟨d.negative, d.coefficient * 10 ^ d.exponent.toNat, min d.exponent 0⟩ : Decimal).value =
      d.value := by
  have hshift := Decimal.value_shift d.negative d.coefficient d.exponent.toNat d.exponent
  have hexponent : d.exponent - d.exponent.toNat = min d.exponent 0 := by
    omega
  rw [← hexponent, hshift]

/-- The digits before the point are few enough for an amount. -/
theorem bounded_written_iff
    {d : Decimal}
    (h : Bounded d) :
    Bounded ⟨d.negative, d.coefficient * 10 ^ d.exponent.toNat, min d.exponent 0⟩ ↔
      d.coefficient = 0 ∨ d.digits + d.exponent ≤ 256 := by
  have hdigits := h.digits_le
  have hexponent := h.exponent_le
  simp only [maxCoefficientDigits, maxAbsExponent] at hdigits hexponent
  have hlow : (min d.exponent 0).natAbs ≤ maxAbsExponent := by
    simp only [maxAbsExponent]
    omega
  by_cases hzero : d.coefficient = 0
  · have hone : digitCount 0 ≤ maxCoefficientDigits := by decide
    refine ⟨fun _ => Or.inl hzero, fun _ => ⟨?_, hlow⟩⟩
    simpa [Decimal.digits, hzero] using hone
  · have hcount : (⟨d.negative, d.coefficient * 10 ^ d.exponent.toNat, min d.exponent 0⟩ :
        Decimal).digits = d.digits + d.exponent.toNat :=
      digitCount_mul_pow hzero _
    constructor
    · intro hbounded
      have hle := hbounded.digits_le
      simp only [hcount, maxCoefficientDigits] at hle
      right
      omega
    · intro hshort
      have hle := hshort.resolve_left hzero
      refine ⟨?_, hlow⟩
      simp only [hcount, maxCoefficientDigits]
      omega

/-- A text that is too long for an amount is not read. -/
theorem parseMoney_long
    {m r : Money}
    (h : parseMoney m.format = .ok r) :
    m.amount.value.fixed.length ≤ maxTextLength := by
  by_contra hlong
  have hlength : maxTextLength + 4 < m.format.length := by
    rw [length_format]
    omega
  rw [parseMoney, raiseIf, if_pos hlength] at h
  cases h

/-- **The canonical text** is read back exactly when its digits before the point are few. -/
theorem parseMoney_format_iff
    (m : Money) :
    (∃ r, parseMoney m.format = .ok r ∧ r.Same m) ↔
      m.amount.value.coefficient = 0 ∨ m.amount.value.digits + m.amount.value.exponent ≤ 256 := by
  rw [← bounded_written_iff m.amount.bounded]
  constructor
  · rintro ⟨r, hparse, -⟩
    rw [parseMoney_format m (parseMoney_long hparse)] at hparse
    by_contra hnot
    rw [validateDecimal, dif_neg hnot] at hparse
    cases hparse
  · intro hbounded
    have hshort := length_fixed_le m.amount.bounded
      ((bounded_written_iff m.amount.bounded).mp hbounded)
    refine ⟨⟨⟨_, hbounded⟩, m.currency⟩, ?_, value_written m.amount.value, rfl⟩
    rw [parseMoney_format m hshort, validateDecimal_of_bounded hbounded]
    rfl

/-! ## Minor units, counted again -/

/-- Units are shifted as they are. -/
theorem scaleb_units
    {units : Int} {minorUnit : Nat} {a : Amount}
    (h : Decimal.scaleb moneyContext (.ofInt units 0) (-minorUnit) = .ok a.value) :
    a.value = ⟨decide (units < 0), units.natAbs, -minorUnit⟩ := by
  unfold Decimal.scaleb at h
  split at h
  case isTrue hbound =>
      rw [show (Decimal.ofInt units 0).exponent + -(minorUnit : Int) = -minorUnit from
        Int.zero_add _] at h
      by_cases hzero : units.natAbs = 0
      · have hbounds := a.bounded.exponent_le
        obtain ⟨exponent, hfinal, hexponent⟩ := @DecimalContext.finalize_zero moneyContext
          { Decimal.ofInt units 0 with exponent := -(minorUnit : Int) } hzero (by decide)
        have ha := Except.ok.inj (h.symm.trans hfinal)
        rw [ha] at hbounds
        simp only [maxAbsExponent, moneyContext, DecimalContext.etiny] at hbounds hexponent
        have hsame : exponent = -(minorUnit : Int) := by
          omega
        rw [ha, hsame]
        rfl
      · obtain ⟨-, ha⟩ := (DecimalContext.finalize_eq_ok_iff hzero).mp h
        exact ha
  case isFalse =>
      cases h

/-- What was shifted is divided by the quantum to the units again. -/
theorem div_quantum
    {units : Int} {minorUnit : Nat} {a : Amount}
    (ha : a.value = ⟨decide (units < 0), units.natAbs, -minorUnit⟩) :
    ∃ scaled, calculate (Decimal.div moneyContext a.value (quantum minorUnit)) = .ok scaled ∧
      scaled.value = .ofInt units 0 := by
  have hdigits := a.bounded.digits_le
  rw [ha] at hdigits
  simp only [Decimal.digits, maxCoefficientDigits] at hdigits
  have hbounded : Bounded (.ofInt units 0) := ⟨hdigits, Nat.zero_le _⟩
  have hrange : (Decimal.ofInt units 0).adjusted ≤ 256 := by
    simp only [Decimal.adjusted, Decimal.digits, Decimal.ofInt]
    omega
  refine ⟨⟨_, hbounded⟩, ?_, rfl⟩
  rw [calculate_eq_ok, ha]
  by_cases hzero : units = 0
  · subst hzero
    have hexponent : (-(minorUnit : Int)) - (quantum minorUnit).exponent = 0 :=
      Int.sub_self _
    rw [Decimal.div_of_zero rfl Nat.one_ne_zero, hexponent]
    rfl
  · have hproduct : (⟨decide (units < 0), units.natAbs, -minorUnit⟩ : Decimal) =
        Decimal.exactProduct (.ofInt units 0) (quantum minorUnit) := by
      simp [Decimal.exactProduct, Decimal.ofInt, quantum]
    have hcount : (Decimal.exactProduct (.ofInt units 0) (quantum minorUnit)).digits ≤
        moneyContext.precision := by
      rw [← hproduct]
      exact hdigits
    rw [hproduct, Decimal.div_exactProduct (Int.natAbs_ne_zero.mpr hzero) Nat.one_ne_zero hcount]
    exact DecimalContext.finalize_of_fits (fits_of_bounded hbounded hrange)

/-- **Minor units** are counted again. -/
theorem minorUnits_fromMinor
    {units : Int} {currency : Currency} {m : Money}
    (h : Money.fromMinor units currency = .ok m) :
    m.minorUnits = .ok units := by
  unfold Money.fromMinor at h
  split at h
  · cases h
  · next minorUnit hminor =>
      obtain ⟨hscaled, hcurrency⟩ := Money.calculated_eq_ok.mp h
      obtain ⟨scaled, hdiv, hvalue⟩ := div_quantum (scaleb_units hscaled)
      have hintegral : toIntegral? scaled.value = some units := by
        rw [hvalue]
        have hexponent : (0 : Int) ≤ (Decimal.ofInt units 0).exponent := le_rfl
        have hshift : (10 : Int) ^ (Decimal.ofInt units 0).exponent.toNat = 1 := rfl
        rw [toIntegral?, if_pos hexponent, hshift, Int.mul_one, Decimal.signed_ofInt]
      unfold Money.minorUnits
      rw [hcurrency, hminor]
      refine except_bind_eq_ok.mpr ⟨scaled, hdiv, ?_⟩
      rw [hintegral]
      rfl

/-- Both notations of the money are read back as the same money. -/
def RoundTrips (m : Money) : Prop :=
  (∃ r, Money.fromDict m.toDict = .ok r ∧ r.Same m) ∧
    ∃ r, parseMoney m.format = .ok r ∧ r.Same m

/--
**Round trips of money**: through the schema and the canonical text when the digits before
the point are few, and through minor units always.
-/
theorem money_round_trips
    (m : Money) :
    (RoundTrips m ↔ m.amount.value.coefficient = 0 ∨
      m.amount.value.digits + m.amount.value.exponent ≤ 256) ∧
    ∀ units currency m', Money.fromMinor units currency = .ok m' →
      m'.minorUnits = .ok units := by
  refine ⟨?_, fun units currency m' h => minorUnits_fromMinor h⟩
  rw [← parseMoney_format_iff m]
  exact ⟨fun h => h.2, fun h => ⟨⟨m, fromDict_toDict m, rfl, rfl⟩, h⟩⟩

/-- One at the largest exponent. -/
def oneE256 : Money :=
  ⟨⟨⟨false, 1, 256⟩, by decide⟩, usd⟩

set_option maxRecDepth 50000 in
/-- An amount whose canonical text has a digit too many for the parser. -/
theorem money_format_rejected :
    parseMoney oneE256.format =
        .error (.invalidAmount "amount must be a finite bounded decimal") ∧
      ¬ RoundTrips oneE256 := by
  have hrejected : parseMoney oneE256.format =
      .error (.invalidAmount "amount must be a finite bounded decimal") := by
    decide
  refine ⟨hrejected, fun h => ?_⟩
  obtain ⟨r, hparse, -⟩ := h.2
  rw [hrejected] at hparse
  cases hparse

end Monetary
end Bluetape
