import Bluetape.Base.DecimalArithmetic
import Bluetape.Base.Radix

/-!
# Decimal numbers as texts

The texts of decimal numbers: the grammar of numeric strings, the string that shows sign,
coefficient and exponent, and the fixed-point notation, which has no exponent.

* `parse_str`: the string is read back as it was;
* `parse_fixed`: the fixed-point notation is read back, a positive exponent written out.
-/

namespace Bluetape
namespace Base

/-! ## Numerals -/

/-- The ASCII digits. -/
def decimalAlphabet : Alphabet 10 where
  symbols := text "0123456789"
  length_symbols := by decide
  nodup := by decide

/-- The digits of a number, without leading zeros. -/
def numeral (n : Nat) : List (Fin 10) :=
  writeDigits (digitCount n) n

@[simp] theorem length_numeral
    (n : Nat) :
    (numeral n).length = digitCount n :=
  length_writeDigits _ _

theorem readDigits_numeral
    (n : Nat) :
    readDigits (numeral n) = n :=
  readDigits_writeDigits (lt_pow_digitCount n)

theorem numeral_ne_nil
    (n : Nat) :
    numeral n ≠ [] := by
  refine List.ne_nil_of_length_pos ?_
  rw [length_numeral]
  exact Nat.succ_pos _

/-- Leading zeros count nothing. -/
theorem readDigits_zeros_append
    (k : Nat) (ds : List (Fin 10)) :
    readDigits (List.replicate k 0 ++ ds) = readDigits ds := by
  induction k with
  | zero =>
      rfl
  | succ k ih =>
      rw [List.replicate_succ, List.cons_append, readDigits_cons, ih]
      simp

/-- Zeros at the end multiply. -/
theorem readDigits_append_zeros
    (ds : List (Fin 10)) (k : Nat) :
    readDigits (ds ++ List.replicate k 0) = readDigits ds * 10 ^ k := by
  have hzeros : readDigits (List.replicate k (0 : Fin 10)) = 0 := by
    have h := readDigits_zeros_append k []
    rwa [List.append_nil, readDigits_nil] at h
  rw [readDigits_append, hzeros, List.length_replicate, Nat.add_zero]

/-- The digits at the front of a text, and the rest. -/
def scanNumeral : Text → List (Fin 10) × Text
  | [] => ([], [])
  | p :: t =>
      match decimalAlphabet.digit? p with
      | none => ([], p :: t)
      | some d => (d :: (scanNumeral t).1, (scanNumeral t).2)

/-- The text does not go on with a digit. -/
def NoDigit (t : Text) : Prop :=
  ∀ p, t.head? = some p → decimalAlphabet.digit? p = none

theorem scanNumeral_of_noDigit
    {t : Text}
    (h : NoDigit t) :
    scanNumeral t = ([], t) := by
  cases t with
  | nil =>
      rfl
  | cons p t =>
      rw [scanNumeral, h p rfl]

theorem scanNumeral_spell_append
    (ds : List (Fin 10)) {t : Text}
    (h : NoDigit t) :
    scanNumeral (decimalAlphabet.spell ds ++ t) = (ds, t) := by
  induction ds with
  | nil =>
      exact scanNumeral_of_noDigit h
  | cons d ds ih =>
      have hdigit : decimalAlphabet.digit? (decimalAlphabet.symbol d) = some d :=
        decimalAlphabet.digit?_eq_some_iff.mpr rfl
      change scanNumeral (decimalAlphabet.symbol d :: (decimalAlphabet.spell ds ++ t)) = _
      rw [scanNumeral, hdigit]
      simp only [ih]

namespace Decimal

/-! ## The grammar -/

/-- An optional sign, true for a minus. -/
def scanSign : Text → Bool × Text
  | .scalar '-' :: t => (true, t)
  | .scalar '+' :: t => (false, t)
  | t => (false, t)

/-- An optional point and the digits after it. -/
def scanFraction : Text → List (Fin 10) × Text
  | .scalar '.' :: t => scanNumeral t
  | t => ([], t)

/-- An optional exponent, with which the text ends. -/
def scanExponent : Text → Option Int
  | [] => some 0
  | p :: t =>
      if p = .scalar 'e' ∨ p = .scalar 'E' then
        let (negative, t) := scanSign t
        let (ds, rest) := scanNumeral t
        if ds = [] ∨ rest ≠ [] then none
        else some (if negative then -(readDigits ds : Int) else readDigits ds)
      else none

/-- The number that a numeric string denotes. -/
def parse (t : Text) : Option Decimal :=
  let (negative, t) := scanSign t
  let (whole, t) := scanNumeral t
  let (fraction, t) := scanFraction t
  if whole = [] ∧ fraction = [] then none
  else (scanExponent t).map fun exponent =>
    ⟨negative, readDigits (whole ++ fraction), exponent - fraction.length⟩

/-! ## Notations -/

/-- The sign of a negative number. -/
def signText (negative : Bool) : Text :=
  if negative then text "-" else []

/-- The digits with the point at its place, and zeros up to it. -/
def placed (d : Decimal) : Text :=
  let ds := numeral d.coefficient
  if 0 ≤ d.exponent then decimalAlphabet.spell (ds ++ List.replicate d.exponent.toNat 0)
  else
    let place : Int := ds.length + d.exponent
    if place ≤ 0 then
      decimalAlphabet.spell [0] ++
        (text "." ++ decimalAlphabet.spell (List.replicate (-place).toNat 0 ++ ds))
    else
      decimalAlphabet.spell (ds.take place.toNat) ++
        (text "." ++ decimalAlphabet.spell (ds.drop place.toNat))

/-- The exponent of the scientific notation. -/
def exponentText (exponent : Int) : Text :=
  text "E" ++ (text (if exponent < 0 then "-" else "+") ++
    decimalAlphabet.spell (numeral exponent.natAbs))

/-- The scientific notation. -/
def scientific (d : Decimal) : Text :=
  let ds := numeral d.coefficient
  let fraction := ds.drop 1
  decimalAlphabet.spell (ds.take 1) ++
    ((if fraction = [] then [] else text "." ++ decimalAlphabet.spell fraction) ++
      exponentText d.adjusted)

/-- `str` of a decimal number. -/
def str (d : Decimal) : Text :=
  signText d.negative ++ if d.exponent ≤ 0 ∧ -6 ≤ d.adjusted then d.placed else d.scientific

/-- The format `f` of a decimal number; a zero loses a positive exponent. -/
def fixed (d : Decimal) : Text :=
  signText d.negative ++
    (if d.coefficient = 0 ∧ 0 < d.exponent then { d with exponent := 0 } else d).placed

/-! ## Lengths and characters -/

/-- The characters of the notations. -/
def isNumeric (p : CodePoint) : Bool :=
  (decimalAlphabet.digit? p).isSome || p = .scalar '-' || p = .scalar '+' || p = .scalar '.' ||
    p = .scalar 'E'

theorem isNumeric_spell
    {ds : List (Fin 10)} {p : CodePoint}
    (hp : p ∈ decimalAlphabet.spell ds) :
    isNumeric p = true := by
  obtain ⟨d, -, rfl⟩ := List.mem_map.mp hp
  have hdigit : decimalAlphabet.digit? (decimalAlphabet.symbol d) = some d :=
    decimalAlphabet.digit?_eq_some_iff.mpr rfl
  simp [isNumeric, hdigit]

theorem isNumeric_point
    {p : CodePoint}
    (hp : p ∈ text ".") :
    isNumeric p = true := by
  obtain rfl := List.mem_singleton.mp hp
  rfl

theorem isNumeric_signText
    {negative : Bool} {p : CodePoint}
    (hp : p ∈ signText negative) :
    isNumeric p = true := by
  cases negative with
  | true =>
      obtain rfl := List.mem_singleton.mp hp
      rfl
  | false =>
      cases hp

theorem isNumeric_placed
    {d : Decimal} {p : CodePoint}
    (hp : p ∈ d.placed) :
    isNumeric p = true := by
  unfold placed at hp
  dsimp only at hp
  split at hp
  · exact isNumeric_spell hp
  · split at hp
    · simp only [List.mem_append] at hp
      rcases hp with hp | hp | hp
      · exact isNumeric_spell hp
      · exact isNumeric_point hp
      · exact isNumeric_spell hp
    · simp only [List.mem_append] at hp
      rcases hp with hp | hp | hp
      · exact isNumeric_spell hp
      · exact isNumeric_point hp
      · exact isNumeric_spell hp

theorem isNumeric_exponentText
    {exponent : Int} {p : CodePoint}
    (hp : p ∈ exponentText exponent) :
    isNumeric p = true := by
  simp only [exponentText, List.mem_append] at hp
  rcases hp with hp | hp | hp
  · obtain rfl := List.mem_singleton.mp hp
    rfl
  · split at hp
    · obtain rfl := List.mem_singleton.mp hp
      rfl
    · obtain rfl := List.mem_singleton.mp hp
      rfl
  · exact isNumeric_spell hp

theorem isNumeric_scientific
    {d : Decimal} {p : CodePoint}
    (hp : p ∈ d.scientific) :
    isNumeric p = true := by
  simp only [scientific, List.mem_append] at hp
  rcases hp with hp | hp | hp
  · exact isNumeric_spell hp
  · split at hp
    · cases hp
    · rcases List.mem_append.mp hp with hp | hp
      · exact isNumeric_point hp
      · exact isNumeric_spell hp
  · exact isNumeric_exponentText hp

theorem isNumeric_str
    {d : Decimal} {p : CodePoint}
    (hp : p ∈ d.str) :
    isNumeric p = true := by
  rcases List.mem_append.mp hp with hp | hp
  · exact isNumeric_signText hp
  · split at hp
    · exact isNumeric_placed hp
    · exact isNumeric_scientific hp

theorem isNumeric_fixed
    {d : Decimal} {p : CodePoint}
    (hp : p ∈ d.fixed) :
    isNumeric p = true := by
  rcases List.mem_append.mp hp with hp | hp
  · exact isNumeric_signText hp
  · exact isNumeric_placed hp

@[simp] theorem length_spell
    (ds : List (Fin 10)) :
    (decimalAlphabet.spell ds).length = ds.length := by
  simp [Alphabet.spell]

@[simp] theorem length_point :
    (text ".").length = 1 := by
  rfl

theorem length_signText_le
    (negative : Bool) :
    (signText negative).length ≤ 1 := by
  cases negative <;> decide

/-- The digits and the zeros up to the point. -/
theorem length_placed_le
    (d : Decimal) :
    d.placed.length ≤ max (d.digits + d.exponent.toNat + 1) (2 + (-d.exponent).toNat) := by
  have hdigits : d.digits = digitCount d.coefficient := rfl
  unfold placed
  dsimp only
  split
  · simp only [length_spell, List.length_append, length_numeral, List.length_replicate]
    omega
  · split
    · simp only [length_spell, List.length_append, length_numeral, List.length_replicate,
        length_point, List.length_cons, List.length_nil] at *
      omega
    · simp only [length_spell, List.length_append, List.length_take, List.length_drop,
        length_numeral, length_point] at *
      omega

theorem length_scientific
    (d : Decimal) :
    d.scientific.length ≤ d.digits + 3 + digitCount d.adjusted.natAbs := by
  have hpos : 1 ≤ digitCount d.coefficient := Nat.le_add_left 1 _
  have hdigits : d.digits = digitCount d.coefficient := rfl
  have hexponent : (exponentText d.adjusted).length = 2 + digitCount d.adjusted.natAbs := by
    unfold exponentText
    rw [List.length_append, List.length_append, length_spell, length_numeral]
    split <;> simp [text] <;> omega
  unfold scientific
  dsimp only
  rw [List.length_append, List.length_append, hexponent, length_spell, List.length_take,
    length_numeral]
  split
  · simp only [List.length_nil]
    omega
  · rw [List.length_append, length_point, length_spell, List.length_drop, length_numeral]
    omega

/-! ## Reading -/

section Reading

variable {negative : Bool} {whole fraction : List (Fin 10)} {rest : Text} {exponent : Int}

theorem digit?_point :
    decimalAlphabet.digit? (.scalar '.') = none := by
  decide

theorem digit?_exponentMark :
    decimalAlphabet.digit? (.scalar 'E') = none := by
  decide

theorem scanSign_spell
    (negative : Bool) (d : Fin 10) (t : Text) :
    scanSign (signText negative ++ decimalAlphabet.symbol d :: t) =
      (negative, decimalAlphabet.symbol d :: t) := by
  cases negative with
  | true =>
      rfl
  | false =>
      fin_cases d <;> rfl

/-- A text that starts with digits, after its sign. -/
theorem scanSign_whole
    (negative : Bool) (hwhole : whole ≠ []) (rest : Text) :
    scanSign (signText negative ++ (decimalAlphabet.spell whole ++ rest)) =
      (negative, decimalAlphabet.spell whole ++ rest) := by
  cases whole with
  | nil =>
      exact absurd rfl hwhole
  | cons d ds =>
      exact scanSign_spell negative d _

/-- What follows the digits is an exponent or nothing. -/
def Ends (rest : Text) (exponent : Int) : Prop :=
  NoDigit rest ∧ (∀ t, rest ≠ .scalar '.' :: t) ∧ scanExponent rest = some exponent

theorem ends_nil :
    Ends [] 0 :=
  ⟨fun _ hp => (by cases hp), fun _ ht => (by cases ht), rfl⟩

theorem ends_exponentText
    (exponent : Int) :
    Ends (exponentText exponent) exponent := by
  refine ⟨fun p hp => ?_, fun t ht => ?_, ?_⟩
  · obtain rfl := Option.some.inj hp
    exact digit?_exponentMark
  · exact absurd (List.cons.inj ht).1 (by decide)
  · have hscan : scanSign (text (if exponent < 0 then "-" else "+") ++
        decimalAlphabet.spell (numeral exponent.natAbs)) =
        (decide (exponent < 0), decimalAlphabet.spell (numeral exponent.natAbs)) := by
      by_cases hneg : exponent < 0
      · simp only [hneg, if_true, decide_true]
        rfl
      · simp only [hneg, if_false, decide_false]
        rfl
    have hnumeral : scanNumeral (decimalAlphabet.spell (numeral exponent.natAbs)) =
        (numeral exponent.natAbs, []) := by
      have h := scanNumeral_spell_append (numeral exponent.natAbs) ends_nil.1
      rwa [List.append_nil] at h
    change scanExponent (.scalar 'E' :: (text (if exponent < 0 then "-" else "+") ++
      decimalAlphabet.spell (numeral exponent.natAbs))) = _
    rw [scanExponent, if_pos (Or.inr rfl), hscan]
    simp only [hnumeral, numeral_ne_nil, ne_eq, not_true_eq_false, or_self, if_false,
      readDigits_numeral]
    congr 1
    by_cases hneg : exponent < 0
    · simp only [hneg, decide_true, if_true]
      omega
    · simp only [hneg, decide_false, Bool.false_eq_true, if_false]
      omega

theorem scanFraction_of_ends
    (h : Ends rest exponent) :
    scanFraction rest = ([], rest) := by
  unfold scanFraction
  split
  · next t =>
      exact absurd rfl (h.2.1 t)
  · rfl

/-- Digits without a point. -/
theorem parse_whole
    (negative : Bool) (hwhole : whole ≠ [])
    (hends : Ends rest exponent) :
    parse (signText negative ++ (decimalAlphabet.spell whole ++ rest)) =
      some ⟨negative, readDigits whole, exponent⟩ := by
  unfold parse
  simp only [scanSign_whole negative hwhole, scanNumeral_spell_append whole hends.1,
    scanFraction_of_ends hends, hwhole, false_and, if_false, hends.2.2, Option.map_some,
    List.append_nil, List.length_nil, Nat.cast_zero, Int.sub_zero]

/-- Digits with a point. -/
theorem parse_point
    (negative : Bool) (hwhole : whole ≠ []) (fraction : List (Fin 10))
    (hends : Ends rest exponent) :
    parse (signText negative ++ (decimalAlphabet.spell whole ++
        (text "." ++ (decimalAlphabet.spell fraction ++ rest)))) =
      some ⟨negative, readDigits (whole ++ fraction), exponent - fraction.length⟩ := by
  have hpoint : NoDigit (text "." ++ (decimalAlphabet.spell fraction ++ rest)) := by
    intro p hp
    obtain rfl := Option.some.inj hp
    exact digit?_point
  have hfraction : scanFraction (text "." ++ (decimalAlphabet.spell fraction ++ rest)) =
      (fraction, rest) :=
    scanNumeral_spell_append fraction hends.1
  unfold parse
  simp only [scanSign_whole negative hwhole, scanNumeral_spell_append whole hpoint, hfraction,
    hwhole, false_and, if_false, hends.2.2, Option.map_some]

/-- The placed digits are read back: a positive exponent as zeros, any other as it is. -/
theorem parse_placed
    (d : Decimal) (hends : Ends rest exponent) :
    parse (signText d.negative ++ (d.placed ++ rest)) =
      some ⟨d.negative, d.coefficient * 10 ^ d.exponent.toNat,
        min d.exponent 0 + exponent⟩ := by
  unfold placed
  by_cases hexponent : 0 ≤ d.exponent
  · have hne : numeral d.coefficient ++ List.replicate d.exponent.toNat 0 ≠ [] := by
      simp [numeral_ne_nil]
    simp only [if_pos hexponent]
    rw [parse_whole d.negative hne hends, readDigits_append_zeros, readDigits_numeral,
      min_eq_right hexponent, Int.zero_add]
  · have hzero : d.exponent.toNat = 0 := by omega
    simp only [if_neg hexponent, hzero, Nat.pow_zero, Nat.mul_one]
    rw [min_eq_left (by omega)]
    by_cases hplace : ((numeral d.coefficient).length : Int) + d.exponent ≤ 0
    · rw [if_pos hplace, List.append_assoc, List.append_assoc,
        parse_point d.negative (List.cons_ne_nil _ _) _ hends]
      have hread : ∀ k, readDigits ([0] ++ (List.replicate k 0 ++ numeral d.coefficient)) =
          d.coefficient := by
        intro k
        rw [← List.append_assoc, ← List.replicate_one, List.replicate_append_replicate,
          readDigits_zeros_append, readDigits_numeral]
      rw [hread, List.length_append, List.length_replicate]
      congr 2
      push_cast
      omega
    · rw [if_neg hplace, List.append_assoc, List.append_assoc,
        parse_point d.negative ?_ _ hends, List.take_append_drop, readDigits_numeral,
        List.length_drop]
      · congr 2
        omega
      · intro hnil
        rw [List.take_eq_nil_iff] at hnil
        rcases hnil with hnil | hnil
        · omega
        · exact numeral_ne_nil _ hnil

theorem parse_scientific
    (d : Decimal) :
    parse (signText d.negative ++ d.scientific) = some d := by
  have htake : (numeral d.coefficient).take 1 ≠ [] := by
    simp [numeral_ne_nil]
  have hlength : ((numeral d.coefficient).drop 1).length = d.digits - 1 := by
    rw [List.length_drop, length_numeral]
    rfl
  unfold scientific
  by_cases hdrop : (numeral d.coefficient).drop 1 = []
  · have hwhole : (numeral d.coefficient).take 1 = numeral d.coefficient := by
      have h := List.take_append_drop 1 (numeral d.coefficient)
      rwa [hdrop, List.append_nil] at h
    have hone : d.digits - 1 = 0 := by
      rw [← hlength, hdrop]
      rfl
    have hadjusted : d.adjusted = d.exponent := by
      have hpos : 1 ≤ d.digits := Nat.le_add_left 1 _
      unfold adjusted
      omega
    simp only [hdrop, if_true, List.nil_append]
    rw [parse_whole d.negative htake (ends_exponentText _), hwhole, readDigits_numeral, hadjusted]
  · simp only [hdrop, if_false, List.append_assoc]
    rw [parse_point d.negative htake _ (ends_exponentText _), List.take_append_drop,
      readDigits_numeral, hlength]
    have hexponent : d.adjusted - ((d.digits - 1 : Nat) : Int) = d.exponent := by
      have hpos : 1 ≤ d.digits := Nat.le_add_left 1 _
      unfold adjusted
      omega
    rw [hexponent]

/-- **The string of a number** is read back as the number, sign and exponent included. -/
theorem parse_str
    (d : Decimal) :
    parse d.str = some d := by
  unfold str
  by_cases hplain : d.exponent ≤ 0 ∧ -6 ≤ d.adjusted
  · have hparse := parse_placed d ends_nil
    rw [List.append_nil, min_eq_left hplain.1, Int.add_zero] at hparse
    have hzero : d.exponent.toNat = 0 := by omega
    rw [if_pos hplain, hparse, hzero, Nat.pow_zero, Nat.mul_one]
  · rw [if_neg hplain]
    exact parse_scientific d

/-- **The fixed-point notation** is read back with a positive exponent written out. -/
theorem parse_fixed
    (d : Decimal) :
    parse d.fixed =
      some ⟨d.negative, d.coefficient * 10 ^ d.exponent.toNat, min d.exponent 0⟩ := by
  unfold fixed
  by_cases hzero : d.coefficient = 0 ∧ 0 < d.exponent
  · have hparse := parse_placed { d with exponent := 0 } ends_nil
    rw [List.append_nil] at hparse
    rw [if_pos hzero]
    refine hparse.trans ?_
    simp [hzero.1, min_eq_right hzero.2.le]
  · have hparse := parse_placed d ends_nil
    rw [List.append_nil, Int.add_zero] at hparse
    rw [if_neg hzero, hparse]

end Reading

end Decimal

end Base
end Bluetape
