import Bluetape.Base.BinaryReader
import Mathlib.Data.List.TakeWhile

/-!
# The tokens of JSON

Numbers and strings as a JSON reader scans them and as a writer renders them.

* A number scans greedily.  `scanNumber_append` says that a number that ends
  its text is scanned alike before anything that cannot continue it.
* A string is a sequence of plain code points and of `\u` escapes; two escapes
  of a surrogate pair are one code point.  `scanString_quote` says that a
  quoted text scans as itself.
-/

namespace Bluetape
namespace Base
namespace Json

/-- The code point of a character. -/
abbrev mark (c : Char) : CodePoint := .scalar c

/-- Takes one code point off a text. -/
def expect (p : CodePoint) : Text → Option Text
  | [] => none
  | q :: rest => if q = p then some rest else none

@[simp] theorem expect_cons_self
    (p : CodePoint) (rest : Text) :
    expect p (p :: rest) = some rest := by
  simp [expect]

theorem expect_cons_of_ne
    {p q : CodePoint} (h : q ≠ p) (rest : Text) :
    expect p (q :: rest) = none := by
  simp [expect, h]

/-- Space, tab, line feed and carriage return. -/
def isSpace (p : CodePoint) : Bool :=
  p = mark ' ' || p = mark '\t' || p = mark '\n' || p = mark '\r'

/-- Drops the white space in front of a text. -/
def skipSpace (t : Text) : Text :=
  t.dropWhile isSpace

theorem skipSpace_cons
    {p : CodePoint} (h : isSpace p = false) (rest : Text) :
    skipSpace (p :: rest) = p :: rest := by
  simp [skipSpace, h]

/-! ## Numbers -/

section Numbers

/-- A code point between '0' and '9'. -/
def isDecimal (p : CodePoint) : Bool :=
  decide (48 ≤ p.ord ∧ p.ord ≤ 57)

/-- The digits in front of a text, and what follows them. -/
def scanDigits (t : Text) : Text × Text :=
  t.span isDecimal

/-- A minus sign in front of a text. -/
def scanMinus : Text → Text × Text
  | [] => ([], [])
  | p :: rest => if p = mark '-' then ([p], rest) else ([], p :: rest)

/-- `-?(?:0|[1-9][0-9]*)` -/
def scanInteger (t : Text) : Option (Text × Text) :=
  match (scanMinus t).2 with
  | [] => none
  | p :: rest =>
      if p = mark '0' then some ((scanMinus t).1 ++ [p], rest)
      else if isDecimal p then
        some ((scanMinus t).1 ++ p :: (scanDigits rest).1, (scanDigits rest).2)
      else none

/-- `(\.[0-9]+)?` -/
def scanFraction (t : Text) : Text × Text :=
  match expect (mark '.') t with
  | none => ([], t)
  | some rest =>
      if (scanDigits rest).1 = [] then ([], t)
      else (mark '.' :: (scanDigits rest).1, (scanDigits rest).2)

/-- `[-+]?` -/
def scanSign : Text → Text × Text
  | [] => ([], [])
  | p :: rest => if p = mark '-' ∨ p = mark '+' then ([p], rest) else ([], p :: rest)

/-- `([eE][-+]?[0-9]+)?` -/
def scanExponent : Text → Text × Text
  | [] => ([], [])
  | p :: rest =>
      if p = mark 'e' ∨ p = mark 'E' then
        if (scanDigits (scanSign rest).2).1 = [] then ([], p :: rest)
        else (p :: (scanSign rest).1 ++ (scanDigits (scanSign rest).2).1,
          (scanDigits (scanSign rest).2).2)
      else ([], p :: rest)

/-- The parts of a number as its pattern groups them. -/
structure NumberText where
  integer : Text
  fraction : Text
  exponent : Text
deriving DecidableEq, Repr

/-- The number as a whole. -/
def NumberText.text (n : NumberText) : Text :=
  n.integer ++ n.fraction ++ n.exponent

/-- The number in front of a text, and what follows it. -/
def scanNumber (t : Text) : Option (NumberText × Text) := do
  let (integer, rest) ← scanInteger t
  let (fraction, rest) := scanFraction rest
  let (exponent, rest) := scanExponent rest
  return (⟨integer, fraction, exponent⟩, rest)

/-- A code point that can continue a number. -/
def continuesNumber (p : CodePoint) : Bool :=
  isDecimal p || p = mark '.' || p = mark 'e' || p = mark 'E' || p = mark '+' || p = mark '-'

/-- Nothing in front of this text can continue a number. -/
def EndsNumber (rest : Text) : Prop :=
  ∀ p ∈ rest.head?, continuesNumber p = false

theorem endsNumber_nil :
    EndsNumber [] := by
  simp [EndsNumber]

theorem endsNumber_cons
    {p : CodePoint} {rest : Text} :
    EndsNumber (p :: rest) ↔ continuesNumber p = false := by
  simp [EndsNumber]

variable {rest : Text}

theorem scanDigits_append
    (hrest : EndsNumber rest) (t : Text) :
    scanDigits (t ++ rest) = ((scanDigits t).1, (scanDigits t).2 ++ rest) := by
  induction t with
  | nil =>
      cases rest with
      | nil =>
          rfl
      | cons p rest =>
          have hp : isDecimal p = false := by
            have := endsNumber_cons.mp hrest
            simp only [continuesNumber, Bool.or_eq_false_iff] at this
            exact this.1.1.1.1.1
          simp [scanDigits, List.span_eq_takeWhile_dropWhile, hp]
  | cons p t ih =>
      simp only [scanDigits, List.span_eq_takeWhile_dropWhile, Prod.mk.injEq] at ih
      cases hp : isDecimal p with
      | true =>
          simp [scanDigits, List.span_eq_takeWhile_dropWhile, hp, ih]
      | false =>
          simp [scanDigits, List.span_eq_takeWhile_dropWhile, hp]

theorem scanMinus_append
    (hrest : EndsNumber rest) (t : Text) :
    scanMinus (t ++ rest) = ((scanMinus t).1, (scanMinus t).2 ++ rest) := by
  cases t with
  | nil =>
      cases rest with
      | nil =>
          rfl
      | cons p rest =>
          have hp : p ≠ mark '-' := by
            rintro rfl
            exact absurd (endsNumber_cons.mp hrest) (by decide)
          simp [scanMinus, hp]
  | cons p t =>
      simp only [List.cons_append, scanMinus]
      split
      · rfl
      · rfl

theorem scanSign_append
    (hrest : EndsNumber rest) (t : Text) :
    scanSign (t ++ rest) = ((scanSign t).1, (scanSign t).2 ++ rest) := by
  cases t with
  | nil =>
      cases rest with
      | nil =>
          rfl
      | cons p rest =>
          have hp : ¬(p = mark '-' ∨ p = mark '+') := by
            rintro (rfl | rfl) <;> exact absurd (endsNumber_cons.mp hrest) (by decide)
          simp [scanSign, hp]
  | cons p t =>
      simp only [List.cons_append, scanSign]
      split
      · rfl
      · rfl

theorem scanInteger_append
    (hrest : EndsNumber rest) {t i t' : Text}
    (h : scanInteger t = some (i, t')) :
    scanInteger (t ++ rest) = some (i, t' ++ rest) := by
  unfold scanInteger at h ⊢
  rw [scanMinus_append hrest]
  cases hunsigned : (scanMinus t).2 with
  | nil =>
      rw [hunsigned] at h
      cases h
  | cons p u =>
      rw [hunsigned] at h
      simp only [List.cons_append, scanDigits_append hrest] at h ⊢
      split at h
      case isTrue hzero =>
        obtain ⟨rfl, rfl⟩ := Prod.mk.inj (Option.some.inj h)
        rw [if_pos hzero]
      case isFalse hzero =>
        split at h
        case isTrue hdigit =>
          obtain ⟨rfl, rfl⟩ := Prod.mk.inj (Option.some.inj h)
          rw [if_neg hzero, if_pos hdigit]
        case isFalse =>
          cases h

theorem scanFraction_append
    (hrest : EndsNumber rest) (t : Text) :
    scanFraction (t ++ rest) = ((scanFraction t).1, (scanFraction t).2 ++ rest) := by
  cases t with
  | nil =>
      cases rest with
      | nil =>
          rfl
      | cons p rest =>
          have hp : p ≠ mark '.' := by
            rintro rfl
            exact absurd (endsNumber_cons.mp hrest) (by decide)
          simp [scanFraction, expect, hp]
  | cons p t =>
      by_cases hp : p = mark '.'
      · subst hp
        simp only [scanFraction, List.cons_append, expect_cons_self, scanDigits_append hrest]
        split
        · rfl
        · rfl
      · simp [scanFraction, expect, hp]

theorem scanExponent_append
    (hrest : EndsNumber rest) (t : Text) :
    scanExponent (t ++ rest) = ((scanExponent t).1, (scanExponent t).2 ++ rest) := by
  cases t with
  | nil =>
      cases rest with
      | nil =>
          rfl
      | cons p rest =>
          have hp : ¬(p = mark 'e' ∨ p = mark 'E') := by
            rintro (rfl | rfl) <;> exact absurd (endsNumber_cons.mp hrest) (by decide)
          simp [scanExponent, hp]
  | cons p t =>
      simp only [List.cons_append, scanExponent, scanSign_append hrest,
        scanDigits_append hrest]
      split
      · split
        · rfl
        · rfl
      · rfl

/-- **A number is scanned alike before anything that cannot continue it.** -/
theorem scanNumber_append
    (hrest : EndsNumber rest) {t t' : Text} {n : NumberText}
    (h : scanNumber t = some (n, t')) :
    scanNumber (t ++ rest) = some (n, t' ++ rest) := by
  simp only [scanNumber, Option.bind_eq_bind, Option.bind_eq_some_iff] at h ⊢
  obtain ⟨⟨i, u⟩, hi, h⟩ := h
  refine ⟨(i, u ++ rest), scanInteger_append hrest hi, ?_⟩
  simp only [scanFraction_append hrest, scanExponent_append hrest] at h ⊢
  obtain ⟨rfl, rfl⟩ := Prod.mk.inj (Option.some.inj h)
  rfl

/-- A number that ends its text, and that a reader scans as a whole. -/
structure Number where
  parts : NumberText
  scans : scanNumber parts.text = some (parts, [])

/-- The number is an integer when it has neither a fraction nor an exponent. -/
def NumberText.isInteger (n : NumberText) : Bool :=
  n.fraction.isEmpty && n.exponent.isEmpty

/-- A number starts with a minus sign or with a digit. -/
theorem head_of_scanNumber
    {t t' : Text} {n : NumberText}
    (h : scanNumber t = some (n, t')) :
    ∃ p u, t = p :: u ∧ (p = mark '-' ∨ isDecimal p = true) := by
  simp only [scanNumber, Option.bind_eq_bind, Option.bind_eq_some_iff] at h
  obtain ⟨⟨i, u⟩, hi, -⟩ := h
  cases t with
  | nil =>
      cases hi
  | cons p t =>
      refine ⟨p, t, rfl, ?_⟩
      by_cases hp : p = mark '-'
      · exact Or.inl hp
      · simp only [scanInteger, scanMinus, hp, if_false] at hi
        split at hi
        case isTrue hzero =>
          subst hzero
          exact Or.inr (by decide)
        case isFalse =>
          split at hi
          case isTrue hdigit =>
            exact Or.inr hdigit
          case isFalse =>
            cases hi

/-! ### What a number is made of -/

theorem scanDigits_of_all
    {t : Text} (h : ∀ p ∈ t, isDecimal p = true) :
    scanDigits t = (t, []) := by
  rw [scanDigits, List.span_eq_takeWhile_dropWhile, List.takeWhile_eq_self_iff.mpr h,
    List.dropWhile_eq_nil_iff.mpr h]

theorem continuesNumber_of_isDecimal
    {p : CodePoint} (h : isDecimal p = true) :
    continuesNumber p = true := by
  simp [continuesNumber, h]

theorem continuesNumber_of_mem_scanDigits
    {t : Text} {p : CodePoint} (h : p ∈ (scanDigits t).1) :
    continuesNumber p = true := by
  rw [scanDigits, List.span_eq_takeWhile_dropWhile] at h
  exact continuesNumber_of_isDecimal (List.mem_takeWhile_imp h)

theorem continuesNumber_of_mem_scanInteger
    {t i t' : Text} (h : scanInteger t = some (i, t')) :
    ∀ p ∈ i, continuesNumber p = true := by
  have hminus : ∀ p ∈ (scanMinus t).1, continuesNumber p = true := by
    intro p hp
    unfold scanMinus at hp
    split at hp
    · cases hp
    · split at hp
      case isTrue hmark =>
        rw [List.mem_singleton.mp hp, hmark]
        decide
      case isFalse =>
        cases hp
  unfold scanInteger at h
  split at h
  · cases h
  · split at h
    case isTrue hzero =>
      obtain ⟨rfl, rfl⟩ := Prod.mk.inj (Option.some.inj h)
      intro p hp
      rcases List.mem_append.mp hp with hp | hp
      · exact hminus p hp
      · rw [List.mem_singleton.mp hp, hzero]
        decide
    case isFalse =>
      split at h
      case isTrue hdigit =>
        obtain ⟨rfl, rfl⟩ := Prod.mk.inj (Option.some.inj h)
        intro p hp
        rcases List.mem_append.mp hp with hp | hp
        · exact hminus p hp
        · rcases List.mem_cons.mp hp with rfl | hp
          · exact continuesNumber_of_isDecimal hdigit
          · exact continuesNumber_of_mem_scanDigits hp
      case isFalse =>
        cases h

theorem continuesNumber_of_mem_scanFraction
    {t : Text} {p : CodePoint} (h : p ∈ (scanFraction t).1) :
    continuesNumber p = true := by
  unfold scanFraction at h
  split at h
  · cases h
  · split at h
    case isTrue =>
      cases h
    case isFalse =>
      rcases List.mem_cons.mp h with rfl | h
      · decide
      · exact continuesNumber_of_mem_scanDigits h

theorem continuesNumber_of_mem_scanExponent
    {t : Text} {p : CodePoint} (h : p ∈ (scanExponent t).1) :
    continuesNumber p = true := by
  have hsign : ∀ (t : Text), ∀ p ∈ (scanSign t).1, continuesNumber p = true := by
    intro t p hp
    unfold scanSign at hp
    split at hp
    · cases hp
    · split at hp
      case isTrue hmark =>
        rw [List.mem_singleton.mp hp]
        rcases hmark with rfl | rfl <;> decide
      case isFalse =>
        cases hp
  unfold scanExponent at h
  split at h
  · cases h
  · split at h
    case isTrue hmark =>
      split at h
      case isTrue =>
        cases h
      case isFalse =>
        rcases List.mem_cons.mp h with rfl | h
        · rcases hmark with rfl | rfl <;> decide
        · rcases List.mem_append.mp h with h | h
          · exact hsign _ _ h
          · exact continuesNumber_of_mem_scanDigits h
    case isFalse =>
      cases h

/-- The text of a number has only code points that can continue a number. -/
theorem continuesNumber_of_mem_number
    {t t' : Text} {n : NumberText}
    (h : scanNumber t = some (n, t')) :
    ∀ p ∈ n.text, continuesNumber p = true := by
  simp only [scanNumber, Option.bind_eq_bind, Option.bind_eq_some_iff] at h
  obtain ⟨⟨i, u⟩, hi, h⟩ := h
  obtain ⟨rfl, -⟩ := Prod.mk.inj (Option.some.inj h)
  intro p hp
  simp only [NumberText.text, List.mem_append] at hp
  rcases hp with (hp | hp) | hp
  · exact continuesNumber_of_mem_scanInteger hi p hp
  · exact continuesNumber_of_mem_scanFraction hp
  · exact continuesNumber_of_mem_scanExponent hp

end Numbers

/-! ## Strings -/

section Strings

/-- The mark around a string. -/
abbrev quotationMark : CodePoint := mark '\x22'

/-- The mark in front of an escape. -/
abbrev escapeMark : CodePoint := mark '\\'

/-- `chr(n)` of a number below 0x110000 -/
def chr (n : Nat) : CodePoint :=
  if h : 0xD800 ≤ n ∧ n < 0xE000 then .surrogate ⟨n - 0xD800, by omega⟩
  else .scalar (Char.ofNat n)

/-- The lower-case hexadecimal digit of a number below 16. -/
def hexDigit (n : Nat) : CodePoint :=
  mark (Nat.digitChar n)

/-- The value of a hexadecimal digit. -/
def hexValue (p : CodePoint) : Option Nat :=
  if 48 ≤ p.ord ∧ p.ord ≤ 57 then some (p.ord - 48)
  else if 97 ≤ p.ord ∧ p.ord ≤ 102 then some (p.ord - 87)
  else if 65 ≤ p.ord ∧ p.ord ≤ 70 then some (p.ord - 55)
  else none

/-- What a string token is made of: a code point, or the number of a `\u` escape. -/
inductive StringUnit
  | plain (p : CodePoint)
  | escaped (n : Nat)
deriving DecidableEq, Repr

/-- The escapes of one character. -/
def simpleEscape (p : CodePoint) : Option CodePoint :=
  if p = quotationMark ∨ p = escapeMark ∨ p = mark '/' then some p
  else if p = mark 'b' then some (mark '\x08')
  else if p = mark 'f' then some (mark '\x0c')
  else if p = mark 'n' then some (mark '\n')
  else if p = mark 'r' then some (mark '\r')
  else if p = mark 't' then some (mark '\t')
  else none

/-- The number that four hexadecimal digits write. -/
def hexNumber (a b c d : CodePoint) : Option Nat := do
  return (((← hexValue a) * 16 + (← hexValue b)) * 16 + (← hexValue c)) * 16 + (← hexValue d)

/-- The units of a string after its quotation mark, and what follows the string. -/
def scanUnits : Text → Option (List StringUnit × Text)
  | [] => none
  | p :: rest =>
      if p = quotationMark then some ([], rest)
      else if p = escapeMark then
        match rest with
        | [] => none
        | e :: rest =>
            if e = mark 'u' then
              match rest with
              | a :: b :: c :: d :: rest => do
                  let n ← hexNumber a b c d
                  let (units, rest) ← scanUnits rest
                  return (.escaped n :: units, rest)
              | _ => none
            else do
              let q ← simpleEscape e
              let (units, rest) ← scanUnits rest
              return (.plain q :: units, rest)
      else if p.ord < 0x20 then none
      else do
        let (units, rest) ← scanUnits rest
        return (.plain p :: units, rest)

/-- The two halves of a surrogate pair. -/
def isSurrogatePair (high low : Nat) : Bool :=
  decide (0xD800 ≤ high ∧ high ≤ 0xDBFF ∧ 0xDC00 ≤ low ∧ low ≤ 0xDFFF)

/-- The code point of a surrogate pair. -/
def joinPair (high low : Nat) : CodePoint :=
  chr (0x10000 + (high - 0xD800) * 1024 + (low - 0xDC00))

/--
The text of string units after an escape that has not been given out yet, because
it may be the first half of a surrogate pair.
-/
def joinFrom : Option Nat → List StringUnit → Text
  | pending, [] => pending.toList.map chr
  | pending, .plain p :: rest => pending.toList.map chr ++ p :: joinFrom none rest
  | none, .escaped n :: rest => joinFrom (some n) rest
  | some high, .escaped n :: rest =>
      if isSurrogatePair high n then joinPair high n :: joinFrom none rest
      else chr high :: joinFrom (some n) rest

/-- The text of a string after its quotation mark, and what follows the string. -/
def scanString (t : Text) : Option (Text × Text) :=
  (scanUnits t).map fun (units, rest) => (joinFrom none units, rest)

/-- The characters whose escape is one character. -/
def shortEscape (p : CodePoint) : Option CodePoint :=
  if p = quotationMark ∨ p = escapeMark then some p
  else if p = mark '\x08' then some (mark 'b')
  else if p = mark '\x0c' then some (mark 'f')
  else if p = mark '\n' then some (mark 'n')
  else if p = mark '\r' then some (mark 'r')
  else if p = mark '\t' then some (mark 't')
  else none

/-- The escape of a number below 0x10000. -/
def hexEscape (n : Nat) : Text :=
  [escapeMark, mark 'u', hexDigit (n / 4096 % 16), hexDigit (n / 256 % 16),
    hexDigit (n / 16 % 16), hexDigit (n % 16)]

/-- A code point inside a string: only what must be escaped is. -/
def escape (p : CodePoint) : Text :=
  match shortEscape p with
  | some e => [escapeMark, e]
  | none => if p.ord < 0x20 then hexEscape p.ord else [p]

/-- The string token of a text. -/
def quote (t : Text) : Text :=
  quotationMark :: t.flatMap escape ++ [quotationMark]

/-- How a reader sees a code point of a quoted text. -/
def unitOf (p : CodePoint) : StringUnit :=
  if (shortEscape p).isNone ∧ p.ord < 0x20 then .escaped p.ord else .plain p

theorem hexValue_hexDigit :
    ∀ n < 16, hexValue (hexDigit n) = some n := by
  decide

theorem simpleEscape_of_shortEscape
    {p e : CodePoint} (h : shortEscape p = some e) :
    simpleEscape e = some p ∧ e ≠ mark 'u' := by
  unfold shortEscape at h
  split_ifs at h with hself
  · obtain rfl := Option.some.inj h
    rcases hself with rfl | rfl <;> decide
  all_goals
    subst p
    obtain rfl := Option.some.inj h
    decide

theorem ne_marks_of_shortEscape
    {p : CodePoint} (h : shortEscape p = none) :
    p ≠ quotationMark ∧ p ≠ escapeMark := by
  constructor
  · rintro rfl
    exact absurd h (by decide)
  · rintro rfl
    exact absurd h (by decide)

theorem scanUnits_hexEscape
    {n : Nat} (h : n < 0x10000) (rest : Text) :
    scanUnits (hexEscape n ++ rest) =
      (scanUnits rest).map fun (units, rest) => (.escaped n :: units, rest) := by
  have hnumber : hexNumber (hexDigit (n / 4096 % 16)) (hexDigit (n / 256 % 16))
      (hexDigit (n / 16 % 16)) (hexDigit (n % 16)) = some n := by
    simp only [hexNumber, hexValue_hexDigit _ (Nat.mod_lt _ (by decide : 0 < 16)),
      Option.bind_eq_bind, Option.bind_some, Option.pure_def, Option.some.injEq]
    omega
  have hescape : escapeMark ≠ quotationMark := by
    decide
  simp only [hexEscape, List.cons_append, List.nil_append]
  rw [scanUnits, if_neg hescape, if_pos rfl, if_pos rfl, hnumber]
  cases scanUnits rest <;> rfl

theorem scanUnits_escape
    (p : CodePoint) (rest : Text) :
    scanUnits (escape p ++ rest) =
      (scanUnits rest).map fun (units, rest) => (unitOf p :: units, rest) := by
  have hescape : escapeMark ≠ quotationMark := by
    decide
  unfold escape unitOf
  cases hshort : shortEscape p with
  | some e =>
      obtain ⟨hsimple, hu⟩ := simpleEscape_of_shortEscape hshort
      simp only [List.cons_append, List.nil_append]
      rw [scanUnits.eq_def]
      simp only [if_neg hescape, if_true, if_neg hu, hsimple]
      cases scanUnits rest <;> rfl
  | none =>
      obtain ⟨hquote, hmark⟩ := ne_marks_of_shortEscape hshort
      by_cases hcontrol : p.ord < 0x20
      · rw [if_pos hcontrol, if_pos ⟨rfl, hcontrol⟩]
        exact scanUnits_hexEscape (by omega) rest
      · simp only [if_neg hcontrol, List.cons_append, List.nil_append,
          Option.isNone_none, true_and]
        rw [scanUnits.eq_def]
        simp only [if_neg hquote, if_neg hmark, if_neg hcontrol]
        cases scanUnits rest <;> rfl

theorem scanUnits_quote
    (t rest : Text) :
    scanUnits (t.flatMap escape ++ quotationMark :: rest) = some (t.map unitOf, rest) := by
  induction t with
  | nil =>
      rw [List.flatMap_nil, List.nil_append, scanUnits.eq_def]
      rfl
  | cons p t ih =>
      rw [List.flatMap_cons, List.append_assoc, scanUnits_escape, ih]
      rfl

theorem chr_ord_of_lt
    {p : CodePoint} (h : p.ord < 0x20) :
    chr p.ord = p := by
  rw [chr, dif_neg (by omega)]
  exact (eq_ofNat_of_ord (by omega)).symm

/-- A quoted text has no escape of a surrogate, so that nothing is joined. -/
theorem joinFrom_map_unitOf
    (t : Text) {pending : Option Nat}
    (hpending : ∀ n ∈ pending, n < 0x20) :
    joinFrom pending (t.map unitOf) = pending.toList.map chr ++ t := by
  induction t generalizing pending with
  | nil =>
      simp [joinFrom]
  | cons p t ih =>
      rw [List.map_cons]
      cases hunit : unitOf p with
      | plain q =>
          have hq : q = p := by
            unfold unitOf at hunit
            split at hunit
            case isTrue =>
              cases hunit
            case isFalse =>
              exact (StringUnit.plain.inj hunit).symm
          rw [joinFrom, ih (by simp), hq]
          rfl
      | escaped n =>
          obtain ⟨hn, hcontrol⟩ : n = p.ord ∧ p.ord < 0x20 := by
            unfold unitOf at hunit
            split at hunit
            case isTrue hescaped =>
              exact ⟨(StringUnit.escaped.inj hunit).symm, hescaped.2⟩
            case isFalse =>
              cases hunit
          have hchr : chr n = p := by
            rw [hn, chr_ord_of_lt hcontrol]
          have hnext : joinFrom (some n) (t.map unitOf) = p :: t := by
            rw [ih (by simpa [hn] using hcontrol)]
            simp [hchr]
          cases pending with
          | none =>
              rw [joinFrom, hnext]
              rfl
          | some high =>
              have hpair : isSurrogatePair high n = false := by
                have := hpending high rfl
                simp only [isSurrogatePair, decide_eq_false_iff_not]
                omega
              rw [joinFrom, hpair, if_neg Bool.false_ne_true, hnext]
              rfl

/-- **A quoted text scans as itself.** -/
theorem scanString_quote
    (t rest : Text) :
    scanString (t.flatMap escape ++ quotationMark :: rest) = some (t, rest) := by
  simp [scanString, scanUnits_quote, joinFrom_map_unitOf]

end Strings

end Json
end Base
end Bluetape
