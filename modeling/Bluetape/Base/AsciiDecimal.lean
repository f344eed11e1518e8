import Mathlib.Data.List.Basic
import Mathlib.Tactic

/-!
# Byte strings and ASCII decimal numerals

Byte strings are lists of bytes.  This module gives the canonical decimal
rendering of a natural number, the value of a digit string, and the facts that
connect them:

* `decimal_decimalValue`, `decimalValue_decimal`: rendering and reading are
  mutually inverse between positive numbers and canonical digit strings;
* `digits_le_iff`: on digit strings of one length the lexicographic order of
  the bytes is the order of the values.
-/

namespace Bluetape
namespace Base

/-- A byte string. -/
abbrev Bytes := List UInt8

/-- The byte of an ASCII character. -/
def byte (c : Char) : UInt8 :=
  UInt8.ofNat c.toNat

/-- A byte between '0' and '9'. -/
def isDigit (b : UInt8) : Bool :=
  decide (48 ≤ b.toNat ∧ b.toNat ≤ 57)

/-- A byte between '1' and '9'. -/
def isPositiveDigit (b : UInt8) : Bool :=
  decide (49 ≤ b.toNat ∧ b.toNat ≤ 57)

/-- The number a digit byte stands for. -/
def digitValue (b : UInt8) : Nat :=
  b.toNat - 48

/-- A positive decimal numeral without leading zeros. -/
def isCanonicalPositive : Bytes → Bool
  | [] => false
  | b :: bs => isPositiveDigit b && bs.all isDigit

/-- The value of a digit string, most significant digit first. -/
def decimalValue (bs : Bytes) : Nat :=
  bs.foldl (fun acc b => acc * 10 + digitValue b) 0

/-- The canonical decimal rendering of a natural number. -/
def decimal (n : Nat) : Bytes :=
  (Nat.toDigits 10 n).map byte

theorem isDigit_of_isPositiveDigit
    {b : UInt8}
    (h : isPositiveDigit b = true) :
    isDigit b = true := by
  simp only [isPositiveDigit, isDigit, decide_eq_true_eq] at h ⊢
  omega

theorem isCanonicalPositive_all
    {bs : Bytes}
    (h : isCanonicalPositive bs = true) :
    bs.all isDigit = true := by
  cases bs with
  | nil =>
      rfl
  | cons b bs =>
      simp only [isCanonicalPositive, Bool.and_eq_true] at h
      simp [isDigit_of_isPositiveDigit h.1, h.2]

theorem digitValue_lt
    {b : UInt8}
    (h : isDigit b = true) :
    digitValue b < 10 := by
  simp only [isDigit, decide_eq_true_eq] at h
  unfold digitValue
  omega

/-- The byte of a digit character, by its value. -/
theorem byte_digitChar :
    ∀ d : Nat, d < 10 → byte (Nat.digitChar d) = UInt8.ofNat (48 + d) := by
  decide

theorem byte_digitChar_digitValue
    {b : UInt8}
    (h : isDigit b = true) :
    byte (Nat.digitChar (digitValue b)) = b := by
  rw [byte_digitChar _ (digitValue_lt h)]
  simp only [isDigit, decide_eq_true_eq] at h
  have hb : 48 + digitValue b = b.toNat := by
    unfold digitValue
    omega
  rw [hb]
  exact UInt8.ofNat_toNat

theorem isDigit_byte_digitChar :
    ∀ d : Nat, d < 10 → isDigit (byte (Nat.digitChar d)) = true := by
  decide

theorem isPositiveDigit_byte_digitChar :
    ∀ d : Nat, d < 10 → 0 < d →
      isPositiveDigit (byte (Nat.digitChar d)) = true := by
  decide

theorem digitValue_byte_digitChar :
    ∀ d : Nat, d < 10 → digitValue (byte (Nat.digitChar d)) = d := by
  decide

/-! ## Values of digit strings -/

theorem decimalValue_append_singleton
    (bs : Bytes) (b : UInt8) :
    decimalValue (bs ++ [b]) = decimalValue bs * 10 + digitValue b := by
  simp [decimalValue]

/-- The fold started at an accumulator shifts the accumulator to the front. -/
theorem foldl_digitValue
    (bs : Bytes) (acc : Nat) :
    bs.foldl (fun acc b => acc * 10 + digitValue b) acc =
      acc * 10 ^ bs.length + decimalValue bs := by
  induction bs generalizing acc with
  | nil =>
      simp [decimalValue]
  | cons b bs ih =>
      have h0 := ih (digitValue b)
      simp only [List.foldl_cons, decimalValue, List.length_cons, zero_mul,
        zero_add] at h0 ⊢
      rw [ih, h0]
      unfold decimalValue
      ring

theorem decimalValue_cons
    (b : UInt8) (bs : Bytes) :
    decimalValue (b :: bs) =
      digitValue b * 10 ^ bs.length + decimalValue bs := by
  rw [← foldl_digitValue]
  simp [decimalValue]

theorem decimalValue_lt
    {bs : Bytes}
    (h : bs.all isDigit = true) :
    decimalValue bs < 10 ^ bs.length := by
  induction bs with
  | nil =>
      simp [decimalValue]
  | cons b bs ih =>
      simp only [List.all_cons, Bool.and_eq_true] at h
      have hb := digitValue_lt h.1
      have hbs := ih h.2
      rw [decimalValue_cons, List.length_cons, pow_succ]
      have : digitValue b * 10 ^ bs.length ≤ 9 * 10 ^ bs.length :=
        Nat.mul_le_mul_right _ (by omega)
      omega

theorem decimalValue_pos
    {bs : Bytes}
    (h : isCanonicalPositive bs = true) :
    0 < decimalValue bs := by
  cases bs with
  | nil =>
      simp [isCanonicalPositive] at h
  | cons b bs =>
      simp only [isCanonicalPositive, isPositiveDigit, Bool.and_eq_true,
        decide_eq_true_eq] at h
      have hb : 0 < digitValue b := by
        unfold digitValue
        omega
      rw [decimalValue_cons]
      positivity

/-! ## Rendering -/

theorem decimal_eq_if
    (n : Nat) :
    decimal n =
      if n < 10 then [byte (Nat.digitChar n)]
      else decimal (n / 10) ++ [byte (Nat.digitChar (n % 10))] := by
  unfold decimal
  rw [Nat.toDigits_eq_if (by omega)]
  split <;> simp

theorem decimal_all_isDigit
    (n : Nat) :
    (decimal n).all isDigit = true := by
  induction n using Nat.strongRecOn with
  | _ n ih =>
      rw [decimal_eq_if]
      split
      case isTrue h =>
          simp [isDigit_byte_digitChar n h]
      case isFalse h =>
          have hq := ih (n / 10) (by omega)
          have hr := isDigit_byte_digitChar (n % 10) (by omega)
          simp [List.all_append, hq, hr]

theorem isCanonicalPositive_append
    {bs cs : Bytes}
    (hbs : isCanonicalPositive bs = true)
    (hcs : cs.all isDigit = true) :
    isCanonicalPositive (bs ++ cs) = true := by
  cases bs with
  | nil =>
      simp [isCanonicalPositive] at hbs
  | cons b bs =>
      simp only [isCanonicalPositive, Bool.and_eq_true, List.cons_append,
        List.all_append] at hbs ⊢
      exact ⟨hbs.1, hbs.2, hcs⟩

/-- A positive number renders as a canonical numeral. -/
theorem isCanonicalPositive_decimal
    {n : Nat}
    (h : 0 < n) :
    isCanonicalPositive (decimal n) = true := by
  induction n using Nat.strongRecOn with
  | _ n ih =>
      rw [decimal_eq_if]
      split
      case isTrue hn =>
          simp [isCanonicalPositive, isPositiveDigit_byte_digitChar n hn h]
      case isFalse hn =>
          have hr := isDigit_byte_digitChar (n % 10) (by omega)
          exact isCanonicalPositive_append (ih (n / 10) (by omega) (by omega))
            (by simp [hr])

@[simp] theorem decimalValue_decimal
    (n : Nat) :
    decimalValue (decimal n) = n := by
  induction n using Nat.strongRecOn with
  | _ n ih =>
      rw [decimal_eq_if]
      split
      case isTrue hn =>
          simp [decimalValue, digitValue_byte_digitChar n hn]
      case isFalse hn =>
          rw [decimalValue_append_singleton, ih (n / 10) (by omega),
            digitValue_byte_digitChar _ (by omega)]
          omega

theorem decimal_injective
    {m n : Nat}
    (h : decimal m = decimal n) :
    m = n := by
  simpa using congrArg decimalValue h

/-- Reading a canonical numeral and rendering it again gives it back. -/
theorem decimal_decimalValue
    {bs : Bytes}
    (h : isCanonicalPositive bs = true) :
    decimal (decimalValue bs) = bs := by
  induction bs using List.reverseRecOn with
  | nil =>
      simp [isCanonicalPositive] at h
  | append_singleton bs b ih =>
      have hall := isCanonicalPositive_all h
      simp only [List.all_append, List.all_cons, List.all_nil, Bool.and_true,
        Bool.and_eq_true] at hall
      have hb := digitValue_lt hall.2
      rw [decimal_eq_if, decimalValue_append_singleton]
      cases bs with
      | nil =>
          simp [decimalValue, hb, byte_digitChar_digitValue hall.2]
      | cons a as =>
          have hpre : isCanonicalPositive (a :: as) = true := by
            simp only [isCanonicalPositive, Bool.and_eq_true, List.cons_append,
              List.all_append] at h ⊢
            exact ⟨h.1, h.2.1⟩
          have hpos := decimalValue_pos hpre
          have hdiv : (decimalValue (a :: as) * 10 + digitValue b) / 10 =
              decimalValue (a :: as) := by
            omega
          have hmod : (decimalValue (a :: as) * 10 + digitValue b) % 10 =
              digitValue b := by
            omega
          rw [if_neg (by omega), hdiv, hmod, ih hpre,
            byte_digitChar_digitValue hall.2]

/-! ## Lexicographic order -/

/-- On digit strings of one length the byte order is the numeric order. -/
theorem digits_lt_iff
    {bs cs : Bytes}
    (hlen : bs.length = cs.length)
    (hbs : bs.all isDigit = true)
    (hcs : cs.all isDigit = true) :
    bs < cs ↔ decimalValue bs < decimalValue cs := by
  induction bs generalizing cs with
  | nil =>
      have : cs = [] := List.eq_nil_of_length_eq_zero (by simpa using hlen.symm)
      subst this
      simp
  | cons b bs ih =>
      cases cs with
      | nil =>
          simp at hlen
      | cons c cs =>
          simp only [List.length_cons, Nat.add_right_cancel_iff] at hlen
          simp only [List.all_cons, Bool.and_eq_true] at hbs hcs
          have hb := decimalValue_lt hbs.2
          have hc := decimalValue_lt hcs.2
          rw [hlen] at hb
          rw [decimalValue_cons, decimalValue_cons, hlen]
          have hdb := hbs.1
          have hdc := hcs.1
          simp only [isDigit, decide_eq_true_eq] at hdb hdc
          rw [List.cons_lt_cons_iff, ih hlen hbs.2 hcs.2, UInt8.lt_iff_toNat_lt]
          set P := 10 ^ cs.length
          rcases Nat.lt_trichotomy b.toNat c.toNat with hlt | heq | hgt
          · -- a smaller leading digit decides, whatever follows
            have h1 : digitValue b + 1 ≤ digitValue c := by
              unfold digitValue
              omega
            have h2 : (digitValue b + 1) * P ≤ digitValue c * P :=
              Nat.mul_le_mul_right _ h1
            rw [Nat.add_mul] at h2
            constructor
            · intro _
              omega
            · intro _
              exact Or.inl hlt
          · have hbc : b = c := UInt8.toNat_inj.mp heq
            subst hbc
            simp
          · have h1 : digitValue c + 1 ≤ digitValue b := by
              unfold digitValue
              omega
            have h2 : (digitValue c + 1) * P ≤ digitValue b * P :=
              Nat.mul_le_mul_right _ h1
            rw [Nat.add_mul] at h2
            constructor
            · rintro (hlt | ⟨hbc, _⟩)
              · omega
              · exact absurd (congrArg UInt8.toNat hbc) (by omega)
            · intro _
              omega

theorem digits_le_iff
    {bs cs : Bytes}
    (hlen : bs.length = cs.length)
    (hbs : bs.all isDigit = true)
    (hcs : cs.all isDigit = true) :
    bs ≤ cs ↔ decimalValue bs ≤ decimalValue cs := by
  rw [← List.not_lt, digits_lt_iff hlen.symm hcs hbs, not_lt]

/-- Fewer digits mean a smaller value. -/
theorem decimalValue_lt_of_length_lt
    {bs : Bytes} {k : Nat}
    (hbs : bs.all isDigit = true)
    (hlen : bs.length < k) :
    decimalValue bs < 10 ^ (k - 1) := by
  calc decimalValue bs < 10 ^ bs.length := decimalValue_lt hbs
    _ ≤ 10 ^ (k - 1) := Nat.pow_le_pow_right (by omega) (by omega)

/-- A canonical numeral of `k + 1` digits is at least `10 ^ k`. -/
theorem pow_le_decimalValue
    {bs : Bytes} {k : Nat}
    (h : isCanonicalPositive bs = true)
    (hlen : k < bs.length) :
    10 ^ k ≤ decimalValue bs := by
  cases bs with
  | nil =>
      simp [isCanonicalPositive] at h
  | cons b bs =>
      simp only [isCanonicalPositive, isPositiveDigit, Bool.and_eq_true,
        decide_eq_true_eq] at h
      have hb : 1 ≤ digitValue b := by
        unfold digitValue
        omega
      rw [decimalValue_cons]
      calc 10 ^ k ≤ 10 ^ bs.length :=
            Nat.pow_le_pow_right (by omega) (by simpa using Nat.lt_succ_iff.mp hlen)
        _ = 1 * 10 ^ bs.length := by ring
        _ ≤ digitValue b * 10 ^ bs.length := Nat.mul_le_mul_right _ hb
        _ ≤ _ := Nat.le_add_right _ _

end Base
end Bluetape
