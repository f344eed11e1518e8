import Bluetape.Base.TextCodec
import Mathlib.Data.Nat.Digits.Defs
import Mathlib.Data.List.FinRange

/-!
# Positional notation of a fixed width

Numbers as digits of base `b`, the most significant digit first and leading
zeros written.  A digit is an element of `Fin b`, so that every list of digits
is a numeral.  Writing and reading are inverse to each other, and on numerals
of one width the lexicographic order of the digits is the order of the numbers:

* `readDigits_writeDigits`, `writeDigits_readDigits`: the two inverses;
* `lex_iff_readDigits_lt`: the order;
* `Alphabet`: digits spelt with the characters of a text.
-/

namespace Bluetape
namespace Base

section Radix

variable {b : Nat}

/-- The number that the digits stand for. -/
def readDigits (ds : List (Fin b)) : Nat :=
  ds.foldl (fun n d => n * b + d) 0

@[simp] theorem readDigits_nil :
    readDigits ([] : List (Fin b)) = 0 := by
  rfl

@[simp] theorem readDigits_append_singleton
    (ds : List (Fin b)) (d : Fin b) :
    readDigits (ds ++ [d]) = readDigits ds * b + d := by
  simp [readDigits]

/-- The same number, with the digits in the order of Mathlib. -/
theorem readDigits_eq_ofDigits
    (ds : List (Fin b)) :
    readDigits ds = Nat.ofDigits b (ds.map Fin.val).reverse := by
  induction ds using List.reverseRecOn with
  | nil =>
      rfl
  | append_singleton ds d ih =>
      rw [readDigits_append_singleton, ih, List.map_append, List.map_singleton,
        List.reverse_append, List.reverse_singleton, List.singleton_append,
        Nat.ofDigits_cons, Nat.add_comm, Nat.mul_comm]

/-- The digits of the front weigh more, by the width of the rest. -/
theorem readDigits_append
    (ds es : List (Fin b)) :
    readDigits (ds ++ es) = readDigits ds * b ^ es.length + readDigits es := by
  rw [readDigits_eq_ofDigits, readDigits_eq_ofDigits, readDigits_eq_ofDigits,
    List.map_append, List.reverse_append, Nat.ofDigits_append, List.length_reverse,
    List.length_map, Nat.mul_comm, Nat.add_comm]

theorem readDigits_cons
    (d : Fin b) (ds : List (Fin b)) :
    readDigits (d :: ds) = d * b ^ ds.length + readDigits ds := by
  have h := readDigits_append [d] ds
  simpa [readDigits] using h

/-- A smaller leading digit makes the number smaller, whatever follows. -/
theorem add_lt_of_digit_lt
    {d e r q : Nat}
    (hde : d < e)
    (hr : r < q) (s : Nat) :
    d * q + r < e * q + s := by
  have hle : (d + 1) * q ≤ e * q := Nat.mul_le_mul_right q hde
  rw [Nat.add_mul] at hle
  omega

theorem readDigits_lt
    (ds : List (Fin b)) :
    readDigits ds < b ^ ds.length := by
  induction ds with
  | nil =>
      simp
  | cons d ds ih =>
      have h := add_lt_of_digit_lt d.isLt ih 0
      rwa [readDigits_cons, List.length_cons, Nat.pow_succ, Nat.mul_comm (b ^ ds.length),
        ← Nat.add_zero (b * b ^ ds.length)]

/-- **Order**: on numerals of one width the first difference decides. -/
theorem lex_iff_readDigits_lt
    {ds es : List (Fin b)}
    (hlen : ds.length = es.length) :
    List.Lex (· < ·) ds es ↔ readDigits ds < readDigits es := by
  induction ds generalizing es with
  | nil =>
      have : es = [] := List.eq_nil_of_length_eq_zero hlen.symm
      subst this
      simp
  | cons d ds ih =>
      cases es with
      | nil =>
          simp at hlen
      | cons e es =>
          have hlen' : ds.length = es.length := by simpa using hlen
          have hd := readDigits_lt ds
          have he := readDigits_lt es
          rw [hlen'] at hd
          rw [List.cons_lex_cons_iff, ih hlen', readDigits_cons, readDigits_cons, hlen']
          constructor
          · rintro (hlt | ⟨rfl, hlt⟩)
            · exact add_lt_of_digit_lt hlt hd _
            · omega
          · intro hlt
            rcases lt_trichotomy d e with hde | rfl | hed
            · exact Or.inl hde
            · exact Or.inr ⟨rfl, by omega⟩
            · have := add_lt_of_digit_lt hed he (readDigits ds)
              omega

theorem readDigits_injective
    {ds es : List (Fin b)}
    (hlen : ds.length = es.length)
    (h : readDigits ds = readDigits es) :
    ds = es := by
  induction ds generalizing es with
  | nil =>
      exact (List.eq_nil_of_length_eq_zero hlen.symm).symm
  | cons d ds ih =>
      cases es with
      | nil =>
          simp at hlen
      | cons e es =>
          have hlen' : ds.length = es.length := by simpa using hlen
          have hd := readDigits_lt ds
          have he := readDigits_lt es
          rw [readDigits_cons, readDigits_cons, hlen'] at h
          rw [hlen'] at hd
          rcases lt_trichotomy d e with hde | rfl | hed
          · have := add_lt_of_digit_lt hde hd (readDigits es)
            omega
          · rw [ih hlen' (by omega)]
          · have := add_lt_of_digit_lt hed he (readDigits ds)
            omega

variable [NeZero b]

/-- The last `w` digits of a number. -/
def writeDigits : Nat → Nat → List (Fin b)
  | 0, _ => []
  | w + 1, n => writeDigits w (n / b) ++ [Fin.ofNat b n]

@[simp] theorem length_writeDigits
    (w n : Nat) :
    (writeDigits w n : List (Fin b)).length = w := by
  induction w generalizing n with
  | zero =>
      rfl
  | succ w ih =>
      simp [writeDigits, ih]

/-- **Reading what was written** gives the number, when the width suffices. -/
theorem readDigits_writeDigits
    {w n : Nat}
    (hn : n < b ^ w) :
    readDigits (writeDigits w n : List (Fin b)) = n := by
  induction w generalizing n with
  | zero =>
      have : n = 0 := by simpa using hn
      subst this
      rfl
  | succ w ih =>
      have hdiv : n / b < b ^ w := by
        refine Nat.div_lt_of_lt_mul ?_
        rwa [Nat.mul_comm, ← Nat.pow_succ]
      rw [writeDigits, readDigits_append_singleton, ih hdiv]
      exact Nat.div_add_mod' n b

/-- **Writing what was read** gives the digits. -/
theorem writeDigits_readDigits
    (ds : List (Fin b)) :
    writeDigits ds.length (readDigits ds) = ds :=
  readDigits_injective (length_writeDigits _ _) (readDigits_writeDigits (readDigits_lt ds))

end Radix

/-! ## Alphabets -/

/-- Characters for the digits of base `b`. -/
structure Alphabet (b : Nat) where
  symbols : Text
  length_symbols : symbols.length = b
  nodup : symbols.Nodup

namespace Alphabet

variable {b : Nat} (A : Alphabet b)

/-- The character of a digit. -/
def symbol (d : Fin b) : CodePoint :=
  A.symbols.get (d.cast A.length_symbols.symm)

/-- The digit of a character, none for a character outside the alphabet. -/
def digit? (c : CodePoint) : Option (Fin b) :=
  (List.finRange b).find? fun d => A.symbol d = c

theorem symbol_injective
    {d e : Fin b}
    (h : A.symbol d = A.symbol e) :
    d = e := by
  have := A.nodup.injective_get h
  simpa [Fin.ext_iff] using this

theorem digit?_eq_some_iff
    {c : CodePoint} {d : Fin b} :
    A.digit? c = some d ↔ c = A.symbol d := by
  constructor
  · intro h
    have := List.find?_some h
    simpa [eq_comm] using this
  · rintro rfl
    cases hfind : A.digit? (A.symbol d) with
    | none =>
        have := List.find?_eq_none.mp hfind d (List.mem_finRange d)
        simp at this
    | some e =>
        have hsymbol : A.symbol e = A.symbol d := by
          have := List.find?_some hfind
          simpa using this
        rw [A.symbol_injective hsymbol]

/-- A numeral in the characters of the alphabet. -/
def spell (ds : List (Fin b)) : Text :=
  ds.map A.symbol

/-- The digits of a text, none when a character is no digit. -/
def unspell (t : Text) : Option (List (Fin b)) :=
  t.mapM A.digit?

theorem unspell_eq_some_iff
    {t : Text} {ds : List (Fin b)} :
    A.unspell t = some ds ↔ t = A.spell ds :=
  mapM_eq_some_iff fun _ _ => A.digit?_eq_some_iff

end Alphabet

end Base
end Bluetape
