import Bluetape.Base.JsonReading
import Bluetape.Serde.JsonDecode

/-!
# How the reader scans what the writer writes

An integer within the bound of the writer is read as itself, and the depth scanner
passes over the text of a tree that nests no more containers than it allows.
-/

namespace Bluetape
namespace Serde

open Base Base.Json

/-! ## Integers -/

section Integers

theorem ord_asciiDigit
    {b : UInt8} (h : isDigit b = true) :
    (CodePoint.scalar (Char.ofNat b.toNat)).ord = b.toNat := by
  simp only [isDigit, decide_eq_true_eq] at h
  exact ord_ofNat (by omega)

theorem isDecimal_asciiDigit
    {b : UInt8} (h : isDigit b = true) :
    isDecimal (.scalar (Char.ofNat b.toNat)) = true := by
  simp only [isDecimal, ord_asciiDigit h]
  exact h

theorem isDecimal_of_mem_asciiText
    {bs : Bytes} (h : bs.all isDigit = true) :
    ∀ p ∈ asciiText bs, isDecimal p = true := by
  intro p hp
  obtain ⟨b, hb, rfl⟩ := List.mem_map.mp hp
  exact isDecimal_asciiDigit (List.all_eq_true.mp h b hb)

theorem asciiText_digits
    {bs : Bytes} (h : bs.all isDigit = true) :
    (asciiText bs).map (fun p => UInt8.ofNat p.ord) = bs := by
  rw [asciiText, List.map_map]
  refine (List.map_congr_left fun b hb => ?_).trans (List.map_id bs)
  have hb := List.all_eq_true.mp h b hb
  simp only [Function.comp, ord_asciiDigit hb, UInt8.ofNat_toNat, id]

/-- The decimal text of a number: only the zero starts with a zero. -/
theorem asciiText_decimal
    (m : Nat) :
    ∃ p t, asciiText (decimal m) = p :: t ∧ isDecimal p = true ∧
      (∀ q ∈ t, isDecimal q = true) ∧ (p = mark '0' → t = []) := by
  rcases Nat.eq_zero_or_pos m with rfl | hpos
  · exact ⟨mark '0', [], by decide, by decide, by simp, fun _ => rfl⟩
  · have hcanonical := isCanonicalPositive_decimal hpos
    cases hdecimal : decimal m with
    | nil =>
        simp [hdecimal, isCanonicalPositive] at hcanonical
    | cons b bs =>
        simp only [hdecimal, isCanonicalPositive, Bool.and_eq_true] at hcanonical
        have hb := isDigit_of_isPositiveDigit hcanonical.1
        refine ⟨_, asciiText bs, rfl, isDecimal_asciiDigit hb,
          isDecimal_of_mem_asciiText hcanonical.2, ?_⟩
        intro hzero
        have hord := congrArg CodePoint.ord hzero
        rw [ord_asciiDigit hb] at hord
        have hpositive := hcanonical.1
        simp only [isPositiveDigit, decide_eq_true_eq, hord] at hpositive
        exact absurd hpositive (by decide)

theorem scanMinus_intText
    (n : Int) :
    scanMinus (intText n) =
      (if n < 0 then [mark '-'] else [], asciiText (decimal n.natAbs)) := by
  unfold intText
  split
  · rfl
  · obtain ⟨p, t, ht, hp, -, -⟩ := asciiText_decimal n.natAbs
    have hne : p ≠ mark '-' := by
      rintro rfl
      exact absurd hp (by decide)
    simp [ht, scanMinus, hne]

/-- The text of an integer scans as an integer. -/
theorem scanNumber_intText
    (n : Int) :
    scanNumber (intText n) = some (⟨intText n, [], []⟩, []) := by
  obtain ⟨p, t, ht, hp, hdigits, hzero⟩ := asciiText_decimal n.natAbs
  have hinteger : scanInteger (intText n) = some (intText n, []) := by
    simp only [scanInteger, scanMinus_intText, ht, scanDigits_of_all hdigits, hp, if_true]
    split
    case isTrue h =>
      rw [hzero h, intText, ht, hzero h]
    case isFalse =>
      rw [intText, ht]
  simp only [scanNumber, hinteger, Option.bind_eq_bind, Option.bind_some]
  rfl

theorem intOfText_intText
    (n : Int) :
    intOfText (intText n) = n := by
  simp only [intOfText, scanMinus_intText, asciiText_digits (decimal_all_isDigit _),
    decimalValue_decimal]
  by_cases hn : n < 0
  · rw [if_pos hn, if_neg (by simp)]
    omega
  · rw [if_neg hn, if_pos rfl]
    omega

theorem decimal_length_le
    {m k : Nat} (hk : 0 < k) (h : m < 10 ^ k) :
    (decimal m).length ≤ k := by
  rcases Nat.eq_zero_or_pos m with rfl | hpos
  · exact hk
  · by_contra hlong
    have := pow_le_decimalValue (isCanonicalPositive_decimal hpos) (not_le.mp hlong)
    rw [decimalValue_decimal] at this
    omega

/-- An integer within the bound of the writer has no more digits than the reader allows. -/
theorem parseLimitedInt_intText
    {F : Type} {n : Int} (h : n.natAbs < 10 ^ maxJsonIntegerDigits) :
    parseLimitedInt (intText n) = .ok (JsonValue.int (F := F) n) := by
  have hlength : (decimal n.natAbs).length ≤ maxJsonIntegerDigits :=
    decimal_length_le (by decide) h
  have hcount : ((intText n).length : Int) -
      (if (intText n).head? = some (mark '-') then 1 else 0) = (decimal n.natAbs).length := by
    obtain ⟨p, t, ht, hp, -, -⟩ := asciiText_decimal n.natAbs
    have hdigits : (asciiText (decimal n.natAbs)).length = (decimal n.natAbs).length := by
      simp [asciiText]
    have hne : p ≠ mark '-' := by
      rintro rfl
      exact absurd hp (by decide)
    unfold intText
    split
    · simp [hdigits]
    · simp [ht, hne, ← hdigits]
  simp only [parseLimitedInt, hcount, intOfText_intText]
  rw [raiseIf, if_neg (by omega)]
  rfl

end Integers

/-! ## The depth scanner -/

section DepthScanner

variable {maxNestingDepth : Nat}

/-- A code point that the scanner passes over outside a string. -/
def isPlain (p : CodePoint) : Bool :=
  p ≠ quotationMark ∧ p ≠ beginArray ∧ p ≠ beginObject ∧ p ≠ endArray ∧ p ≠ endObject

/-- The scanner passes over a text at a depth. -/
def PassesOver (maxNestingDepth : Nat) (t : Text) (depth : Nat) : Prop :=
  ∀ rest, preflightJsonText maxNestingDepth false false depth (t ++ rest) =
    preflightJsonText maxNestingDepth false false depth rest

theorem PassesOver.append
    {t u : Text} {depth : Nat}
    (ht : PassesOver maxNestingDepth t depth) (hu : PassesOver maxNestingDepth u depth) :
    PassesOver maxNestingDepth (t ++ u) depth := by
  intro rest
  rw [List.append_assoc, ht, hu]

theorem passesOver_plain
    {t : Text} (h : t.all isPlain = true) (depth : Nat) :
    PassesOver maxNestingDepth t depth := by
  intro rest
  induction t with
  | nil =>
      rfl
  | cons p t ih =>
      simp only [List.all_cons, Bool.and_eq_true, isPlain, decide_eq_true_eq] at h
      obtain ⟨⟨hquote, harray, hobject, hendArray, hendObject⟩, ht⟩ := h
      rw [List.cons_append, preflightJsonText, if_neg hquote, if_neg (by tauto),
        if_neg (by tauto)]
      exact ih ht

theorem preflight_escape
    (p : CodePoint) (depth : Nat) (rest : Text) :
    preflightJsonText maxNestingDepth true false depth (escape p ++ rest) =
      preflightJsonText maxNestingDepth true false depth rest := by
  have hskip : ∀ (q : CodePoint) (rest : Text), q ≠ quotationMark → q ≠ escapeMark →
      preflightJsonText maxNestingDepth true false depth (q :: rest) =
        preflightJsonText maxNestingDepth true false depth rest := by
    intro q rest hquote hmark
    rw [preflightJsonText, if_neg (by decide), if_neg hmark, if_neg hquote]
  have hescaped : ∀ (q : CodePoint) (rest : Text),
      preflightJsonText maxNestingDepth true false depth (escapeMark :: q :: rest) =
        preflightJsonText maxNestingDepth true false depth rest := by
    intro q rest
    rw [preflightJsonText, if_neg (by decide), if_pos rfl, preflightJsonText, if_pos rfl]
  have hhex : ∀ n < 16, hexDigit n ≠ quotationMark ∧ hexDigit n ≠ escapeMark := by
    decide
  unfold escape
  cases hshort : shortEscape p with
  | some e =>
      exact hescaped e rest
  | none =>
      obtain ⟨hquote, hmark⟩ := ne_marks_of_shortEscape hshort
      by_cases hcontrol : p.ord < 0x20
      · have hdigit : ∀ (n : Nat) (rest : Text),
            preflightJsonText maxNestingDepth true false depth (hexDigit (n % 16) :: rest) =
              preflightJsonText maxNestingDepth true false depth rest := by
          intro n rest
          obtain ⟨h₁, h₂⟩ := hhex (n % 16) (Nat.mod_lt _ (by decide))
          exact hskip _ rest h₁ h₂
        simp only [if_pos hcontrol, hexEscape, List.cons_append, List.nil_append, hescaped,
          hdigit]
      · simp only [if_neg hcontrol, List.cons_append, List.nil_append]
        exact hskip p rest hquote hmark

theorem passesOver_quote
    (t : Text) (depth : Nat) :
    PassesOver maxNestingDepth (quote t) depth := by
  intro rest
  have hinside : preflightJsonText maxNestingDepth true false depth
      (t.flatMap escape ++ quotationMark :: rest) =
        preflightJsonText maxNestingDepth false false depth rest := by
    induction t with
    | nil =>
        rw [List.flatMap_nil, List.nil_append, preflightJsonText, if_neg (by decide),
          if_neg (by decide), if_pos rfl]
    | cons p t ih =>
        rw [List.flatMap_cons, List.append_assoc, preflight_escape, ih]
  have htext : quote t ++ rest =
      quotationMark :: (t.flatMap escape ++ quotationMark :: rest) := by
    simp [quote]
  rw [htext, preflightJsonText, if_pos rfl, hinside]

theorem passesOver_number
    (n : Number) (depth : Nat) :
    PassesOver maxNestingDepth n.parts.text depth := by
  refine passesOver_plain (List.all_eq_true.mpr fun p hp => ?_) depth
  have hcontinues := continuesNumber_of_mem_number n.scans p hp
  simp only [isPlain, decide_eq_true_eq]
  refine ⟨?_, ?_, ?_, ?_, ?_⟩
  all_goals
    rintro rfl
    exact absurd hcontinues (by decide)

/-- A container is passed over when what is inside is, one level deeper. -/
theorem passesOver_container
    {begin close : CodePoint} {t : Text} {depth : Nat}
    (hbegin : begin = beginArray ∨ begin = beginObject)
    (hclose : close = endArray ∨ close = endObject)
    (hdepth : depth + 1 ≤ maxNestingDepth)
    (ht : PassesOver maxNestingDepth t (depth + 1)) :
    PassesOver maxNestingDepth (begin :: t ++ [close]) depth := by
  intro rest
  have hbeginQuote : begin ≠ quotationMark := by
    rcases hbegin with rfl | rfl <;> decide
  have hcloseQuote : close ≠ quotationMark := by
    rcases hclose with rfl | rfl <;> decide
  have hcloseBegin : ¬(close = beginArray ∨ close = beginObject) := by
    rcases hclose with rfl | rfl <;> decide
  rw [List.cons_append, List.cons_append, List.append_assoc, preflightJsonText,
    if_neg hbeginQuote, if_pos hbegin, if_neg (by omega), ht, List.cons_append,
    List.nil_append, preflightJsonText, if_neg hcloseQuote, if_neg hcloseBegin,
    if_pos ⟨hclose, by omega⟩, Nat.add_sub_cancel]

/-- **The scanner passes over the text of a tree whose containers fit.** -/
theorem passesOver_render
    (tree : Tree) {depth : Nat} (h : depth + nesting tree ≤ maxNestingDepth) :
    PassesOver maxNestingDepth (render tree) depth := by
  induction tree generalizing depth with
  | null =>
      exact passesOver_plain (by decide) depth
  | bool b =>
      cases b with
      | false =>
          exact passesOver_plain (by decide) depth
      | true =>
          exact passesOver_plain (by decide) depth
  | number n =>
      exact passesOver_number n depth
  | string t =>
      exact passesOver_quote t depth
  | array items ih =>
      rw [nesting] at h
      have hitem : ∀ item ∈ items, PassesOver maxNestingDepth (render item) (depth + 1) := by
        intro item hitem
        have := nesting_le_of_mem_items hitem
        exact ih item hitem (by omega)
      have hrest : ∀ items : List Tree,
          (∀ item ∈ items, PassesOver maxNestingDepth (render item) (depth + 1)) →
          PassesOver maxNestingDepth (renderItems items) (depth + 1) := by
        intro items hitems
        induction items with
        | nil =>
            exact passesOver_plain (by decide) _
        | cons item items ih =>
            have hcomma : PassesOver maxNestingDepth [valueSeparator] (depth + 1) :=
              passesOver_plain (by decide) _
            exact hcomma.append ((hitems item (by simp)).append
              (ih fun item hitem => hitems item (List.mem_cons_of_mem _ hitem)))
      cases items with
      | nil =>
          exact passesOver_container (t := []) (Or.inl rfl) (Or.inl rfl) (by omega)
            (passesOver_plain (by decide) _)
      | cons item items =>
          exact passesOver_container (Or.inl rfl) (Or.inl rfl) (by omega)
            ((hitem item (by simp)).append
              (hrest items fun item h => hitem item (List.mem_cons_of_mem _ h)))
  | object members ih =>
      rw [nesting] at h
      have hmember : ∀ member ∈ members,
          PassesOver maxNestingDepth (renderMember member) (depth + 1) := by
        intro member hmember
        have := nesting_le_of_mem_members hmember
        obtain ⟨name, value⟩ := member
        have hcolon : PassesOver maxNestingDepth [nameSeparator] (depth + 1) :=
          passesOver_plain (by decide) _
        exact (passesOver_quote name _).append
          (hcolon.append (ih (name, value) hmember (by omega)))
      have hrest : ∀ members : List (Text × Tree),
          (∀ member ∈ members, PassesOver maxNestingDepth (renderMember member) (depth + 1)) →
          PassesOver maxNestingDepth (renderMembers members) (depth + 1) := by
        intro members hmembers
        induction members with
        | nil =>
            exact passesOver_plain (by decide) _
        | cons member members ih =>
            have hcomma : PassesOver maxNestingDepth [valueSeparator] (depth + 1) :=
              passesOver_plain (by decide) _
            exact hcomma.append ((hmembers member (by simp)).append
              (ih fun member h => hmembers member (List.mem_cons_of_mem _ h)))
      cases members with
      | nil =>
          exact passesOver_container (t := []) (Or.inr rfl) (Or.inr rfl) (by omega)
            (passesOver_plain (by decide) _)
      | cons member members =>
          exact passesOver_container (Or.inr rfl) (Or.inr rfl) (by omega)
            ((hmember member (by simp)).append
              (hrest members fun member h => hmember member (List.mem_cons_of_mem _ h)))

end DepthScanner

end Serde
end Bluetape
