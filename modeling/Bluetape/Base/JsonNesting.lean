import Bluetape.Base.JsonDepth

/-!
# How deep a JSON text nests

Hooks that give the number of nested containers for every value read the nesting of a
text off its reader.  Scanners of tokens split the text that they are given.

* `scanNumber_split`: a number and what follows it are the text that is scanned;
* `nestingHooks`: the hooks that measure the values of a text.
-/

namespace Bluetape
namespace Base
namespace Json

/-! ## What a scanner splits -/

section Splits

theorem expect_eq_some_iff
    {p : CodePoint} {t rest : Text} :
    expect p t = some rest ↔ t = p :: rest := by
  cases t with
  | nil =>
      simp [expect]
  | cons q t =>
      simp [expect]

theorem skipSpace_split
    (t : Text) :
    t.takeWhile isSpace ++ skipSpace t = t :=
  List.takeWhile_append_dropWhile

theorem scanDigits_split
    (t : Text) :
    (scanDigits t).1 ++ (scanDigits t).2 = t := by
  rw [scanDigits, List.span_eq_takeWhile_dropWhile]
  exact List.takeWhile_append_dropWhile

theorem scanMinus_split
    (t : Text) :
    (scanMinus t).1 ++ (scanMinus t).2 = t := by
  cases t with
  | nil =>
      rfl
  | cons p t =>
      simp only [scanMinus]
      split
      · rfl
      · rfl

theorem scanSign_split
    (t : Text) :
    (scanSign t).1 ++ (scanSign t).2 = t := by
  cases t with
  | nil =>
      rfl
  | cons p t =>
      simp only [scanSign]
      split
      · rfl
      · rfl

theorem scanInteger_split
    {t integer rest : Text}
    (h : scanInteger t = some (integer, rest)) :
    integer ++ rest = t := by
  have hminus := scanMinus_split t
  unfold scanInteger at h
  split at h
  · cases h
  · rename_i p after hafter
    rw [hafter] at hminus
    split at h
    · obtain ⟨rfl, rfl⟩ := Prod.mk.inj (Option.some.inj h)
      simpa using hminus
    · split at h
      · obtain ⟨rfl, rfl⟩ := Prod.mk.inj (Option.some.inj h)
        simpa [scanDigits_split] using hminus
      · cases h

theorem scanFraction_split
    (t : Text) :
    (scanFraction t).1 ++ (scanFraction t).2 = t := by
  unfold scanFraction
  split
  · rfl
  · rename_i rest hrest
    split
    · rfl
    · rw [expect_eq_some_iff.mp hrest, List.cons_append, scanDigits_split]

theorem scanExponent_split
    (t : Text) :
    (scanExponent t).1 ++ (scanExponent t).2 = t := by
  cases t with
  | nil =>
      rfl
  | cons p t =>
      simp only [scanExponent]
      split
      · split
        · rfl
        · simp [scanDigits_split, scanSign_split]
      · rfl

/-- A number and what follows it are the text that is scanned. -/
theorem scanNumber_split
    {t rest : Text} {n : NumberText}
    (h : scanNumber t = some (n, rest)) :
    n.text ++ rest = t := by
  simp only [scanNumber, Option.bind_eq_bind, Option.bind_eq_some_iff] at h
  obtain ⟨⟨integer, after⟩, hinteger, h⟩ := h
  obtain ⟨rfl, rfl⟩ := Prod.mk.inj (Option.some.inj h)
  have hfraction := scanFraction_split after
  have hexponent := scanExponent_split (scanFraction after).2
  rw [NumberText.text, List.append_assoc, List.append_assoc, hexponent, hfraction]
  exact scanInteger_split hinteger

end Splits

/-! ## Measuring values -/

section Measures

variable {ε α : Type}

/-- The deepest of a sequence of nestings. -/
def deepest (nestings : List Nat) : Nat :=
  nestings.foldr max 0

@[simp] theorem deepest_nil :
    deepest [] = 0 := by
  rfl

@[simp] theorem deepest_cons
    (n : Nat) (nestings : List Nat) :
    deepest (n :: nestings) = max n (deepest nestings) := by
  rfl

/-- The hooks that give for every value the number of containers that it nests. -/
def nestingHooks : Hooks Empty Nat where
  null := 0
  bool _ := 0
  string _ := 0
  array nestings := deepest nestings + 1
  parseInt _ := .ok 0
  parseFloat _ := .ok 0
  parseConstant _ := .ok 0
  objectPairs pairs := .ok (deepest (pairs.map Prod.snd) + 1)

/-- The relation holds between what the hooks give for values and how deep these nest. -/
structure Measured (hooks : Hooks ε α) (measures : α → Nat → Prop) : Prop where
  null : measures hooks.null 0
  bool : ∀ b, measures (hooks.bool b) 0
  string : ∀ t, measures (hooks.string t) 0
  array : ∀ {values nestings}, List.Forall₂ measures values nestings →
    measures (hooks.array values) (deepest nestings + 1)
  parseInt : ∀ {t value}, hooks.parseInt t = .ok value → measures value 0
  parseFloat : ∀ {t value}, hooks.parseFloat t = .ok value → measures value 0
  parseConstant : ∀ {t value}, hooks.parseConstant t = .ok value → measures value 0
  objectPairs : ∀ {pairs nestings value},
    List.Forall₂ (fun pair n => measures pair.2 n) pairs nestings →
    hooks.objectPairs pairs = .ok value → measures value (deepest nestings + 1)

theorem measured_nestingHooks :
    Measured nestingHooks Eq where
  null := rfl
  bool _ := rfl
  string _ := rfl
  array := by
    intro values nestings h
    rw [List.forall₂_eq_eq_eq] at h
    rw [h]
    rfl
  parseInt h := (Except.ok.inj h).symm
  parseFloat h := (Except.ok.inj h).symm
  parseConstant h := (Except.ok.inj h).symm
  objectPairs := by
    intro pairs nestings value hpairs h
    obtain rfl := Except.ok.inj h
    have hnestings : List.Forall₂ Eq (pairs.map Prod.snd) nestings :=
      List.forall₂_map_left_iff.mpr hpairs
    rw [List.forall₂_eq_eq_eq] at hnestings
    rw [hnestings]

theorem measured_any
    (hooks : Hooks ε α) :
    Measured hooks fun _ _ => True := by
  constructor <;> simp

end Measures

end Json
end Base
end Bluetape
