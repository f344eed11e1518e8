import Bluetape.Id.Core
import Mathlib.Data.Nat.Bitwise

/-!
# UUIDv7 values

`uuid.UUID` with the parts of it that the package reads, the packing of a
version 7 identifier, and `uuid7_timestamp_ms`.
-/

namespace Bluetape
namespace Id

open Base

/-- `uuid.UUID` -/
structure UUID where
  int : Nat
  int_lt : int < 2 ^ 128
deriving DecidableEq, Repr

/-- The variants that `uuid` tells apart. -/
inductive Variant
  | reservedNcs
  | rfc4122
  | reservedMicrosoft
  | reservedFuture
deriving DecidableEq, Repr

/-- The digits of `str(value)`. -/
def hexAlphabet : Alphabet 16 where
  symbols := text "0123456789abcdef"
  length_symbols := by decide
  nodup := by decide

namespace UUID

/-- `uuid.UUID(int=...)` -/
def ofInt (n : Nat) : Except Raised UUID :=
  if h : n < 2 ^ 128 then .ok ⟨n, h⟩
  else .error (.valueError "int is out of range (need a 128-bit value)")

/-- `variant` -/
def variant (u : UUID) : Variant :=
  if u.int &&& (0x8000 <<< 48) = 0 then .reservedNcs
  else if u.int &&& (0x4000 <<< 48) = 0 then .rfc4122
  else if u.int &&& (0x2000 <<< 48) = 0 then .reservedMicrosoft
  else .reservedFuture

/-- `version` -/
def version (u : UUID) : Option Nat :=
  if u.variant = .rfc4122 then some ((u.int >>> 76) &&& 0xf) else none

/-- The hyphens between the groups of 32 hexadecimal digits. -/
def hyphenate (hex : Text) : Text :=
  hex.take 8 ++ text "-" ++ (hex.drop 8).take 4 ++ text "-" ++ (hex.drop 12).take 4 ++
    text "-" ++ (hex.drop 16).take 4 ++ text "-" ++ hex.drop 20

/-- `str(value)` -/
def toText (u : UUID) : Text :=
  hyphenate (hexAlphabet.spell (writeDigits 32 u.int))

/--
`uuid.UUID(value)` for 32 lowercase hexadecimal digits with hyphens between
them.  What else the constructor reads is not canonical, and its only caller
refuses it with the same error as a text that the constructor cannot read, or
one with capitals.
-/
def ofText (value : Text) : Option UUID :=
  match hexAlphabet.unspell (value.filter (· ∉ text "-")) with
  | some ds => if h : readDigits ds < 2 ^ 128 ∧ ds.length = 32 then some ⟨_, h.1⟩ else none
  | none => none

end UUID

/-- The error of `uuid7_timestamp_ms` for a text that is no canonical UUID. -/
def notCanonicalUuid7 : Raised :=
  .invalidIDError "value must be a canonical lowercase UUIDv7 string"

/-- What `uuid7_timestamp_ms` may be given. -/
inductive UUIDArgument
  | str (value : Text)
  | uuid (value : UUID)
  | other

/-- The part of `uuid7_timestamp_ms` that reads its argument. -/
def UUIDArgument.parse : UUIDArgument → Except Raised UUID
  | .str value => do
      raiseIf (value.length ≠ 36) notCanonicalUuid7
      let parsed ← orRaise notCanonicalUuid7 (UUID.ofText value)
      raiseIf (parsed.toText ≠ value) notCanonicalUuid7
      return parsed
  | .uuid value => .ok value
  | .other => .error (.typeError "value must be a UUID or canonical UUID string")

/-- `uuid7_timestamp_ms` -/
def uuid7TimestampMs (value : UUIDArgument) : Except Raised Nat := do
  let parsed ← value.parse
  raiseIf (parsed.version ≠ some 7 ∨ parsed.variant ≠ .rfc4122)
    (.invalidIDError "value must be an RFC UUIDv7")
  return parsed.int >>> 80

/-! ## The canonical text of an identifier -/

theorem hyphen_not_mem_spell
    (ds : List (Fin 16)) :
    ∀ c ∈ hexAlphabet.spell ds, c ∉ text "-" := by
  have hsymbol : ∀ d, hexAlphabet.symbol d ∉ text "-" := by
    decide
  intro c hc
  obtain ⟨d, -, rfl⟩ := List.mem_map.mp hc
  exact hsymbol d

theorem filter_hyphenate
    {hex : Text}
    (h : ∀ c ∈ hex, c ∉ text "-") :
    (UUID.hyphenate hex).filter (· ∉ text "-") = hex := by
  have hkeep : ∀ part : Text, part ⊆ hex → part.filter (· ∉ text "-") = part :=
    fun part hpart => List.filter_eq_self.mpr fun c hc => by simpa using h c (hpart hc)
  have hhyphen : (text "-").filter (· ∉ text "-") = [] := by
    decide
  have hgroup : ∀ i, (hex.drop i).take 4 ++ hex.drop (i + 4) = hex.drop i := fun i => by
    rw [← List.drop_drop, List.take_append_drop]
  simp only [UUID.hyphenate, List.filter_append, hhyphen, List.append_nil]
  rw [hkeep _ (List.take_subset 8 hex), hkeep _ (List.drop_subset 20 hex),
    hkeep ((hex.drop 8).take 4) (List.Subset.trans (List.take_subset _ _) (List.drop_subset 8 hex)),
    hkeep ((hex.drop 12).take 4)
      (List.Subset.trans (List.take_subset _ _) (List.drop_subset 12 hex)),
    hkeep ((hex.drop 16).take 4)
      (List.Subset.trans (List.take_subset _ _) (List.drop_subset 16 hex)),
    List.append_assoc, List.append_assoc, List.append_assoc, hgroup 16, hgroup 12, hgroup 8,
    List.take_append_drop]

theorem length_hyphenate
    {hex : Text}
    (h : hex.length = 32) :
    (UUID.hyphenate hex).length = 36 := by
  have htext : (text "-").length = 1 := by
    decide
  simp [UUID.hyphenate, h, htext]

theorem ofText_toText
    (u : UUID) :
    UUID.ofText u.toText = some u := by
  have hread : readDigits (writeDigits 32 u.int : List (Fin 16)) = u.int :=
    readDigits_writeDigits u.int_lt
  have hspell := (@Alphabet.unspell_eq_some_iff _ hexAlphabet _ (writeDigits 32 u.int)).mpr rfl
  unfold UUID.ofText UUID.toText
  rw [filter_hyphenate (hyphen_not_mem_spell _), hspell]
  have hlt := u.int_lt
  simp only [hread, length_writeDigits, hlt, and_self, dite_true]

/-- An identifier and its text are the same argument. -/
theorem parse_toText
    (u : UUID) :
    (UUIDArgument.str u.toText).parse = .ok u := by
  have hlength : u.toText.length = 36 := length_hyphenate (by simp [Alphabet.spell])
  simp only [UUIDArgument.parse, hlength, ofText_toText, raiseIf, orRaise, ne_eq,
    not_true_eq_false, if_false]
  simp [pure, bind, Except.pure, Except.bind]

/-! ## Packing -/

/-- The integer that `UUID7Generator.new` packs. -/
def packUuid7 (logicalMs counter randomBits : Nat) : Nat :=
  (logicalMs <<< 80) ||| (0x7 <<< 76) ||| (counter <<< 64) ||| (0b10 <<< 62) ||| randomBits

section Packing

variable {ms counter randomBits : Nat}

theorem shiftLeft_or
    {a r i : Nat}
    (hr : r < 2 ^ i) :
    a <<< i ||| r = a * 2 ^ i + r := by
  rw [← Nat.shiftLeft_add_eq_or_of_lt hr, Nat.shiftLeft_eq]

/-- The fields of a packed identifier do not overlap. -/
theorem packUuid7_eq
    (hcounter : counter < 2 ^ 12)
    (hrandom : randomBits < 2 ^ 62) :
    packUuid7 ms counter randomBits =
      ms * 2 ^ 80 + (7 * 2 ^ 76 + (counter * 2 ^ 64 + (2 * 2 ^ 62 + randomBits))) := by
  unfold packUuid7
  rw [Nat.or_assoc, Nat.or_assoc, Nat.or_assoc, shiftLeft_or hrandom,
    shiftLeft_or (a := counter) (by omega), shiftLeft_or (a := 7) (by omega),
    shiftLeft_or (a := ms) (by omega)]

/-- A bit of a number, as the variants are told apart by. -/
theorem and_shiftLeft_eq_zero_iff
    (n i : Nat) :
    n &&& (2 ^ i) = 0 ↔ n / 2 ^ i % 2 = 0 := by
  rw [Nat.and_two_pow, Nat.testBit_eq_decide_div_mod_eq]
  by_cases h : n / 2 ^ i % 2 = 1
  · simp [h]
  · have : n / 2 ^ i % 2 = 0 := by omega
    simp [this]

variable {u : UUID}

theorem variant_packUuid7
    (hcounter : counter < 2 ^ 12)
    (hrandom : randomBits < 2 ^ 62)
    (hu : u.int = packUuid7 ms counter randomBits) :
    u.variant = .rfc4122 := by
  rw [packUuid7_eq hcounter hrandom] at hu
  have h63 : ¬ u.int &&& (0x8000 <<< 48) = 0 := by
    rw [show 0x8000 <<< 48 = 2 ^ 63 by rfl, and_shiftLeft_eq_zero_iff, hu]
    omega
  have h62 : u.int &&& (0x4000 <<< 48) = 0 := by
    rw [show 0x4000 <<< 48 = 2 ^ 62 by rfl, and_shiftLeft_eq_zero_iff, hu]
    omega
  rw [UUID.variant, if_neg h63, if_pos h62]

theorem version_packUuid7
    (hcounter : counter < 2 ^ 12)
    (hrandom : randomBits < 2 ^ 62)
    (hu : u.int = packUuid7 ms counter randomBits) :
    u.version = some 7 := by
  rw [UUID.version, if_pos (variant_packUuid7 hcounter hrandom hu), hu,
    packUuid7_eq hcounter hrandom, Nat.shiftRight_eq_div_pow,
    show 0xf = 2 ^ 4 - 1 by rfl, Nat.and_two_pow_sub_one_eq_mod]
  congr 1
  omega

/-- **Recovery**: the timestamp of a packed identifier is the millisecond packed. -/
theorem uuid7TimestampMs_packUuid7
    (hcounter : counter < 2 ^ 12)
    (hrandom : randomBits < 2 ^ 62)
    (hu : u.int = packUuid7 ms counter randomBits) {value : UUIDArgument}
    (hvalue : value.parse = .ok u) :
    uuid7TimestampMs value = .ok ms := by
  have hshift : u.int >>> 80 = ms := by
    rw [hu, packUuid7_eq hcounter hrandom, Nat.shiftRight_eq_div_pow]
    omega
  simp [uuid7TimestampMs, hvalue, raiseIf, version_packUuid7 hcounter hrandom hu,
    variant_packUuid7 hcounter hrandom hu, hshift, bind, Except.bind, pure, Except.pure]

end Packing

end Id
end Bluetape
