import Bluetape.Id.Core

/-!
# ULID values

The text of a ULID: 26 characters of Crockford's alphabet for a timestamp and
80 bits of randomness, written by `_encode` and read by `_decode`.  The
characters stand in the order of their digits, so that texts compare as the
numbers do.
-/

namespace Bluetape
namespace Id

open Base

/-- `_ALPHABET` -/
def ulidAlphabet : Alphabet 32 where
  symbols := text "0123456789ABCDEFGHJKMNPQRSTVWXYZ"
  length_symbols := by decide
  nodup := by decide

/-- `_MAX_RANDOMNESS` -/
def maxRandomness : Nat :=
  (1 <<< 80) - 1

/-- `_ULID_LENGTH` -/
def ulidLength : Nat :=
  26

theorem and_0x1F_lt
    (value : Nat) :
    value &&& 0x1F < 32 := by
  rw [show 0x1F = 2 ^ 5 - 1 by rfl, Nat.and_two_pow_sub_one_eq_mod]
  exact Nat.mod_lt value (by decide)

/-- The loop of `_encode`: the last characters first, before those already written. -/
def encodeLoop : Nat → Nat → Text → Text
  | 0, _, output => output
  | index + 1, value, output =>
      encodeLoop index (value >>> 5)
        (ulidAlphabet.symbol ⟨value &&& 0x1F, and_0x1F_lt value⟩ :: output)

/-- `_encode` -/
def encode (timestamp randomness : Nat) : Text :=
  encodeLoop ulidLength ((timestamp <<< 80) ||| randomness) []

/-- The loop of `_decode`. -/
def decodeLoop (decoded : Nat) : Text → Except Raised Nat
  | [] => .ok decoded
  | character :: value =>
      match ulidAlphabet.digit? character with
      | none => .error (.invalidIDError "value must be a canonical ULID")
      | some digit => decodeLoop ((decoded <<< 5) ||| digit) value

/-- `_decode` -/
def decode (value : Text) : Except Raised Nat := do
  let decoded ← decodeLoop 0 value
  raiseIf (1 <<< 128 ≤ decoded)
    (.invalidIDError "value exceeds the canonical ULID range")
  return decoded

/-- `parse_ulid`, of a string -/
def parseUlid (value : Text) : Except Raised Text := do
  raiseIf (value.length ≠ ulidLength)
    (.invalidIDError "value must contain exactly 26 ULID characters")
  let _ ← decode value
  return value

/-- `ulid_timestamp_ms`, of a string -/
def ulidTimestampMs (value : Text) : Except Raised Nat := do
  let decoded ← decode (← parseUlid value)
  return decoded >>> 80

/-! ## Writing and reading -/

theorem encodeLoop_eq_spell
    (width value : Nat) (output : Text) :
    encodeLoop width value output =
      ulidAlphabet.spell (writeDigits width value) ++ output := by
  induction width generalizing value output with
  | zero =>
      rfl
  | succ width ih =>
      have hdigit : (⟨value &&& 0x1F, and_0x1F_lt value⟩ : Fin 32) = Fin.ofNat 32 value :=
        Fin.ext (Nat.and_two_pow_sub_one_eq_mod value 5)
      rw [encodeLoop, ih, Nat.shiftRight_eq_div_pow, hdigit, writeDigits]
      simp [Alphabet.spell]

theorem encode_eq_spell
    (timestamp randomness : Nat) :
    encode timestamp randomness =
      ulidAlphabet.spell (writeDigits ulidLength ((timestamp <<< 80) ||| randomness)) := by
  rw [encode, encodeLoop_eq_spell, List.append_nil]

theorem decodeLoop_spell
    (decoded : Nat) (ds : List (Fin 32)) :
    decodeLoop decoded (ulidAlphabet.spell ds) =
      .ok (decoded * 32 ^ ds.length + readDigits ds) := by
  induction ds generalizing decoded with
  | nil =>
      simp [Alphabet.spell, decodeLoop]
  | cons d ds ih =>
      have hdigit : ulidAlphabet.digit? (ulidAlphabet.symbol d) = some d :=
        ulidAlphabet.digit?_eq_some_iff.mpr rfl
      have hshift : decoded <<< 5 ||| (d : Nat) = decoded * 32 + d := by
        rw [← Nat.shiftLeft_add_eq_or_of_lt (i := 5) d.isLt, Nat.shiftLeft_eq]
      rw [Alphabet.spell, List.map_cons, decodeLoop, hdigit]
      simp only [hshift]
      rw [← Alphabet.spell, ih, readDigits_cons, List.length_cons, Nat.pow_succ]
      congr 1
      ring

/-- The number that `_encode` writes. -/
def packUlid (timestamp randomness : Nat) : Nat :=
  timestamp * 2 ^ 80 + randomness

section Packing

variable {ms randomness : Nat}

theorem packUlid_eq
    (hrandom : randomness ≤ maxRandomness) :
    (ms <<< 80) ||| randomness = packUlid ms randomness := by
  simp only [maxRandomness, Nat.shiftLeft_eq] at hrandom
  rw [← Nat.shiftLeft_add_eq_or_of_lt (by omega), Nat.shiftLeft_eq, packUlid]

theorem packUlid_lt
    (hms : ms ≤ maxTimestamp)
    (hrandom : randomness ≤ maxRandomness) :
    packUlid ms randomness < 2 ^ 128 := by
  simp only [maxRandomness, maxTimestamp, Nat.shiftLeft_eq] at hrandom hms
  unfold packUlid
  omega

theorem readDigits_packUlid
    (hms : ms ≤ maxTimestamp)
    (hrandom : randomness ≤ maxRandomness) :
    readDigits (writeDigits ulidLength (packUlid ms randomness) : List (Fin 32)) =
      packUlid ms randomness := by
  refine readDigits_writeDigits ?_
  have := packUlid_lt hms hrandom
  simp only [ulidLength]
  omega

/-- **Round trip**: `_decode` reads what `_encode` writes. -/
theorem decode_encode
    (hms : ms ≤ maxTimestamp)
    (hrandom : randomness ≤ maxRandomness) :
    decode (encode ms randomness) = .ok (packUlid ms randomness) := by
  have hlt := packUlid_lt hms hrandom
  have hloop : decodeLoop 0 (encode ms randomness) = .ok (packUlid ms randomness) := by
    rw [encode_eq_spell, packUlid_eq hrandom, decodeLoop_spell, Nat.zero_mul, Nat.zero_add,
      readDigits_packUlid hms hrandom]
  refine except_bind_eq_ok.mpr ⟨_, hloop, except_bind_eq_ok.mpr ⟨(), ?_, rfl⟩⟩
  exact raiseIf_eq_ok.mpr (Nat.not_le.mpr (by rwa [Nat.shiftLeft_eq, Nat.one_mul]))

theorem length_encode
    (ms randomness : Nat) :
    (encode ms randomness).length = ulidLength := by
  rw [encode_eq_spell]
  simp [Alphabet.spell]

/-- **Recovery**: the timestamp of a ULID is the millisecond written. -/
theorem ulidTimestampMs_encode
    (hms : ms ≤ maxTimestamp)
    (hrandom : randomness ≤ maxRandomness) :
    ulidTimestampMs (encode ms randomness) = .ok ms := by
  have hshift : packUlid ms randomness >>> 80 = ms := by
    simp only [maxRandomness, Nat.shiftLeft_eq] at hrandom
    rw [packUlid, Nat.shiftRight_eq_div_pow]
    omega
  simp [ulidTimestampMs, parseUlid, length_encode, decode_encode hms hrandom, raiseIf, hshift,
    bind, Except.bind, pure, Except.pure]

end Packing

/-! ## The order of the texts -/

/-- `left < right`, of strings -/
def textLt (left right : Text) : Prop :=
  List.Lex (fun p q => p.ord < q.ord) left right

theorem symbol_strictMono :
    ∀ d e : Fin 32, d < e → (ulidAlphabet.symbol d).ord < (ulidAlphabet.symbol e).ord := by
  decide

theorem textLt_spell
    {ds es : List (Fin 32)}
    (h : List.Lex (· < ·) ds es) :
    textLt (ulidAlphabet.spell ds) (ulidAlphabet.spell es) := by
  induction h with
  | nil =>
      exact .nil
  | rel hde =>
      exact .rel (symbol_strictMono _ _ hde)
  | cons _ ih =>
      exact .cons ih

/-- **Order**: of two numbers, the smaller one has the smaller text. -/
theorem textLt_encode
    {ms randomness ms' randomness' : Nat}
    (hms : ms ≤ maxTimestamp)
    (hrandom : randomness ≤ maxRandomness)
    (hms' : ms' ≤ maxTimestamp)
    (hrandom' : randomness' ≤ maxRandomness)
    (h : packUlid ms randomness < packUlid ms' randomness') :
    textLt (encode ms randomness) (encode ms' randomness') := by
  rw [encode_eq_spell, encode_eq_spell, packUlid_eq hrandom, packUlid_eq hrandom']
  refine textLt_spell ((lex_iff_readDigits_lt (by simp)).mpr ?_)
  rwa [readDigits_packUlid hms hrandom, readDigits_packUlid hms' hrandom']

end Id
end Bluetape
