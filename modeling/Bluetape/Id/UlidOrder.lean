import Bluetape.Id.Ulid

/-!
# The ULID codec as an order isomorphism

The texts that `parse_ulid` accepts are the texts that `_encode` writes, one for each
timestamp and random part, and they are in the order of the numbers.

* `decodeLoop_cases`: what `_decode` reads is spelled in the alphabet, or it raises;
* `spell_of_lt`: twenty-six digits below 2^128 are an encoding;
* `ulid_order_isomorphism`: the three parts together.
-/

namespace Bluetape
namespace Id

open Base

/-- A timestamp of 48 bits and a random part of 80. -/
structure Ulid where
  timestamp : Nat
  randomness : Nat
  timestamp_le : timestamp ≤ maxTimestamp
  randomness_le : randomness ≤ maxRandomness

namespace Ulid

/-- The 128 bits. -/
def number (u : Ulid) : Nat :=
  packUlid u.timestamp u.randomness

/-- What `_encode` writes. -/
def text (u : Ulid) : Text :=
  encode u.timestamp u.randomness

/-- First the timestamp decides, then the random part. -/
theorem number_lt_iff
    (u v : Ulid) :
    u.number < v.number ↔
      u.timestamp < v.timestamp ∨ u.timestamp = v.timestamp ∧ u.randomness < v.randomness := by
  have hu := u.randomness_le
  have hv := v.randomness_le
  simp only [maxRandomness, Nat.shiftLeft_eq] at hu hv
  unfold number packUlid
  omega

/-- Every number of 128 bits has its timestamp and its random part. -/
theorem exists_number
    {n : Nat}
    (h : n < 2 ^ 128) :
    ∃ u : Ulid, u.number = n := by
  refine ⟨⟨n / 2 ^ 80, n % 2 ^ 80, ?_, ?_⟩, Nat.div_add_mod' n (2 ^ 80)⟩
  · simp only [maxTimestamp, Nat.shiftLeft_eq]
    omega
  · simp only [maxRandomness, Nat.shiftLeft_eq]
    omega

theorem text_eq_spell
    (u : Ulid) :
    u.text = ulidAlphabet.spell (writeDigits ulidLength u.number) := by
  rw [text, encode_eq_spell, packUlid_eq u.randomness_le]
  rfl

end Ulid

/-! ## What is accepted -/

/-- `_decode` reads numerals of the alphabet, and raises on everything else. -/
theorem decodeLoop_cases
    (decoded : Nat) (value : Text) :
    (∃ ds, value = ulidAlphabet.spell ds) ∨
      decodeLoop decoded value =
        .error (.invalidIDError "value must be a canonical ULID") := by
  induction value generalizing decoded with
  | nil =>
      exact Or.inl ⟨[], rfl⟩
  | cons character value ih =>
      cases hdigit : ulidAlphabet.digit? character with
      | none =>
          right
          rw [decodeLoop, hdigit]
      | some digit =>
          rcases ih ((decoded <<< 5) ||| digit) with ⟨ds, rfl⟩ | herror
          · obtain rfl := ulidAlphabet.digit?_eq_some_iff.mp hdigit
            exact Or.inl ⟨digit :: ds, rfl⟩
          · right
            rw [decodeLoop, hdigit]
            exact herror

/-- Twenty-six digits of a number below 2^128 are an encoding. -/
theorem spell_of_lt
    {ds : List (Fin 32)}
    (hlength : ds.length = ulidLength)
    (hlt : readDigits ds < 2 ^ 128) :
    ∃ u : Ulid, ulidAlphabet.spell ds = u.text := by
  obtain ⟨u, hnumber⟩ := Ulid.exists_number hlt
  refine ⟨u, ?_⟩
  rw [u.text_eq_spell, hnumber, ← hlength, writeDigits_readDigits]

theorem parseUlid_text
    (u : Ulid) :
    parseUlid u.text = .ok u.text ∧ decode u.text = .ok u.number := by
  have hdecode : decode u.text = .ok u.number :=
    decode_encode u.timestamp_le u.randomness_le
  have hlength : u.text.length = ulidLength := length_encode _ _
  refine ⟨?_, hdecode⟩
  refine except_bind_eq_ok.mpr ⟨(), raiseIf_eq_ok.mpr (by simpa using hlength), ?_⟩
  exact except_bind_eq_ok.mpr ⟨u.number, hdecode, rfl⟩

/-- `parse_ulid` accepts an encoding, or it raises `InvalidIDError`. -/
theorem parseUlid_cases
    (value : Text) :
    (∃ u : Ulid, value = u.text) ∨
      ∃ message, parseUlid value = .error (.invalidIDError message) := by
  by_cases hlength : value.length = ulidLength
  · have hparse : parseUlid value = (decode value).map fun _ => value := by
      simp only [parseUlid, raiseIf, hlength, ne_eq, not_true_eq_false, if_false]
      cases decode value <;> rfl
    rcases decodeLoop_cases 0 value with ⟨ds, rfl⟩ | herror
    · have hloop := decodeLoop_spell 0 ds
      rw [Nat.zero_mul, Nat.zero_add] at hloop
      by_cases hlt : readDigits ds < 2 ^ 128
      · exact Or.inl (spell_of_lt (by simpa [Alphabet.spell] using hlength) hlt)
      · right
        have hover : 1 <<< 128 ≤ readDigits ds := by
          rw [Nat.shiftLeft_eq]
          omega
        have hdecode : decode (ulidAlphabet.spell ds) =
            .error (.invalidIDError "value exceeds the canonical ULID range") := by
          rw [decode, hloop]
          exact except_bind_eq_error.mpr (Or.inr ⟨_, rfl, except_bind_eq_error.mpr
            (Or.inl (raiseIf_eq_error.mpr ⟨hover, rfl⟩))⟩)
        rw [hparse, hdecode]
        exact ⟨_, rfl⟩
    · right
      rw [hparse, decode, herror]
      exact ⟨_, rfl⟩
  · right
    have hne : value.length ≠ ulidLength := hlength
    rw [parseUlid, raiseIf, if_pos hne]
    exact ⟨_, rfl⟩

/-! ## Order -/

/-- The alphabet is in the order of its digits. -/
theorem textLt_spell_iff
    (ds es : List (Fin 32)) :
    textLt (ulidAlphabet.spell ds) (ulidAlphabet.spell es) ↔ List.Lex (· < ·) ds es := by
  refine ⟨fun h => ?_, textLt_spell⟩
  induction ds generalizing es with
  | nil =>
      cases es with
      | nil =>
          cases h
      | cons e es =>
          exact .nil
  | cons d ds ih =>
      cases es with
      | nil =>
          cases h
      | cons e es =>
          rcases List.cons_lex_cons_iff.mp h with hlt | ⟨heq, htail⟩
          · refine .rel (lt_of_not_ge fun hge => ?_)
            rcases hge.lt_or_eq with hgt | rfl
            · exact absurd (symbol_strictMono e d hgt) (Nat.lt_asymm hlt)
            · exact absurd hlt (Nat.lt_irrefl _)
          · obtain rfl := ulidAlphabet.symbol_injective heq
            exact .cons (ih es htail)

/-- The order of the texts is that of the numbers. -/
theorem textLt_text_iff
    (u v : Ulid) :
    textLt u.text v.text ↔ u.number < v.number := by
  have hlength : (writeDigits ulidLength u.number : List (Fin 32)).length =
      (writeDigits ulidLength v.number : List (Fin 32)).length := by
    rw [length_writeDigits, length_writeDigits]
  rw [u.text_eq_spell, v.text_eq_spell, textLt_spell_iff, lex_iff_readDigits_lt hlength]
  unfold Ulid.number
  rw [readDigits_packUlid u.timestamp_le u.randomness_le,
    readDigits_packUlid v.timestamp_le v.randomness_le]

/-- **The codec is an isomorphism of orders** between the numbers and the accepted texts. -/
theorem ulid_order_isomorphism :
    (∀ u : Ulid, parseUlid u.text = .ok u.text ∧ decode u.text = .ok u.number ∧
      ulidTimestampMs u.text = .ok u.timestamp) ∧
    (∀ value result, parseUlid value = .ok result →
      result = value ∧ ∃ u : Ulid, decode value = .ok u.number ∧ value = u.text) ∧
    (∀ value, (∀ u : Ulid, value ≠ u.text) →
      ∃ message, parseUlid value = .error (.invalidIDError message)) ∧
    ∀ u v : Ulid, textLt u.text v.text ↔
      u.timestamp < v.timestamp ∨ u.timestamp = v.timestamp ∧ u.randomness < v.randomness := by
  refine ⟨fun u => ?_, fun value result haccepted => ?_, fun value hnot => ?_, fun u v => ?_⟩
  · exact ⟨(parseUlid_text u).1, (parseUlid_text u).2,
      ulidTimestampMs_encode u.timestamp_le u.randomness_le⟩
  · rcases parseUlid_cases value with ⟨u, rfl⟩ | ⟨message, herror⟩
    · rw [(parseUlid_text u).1] at haccepted
      exact ⟨(Except.ok.inj haccepted).symm, u, (parseUlid_text u).2, rfl⟩
    · rw [herror] at haccepted
      cases haccepted
  · rcases parseUlid_cases value with ⟨u, heq⟩ | herror
    · exact absurd heq (hnot u)
    · exact herror
  · rw [textLt_text_iff, u.number_lt_iff]

end Id
end Bluetape
