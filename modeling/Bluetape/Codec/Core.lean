import Bluetape.Base.Base64
import Bluetape.Base.JsonAscii
import Mathlib.Data.List.DropRight

/-!
# Strict text codecs

The URL-safe Base64 of either form and the hexadecimal text.  Decoding is as strict as its
checks of the text together: the texts that are accepted are the ones that encoding writes,
and for hexadecimal text the ones that differ in case only.

* `base64urlDecode_eq_ok_iff`, `hexDecode_eq_ok_iff`: the accepted texts;
* `strict_codecs`: both, with the two forms of Base64 compared.
-/

namespace Bluetape
namespace Codec

open Base

/-- `CodecError`, by its message -/
structure CodecError where
  message : Text
deriving DecidableEq

/-! ## URL-safe Base64 -/

/-- `_BASE64URL_ALPHABET` -/
def base64urlAlphabet : Text :=
  text "ABCDEFGHIJKLMNOPQRSTUVWXYZabcdefghijklmnopqrstuvwxyz0123456789-_"

/-- The translation of `urlsafe_b64encode`. -/
def toUrl (p : CodePoint) : CodePoint :=
  if p = .scalar '+' then .scalar '-' else if p = .scalar '/' then .scalar '_' else p

/-- The translation of `altchars`. -/
def fromUrl (p : CodePoint) : CodePoint :=
  if p = .scalar '-' then .scalar '+' else if p = .scalar '_' then .scalar '/' else p

/-- `base64url_encode` -/
def base64urlEncode (data : Bytes) (padded : Bool) : Text :=
  let encoded := (Base64.encode data).map toUrl
  if padded then encoded else encoded.rdropWhile (· = Base64.pad)

/-- The characters in front of the padding, and the text with padding. -/
def splitPadding (value : Text) (padded : Bool) : Except CodecError (Text × Text) :=
  if padded then do
    let invalid : CodecError := ⟨text "invalid padded URL-safe Base64"⟩
    raiseIf (value.length % 4 ≠ 0) invalid
    let alphabet := value.takeWhile (· ≠ Base64.pad)
    let padding := value.dropWhile (· ≠ Base64.pad)
    raiseIf (2 < padding.length ∨ padding ≠ List.replicate padding.length Base64.pad) invalid
    return (alphabet, value)
  else do
    raiseIf (Base64.pad ∈ value ∨ value.length % 4 = 1)
      ⟨text "invalid unpadded URL-safe Base64"⟩
    return (value, value ++ List.replicate (-(value.length : Int) % 4).toNat Base64.pad)

/-- `base64url_decode` -/
def base64urlDecode (value : Text) (padded : Bool) : Except CodecError Bytes := do
  let invalid : CodecError := ⟨text "invalid URL-safe Base64"⟩
  let (alphabet, normalized) ← splitPadding value padded
  raiseIf (¬∀ p ∈ alphabet, p ∈ base64urlAlphabet) invalid
  let _ ← orRaise invalid (encodeAscii normalized)
  let decoded ← orRaise invalid (Base64.decode (normalized.map fromUrl))
  raiseIf (base64urlEncode decoded padded ≠ value) ⟨text "non-canonical URL-safe Base64"⟩
  return decoded

/-! ## Hexadecimal text -/

/-- `_HEX_ALPHABET` -/
def hexAlphabet : Text :=
  text "0123456789abcdefABCDEF"

theorem length_hexDigits : (text "0123456789abcdef").length = 16 := by
  decide

theorem nodup_hexDigits : (text "0123456789abcdef").Nodup := by
  decide

/-- The digits that are written. -/
def hexDigits : Alphabet 16 where
  symbols := text "0123456789abcdef"
  length_symbols := length_hexDigits
  nodup := nodup_hexDigits

/-- A capital digit in lower case. -/
def lower (p : CodePoint) : CodePoint :=
  match (text "ABCDEF").idxOf? p with
  | some i => (text "abcdef").getD i p
  | none => p

theorem neZero_16 : NeZero 16 :=
  ⟨by decide⟩

/-- `hex_encode` -/
def hexEncode (data : Bytes) : Text :=
  data.flatMap fun b => hexDigits.spell (@writeDigits 16 neZero_16 2 b.toNat)

/-- `bytes.fromhex` of a text of digits, none for its exception -/
def fromHex : Text → Option Bytes
  | [] => some []
  | [_] => none
  | high :: low :: rest => do
      let high ← hexDigits.digit? (lower high)
      let low ← hexDigits.digit? (lower low)
      return UInt8.ofNat (16 * high + low) :: (← fromHex rest)

/-- `hex_decode` -/
def hexDecode (value : Text) : Except CodecError Bytes := do
  raiseIf (value.length % 2 ≠ 0 ∨ ¬∀ p ∈ value, p ∈ hexAlphabet)
    ⟨text "invalid hexadecimal text"⟩
  orRaise ⟨text "non-hexadecimal number found in fromhex() arg"⟩ (fromHex value)

/-! ## The encoded texts -/

section Base64url

/-- An encoded text is a text of digits with at most two characters of padding behind it. -/
theorem encode_eq_append
    (data : Bytes) :
    ∃ digits k, Base64.encode data = digits ++ List.replicate k Base64.pad ∧
      k ≤ 2 ∧ (digits.length + k) % 4 = 0 ∧ (data.length + k) % 3 = 0 ∧
      ∀ p ∈ digits, ∃ d, p = Base64.alphabet.symbol d := by
  induction data using Base64.encode.induct with
  | case1 a b c rest ih =>
      obtain ⟨digits, k, heq, hk, hlen, hdata, hdigits⟩ := ih
      refine ⟨Base64.spell 4 (Base64.ofBytes [a, b, c]) ++ digits, k, ?_, hk, ?_, ?_, ?_⟩
      · rw [Base64.encode, heq, List.append_assoc]
      · rw [List.length_append, Base64.length_spell]
        omega
      · simp only [List.length_cons]
        omega
      · intro p hp
        rcases List.mem_append.mp hp with hp | hp
        · exact Base64.mem_spell hp
        · exact hdigits p hp
  | case2 a b =>
      exact ⟨_, 1, rfl, by omega, by rw [Base64.length_spell], by simp,
        fun p => Base64.mem_spell⟩
  | case3 a =>
      exact ⟨_, 2, rfl, by omega, by rw [Base64.length_spell], by simp,
        fun p => Base64.mem_spell⟩
  | case4 =>
      exact ⟨[], 0, rfl, by omega, rfl, rfl, by simp⟩

/-- The alphabet of the URL is the other one, translated. -/
theorem base64urlAlphabet_eq :
    base64urlAlphabet = Base64.alphabet.symbols.map toUrl := by
  decide

theorem symbols_translated :
    ∀ p ∈ Base64.alphabet.symbols,
      fromUrl (toUrl p) = p ∧ toUrl p ≠ Base64.pad ∧ (toUrl p).ord < 128 := by
  decide

/-- What the two translations do to a digit. -/
theorem symbol_facts
    (d : Fin 64) :
    toUrl (Base64.alphabet.symbol d) ∈ base64urlAlphabet ∧
      fromUrl (toUrl (Base64.alphabet.symbol d)) = Base64.alphabet.symbol d ∧
      toUrl (Base64.alphabet.symbol d) ≠ Base64.pad ∧
      (toUrl (Base64.alphabet.symbol d)).ord < 128 := by
  have hmem : Base64.alphabet.symbol d ∈ Base64.alphabet.symbols := List.getElem_mem _
  rw [base64urlAlphabet_eq]
  exact ⟨List.mem_map_of_mem hmem, symbols_translated _ hmem⟩

/-- A text in the digits of the URL. -/
def IsDigits (t : Text) : Prop :=
  ∀ p ∈ t, ∃ d, p = toUrl (Base64.alphabet.symbol d)

variable {t : Text} {k : Nat}

theorem pad_notMem_of_isDigits
    (h : IsDigits t) :
    Base64.pad ∉ t := by
  intro hpad
  obtain ⟨d, hd⟩ := h _ hpad
  exact (symbol_facts d).2.2.1 hd.symm

/-- Padding is stripped, and nothing else. -/
theorem rdropWhile_padding
    (h : IsDigits t) (k : Nat) :
    (t ++ List.replicate k Base64.pad).rdropWhile (· = Base64.pad) = t := by
  induction k with
  | zero =>
      rw [List.replicate_zero, List.append_nil, List.rdropWhile_eq_self_iff]
      intro hne hpad
      have hlast : t.getLast hne = Base64.pad := by simpa using hpad
      exact pad_notMem_of_isDigits h (hlast ▸ List.getLast_mem hne)
  | succ k ih =>
      rw [List.replicate_succ', ← List.append_assoc, List.rdropWhile_concat_pos _ _ _ (by simp), ih]

/-- The texts of both forms. -/
theorem base64urlEncode_eq
    (data : Bytes) :
    ∃ digits k, base64urlEncode data false = digits ∧
      base64urlEncode data true = digits ++ List.replicate k Base64.pad ∧
      k ≤ 2 ∧ (digits.length + k) % 4 = 0 ∧ (data.length + k) % 3 = 0 ∧ IsDigits digits ∧
      Base64.decode ((digits ++ List.replicate k Base64.pad).map fromUrl) = some data := by
  obtain ⟨digits, k, heq, hk, hlen, hdata, hdigits⟩ := encode_eq_append data
  have hpad : toUrl Base64.pad = Base64.pad := by decide
  have hurl : IsDigits (digits.map toUrl) := by
    intro p hp
    obtain ⟨q, hq, rfl⟩ := List.mem_map.mp hp
    obtain ⟨d, rfl⟩ := hdigits q hq
    exact ⟨d, rfl⟩
  have hencoded : (Base64.encode data).map toUrl =
      digits.map toUrl ++ List.replicate k Base64.pad := by
    rw [heq, List.map_append, List.map_replicate, hpad]
  have hback : (digits.map toUrl ++ List.replicate k Base64.pad).map fromUrl =
      Base64.encode data := by
    have hsame : (digits.map toUrl).map fromUrl = digits := by
      rw [List.map_map]
      refine (List.map_congr_left fun p hp => ?_).trans (List.map_id' digits)
      obtain ⟨d, rfl⟩ := hdigits p hp
      exact (symbol_facts d).2.1
    rw [List.map_append, hsame, List.map_replicate, heq,
      show fromUrl Base64.pad = Base64.pad by decide]
  refine ⟨digits.map toUrl, k, ?_, ?_, hk, by simpa using hlen, hdata, hurl, ?_⟩
  · rw [base64urlEncode, hencoded, if_neg Bool.false_ne_true]
    exact rdropWhile_padding hurl k
  · rw [base64urlEncode, hencoded, if_pos rfl]
  · rw [hback, Base64.decode_encode]

/-- The padding is found behind the digits. -/
theorem splitPadding_true
    (h : IsDigits t)
    (hk : k ≤ 2)
    (hlen : (t.length + k) % 4 = 0) :
    splitPadding (t ++ List.replicate k Base64.pad) true =
      .ok (t, t ++ List.replicate k Base64.pad) := by
  have hdigits : ∀ p ∈ t, decide (p ≠ Base64.pad) = true := by
    intro p hp
    simp only [decide_eq_true_eq]
    rintro rfl
    exact pad_notMem_of_isDigits h hp
  have htake : (t ++ List.replicate k Base64.pad).takeWhile (· ≠ Base64.pad) = t := by
    rw [List.takeWhile_append_of_pos hdigits]
    simp
  have hdrop : (t ++ List.replicate k Base64.pad).dropWhile (· ≠ Base64.pad) =
      List.replicate k Base64.pad := by
    rw [List.dropWhile_append_of_pos hdigits]
    simp
  simp only [splitPadding, htake, hdrop, if_true, List.length_append, List.length_replicate, hlen]
  have hk' : ¬ 2 < k := by omega
  simp [raiseIf, hk', bind, Except.bind, pure, Except.pure]

/-- The missing padding is added. -/
theorem splitPadding_false
    (h : IsDigits t)
    (hk : k ≤ 2)
    (hlen : (t.length + k) % 4 = 0) :
    splitPadding t false = .ok (t, t ++ List.replicate k Base64.pad) := by
  have hmissing : (-(t.length : Int) % 4).toNat = k := by omega
  have hlen' : ¬ t.length % 4 = 1 := by omega
  simp [splitPadding, hmissing, raiseIf, pad_notMem_of_isDigits h, hlen', bind, Except.bind, pure,
    Except.pure]

/-- **The accepted texts** of either form are the encoded ones. -/
theorem base64urlDecode_eq_ok_iff
    {value : Text} {padded : Bool} {data : Bytes} :
    base64urlDecode value padded = .ok data ↔ value = base64urlEncode data padded := by
  constructor
  · intro h
    simp only [base64urlDecode, except_bind_eq_ok, raiseIf_eq_ok, orRaise_eq_ok] at h
    obtain ⟨-, -, -, -, -, -, decoded, -, -, hsame, hreturn⟩ := h
    rw [← Except.ok.inj hreturn]
    exact (not_not.mp hsame).symm
  · rintro rfl
    obtain ⟨digits, k, hunpadded, hpadded, hk, hlen, -, hdigits, hdecode⟩ :=
      base64urlEncode_eq data
    have hsplit : splitPadding (base64urlEncode data padded) padded =
        .ok (digits, digits ++ List.replicate k Base64.pad) := by
      cases padded with
      | true => rw [hpadded, splitPadding_true hdigits hk hlen]
      | false => rw [hunpadded, splitPadding_false hdigits hk hlen]
    have hascii : ∀ p ∈ digits ++ List.replicate k Base64.pad, p.ord < 128 := by
      intro p hp
      rcases List.mem_append.mp hp with hp | hp
      · obtain ⟨d, rfl⟩ := hdigits p hp
        exact (symbol_facts d).2.2.2
      · rw [List.eq_of_mem_replicate hp]
        decide
    simp only [base64urlDecode, except_bind_eq_ok, raiseIf_eq_ok, orRaise_eq_ok]
    refine ⟨_, hsplit, (), not_not_intro fun p hp => ?_, _, encodeAscii_of_ascii hascii, data,
      hdecode, (), not_not_intro rfl, rfl⟩
    obtain ⟨d, rfl⟩ := hdigits p hp
    exact (symbol_facts d).1

end Base64url

/-! ## Hexadecimal text -/

section Hex

/-- A character that lowers to a digit is accepted. -/
theorem mem_hexAlphabet
    {p : CodePoint} {d : Fin 16}
    (h : lower p = hexDigits.symbol d) :
    p ∈ hexAlphabet := by
  have hdigit : ∀ d, hexDigits.symbol d ∈ hexAlphabet := by
    decide
  have hcapital : ∀ q ∈ text "ABCDEF", q ∈ hexAlphabet := by
    decide
  unfold lower at h
  split at h
  case h_1 i hi =>
    have hmem : p ∈ text "ABCDEF" := by
      by_contra hno
      rw [List.idxOf?_eq_none_iff.mpr hno] at hi
      cases hi
    exact hcapital p hmem
  case h_2 =>
    rw [h]
    exact hdigit d

/-- The two digits of a byte. -/
theorem hexEncode_cons
    (b : UInt8) (data : Bytes) :
    hexEncode (b :: data) = hexDigits.symbol (Fin.ofNat 16 (b.toNat / 16)) ::
      hexDigits.symbol (Fin.ofNat 16 b.toNat) :: hexEncode data := by
  rfl

/-- A byte is the number of its two digits. -/
theorem eq_ofNat_iff
    {b : UInt8} {high low : Fin 16} :
    UInt8.ofNat (16 * high + low) = b ↔
      high = Fin.ofNat 16 (b.toNat / 16) ∧ low = Fin.ofNat 16 b.toNat := by
  have hb := b.toNat_lt
  constructor
  · rintro rfl
    rw [UInt8.toNat_ofNat']
    constructor
    · ext
      simp only [Fin.val_ofNat]
      omega
    · ext
      simp only [Fin.val_ofNat]
      omega
  · rintro ⟨rfl, rfl⟩
    apply UInt8.toNat.inj
    rw [UInt8.toNat_ofNat']
    simp only [Fin.val_ofNat]
    omega

/-- The texts that `bytes.fromhex` reads, among texts of digits. -/
theorem fromHex_eq_some_iff
    {value : Text} {data : Bytes} :
    fromHex value = some data ↔ value.map lower = hexEncode data := by
  induction value using fromHex.induct generalizing data with
  | case1 =>
      cases data with
      | nil =>
          exact iff_of_true rfl rfl
      | cons b data =>
          rw [hexEncode_cons]
          simp [fromHex]
  | case2 p =>
      cases data with
      | nil =>
          simp [fromHex, hexEncode]
      | cons b data =>
          rw [hexEncode_cons]
          simp [fromHex]
  | case3 high low rest ih =>
      cases data with
      | nil =>
          simp [fromHex, hexEncode, Option.bind_eq_some_iff]
      | cons b data =>
          simp only [fromHex, hexEncode_cons, List.map_cons, List.cons.injEq, ← ih,
            Option.bind_eq_bind, Option.pure_def, Option.bind_eq_some_iff, Option.some.injEq,
            hexDigits.digit?_eq_some_iff]
          constructor
          · rintro ⟨i, hi, j, hj, bs, hbs, hb, rfl⟩
            obtain ⟨rfl, rfl⟩ := eq_ofNat_iff.mp hb
            exact ⟨hi, hj, hbs⟩
          · rintro ⟨hhigh, hlow, hrest⟩
            exact ⟨_, hhigh, _, hlow, data, hrest, eq_ofNat_iff.mpr ⟨rfl, rfl⟩, rfl⟩

theorem length_hexEncode
    (data : Bytes) :
    (hexEncode data).length = 2 * data.length := by
  induction data with
  | nil =>
      rfl
  | cons b data ih =>
      rw [hexEncode_cons, List.length_cons, List.length_cons, ih, List.length_cons]
      omega

/-- **The accepted texts** are the encoded ones in either case. -/
theorem hexDecode_eq_ok_iff
    {value : Text} {data : Bytes} :
    hexDecode value = .ok data ↔ value.map lower = hexEncode data := by
  simp only [hexDecode, except_bind_eq_ok, raiseIf_eq_ok, orRaise_eq_ok, fromHex_eq_some_iff]
  constructor
  · rintro ⟨-, -, h⟩
    exact h
  · intro h
    refine ⟨(), ?_, h⟩
    rintro (hodd | hother)
    · have hlen := congrArg List.length h
      rw [List.length_map, length_hexEncode] at hlen
      omega
    · refine hother fun p hp => ?_
      have hmem : lower p ∈ hexEncode data := h ▸ List.mem_map_of_mem hp
      obtain ⟨b, -, hb⟩ := List.mem_flatMap.mp hmem
      obtain ⟨d, -, hd⟩ := List.mem_map.mp hb
      exact mem_hexAlphabet hd.symm

end Hex

/--
**Strict codecs.**  Each form of URL-safe Base64 is decoded exactly from the text that it
encodes to, hexadecimal text exactly from the digits in either case, and the forms of Base64
differ by the padding: no text is read in both with different bytes.
-/
theorem strict_codecs :
    (∀ value padded data,
      base64urlDecode value padded = .ok data ↔ value = base64urlEncode data padded) ∧
    (∀ value data, hexDecode value = .ok data ↔ value.map lower = hexEncode data) ∧
    ∀ value data data', base64urlDecode value true = .ok data →
      base64urlDecode value false = .ok data' → data = data' ∧ data.length % 3 = 0 := by
  refine ⟨fun _ _ _ => base64urlDecode_eq_ok_iff, fun _ _ => hexDecode_eq_ok_iff, ?_⟩
  intro value data data' hpadded hunpadded
  obtain ⟨digits, k, -, hvalue, hk, hlen, hdata, hdigits, hdecode⟩ := base64urlEncode_eq data
  obtain ⟨digits', k', hvalue', -, hk', hlen', -, hdigits', hdecode'⟩ := base64urlEncode_eq data'
  rw [← base64urlDecode_eq_ok_iff.mp hpadded] at hvalue
  rw [← base64urlDecode_eq_ok_iff.mp hunpadded] at hvalue'
  -- the text has no padding in the second form, so it has none in the first
  have hk0 : k = 0 := by
    by_contra hpos
    refine pad_notMem_of_isDigits hdigits' ?_
    rw [← hvalue', hvalue]
    exact List.mem_append_right _ (List.mem_replicate.mpr ⟨hpos, rfl⟩)
  subst hk0
  rw [List.replicate_zero, List.append_nil] at hvalue hdecode
  obtain rfl : digits = digits' := hvalue.symm.trans hvalue'
  obtain rfl : k' = 0 := by omega
  rw [List.replicate_zero, List.append_nil, hdecode] at hdecode'
  exact ⟨Option.some.inj hdecode', by omega⟩

end Codec
end Bluetape
