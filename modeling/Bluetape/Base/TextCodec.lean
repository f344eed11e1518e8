import Bluetape.Base.AsciiDecimal

/-!
# Text and its encodings

A text is a sequence of code points, and a code point is a scalar value or a
surrogate: texts with a lone surrogate exist but have no UTF-8 encoding.  The
codecs are strict, so that encoding and decoding are inverse to each other:

* `encodeUtf8_eq_some_iff`: UTF-8;
* `encodeAscii_eq_some_iff`: ASCII.
-/

namespace Bluetape
namespace Base

/-- A scalar value, or one of the 2048 surrogates. -/
inductive CodePoint
  | scalar (c : Char)
  | surrogate (n : Fin 0x800)
deriving DecidableEq, Repr

/-- A sequence of code points. -/
abbrev Text := List CodePoint

instance instLawfulBEqText : LawfulBEq Text :=
  inferInstanceAs (LawfulBEq (List CodePoint))

namespace CodePoint

/-- The number of a code point. -/
def ord : CodePoint → Nat
  | scalar c => c.toNat
  | surrogate n => 0xD800 + n

/-- The character of a code point that is not a surrogate. -/
def scalar? : CodePoint → Option Char
  | scalar c => some c
  | surrogate _ => none

theorem scalar?_eq_some_iff
    {p : CodePoint} {c : Char} :
    p.scalar? = some c ↔ p = scalar c := by
  cases p with
  | scalar c' =>
      simp [scalar?]
  | surrogate n =>
      simp [scalar?]

end CodePoint

/-- The text of a string without surrogates. -/
def text (s : String) : Text :=
  s.toList.map .scalar

/-- A partial inverse of single elements lifts to lists. -/
theorem mapM_eq_some_iff
    {α β : Type} {f : α → Option β} {g : β → α}
    (hfg : ∀ a b, f a = some b ↔ a = g b)
    {as : List α} {bs : List β} :
    as.mapM f = some bs ↔ as = bs.map g := by
  induction as generalizing bs with
  | nil =>
      cases bs with
      | nil =>
          simp
      | cons b bs =>
          simp
  | cons a as ih =>
      rw [List.mapM_cons]
      cases bs with
      | nil =>
          simp [Option.bind_eq_some_iff]
      | cons b bs =>
          simp [Option.bind_eq_some_iff, hfg, ih]

section Utf8

/-- Strict UTF-8 encoding, none for a text with a surrogate. -/
def encodeUtf8 (t : Text) : Option Bytes :=
  (t.mapM CodePoint.scalar?).map (fun cs => cs.flatMap String.utf8EncodeChar)

/-- Strict UTF-8 decoding. -/
def decodeUtf8 (bs : Bytes) : Option Text :=
  bs.toByteArray.utf8Decode?.map (fun cs => cs.toList.map .scalar)

theorem scalars_eq_some_iff
    {t : Text} {cs : List Char} :
    t.mapM CodePoint.scalar? = some cs ↔ t = cs.map .scalar :=
  mapM_eq_some_iff fun _ _ => CodePoint.scalar?_eq_some_iff

/-- The bytes of the characters, as Lean's own strings have them. -/
theorem utf8Decode_eq_some_iff
    {bs : Bytes} {cs : Array Char} :
    bs.toByteArray.utf8Decode? = some cs ↔
      bs = cs.toList.flatMap String.utf8EncodeChar := by
  constructor
  · intro h
    have hsome : bs.toByteArray.utf8Decode?.isSome = true := by
      rw [h]
      rfl
    have hencode := ByteArray.utf8Encode_get_utf8Decode? (h := hsome)
    simp only [h, Option.get_some, List.utf8Encode] at hencode
    have hlist := congrArg (fun b : ByteArray => b.data.toList) hencode
    simpa using hlist.symm
  · intro h
    have hbytes : bs.toByteArray = cs.toList.utf8Encode := by
      rw [h]
      rfl
    rw [hbytes, List.utf8Decode?_utf8Encode]

/-- **Strict UTF-8 encoding and decoding are inverse to each other.** -/
theorem encodeUtf8_eq_some_iff
    {t : Text} {bs : Bytes} :
    encodeUtf8 t = some bs ↔ decodeUtf8 bs = some t := by
  simp only [encodeUtf8, decodeUtf8, Option.map_eq_some_iff]
  constructor
  · rintro ⟨cs, hcs, rfl⟩
    refine ⟨cs.toArray, utf8Decode_eq_some_iff.mpr rfl, ?_⟩
    exact (scalars_eq_some_iff.mp hcs).symm
  · rintro ⟨cs, hcs, rfl⟩
    exact ⟨cs.toList, scalars_eq_some_iff.mpr rfl, (utf8Decode_eq_some_iff.mp hcs).symm⟩

end Utf8

section Ascii

/-- The byte of an ASCII character. -/
def CodePoint.asciiByte? (p : CodePoint) : Option UInt8 :=
  if p.ord < 128 then some (UInt8.ofNat p.ord) else none

/-- The ASCII character of a byte. -/
def asciiChar? (b : UInt8) : Option CodePoint :=
  if b.toNat < 128 then some (.scalar (Char.ofNat b.toNat)) else none

/-- Strict ASCII encoding. -/
def encodeAscii (t : Text) : Option Bytes :=
  t.mapM CodePoint.asciiByte?

/-- Strict ASCII decoding. -/
def decodeAscii (bs : Bytes) : Option Text :=
  bs.mapM asciiChar?

theorem ord_ofNat
    {n : Nat} (h : n < 128) :
    (CodePoint.scalar (Char.ofNat n)).ord = n := by
  have hvalid : n.isValidChar := Or.inl (by omega)
  rw [CodePoint.ord, Char.ofNat, dif_pos hvalid]
  rfl

theorem eq_ofNat_of_ord
    {p : CodePoint} (h : p.ord < 128) :
    p = .scalar (Char.ofNat p.ord) := by
  cases p with
  | surrogate n =>
      simp only [CodePoint.ord] at h
      omega
  | scalar c =>
      rw [CodePoint.ord, Char.ofNat_toNat]

theorem asciiByte?_eq_some_iff
    {p : CodePoint} {b : UInt8} :
    p.asciiByte? = some b ↔ p = .scalar (Char.ofNat b.toNat) ∧ b.toNat < 128 := by
  unfold CodePoint.asciiByte?
  constructor
  · intro h
    split at h
    case isTrue hlt =>
      obtain rfl := Option.some.inj h
      rw [UInt8.toNat_ofNat_of_lt' (by simp only [UInt8.size]; omega)]
      exact ⟨eq_ofNat_of_ord hlt, hlt⟩
    case isFalse =>
      cases h
  · rintro ⟨rfl, hlt⟩
    rw [if_pos ((ord_ofNat hlt).trans_lt hlt), ord_ofNat hlt, UInt8.ofNat_toNat]

theorem asciiChar?_eq_some_iff
    {b : UInt8} {p : CodePoint} :
    asciiChar? b = some p ↔ p = .scalar (Char.ofNat b.toNat) ∧ b.toNat < 128 := by
  unfold asciiChar?
  split
  · simpa [eq_comm] using fun _ => by assumption
  · simp only [reduceCtorEq, false_iff, not_and]
    exact fun _ => by assumption

/-- **Strict ASCII encoding and decoding are inverse to each other.** -/
theorem encodeAscii_eq_some_iff
    {t : Text} {bs : Bytes} :
    encodeAscii t = some bs ↔ decodeAscii bs = some t := by
  have hpoint : ∀ (p : CodePoint) (b : UInt8),
      p.asciiByte? = some b ↔ asciiChar? b = some p := by
    intro p b
    rw [asciiByte?_eq_some_iff, asciiChar?_eq_some_iff]
  unfold encodeAscii decodeAscii
  induction t generalizing bs with
  | nil =>
      cases bs with
      | nil =>
          simp
      | cons b bs =>
          simp [List.mapM_cons, Option.bind_eq_some_iff]
  | cons p t ih =>
      cases bs with
      | nil =>
          simp [List.mapM_cons, Option.bind_eq_some_iff]
      | cons b bs =>
          simp [List.mapM_cons, Option.bind_eq_some_iff, hpoint, ih]

theorem length_encodeAscii
    {t : Text} {bs : Bytes}
    (h : encodeAscii t = some bs) :
    bs.length = t.length := by
  unfold encodeAscii at h
  induction t generalizing bs with
  | nil =>
      cases h
      rfl
  | cons p t ih =>
      rw [List.mapM_cons] at h
      obtain ⟨b, -, h⟩ := Option.bind_eq_some_iff.mp h
      obtain ⟨bs', hbs', h⟩ := Option.bind_eq_some_iff.mp h
      cases h
      rw [List.length_cons, List.length_cons, ih hbs']

end Ascii

/-- The encodings of text. -/
inductive Encoding
  | ascii
  | utf8
deriving DecidableEq, Repr

namespace Encoding

/-- The name of an encoding in messages. -/
def name : Encoding → String
  | ascii => "ascii"
  | utf8 => "utf-8"

/-- Strict encoding. -/
def encode : Encoding → Text → Option Bytes
  | ascii => encodeAscii
  | utf8 => encodeUtf8

/-- Strict decoding. -/
def decode : Encoding → Bytes → Option Text
  | ascii => decodeAscii
  | utf8 => decodeUtf8

/-- **Strict encoding and decoding are inverse to each other.** -/
theorem encode_eq_some_iff
    {encoding : Encoding} {t : Text} {bs : Bytes} :
    encoding.encode t = some bs ↔ encoding.decode bs = some t := by
  cases encoding with
  | ascii =>
      exact encodeAscii_eq_some_iff
  | utf8 =>
      exact encodeUtf8_eq_some_iff

end Encoding
end Base
end Bluetape
