import Bluetape.Base.BinaryReader
import Bluetape.Base.Radix

/-!
# Packed structures

The formats of Python's `struct` in network order: byte strings of a fixed size
and unsigned integers, one behind the other without padding.  The values of a
format are a tuple with one component for each field.

* `exists_pack_iff`: packing fails for integers out of range only;
* `unpackFrom_eq_some_iff`: unpacking accepts exactly what packing produces, with
  anything behind it.
-/

namespace Bluetape
namespace Base

/-! ## Unsigned integers -/

section Unsigned

/-- A digit as a byte. -/
def byteOfDigit (d : Fin 256) : UInt8 := ⟨⟨d⟩⟩

/-- A byte as a digit. -/
def digitOfByte (b : UInt8) : Fin 256 := b.toFin

@[simp] theorem byteOfDigit_digitOfByte
    (b : UInt8) :
    byteOfDigit (digitOfByte b) = b := by
  rfl

@[simp] theorem digitOfByte_byteOfDigit
    (d : Fin 256) :
    digitOfByte (byteOfDigit d) = d := by
  rfl

theorem neZero_256 : NeZero 256 :=
  ⟨by decide⟩

/-- The bytes of a number in network order. -/
def packUnsigned (size n : Nat) : Bytes :=
  (@writeDigits 256 neZero_256 size n).map byteOfDigit

/-- The number of a byte string in network order. -/
def unpackUnsigned (bs : Bytes) : Nat :=
  readDigits (bs.map digitOfByte)

@[simp] theorem length_packUnsigned
    (size n : Nat) :
    (packUnsigned size n).length = size := by
  simp [packUnsigned]

theorem unpackUnsigned_lt
    (bs : Bytes) :
    unpackUnsigned bs < 256 ^ bs.length := by
  have hlt := readDigits_lt (bs.map digitOfByte)
  rwa [List.length_map] at hlt

theorem unpackUnsigned_packUnsigned
    {size n : Nat}
    (hn : n < 256 ^ size) :
    unpackUnsigned (packUnsigned size n) = n := by
  have hdigits : (packUnsigned size n).map digitOfByte = writeDigits size n := by
    simp [packUnsigned, Function.comp_def]
  rw [unpackUnsigned, hdigits, readDigits_writeDigits hn]

theorem packUnsigned_unpackUnsigned
    (bs : Bytes) :
    packUnsigned bs.length (unpackUnsigned bs) = bs := by
  have hdigits := writeDigits_readDigits (bs.map digitOfByte)
  rw [List.length_map] at hdigits
  rw [packUnsigned, unpackUnsigned, hdigits]
  simp [Function.comp_def]

end Unsigned

/-! ## Fields -/

/-- A field: `4s` is `raw 4`; `B`, `H` and `I` are `unsigned` of 1, 2 and 4 bytes. -/
inductive StructField
  | raw (size : Nat)
  | unsigned (size : Nat)
deriving DecidableEq, Repr

namespace StructField

/-- The bytes that a field takes. -/
def size : StructField → Nat
  | raw size => size
  | unsigned size => size

/-- What a field holds. -/
abbrev Value : StructField → Type
  | raw _ => Bytes
  | unsigned _ => Int

/-- Byte strings are cut or filled with zeros; integers must be in range. -/
def pack : (field : StructField) → field.Value → Option Bytes
  | raw size, bs => some (bs.take size ++ List.replicate (size - bs.length) 0)
  | unsigned size, n =>
      if 0 ≤ n ∧ n < 256 ^ size then some (packUnsigned size n.toNat) else none

/-- The value of the bytes of a field. -/
def unpack : (field : StructField) → Bytes → field.Value
  | raw _, bs => bs
  | unsigned _, bs => (unpackUnsigned bs : Int)

/-- The values that a field can give back. -/
def Fits : (field : StructField) → field.Value → Prop
  | raw size, bs => bs.length = size
  | unsigned size, n => 0 ≤ n ∧ n < 256 ^ size

/-- The values that a field can hold: what `struct` checks before it packs. -/
def InRange : (field : StructField) → field.Value → Prop
  | raw _, _ => True
  | unsigned size, n => 0 ≤ n ∧ n < 256 ^ size

variable {field : StructField} {value : field.Value} {bs : Bytes}

theorem Fits.inRange
    (h : field.Fits value) :
    field.InRange value := by
  cases field with
  | raw size => trivial
  | unsigned size => exact h

theorem length_of_pack
    (h : field.pack value = some bs) :
    bs.length = field.size := by
  cases field with
  | raw size =>
      obtain rfl := Option.some.inj h
      simp [StructField.size]
      omega
  | unsigned size =>
      obtain ⟨-, h⟩ := Option.ite_none_right_eq_some.mp h
      obtain rfl := Option.some.inj h
      exact length_packUnsigned size _

theorem exists_pack_iff :
    (∃ bs, field.pack value = some bs) ↔ field.InRange value := by
  cases field with
  | raw size =>
      exact ⟨fun _ => trivial, fun _ => ⟨_, rfl⟩⟩
  | unsigned size =>
      constructor
      · rintro ⟨bs, h⟩
        exact (Option.ite_none_right_eq_some.mp h).1
      · exact fun h => ⟨_, if_pos h⟩

theorem unpack_of_pack
    (hfits : field.Fits value)
    (h : field.pack value = some bs) :
    field.unpack bs = value := by
  cases field with
  | raw size =>
      obtain rfl := Option.some.inj h
      have hsize : List.length value = size := hfits
      show List.take size value ++ List.replicate (size - List.length value) 0 = value
      rw [← hsize, List.take_length, Nat.sub_self, List.replicate_zero, List.append_nil]
  | unsigned size =>
      obtain ⟨-, h⟩ := Option.ite_none_right_eq_some.mp h
      obtain rfl := Option.some.inj h
      obtain ⟨hnonneg, hlt⟩ := hfits
      have hlt' : Int.toNat value < 256 ^ size := by
        rw [Int.toNat_lt hnonneg]
        exact_mod_cast hlt
      rw [unpack, unpackUnsigned_packUnsigned hlt']
      exact Int.toNat_of_nonneg hnonneg

theorem fits_unpack
    (h : bs.length = field.size) :
    field.Fits (field.unpack bs) ∧ field.pack (field.unpack bs) = some bs := by
  cases field with
  | raw size =>
      have hsize : bs.length = size := h
      subst hsize
      exact ⟨rfl, by simp [pack, unpack]⟩
  | unsigned size =>
      have hsize : bs.length = size := h
      subst hsize
      have hrange : (0 : Int) ≤ unpackUnsigned bs ∧
          (unpackUnsigned bs : Int) < 256 ^ bs.length :=
        ⟨Int.natCast_nonneg _, by exact_mod_cast unpackUnsigned_lt bs⟩
      refine ⟨hrange, (if_pos hrange).trans (congrArg some ?_)⟩
      exact packUnsigned_unpackUnsigned bs

end StructField

/-! ## Formats -/

/-- A format is the list of its fields. -/
abbrev StructFormat := List StructField

namespace StructFormat

/-- `Struct.size` -/
def size (format : StructFormat) : Nat :=
  (format.map StructField.size).sum

/-- One value for each field. -/
abbrev Values : StructFormat → Type
  | [] => Unit
  | field :: format => field.Value × Values format

/-- `Struct.pack`, none for `struct.error` -/
def pack : (format : StructFormat) → Values format → Option Bytes
  | [], _ => some []
  | field :: format, values => do
      let bs ← field.pack values.1
      let rest ← pack format values.2
      return bs ++ rest

/-- `Struct.unpack_from`, none for `struct.error` -/
def unpackFrom : (format : StructFormat) → Bytes → Option (Values format)
  | [], _ => some ()
  | field :: format, data =>
      if field.size ≤ data.length then do
        let values ← unpackFrom format (data.drop field.size)
        return (field.unpack (data.take field.size), values)
      else none

/-- The values that a format can give back. -/
def Fits : (format : StructFormat) → Values format → Prop
  | [], _ => True
  | field :: format, values => field.Fits values.1 ∧ Fits format values.2

/-- The values that can be packed. -/
def InRange : (format : StructFormat) → Values format → Prop
  | [], _ => True
  | field :: format, values => field.InRange values.1 ∧ InRange format values.2

variable {format : StructFormat} {values : Values format} {data bs : Bytes}

theorem Fits.inRange
    (h : Fits format values) :
    InRange format values := by
  induction format with
  | nil =>
      trivial
  | cons field format ih =>
      exact ⟨StructField.Fits.inRange h.1, ih h.2⟩

theorem pack_cons
    {field : StructField} {values : Values (field :: format)} :
    pack (field :: format) values = some bs ↔
      ∃ bs₁ bs₂, field.pack values.1 = some bs₁ ∧ pack format values.2 = some bs₂ ∧
        bs = bs₁ ++ bs₂ := by
  simp only [pack, Option.bind_eq_bind, Option.pure_def, Option.bind_eq_some_iff,
    Option.some.injEq]
  constructor
  · rintro ⟨bs₁, hfield, bs₂, hrest, rfl⟩
    exact ⟨bs₁, bs₂, hfield, hrest, rfl⟩
  · rintro ⟨bs₁, bs₂, hfield, hrest, rfl⟩
    exact ⟨bs₁, hfield, bs₂, hrest, rfl⟩

theorem length_of_pack
    (h : pack format values = some bs) :
    bs.length = size format := by
  induction format generalizing bs with
  | nil =>
      obtain rfl := Option.some.inj h
      rfl
  | cons field format ih =>
      obtain ⟨bs₁, bs₂, hfield, hrest, rfl⟩ := pack_cons.mp h
      rw [List.length_append, StructField.length_of_pack hfield, ih hrest]
      simp [size]

/-- **Packing** succeeds for integers in range. -/
theorem exists_pack_iff :
    (∃ bs, pack format values = some bs) ↔ InRange format values := by
  induction format with
  | nil =>
      exact ⟨fun _ => trivial, fun _ => ⟨[], rfl⟩⟩
  | cons field format ih =>
      constructor
      · rintro ⟨bs, h⟩
        obtain ⟨bs₁, bs₂, hfield, hrest, -⟩ := pack_cons.mp h
        exact ⟨StructField.exists_pack_iff.mp ⟨bs₁, hfield⟩, ih.mp ⟨bs₂, hrest⟩⟩
      · rintro ⟨hfield, hrest⟩
        obtain ⟨bs₁, hfield⟩ := StructField.exists_pack_iff.mpr hfield
        obtain ⟨bs₂, hrest⟩ := ih.mpr hrest
        exact ⟨_, pack_cons.mpr ⟨bs₁, bs₂, hfield, hrest, rfl⟩⟩

/-- What was packed is unpacked, whatever follows it. -/
theorem unpackFrom_of_pack
    (hfits : Fits format values)
    (h : pack format values = some bs) (rest : Bytes) :
    unpackFrom format (bs ++ rest) = some values := by
  induction format generalizing bs with
  | nil =>
      rfl
  | cons field format ih =>
      obtain ⟨bs₁, bs₂, hfield, hformat, rfl⟩ := pack_cons.mp h
      have hlen : bs₁.length = field.size := StructField.length_of_pack hfield
      have hvalue : field.unpack bs₁ = values.1 := StructField.unpack_of_pack hfits.1 hfield
      rw [unpackFrom, if_pos (by simp; omega), List.append_assoc, ← hlen, List.drop_left,
        List.take_left, ih hfits.2 hformat, hvalue]
      rfl

/-- **Unpacking inverts packing**: it accepts packed values and nothing else. -/
theorem unpackFrom_eq_some_iff :
    unpackFrom format data = some values ↔
      Fits format values ∧ ∃ bs rest, pack format values = some bs ∧ data = bs ++ rest := by
  constructor
  · intro h
    induction format generalizing data with
    | nil =>
        exact ⟨trivial, [], data, rfl, rfl⟩
    | cons field format ih =>
        obtain ⟨hle, h⟩ := Option.ite_none_right_eq_some.mp h
        obtain ⟨values', hvalues', h⟩ := Option.bind_eq_some_iff.mp h
        obtain rfl := Option.some.inj h
        obtain ⟨hfits, bs₂, rest, hformat, hrest⟩ := ih hvalues'
        obtain ⟨hfield, hpack⟩ :=
          StructField.fits_unpack (List.length_take_of_le hle)
        refine ⟨⟨hfield, hfits⟩, _, rest, pack_cons.mpr ⟨_, _, hpack, hformat, rfl⟩, ?_⟩
        rw [List.append_assoc, ← hrest, List.take_append_drop]
  · rintro ⟨hfits, bs, rest, hpack, rfl⟩
    exact unpackFrom_of_pack hfits hpack rest

/-- Data that is long enough can be unpacked. -/
theorem exists_unpackFrom
    (h : size format ≤ data.length) :
    ∃ values, unpackFrom format data = some values := by
  induction format generalizing data with
  | nil =>
      exact ⟨(), rfl⟩
  | cons field format ih =>
      have hsize : size (field :: format) = field.size + size format := by
        simp [size]
      rw [hsize] at h
      obtain ⟨values, hvalues⟩ := @ih (data.drop field.size) (by rw [List.length_drop]; omega)
      exact ⟨(field.unpack (data.take field.size), values), by
        rw [unpackFrom, if_pos (by omega), hvalues]; rfl⟩

end StructFormat

end Base
end Bluetape
