import Bluetape.Base.StructFormat
import Bluetape.Serde.Contracts

/-!
# The envelope around Fory payloads

`ForyAdapter` puts the bytes of the provider behind a packed header that names the
registration, and looks at nothing else before it calls the provider again.

* `openPayload_eq_ok_iff`: what is accepted is what the registration seals;
* `openPayload_envelope`: the verdict on the envelope of any other registration;
* `fory_envelope`: both, for payloads that an adapter has sealed.
-/

namespace Bluetape
namespace Serde

open Base

/-! ## Contracts -/

/-- The failures of a Fory adapter. -/
inductive ForyError
  | formatMismatch
  | unsupportedVersion
  | contentTypeMismatch
  | trustProfileMismatch
  | schemaMismatch
  | typeMismatch
  | concurrency
  | registration
  | payloadLimit (code : PayloadLimitCode)
  -- `MalformedPayloadError` with `INVALID_FORY`
  | malformedPayload
  -- `SerdeEncodeError` with `FORY_ENCODE`
  | encode
  -- what `struct` and a subscript would raise
  | structError
  | indexError
deriving DecidableEq, Repr

/-- The errors that no check of the adapter raises. -/
def ForyError.unchecked : ForyError → Bool
  | .structError => true
  | .indexError => true
  | _ => false

/-- `FORY_FORMAT` -/
def foryFormat : Text := text "apache-fory-xlang"

/-- `FORY_VERSION` -/
def foryVersion : Int := 1

/-- `FORY_CONTENT_TYPE` -/
def foryContentType : Text := text "application/x-apache-fory"

/-- `ForyRegistration`, for root types from `τ` -/
structure ForyRegistration (τ : Type) where
  pythonType : τ
  schemaId : Int
  schemaVersion : Int
  typeId : Int
  schemaId_valid : 1 ≤ schemaId ∧ schemaId ≤ 0xFFFFFFFF
  schemaVersion_valid : 1 ≤ schemaVersion ∧ schemaVersion ≤ 0xFFFF
  typeId_valid : 1 ≤ typeId ∧ typeId ≤ 0xFFFFFFFE

/-- The fields of `ForyLimits` that the adapter itself applies. -/
structure ForyLimits where
  maxInputSize : Nat
  maxOutputSize : Nat
  maxConcurrency : Nat
  maxInputSize_valid : 20 ≤ maxInputSize ∧ maxInputSize ≤ 1024 ^ 3
  maxOutputSize_valid : 20 ≤ maxOutputSize ∧ maxOutputSize ≤ 1024 ^ 3
  maxConcurrency_valid : 1 ≤ maxConcurrency ∧ maxConcurrency ≤ 64

/-- `_metadata_error` -/
def metadataError (metadata : PayloadMetadata) : Option ForyError :=
  if metadata.format ≠ foryFormat then some .formatMismatch
  else if metadata.version ≠ foryVersion then some .unsupportedVersion
  else if metadata.contentType ≠ some foryContentType then some .contentTypeMismatch
  else if metadata.trustProfile ≠ .trustedInternal then some .trustProfileMismatch
  else none

/-- The error of a check that found one. -/
def refuse {ε : Type} : Option ε → Except ε Unit
  | some e => .error e
  | none => .ok ()

theorem refuse_eq_ok
    {ε : Type} {found : Option ε} {u : Unit} :
    refuse found = .ok u ↔ found = none := by
  cases found with
  | none => simp [refuse]
  | some e => simp [refuse]

theorem refuse_eq_error
    {ε : Type} {found : Option ε} {e : ε} :
    refuse found = .error e ↔ found = some e := by
  cases found with
  | none => simp [refuse]
  | some e => simp [refuse]

theorem avoids_refuse
    {ε : Type} {found : Option ε} {e : ε}
    (h : found ≠ some e) :
    Avoids e (refuse found) :=
  fun hfail => h (refuse_eq_error.mp hfail)

/-- The steps after a check are taken when it finds nothing. -/
theorem raiseIf_bind
    {ε α : Type} {p : Prop} [Decidable p] {e : ε} {f : Unit → Except ε α} :
    (raiseIf p e >>= f) = if p then .error e else f () := by
  unfold raiseIf
  split <;> rfl

theorem except_ok_bind
    {ε α β : Type} {a : α} {f : α → Except ε β} :
    ((Except.ok a : Except ε α) >>= f) = f a := by
  rfl

/-! ## The header -/

/-- `_ENVELOPE` -/
def envelopeFormat : StructFormat :=
  [.raw 4, .unsigned 1, .unsigned 1, .unsigned 4, .unsigned 2, .unsigned 4, .unsigned 4]

/-- `_ENVELOPE.size` -/
@[simp] theorem size_envelopeFormat :
    envelopeFormat.size = 20 := by
  rfl

/-- `b"BTFY"` -/
def foryMagic : Bytes := [0x42, 0x54, 0x46, 0x59]

namespace ForyRegistration

variable {τ : Type}

/-- What the header of a body of the given length says. -/
def header (registration : ForyRegistration τ) (bodyLength : Nat) : envelopeFormat.Values :=
  (foryMagic, foryVersion, 0, registration.schemaId, registration.schemaVersion,
    registration.typeId, bodyLength, ())

/-- The end of `_try_serialize`, from the provider's bytes on. -/
def sealPayload (registration : ForyRegistration τ) (limits : ForyLimits)
    (metadata : PayloadMetadata) (body : Bytes) : Except ForyError SerializedPayload := do
  raiseIf (limits.maxOutputSize < envelopeFormat.size + body.length)
    (.payloadLimit .outputLimit)
  let header ← orRaise .structError (envelopeFormat.pack (registration.header body.length))
  return ⟨metadata, header ++ body⟩

/-- The checks of the unpacked header, in front of the given number of bytes. -/
def checkHeader (registration : ForyRegistration τ) (header : envelopeFormat.Values)
    (remaining : Int) : Except ForyError Unit := do
  let (magic, envelopeVersion, flags, schemaId, schemaVersion, typeId, bodyLength, ()) := header
  raiseIf (magic ≠ foryMagic) .malformedPayload
  raiseIf (envelopeVersion ≠ foryVersion) .unsupportedVersion
  raiseIf (flags ≠ 0) .malformedPayload
  raiseIf (schemaId ≠ registration.schemaId ∨ schemaVersion ≠ registration.schemaVersion)
    .schemaMismatch
  raiseIf (typeId ≠ registration.typeId) .typeMismatch
  raiseIf (bodyLength = 0 ∨ bodyLength ≠ remaining) .malformedPayload

/-- The beginning of `_try_deserialize`, up to the bytes for the provider. -/
def openPayload (registration : ForyRegistration τ) (limits : ForyLimits)
    (payload : SerializedPayload) (expected : PayloadMetadata) : Except ForyError Bytes := do
  refuse (metadataError payload.metadata)
  refuse (metadataError expected)
  let data := payload.data
  raiseIf (limits.maxInputSize < data.length) (.payloadLimit .inputLimit)
  raiseIf (data.length < envelopeFormat.size) .malformedPayload
  let header ← orRaise .structError (envelopeFormat.unpackFrom data)
  registration.checkHeader header (data.length - envelopeFormat.size)
  let rootHeader ← orRaise .indexError data[envelopeFormat.size]?
  raiseIf (rootHeader &&& 0xFC ≠ 0 ∨ rootHeader &&& 0x02 ≠ 0 ∨ rootHeader &&& 0x01 = 0)
    .malformedPayload
  return data.drop envelopeFormat.size

/-- The envelope of a body, none for a body that is too long for its length field. -/
def envelope (registration : ForyRegistration τ) (body : Bytes) : Option Bytes := do
  let header ← envelopeFormat.pack (registration.header body.length)
  return header ++ body

/-! ## Sealing and opening -/

variable {registration : ForyRegistration τ} {limits : ForyLimits}
  {metadata expected : PayloadMetadata} {payload : SerializedPayload} {body data : Bytes}

theorem fits_header
    (h : body.length < 2 ^ 32) :
    envelopeFormat.Fits (registration.header body.length) := by
  have hschema := registration.schemaId_valid
  have hversion := registration.schemaVersion_valid
  have htype := registration.typeId_valid
  refine ⟨rfl, ?_, ?_, ?_, ?_, ?_, ?_, trivial⟩
  · show (0 : Int) ≤ 1 ∧ (1 : Int) < 256 ^ 1
    omega
  · show (0 : Int) ≤ 0 ∧ (0 : Int) < 256 ^ 1
    omega
  · show 0 ≤ registration.schemaId ∧ registration.schemaId < 256 ^ 4
    omega
  · show 0 ≤ registration.schemaVersion ∧ registration.schemaVersion < 256 ^ 2
    omega
  · show 0 ≤ registration.typeId ∧ registration.typeId < 256 ^ 4
    omega
  · show (0 : Int) ≤ body.length ∧ (body.length : Int) < 256 ^ 4
    omega

theorem envelope_eq_some_iff :
    registration.envelope body = some data ↔
      ∃ header, envelopeFormat.pack (registration.header body.length) = some header ∧
        data = header ++ body := by
  simp only [envelope, Option.bind_eq_bind, Option.pure_def, Option.bind_eq_some_iff,
    Option.some.injEq]
  constructor
  · rintro ⟨header, hheader, rfl⟩
    exact ⟨header, hheader, rfl⟩
  · rintro ⟨header, hheader, rfl⟩
    exact ⟨header, hheader, rfl⟩

/-- Bodies have an envelope when their length fits its field. -/
theorem exists_envelope_iff :
    (∃ data, registration.envelope body = some data) ↔ body.length < 2 ^ 32 := by
  constructor
  · rintro ⟨data, hdata⟩
    obtain ⟨header, hheader, -⟩ := envelope_eq_some_iff.mp hdata
    obtain ⟨-, -, -, -, -, -, ⟨-, hlt⟩, -⟩ := StructFormat.exists_pack_iff.mp ⟨header, hheader⟩
    have hlt' : (body.length : Int) < 256 ^ 4 := hlt
    omega
  · intro h
    have hfits : envelopeFormat.Fits (registration.header body.length) := fits_header h
    obtain ⟨header, hheader⟩ := StructFormat.exists_pack_iff.mpr hfits.inRange
    exact ⟨_, envelope_eq_some_iff.mpr ⟨header, hheader, rfl⟩⟩

theorem length_envelope
    (h : registration.envelope body = some data) :
    data.length = 20 + body.length := by
  obtain ⟨header, hheader, rfl⟩ := envelope_eq_some_iff.mp h
  rw [List.length_append, StructFormat.length_of_pack hheader, size_envelopeFormat]

/-- **Sealing** gives the envelope of the body, unless it is too large. -/
theorem sealPayload_eq :
    registration.sealPayload limits metadata body =
      if limits.maxOutputSize < 20 + body.length then .error (.payloadLimit .outputLimit)
      else orRaise .structError
        ((registration.envelope body).map fun data => ⟨metadata, data⟩) := by
  unfold sealPayload envelope
  rw [size_envelopeFormat]
  split
  case isTrue h =>
    simp [raiseIf, h, bind, Except.bind]
  case isFalse h =>
    cases envelopeFormat.pack (registration.header body.length) with
    | none => simp [raiseIf, h, orRaise, bind, Except.bind]
    | some header => simp [raiseIf, h, orRaise, bind, Except.bind, pure, Except.pure]

theorem sealPayload_eq_ok_iff :
    registration.sealPayload limits metadata body = .ok payload ↔
      20 + body.length ≤ limits.maxOutputSize ∧ payload.metadata = metadata ∧
        registration.envelope body = some payload.data := by
  rw [sealPayload_eq]
  split
  case isTrue h =>
    simp; omega
  case isFalse h =>
    rw [orRaise_eq_ok, Option.map_eq_some_iff]
    constructor
    · rintro ⟨data, hdata, rfl⟩
      exact ⟨by omega, rfl, hdata⟩
    · rintro ⟨-, rfl, hdata⟩
      exact ⟨_, hdata, rfl⟩

/-- The limits keep the length of the body in its field. -/
theorem exists_envelope
    (hlimit : ¬ limits.maxOutputSize < 20 + body.length) :
    ∃ data, registration.envelope body = some data := by
  have hbound := limits.maxOutputSize_valid.2
  exact exists_envelope_iff.mpr (by omega)

theorem sealPayload_eq_error_iff
    {e : ForyError} :
    registration.sealPayload limits metadata body = .error e ↔
      e = .payloadLimit .outputLimit ∧ limits.maxOutputSize < 20 + body.length := by
  rw [sealPayload_eq]
  split
  case isTrue h =>
    simp [h, eq_comm]
  case isFalse h =>
    obtain ⟨data, hdata⟩ : ∃ data, registration.envelope body = some data := exists_envelope h
    simp [hdata, orRaise, h]

set_option maxRecDepth 50000 in
/-- The bits of the root header leave one byte. -/
theorem rootHeader_iff
    (b : UInt8) :
    ¬ (b &&& 0xFC ≠ 0 ∨ b &&& 0x02 ≠ 0 ∨ b &&& 0x01 = 0) ↔ b = 1 := by
  have hall : ∀ n : Fin 256,
      ¬ (byteOfDigit n &&& 0xFC ≠ 0 ∨ byteOfDigit n &&& 0x02 ≠ 0 ∨ byteOfDigit n &&& 0x01 = 0) ↔
        byteOfDigit n = 1 := by
    decide
  exact hall (digitOfByte b)

/-- The header of another registration, in front of its body. -/
theorem checkHeader_header
    (registration other : ForyRegistration τ) (bodyLength : Nat) :
    registration.checkHeader (other.header bodyLength) bodyLength =
      if other.schemaId ≠ registration.schemaId ∨
          other.schemaVersion ≠ registration.schemaVersion then .error .schemaMismatch
      else if other.typeId ≠ registration.typeId then .error .typeMismatch
      else if bodyLength = 0 then .error .malformedPayload
      else .ok () := by
  simp only [checkHeader, header, raiseIf_bind]
  simp [raiseIf]

/-- A header that passes its checks is the one of the registration. -/
theorem eq_header_of_checkHeader
    {header : envelopeFormat.Values} {remaining : Nat}
    (h : registration.checkHeader header remaining = .ok ()) :
    header = registration.header remaining := by
  obtain ⟨magic, envelopeVersion, flags, schemaId, schemaVersion, typeId, bodyLength, ⟨⟩⟩ := header
  simp only [checkHeader, except_bind_eq_ok, raiseIf_eq_ok, not_or, not_not] at h
  obtain ⟨-, rfl, -, rfl, -, rfl, -, ⟨rfl, rfl⟩, -, rfl, -, rfl⟩ := h
  rfl

/-- The checks behind the schema ask for the first byte of the body. -/
theorem bodyChecks_eq
    (body : Bytes) :
    ((if body.length = 0 then .error .malformedPayload else .ok ()) >>= fun _ : Unit =>
      orRaise .indexError body[0]? >>= fun b =>
        if b &&& 0xFC ≠ 0 ∨ b &&& 0x02 ≠ 0 ∨ b &&& 0x01 = 0 then
          Except.error ForyError.malformedPayload
        else pure body) =
      if body.head? ≠ some 1 then .error .malformedPayload else .ok body := by
  cases body with
  | nil =>
      rfl
  | cons b rest =>
      have hb := rootHeader_iff b
      rw [if_neg (show ¬ (b :: rest).length = 0 by simp), except_ok_bind,
        List.getElem?_cons_zero, orRaise, except_ok_bind]
      by_cases h1 : b = 1
      · rw [if_neg (hb.mpr h1), if_neg (by simp [h1])]
        rfl
      · rw [if_pos (by_contra fun h => h1 (hb.mp h)), if_pos (by simp [h1])]

/--
The verdict on the envelope of any registration: the limit first, then the schema,
the root type, and the first byte of the body.
-/
theorem openPayload_envelope
    {other : ForyRegistration τ}
    (hdata : other.envelope body = some payload.data)
    (hmetadata : metadataError payload.metadata = none)
    (hexpected : metadataError expected = none) :
    registration.openPayload limits payload expected =
      if limits.maxInputSize < 20 + body.length then .error (.payloadLimit .inputLimit)
      else if other.schemaId ≠ registration.schemaId ∨
          other.schemaVersion ≠ registration.schemaVersion then .error .schemaMismatch
      else if other.typeId ≠ registration.typeId then .error .typeMismatch
      else if body.head? ≠ some 1 then .error .malformedPayload
      else .ok body := by
  obtain ⟨header, hheader, hpayload⟩ := envelope_eq_some_iff.mp hdata
  have hlen : payload.data.length = 20 + body.length := length_envelope hdata
  have hheader20 : header.length = 20 := StructFormat.length_of_pack hheader
  have hunpack : envelopeFormat.unpackFrom payload.data = some (other.header body.length) :=
    StructFormat.unpackFrom_eq_some_iff.mpr
      ⟨fits_header (exists_envelope_iff.mp ⟨_, hdata⟩), header, body, hheader, hpayload⟩
  have hdrop : payload.data.drop 20 = body := by
    rw [hpayload, ← hheader20, List.drop_left]
  have hroot : payload.data[20]? = body[0]? := by
    rw [hpayload, List.getElem?_append_right (by omega), hheader20]
  have hnot : ¬ payload.data.length < 20 := by omega
  have hchecked : registration.checkHeader (other.header body.length)
      ((payload.data.length : Int) - (20 : Nat)) = _ :=
    (congrArg _ (by omega)).trans (checkHeader_header registration other body.length)
  simp only [openPayload, hmetadata, hexpected, hunpack, size_envelopeFormat, hdrop, hroot,
    refuse, orRaise, except_ok_bind, raiseIf_bind, hchecked, if_neg hnot]
  rw [hlen]
  refine if_congr Iff.rfl rfl ?_
  by_cases hschema : other.schemaId ≠ registration.schemaId ∨
      other.schemaVersion ≠ registration.schemaVersion
  · rw [if_pos hschema, if_pos hschema]
    rfl
  · rw [if_neg hschema, if_neg hschema]
    by_cases htype : other.typeId ≠ registration.typeId
    · rw [if_pos htype, if_pos htype]
      rfl
    · rw [if_neg htype, if_neg htype]
      exact bodyChecks_eq body

/-- **Opening** accepts the envelopes of the registration and nothing else. -/
theorem openPayload_eq_ok_iff :
    registration.openPayload limits payload expected = .ok body ↔
      metadataError payload.metadata = none ∧ metadataError expected = none ∧
        payload.data.length ≤ limits.maxInputSize ∧ body.head? = some 1 ∧
        registration.envelope body = some payload.data := by
  constructor
  · intro h
    have hrun := h
    simp only [openPayload, except_bind_eq_ok, refuse_eq_ok, raiseIf_eq_ok, orRaise_eq_ok,
      size_envelopeFormat] at hrun
    obtain ⟨-, hmetadata, -, hexpected, -, hlimit, -, hsize, header, hunpack, ⟨⟩, hheader, -, -,
      -, -, hbody⟩ := hrun
    obtain rfl := Except.ok.inj hbody
    obtain ⟨-, bs, rest, hpack, hdata⟩ := StructFormat.unpackFrom_eq_some_iff.mp hunpack
    have hbs : bs.length = 20 := StructFormat.length_of_pack hpack
    have hrest : payload.data.drop 20 = rest := by
      rw [hdata, ← hbs, List.drop_left]
    have hremaining : (payload.data.length : Int) - (20 : Nat) = rest.length := by
      have hlen := congrArg List.length hdata
      rw [List.length_append] at hlen
      omega
    rw [hremaining] at hheader
    obtain rfl := eq_header_of_checkHeader hheader
    have henvelope : registration.envelope rest = some payload.data :=
      envelope_eq_some_iff.mpr ⟨bs, hpack, hdata⟩
    refine ⟨hmetadata, hexpected, by omega, ?_, hrest.symm ▸ henvelope⟩
    -- the verdict on this envelope has passed the first byte
    rw [openPayload_envelope henvelope hmetadata hexpected, if_neg (by omega), if_neg (by simp),
      if_neg (by simp)] at h
    split at h
    case isTrue => cases h
    case isFalse hfirst =>
      rw [hrest]
      exact not_not.mp hfirst
  · rintro ⟨hmetadata, hexpected, hlimit, hbody, hdata⟩
    have hlen := length_envelope hdata
    rw [openPayload_envelope hdata hmetadata hexpected, if_neg (by omega), if_neg (by simp),
      if_neg (by simp), if_neg (not_not_intro hbody)]

theorem ne_of_unchecked
    {e e' : ForyError}
    (h : e.unchecked = true)
    (h' : e'.unchecked = false) :
    e' ≠ e := by
  rintro rfl
  rw [h'] at h
  cases h

theorem metadataError_ne
    {e : ForyError}
    (h : e.unchecked = true) (metadata : PayloadMetadata) :
    metadataError metadata ≠ some e := by
  intro he
  unfold metadataError at he
  split at he
  case isTrue => exact ne_of_unchecked h rfl (Option.some.inj he)
  split at he
  case isTrue => exact ne_of_unchecked h rfl (Option.some.inj he)
  split at he
  case isTrue => exact ne_of_unchecked h rfl (Option.some.inj he)
  split at he
  case isTrue => exact ne_of_unchecked h rfl (Option.some.inj he)
  case isFalse => cases he

theorem checkHeader_avoids
    {e : ForyError}
    (h : e.unchecked = true) (header : envelopeFormat.Values) (remaining : Int) :
    Avoids e (registration.checkHeader header remaining) := by
  obtain ⟨magic, envelopeVersion, flags, schemaId, schemaVersion, typeId, bodyLength, ⟨⟩⟩ := header
  unfold checkHeader
  refine .bind (avoids_raiseIf (ne_of_unchecked h rfl) _) fun _ _ => ?_
  refine .bind (avoids_raiseIf (ne_of_unchecked h rfl) _) fun _ _ => ?_
  refine .bind (avoids_raiseIf (ne_of_unchecked h rfl) _) fun _ _ => ?_
  refine .bind (avoids_raiseIf (ne_of_unchecked h rfl) _) fun _ _ => ?_
  refine .bind (avoids_raiseIf (ne_of_unchecked h rfl) _) fun _ _ => ?_
  exact avoids_raiseIf (ne_of_unchecked h rfl) _

/-- A header that passes its checks stands in front of a body. -/
theorem ne_zero_of_checkHeader
    {header : envelopeFormat.Values} {remaining : Int}
    (h : registration.checkHeader header remaining = .ok ()) :
    remaining ≠ 0 := by
  obtain ⟨magic, envelopeVersion, flags, schemaId, schemaVersion, typeId, bodyLength, ⟨⟩⟩ := header
  simp only [checkHeader, except_bind_eq_ok, raiseIf_eq_ok, not_or, not_not] at h
  obtain ⟨-, -, -, -, -, -, -, -, -, -, hne, rfl⟩ := h
  exact hne

/-- Unpacking the header and reading the root header never fail: the size has been checked. -/
theorem openPayload_avoids
    {e : ForyError}
    (h : e.unchecked = true) :
    Avoids e (registration.openPayload limits payload expected) := by
  unfold openPayload
  refine .bind (avoids_refuse (metadataError_ne h _)) fun _ _ => ?_
  refine .bind (avoids_refuse (metadataError_ne h _)) fun _ _ => ?_
  refine .bind (avoids_raiseIf (ne_of_unchecked h rfl) _) fun _ _ => ?_
  refine .bind (avoids_raiseIf (ne_of_unchecked h rfl) _) fun _ hsize => ?_
  have hsize' : envelopeFormat.size ≤ payload.data.length :=
    Nat.le_of_not_lt (raiseIf_eq_ok.mp hsize)
  refine .bind ?_ fun header _ => .bind (checkHeader_avoids h header _) fun _ hheader => ?_
  · obtain ⟨values, hvalues⟩ := StructFormat.exists_unpackFrom hsize'
    rw [hvalues]
    exact avoids_ok _ _
  · have hne := ne_zero_of_checkHeader hheader
    refine .bind ?_ fun rootHeader _ =>
      .bind (avoids_raiseIf (ne_of_unchecked h rfl) _) fun _ _ => avoids_ok _ _
    rw [List.getElem?_eq_getElem (by omega)]
    exact avoids_ok _ _

end ForyRegistration

/--
**The Fory envelope**: sealing fails on too large bodies only; what is sealed opens at
another adapter by the registrations, the limits and the first byte of the body; and
what opens was sealed by the same registration, with the same body.
-/
theorem fory_envelope
    {τ : Type} (writer reader : ForyRegistration τ) (writerLimits readerLimits : ForyLimits) :
    (∀ metadata body,
      if writerLimits.maxOutputSize < 20 + body.length then
        writer.sealPayload writerLimits metadata body = .error (.payloadLimit .outputLimit)
      else
        ∃ data, writer.envelope body = some data ∧
          writer.sealPayload writerLimits metadata body = .ok ⟨metadata, data⟩ ∧
          ∀ expected, metadataError metadata = none → metadataError expected = none →
            reader.openPayload readerLimits ⟨metadata, data⟩ expected =
              if readerLimits.maxInputSize < 20 + body.length then
                .error (.payloadLimit .inputLimit)
              else if writer.schemaId ≠ reader.schemaId ∨
                  writer.schemaVersion ≠ reader.schemaVersion then .error .schemaMismatch
              else if writer.typeId ≠ reader.typeId then .error .typeMismatch
              else if body.head? ≠ some 1 then .error .malformedPayload
              else .ok body) ∧
    ∀ payload expected body,
      reader.openPayload readerLimits payload expected = .ok body ↔
        metadataError payload.metadata = none ∧ metadataError expected = none ∧
          payload.data.length ≤ readerLimits.maxInputSize ∧ body.head? = some 1 ∧
          reader.envelope body = some payload.data := by
  refine ⟨fun metadata body => ?_, fun payload expected body =>
    ForyRegistration.openPayload_eq_ok_iff⟩
  split
  case isTrue hlarge =>
    exact ForyRegistration.sealPayload_eq_error_iff.mpr ⟨rfl, hlarge⟩
  case isFalse hfits =>
    obtain ⟨data, hdata⟩ : ∃ data, writer.envelope body = some data :=
      ForyRegistration.exists_envelope hfits
    refine ⟨data, hdata, ?_, fun expected hmetadata hexpected =>
      ForyRegistration.openPayload_envelope hdata hmetadata hexpected⟩
    rw [ForyRegistration.sealPayload_eq, if_neg hfits, hdata]
    rfl

end Serde
end Bluetape
