import Bluetape.Base.BinaryReader
import Bluetape.CacheRedis.Contracts

/-!
# The binary envelope format

`BinaryEnvelopeFormat.encode` and `decode`.  Both are compared with `Layout`,
the byte layout of a version 1 envelope: encoding produces it and decoding
accepts it, within the size bound.

* `encode_eq_ok_iff`, `decode_eq_ok_iff`: the comparison;
* `binary_format_bijection`: encoding and decoding are inverse to each other,
  and decoding raises only envelope errors.
-/

namespace Bluetape
namespace CacheRedis

open Base Serde

/-- `_MAGIC` -/
def magic : Bytes := [0x42, 0x54, 0x52, 0x45]

/-- `_VERSION` -/
def formatVersion : Nat := 1

/-- `_NULL_LENGTH` -/
def nullLength : Nat := 0xFFFFFFFF

/-- `_MAX_CONTENT_TYPE_SIZE` -/
def maxContentTypeSize : Nat := 1024

/-- `_MAX_U32_VALUE` -/
def maxU32Value : Nat := nullLength - 1

/-- The rejection of malformed data. -/
def malformed : FormatException :=
  .envelopeDecode .malformedEnvelope

/--
The exceptions of the binary `decode`: those of the formats, and the `IndexError` of
`version_bytes[0]`, which is no `ValueError`.
-/
inductive BinaryException
  | format (e : FormatException)
  | indexError
deriving DecidableEq, Repr

/-- The subclasses of `EnvelopeError`. -/
def BinaryException.isEnvelopeError : BinaryException → Bool
  | format e => e.isEnvelopeError
  | indexError => false

/-- The rejection of malformed binary data. -/
def malformedData : BinaryException :=
  .format malformed

/-- `_encoded_text` -/
def encodedText (value : Text) (field : String) (encoding : Encoding) (maximum : Nat) :
    Except FormatException Bytes := do
  let encoded ←
    orRaise (.valueError (field ++ " must use " ++ encoding.name)) (encoding.encode value)
  raiseIf (maximum < encoded.length)
    (.valueError (field ++ " exceeds its encoded size limit"))
  return encoded

/-- `_ensure_bound` -/
def ensureBound (size maximum : Nat) : Except FormatException Unit :=
  raiseIf (maximum < size) (.envelopeSize .encodedSizeLimit)

/-- `_U32.pack` -/
def pack (n : Int) : Except FormatException Bytes :=
  orRaise .structError (packU32 n)

/-- `output.append` -/
def appended (output : Bytes) (n : Int) : Except FormatException Bytes := do
  raiseIf (n < 0 ∨ 256 ≤ n) (.valueError "byte must be in range(0, 256)")
  return output ++ [UInt8.ofNat n.toNat]

/-- `_take` -/
def take (size : Nat) : Reader BinaryException Bytes :=
  takeBytes malformedData size

/-- `_read_required_text` -/
def readRequiredText (encoding : Encoding) (maximum : Nat) :
    Reader BinaryException Text := fun data cursor => do
  let (raw, cursor) ←
    readSized malformedData (fun size => decide (1 ≤ size ∧ size ≤ maximum)) data cursor
  let value ← orRaise malformedData (encoding.decode raw)
  return (value, cursor)

/-- The content type as `decode` reads it. -/
def readContentType : Reader BinaryException (Option Text) := fun data cursor => do
  let (contentSize, cursor) ← readU32 malformedData data cursor
  if contentSize = nullLength then return (none, cursor)
  else
    raiseIf (maxContentTypeSize < contentSize) malformedData
    let (rawContent, cursor) ← take contentSize data cursor
    let contentType ← orRaise malformedData (decodeUtf8 rawContent)
    return (some contentType, cursor)

/-- The encoded fields of an envelope. -/
structure EncodedFields where
  owner : Bytes
  serdeFormat : Bytes
  contentType : Option Bytes
  trustProfile : Bytes
  algorithm : Bytes
  payload : Bytes

/-- The encoded content type. -/
def encodedContentType : Option Text → Except FormatException (Option Bytes)
  | none => .ok none
  | some value => do
      return some (← encodedText value "content type" .utf8 maxContentTypeSize)

/-- The first part of `encode`: every field on its own. -/
def encodedFields (e : ResultEnvelope) : Except FormatException EncodedFields := do
  let owner ← encodedText e.ownerToken "owner token" .ascii 128
  let serdeFormat ← encodedText e.metadata.format "serde format" .ascii 64
  let contentType ← encodedContentType e.metadata.contentType
  let trustProfile ← encodedText e.metadata.trustProfile.value "trust profile" .ascii 64
  let algorithm ← encodedText e.compressionAlgorithm "compression algorithm" .ascii 64
  return ⟨owner, serdeFormat, contentType, trustProfile, algorithm, e.payload⟩

namespace EncodedFields

/-- The tuple `fields`. -/
def fields (f : EncodedFields) : List Bytes :=
  [f.owner, f.serdeFormat, f.trustProfile, f.algorithm, f.payload]

/-- The precomputed size of the output. -/
def size (f : EncodedFields) : Nat :=
  5 + 7 * 4 + (f.fields.map List.length).sum +
    match f.contentType with
    | none => 0
    | some contentType => contentType.length

/-- The content type in the output. -/
def packContentType : Option Bytes → Except FormatException Bytes
  | none => pack nullLength
  | some contentType => do return (← pack contentType.length) ++ contentType

/-- The output bytes, field after field. -/
def output (f : EncodedFields) (version metadataVersion : Int) :
    Except FormatException Bytes := do
  let output ← appended magic version
  let output := output ++ (← pack f.owner.length) ++ f.owner
  let output := output ++ (← pack f.serdeFormat.length) ++ f.serdeFormat
  let output := output ++ (← pack metadataVersion)
  let output := output ++ (← packContentType f.contentType)
  let output := output ++ (← pack f.trustProfile.length) ++ f.trustProfile
  let output := output ++ (← pack f.algorithm.length) ++ f.algorithm
  let output := output ++ (← pack f.payload.length) ++ f.payload
  return output

end EncodedFields

/-- `BinaryEnvelopeFormat` -/
structure BinaryEnvelopeFormat where
  maxEncodedSize : Nat
  one_le_max : 1 ≤ maxEncodedSize
  max_le : maxEncodedSize ≤ maxU32Value

namespace BinaryEnvelopeFormat

/-- `BinaryEnvelopeFormat.encode` -/
def encode (format : BinaryEnvelopeFormat) (e : ResultEnvelope) :
    Except FormatException Bytes := do
  let f ← encodedFields e
  raiseIf (∃ field ∈ f.fields, maxU32Value < field.length) (.envelopeSize .encodedSizeLimit)
  ensureBound f.size format.maxEncodedSize
  let encoded ← f.output e.version e.metadata.version
  ensureBound encoded.length format.maxEncodedSize
  return encoded

/-- The body of the `try` block of `decode`. -/
def decodeBody (data : Bytes) : Except BinaryException ResultEnvelope := do
  let (magicBytes, cursor) ← take magic.length data 0
  raiseIf (magicBytes ≠ magic) malformedData
  let (versionBytes, cursor) ← take 1 data cursor
  let version ← orRaise .indexError versionBytes.head?
  raiseIf (version.toNat ≠ formatVersion)
    (BinaryException.format (.envelopeDecode .unsupportedVersion))
  let (owner, cursor) ← readRequiredText .ascii 128 data cursor
  let (serdeFormat, cursor) ← readRequiredText .ascii 64 data cursor
  let (serdeVersion, cursor) ← readU32 malformedData data cursor
  let (contentType, cursor) ← readContentType data cursor
  let (trustValue, cursor) ← readRequiredText .ascii 64 data cursor
  let (algorithm, cursor) ← readRequiredText .ascii 64 data cursor
  let (payloadSize, cursor) ← readU32 malformedData data cursor
  let (payload, cursor) ← take payloadSize data cursor
  raiseIf (cursor ≠ data.length) malformedData
  let trustProfile ← orRaise (.format (.valueError "not a valid TrustProfile"))
    (TrustProfile.ofValue trustValue)
  let metadata ←
    (PayloadMetadata.make serdeFormat serdeVersion contentType trustProfile).mapError
      (fun _ => BinaryException.format .invalidMetadata)
  (ResultEnvelope.make version.toNat owner metadata algorithm payload).mapError .format

/-- The `except` clauses of `decode`, on the exceptions that they catch. -/
def redacted : FormatException → FormatException
  | .envelopeDecode code => .envelopeDecode code
  | _ => malformed

/-- The `except` clauses of `decode`, which let an `IndexError` pass. -/
def redactedBinary : BinaryException → BinaryException
  | .format e => .format (redacted e)
  | .indexError => .indexError

/-- `BinaryEnvelopeFormat.decode` -/
def decode (format : BinaryEnvelopeFormat) (data : Bytes) :
    Except BinaryException ResultEnvelope := do
  (ensureBound data.length format.maxEncodedSize).mapError .format
  (decodeBody data).mapError redactedBinary

end BinaryEnvelopeFormat

section Layout

/-- Required text behind its length. -/
def writeText (encoding : Encoding) (maximum : Nat) (value : Text) : Option Bytes :=
  (encoding.encode value).bind
    (writeSized (fun size => decide (1 ≤ size ∧ size ≤ maximum)))

/-- A content type behind its length, or the null length. -/
def writeContentType : Option Text → Option Bytes
  | none => packU32 nullLength
  | some value =>
      (encodeUtf8 value).bind (writeSized (fun size => decide (size ≤ maxContentTypeSize)))

/-- The bytes of a version 1 envelope, field by field. -/
structure Layout (e : ResultEnvelope) where
  owner : Bytes
  serdeFormat : Bytes
  serdeVersion : Bytes
  contentType : Bytes
  trustProfile : Bytes
  algorithm : Bytes
  payload : Bytes
  version_eq : e.version = formatVersion
  owner_eq : writeText .ascii 128 e.ownerToken = some owner
  serdeFormat_eq : writeText .ascii 64 e.metadata.format = some serdeFormat
  serdeVersion_eq : packU32 e.metadata.version = some serdeVersion
  contentType_eq : writeContentType e.metadata.contentType = some contentType
  trustProfile_eq : writeText .ascii 64 e.metadata.trustProfile.value = some trustProfile
  algorithm_eq : writeText .ascii 64 e.compressionAlgorithm = some algorithm
  payload_eq : writeSized (fun _ => true) e.payload = some payload

/-- The whole byte string. -/
def Layout.bytes {e : ResultEnvelope} (l : Layout e) : Bytes :=
  magic ++ [1] ++ l.owner ++ l.serdeFormat ++ l.serdeVersion ++ l.contentType ++
    l.trustProfile ++ l.algorithm ++ l.payload

/-- A byte string of one length. -/
def writeBytes (size : Nat) (bs : Bytes) : Option Bytes :=
  if bs.length = size then some bs else none

theorem writeBytes_of_length
    {size : Nat} {bs : Bytes}
    (h : bs.length = size) :
    writeBytes size bs = some bs :=
  if_pos h

theorem eq_of_writeBytes
    {size : Nat} {bs out : Bytes}
    (h : writeBytes size bs = some out) :
    out = bs ∧ bs.length = size := by
  unfold writeBytes at h
  split at h
  case isTrue hlen =>
    exact ⟨(Option.some.inj h).symm, hlen⟩
  case isFalse =>
    cases h

theorem reads_take (size : Nat) :
    Reads (take size) (writeBytes size) :=
  reads_takeBytes malformedData size

theorem reads_readRequiredText (encoding : Encoding) (maximum : Nat) :
    Reads (readRequiredText encoding maximum) (writeText encoding maximum) := by
  refine (reads_readSized malformedData _).map (f := fun raw => orRaise malformedData
    (encoding.decode raw)) (g := encoding.encode) (fun raw value => ?_)
  rw [orRaise_eq_ok, Encoding.encode_eq_some_iff]

theorem reads_readContentType :
    Reads readContentType writeContentType where
  accepts := by
    intro value bs h before after
    cases value with
    | none =>
        exact (reads_readU32 malformedData).resume h rfl fun _ => rfl
    | some value =>
        obtain ⟨raw, hraw, hsized⟩ := Option.bind_eq_some_iff.mp h
        unfold writeSized at hsized
        split at hsized
        case isTrue hle =>
          obtain ⟨size, hsize, rfl⟩ := Option.map_eq_some_iff.mp hsized
          have hle : raw.length ≤ maxContentTypeSize := of_decide_eq_true hle
          have hne : raw.length ≠ nullLength := by
            simp only [maxContentTypeSize, nullLength] at hle ⊢
            omega
          rw [List.append_assoc]
          refine (reads_readU32 malformedData).resume hsize rfl fun hdata => ?_
          dsimp only
          rw [if_neg hne]
          refine except_bind_eq_ok.mpr ⟨(), raiseIf_eq_ok.mpr (by omega), ?_⟩
          refine (reads_take raw.length).resume (writeBytes_of_length rfl) hdata fun _ => ?_
          refine except_bind_eq_ok.mpr ⟨value, ?_, ?_⟩
          · exact orRaise_eq_ok.mpr (encodeUtf8_eq_some_iff.mp hraw)
          · rw [List.append_assoc]
            rfl
        case isFalse =>
          cases hsized
  exact := by
    intro before data value cursor h
    obtain ⟨contentSize, size, data', hsize, hdata, h⟩ := (reads_readU32 malformedData).next rfl h
    dsimp only at h
    split at h
    case isTrue hnull =>
      cases h
      refine ⟨size, data', by rw [← hsize, hnull]; rfl, ?_, rfl⟩
      exact List.append_cancel_left (hdata.trans (List.append_assoc _ _ _))
    case isFalse hne =>
      obtain ⟨_, hle, h⟩ := except_bind_eq_ok.mp h
      obtain ⟨raw, raw', after, hraw, hdata', h⟩ := (reads_take contentSize).next hdata h
      obtain ⟨text, hvalue, hreturn⟩ := except_bind_eq_ok.mp h
      obtain ⟨rfl, rfl⟩ := Prod.mk.inj (Except.ok.inj hreturn)
      obtain ⟨rfl, rfl⟩ := eq_of_writeBytes hraw
      have hle := not_lt.mp (raiseIf_eq_ok.mp hle)
      have hencode := encodeUtf8_eq_some_iff.mpr (orRaise_eq_ok.mp hvalue)
      refine ⟨size ++ raw', after, ?_, ?_, ?_⟩
      · simp [writeContentType, hencode, writeSized, hle, hsize]
      · simpa using hdata'
      · rw [List.append_assoc]

/-- **What decoding accepts is laid out.** -/
theorem layout_of_decodeBody
    {d : Bytes} {e : ResultEnvelope}
    (h : BinaryEnvelopeFormat.decodeBody d = .ok e) :
    ∃ l : Layout e, l.bytes = d := by
  obtain ⟨magicBytes, bs₀, rest, hbs₀, hd, h⟩ := 
    (reads_take _).next (List.nil_append d).symm h
  obtain ⟨_, hmagic, h⟩ := except_bind_eq_ok.mp h
  obtain ⟨versionBytes, bs₁, rest, hbs₁, hd, h⟩ := (reads_take 1).next hd h
  obtain ⟨version, hhead, h⟩ := except_bind_eq_ok.mp h
  obtain ⟨_, hversion, h⟩ := except_bind_eq_ok.mp h
  obtain ⟨owner, bs₂, rest, howner, hd, h⟩ := (reads_readRequiredText _ _).next hd h
  obtain ⟨serdeFormat, bs₃, rest, hserdeFormat, hd, h⟩ :=
    (reads_readRequiredText _ _).next hd h
  obtain ⟨serdeVersion, bs₄, rest, hserdeVersion, hd, h⟩ := (reads_readU32 _).next hd h
  obtain ⟨contentType, bs₅, rest, hcontentType, hd, h⟩ := reads_readContentType.next hd h
  obtain ⟨trustValue, bs₆, rest, htrustValue, hd, h⟩ := (reads_readRequiredText _ _).next hd h
  obtain ⟨algorithm, bs₇, rest, halgorithm, hd, h⟩ := (reads_readRequiredText _ _).next hd h
  obtain ⟨payloadSize, bs₈, rest, hpayloadSize, hd, h⟩ := (reads_readU32 _).next hd h
  obtain ⟨payload, bs₉, rest, hpayload, hd, h⟩ := (reads_take _).next hd h
  obtain ⟨_, hend, h⟩ := except_bind_eq_ok.mp h
  obtain ⟨trustProfile, htrust, h⟩ := except_bind_eq_ok.mp h
  obtain ⟨metadata, hmetadata, hmake⟩ := except_bind_eq_ok.mp h
  -- what the checks say about the pieces
  obtain ⟨rfl, -⟩ := eq_of_writeBytes hbs₀
  obtain rfl := not_not.mp (raiseIf_eq_ok.mp hmagic)
  obtain ⟨rfl, hone⟩ := eq_of_writeBytes hbs₁
  have hversion := not_not.mp (raiseIf_eq_ok.mp hversion)
  obtain ⟨b, rfl⟩ := List.length_eq_one_iff.mp hone
  obtain rfl : b = version := Option.some.inj (orRaise_eq_ok.mp hhead)
  obtain rfl : b = 1 := UInt8.toNat.inj hversion
  obtain ⟨rfl, rfl⟩ := eq_of_writeBytes hpayload
  have hend := not_not.mp (raiseIf_eq_ok.mp hend)
  obtain rfl : rest = [] := by
    have hlen := congrArg List.length hd
    rw [List.length_append] at hlen
    exact List.length_eq_zero_iff.mp (by omega)
  obtain rfl := TrustProfile.ofValue_eq_some_iff.mp (orRaise_eq_ok.mp htrust)
  obtain ⟨rfl, hmetadataVersion, rfl, rfl⟩ :=
    PayloadMetadata.make_eq_ok_iff.mp (mapError_eq_ok.mp hmetadata)
  obtain ⟨hone, rfl, rfl, rfl, rfl⟩ := ResultEnvelope.make_eq_ok_iff.mp (mapError_eq_ok.mp hmake)
  rw [hversion] at hone
  rw [← hmetadataVersion] at hserdeVersion
  refine ⟨⟨bs₂, bs₃, bs₄, bs₅, bs₆, bs₇, bs₈ ++ e.payload, hone, howner, hserdeFormat,
    hserdeVersion, hcontentType, htrustValue, halgorithm, ?_⟩, ?_⟩
  · simp [writeSized, hpayloadSize]
  · simp [Layout.bytes, hd]

/-- **What is laid out is decoded.** -/
theorem decodeBody_layout
    {e : ResultEnvelope} (l : Layout e) :
    BinaryEnvelopeFormat.decodeBody l.bytes = .ok e := by
  have hversion : e.version = 1 := l.version_eq
  obtain ⟨size, hsize, hpayload⟩ : ∃ size, packU32 e.payload.length = some size ∧
      size ++ e.payload = l.payload := by
    simpa [writeSized] using l.payload_eq
  obtain ⟨serdeVersion, hserdeVersion⟩ : ∃ n : Nat, e.metadata.version = n :=
    ⟨e.metadata.version.toNat, by have := e.metadata.version_pos; omega⟩
  have hd : l.bytes = [] ++ (magic ++ ([1] ++ (l.owner ++ (l.serdeFormat ++
      (l.serdeVersion ++ (l.contentType ++ (l.trustProfile ++ (l.algorithm ++
        (size ++ (e.payload ++ [])))))))))) := by
    simp [Layout.bytes, hpayload]
  refine (reads_take magic.length).resume (writeBytes_of_length rfl) hd fun hd => ?_
  refine except_bind_eq_ok.mpr ⟨(), raiseIf_eq_ok.mpr (not_not.mpr rfl), ?_⟩
  refine (reads_take 1).resume (writeBytes_of_length rfl) hd fun hd => ?_
  refine except_bind_eq_ok.mpr ⟨1, orRaise_eq_ok.mpr rfl, ?_⟩
  refine except_bind_eq_ok.mpr ⟨(), raiseIf_eq_ok.mpr (not_not.mpr rfl), ?_⟩
  refine (reads_readRequiredText _ _).resume l.owner_eq hd fun hd => ?_
  refine (reads_readRequiredText _ _).resume l.serdeFormat_eq hd fun hd => ?_
  refine (reads_readU32 _).resume (hserdeVersion ▸ l.serdeVersion_eq) hd fun hd => ?_
  refine reads_readContentType.resume l.contentType_eq hd fun hd => ?_
  refine (reads_readRequiredText _ _).resume l.trustProfile_eq hd fun hd => ?_
  refine (reads_readRequiredText _ _).resume l.algorithm_eq hd fun hd => ?_
  refine (reads_readU32 _).resume hsize hd fun hd => ?_
  refine (reads_take e.payload.length).resume (writeBytes_of_length rfl) hd fun hd => ?_
  refine except_bind_eq_ok.mpr ⟨(), raiseIf_eq_ok.mpr (not_not.mpr ?_), ?_⟩
  · rw [hd, List.append_nil]
  refine except_bind_eq_ok.mpr ⟨e.metadata.trustProfile,
    orRaise_eq_ok.mpr (TrustProfile.ofValue_eq_some_iff.mpr rfl), ?_⟩
  refine except_bind_eq_ok.mpr ⟨e.metadata, mapError_eq_ok.mpr ?_, ?_⟩
  · exact PayloadMetadata.make_eq_ok_iff.mpr ⟨rfl, hserdeVersion, rfl, rfl⟩
  · exact mapError_eq_ok.mpr
      (ResultEnvelope.make_eq_ok_iff.mpr ⟨hversion, rfl, rfl, rfl, rfl⟩)

/-- **Decoding accepts exactly what is laid out, within the size bound.** -/
theorem decode_eq_ok_iff
    {format : BinaryEnvelopeFormat} {d : Bytes} {e : ResultEnvelope} :
    format.decode d = .ok e ↔
      d.length ≤ format.maxEncodedSize ∧ ∃ l : Layout e, l.bytes = d := by
  unfold BinaryEnvelopeFormat.decode ensureBound
  rw [except_bind_eq_ok]
  simp only [mapError_eq_ok, raiseIf_eq_ok, not_lt, exists_const]
  refine and_congr_right fun _ => ⟨layout_of_decodeBody, ?_⟩
  rintro ⟨l, rfl⟩
  exact decodeBody_layout l

/-- A text that `_encoded_text` accepts, as the layout writes it. -/
theorem encodedText_eq_ok
    {value : Text} {field : String} {encoding : Encoding} {maximum : Nat} {bs : Bytes} :
    encodedText value field encoding maximum = .ok bs ↔
      encoding.encode value = some bs ∧ bs.length ≤ maximum := by
  unfold encodedText
  simp only [except_bind_eq_ok, orRaise_eq_ok, raiseIf_eq_ok, not_lt, exists_const, pure,
    Except.pure, Except.ok.injEq]
  constructor
  · rintro ⟨bs', hencode, hle, rfl⟩
    exact ⟨hencode, hle⟩
  · rintro ⟨hencode, hle⟩
    exact ⟨bs, hencode, hle, rfl⟩

theorem encodedFields_eq_ok
    {e : ResultEnvelope} {f : EncodedFields} :
    encodedFields e = .ok f ↔
      encodedText e.ownerToken "owner token" .ascii 128 = .ok f.owner ∧
      encodedText e.metadata.format "serde format" .ascii 64 = .ok f.serdeFormat ∧
      encodedContentType e.metadata.contentType = .ok f.contentType ∧
      encodedText e.metadata.trustProfile.value "trust profile" .ascii 64 =
        .ok f.trustProfile ∧
      encodedText e.compressionAlgorithm "compression algorithm" .ascii 64 =
        .ok f.algorithm ∧
      e.payload = f.payload := by
  obtain ⟨owner, serdeFormat, contentType, trustProfile, algorithm, payload⟩ := f
  simp only [encodedFields, except_bind_eq_ok, pure, Except.pure, Except.ok.injEq,
    EncodedFields.mk.injEq]
  constructor
  · rintro ⟨_, howner, _, hformat, _, hcontent, _, htrust, _, halgorithm, rfl, rfl, rfl, rfl,
      rfl, rfl⟩
    exact ⟨howner, hformat, hcontent, htrust, halgorithm, rfl⟩
  · rintro ⟨howner, hformat, hcontent, htrust, halgorithm, rfl⟩
    exact ⟨_, howner, _, hformat, _, hcontent, _, htrust, _, halgorithm, rfl, rfl, rfl, rfl,
      rfl, rfl⟩

theorem output_eq_ok
    {f : EncodedFields} {metadataVersion : Int} {d : Bytes} :
    f.output 1 metadataVersion = .ok d ↔
      ∃ o, packU32 f.owner.length = some o ∧
      ∃ s, packU32 f.serdeFormat.length = some s ∧
      ∃ v, packU32 metadataVersion = some v ∧
      ∃ c, EncodedFields.packContentType f.contentType = .ok c ∧
      ∃ t, packU32 f.trustProfile.length = some t ∧
      ∃ a, packU32 f.algorithm.length = some a ∧
      ∃ p, packU32 f.payload.length = some p ∧
        magic ++ [1] ++ (o ++ f.owner) ++ (s ++ f.serdeFormat) ++ v ++ c ++
          (t ++ f.trustProfile) ++ (a ++ f.algorithm) ++ (p ++ f.payload) = d := by
  have hversion : appended magic 1 = .ok (magic ++ [1]) := rfl
  simp only [EncodedFields.output, hversion, pack, except_bind_eq_ok, orRaise_eq_ok, pure,
    Except.pure, Except.ok.injEq, exists_eq_left', List.append_assoc]

/-- The precomputed size is the length of the output. -/
theorem size_eq_length
    {f : EncodedFields} {metadataVersion : Int} {d : Bytes}
    (h : f.output 1 metadataVersion = .ok d) :
    f.size = d.length := by
  obtain ⟨o, ho, s, hs, v, hv, c, hc, t, ht, a, ha, p, hp, rfl⟩ := output_eq_ok.mp h
  have hcontent : c.length = 4 + f.contentType.elim 0 List.length := by
    cases hf : f.contentType with
    | none =>
        rw [hf] at hc
        have hc : pack nullLength = .ok c := hc
        exact (packU32_eq_some (orRaise_eq_ok.mp hc)).1
    | some raw =>
        rw [hf] at hc
        obtain ⟨size, hsize, hret⟩ := except_bind_eq_ok.mp hc
        cases hret
        rw [List.length_append, (packU32_eq_some (orRaise_eq_ok.mp hsize)).1]
        rfl
  have hsize : f.size = 5 + 7 * 4 + (f.fields.map List.length).sum +
      f.contentType.elim 0 List.length := by
    unfold EncodedFields.size
    cases f.contentType with
    | none => rfl
    | some raw => rfl
  rw [hsize]
  simp only [List.length_append, hcontent, (packU32_eq_some ho).1, (packU32_eq_some hs).1,
    (packU32_eq_some hv).1, (packU32_eq_some ht).1, (packU32_eq_some ha).1,
    (packU32_eq_some hp).1, EncodedFields.fields, List.map_cons, List.map_nil, List.sum_cons,
    List.sum_nil, magic, List.length_cons, List.length_nil]
  omega

theorem writeText_eq_some
    {encoding : Encoding} {maximum : Nat} {value : Text} {field : String} {out : Bytes} :
    writeText encoding maximum value = some out ↔
      ∃ raw, encodedText value field encoding maximum = .ok raw ∧ 1 ≤ raw.length ∧
        ∃ size, packU32 raw.length = some size ∧ size ++ raw = out := by
  simp only [writeText, Option.bind_eq_some_iff, encodedText_eq_ok, writeSized,
    decide_eq_true_eq, Option.ite_none_right_eq_some, Option.map_eq_some_iff]
  constructor
  · rintro ⟨raw, hencode, ⟨hpos, hle⟩, hsize⟩
    exact ⟨raw, ⟨hencode, hle⟩, hpos, hsize⟩
  · rintro ⟨raw, ⟨hencode, hle⟩, hpos, hsize⟩
    exact ⟨raw, hencode, ⟨hpos, hle⟩, hsize⟩

theorem writeContentType_eq_some
    {contentType : Option Text} {out : Bytes} :
    writeContentType contentType = some out ↔
      ∃ raw, encodedContentType contentType = .ok raw ∧
        EncodedFields.packContentType raw = .ok out := by
  cases contentType with
  | none =>
      simp [writeContentType, encodedContentType, EncodedFields.packContentType, pack,
        orRaise_eq_ok]
  | some value =>
      simp only [writeContentType, Option.bind_eq_some_iff, writeSized, decide_eq_true_eq,
        Option.ite_none_right_eq_some, Option.map_eq_some_iff, encodedContentType,
        except_bind_eq_ok, encodedText_eq_ok, pure, Except.pure, Except.ok.injEq]
      constructor
      · rintro ⟨raw, hencode, hle, size, hsize, rfl⟩
        refine ⟨some raw, ⟨raw, ⟨hencode, hle⟩, rfl⟩, except_bind_eq_ok.mpr ⟨size, ?_, rfl⟩⟩
        exact orRaise_eq_ok.mpr hsize
      · rintro ⟨_, ⟨raw, ⟨hencode, hle⟩, rfl⟩, hpack⟩
        obtain ⟨size, hsize, hreturn⟩ := except_bind_eq_ok.mp hpack
        exact ⟨raw, hencode, hle, size, orRaise_eq_ok.mp hsize, Except.ok.inj hreturn⟩

theorem trustProfile_nonempty (profile : TrustProfile) :
    1 ≤ profile.value.length := by
  cases profile with
  | untrusted => decide
  | trustedInternal => decide

theorem pos_of_encodedText
    {value : Text} {field : String} {maximum : Nat} {raw : Bytes}
    (hvalue : 1 ≤ value.length)
    (h : encodedText value field .ascii maximum = .ok raw) :
    1 ≤ raw.length := by
  rw [length_encodeAscii (encodedText_eq_ok.mp h).1]
  exact hvalue

/-- **Encoding a version 1 envelope produces its layout, within the size bound.** -/
theorem encode_eq_ok_iff
    {format : BinaryEnvelopeFormat} {d : Bytes} {e : ResultEnvelope}
    (hversion : e.version = 1) :
    format.encode e = .ok d ↔
      d.length ≤ format.maxEncodedSize ∧ ∃ l : Layout e, l.bytes = d := by
  have howner : 1 ≤ e.ownerToken.length := by
    have := e.owner_valid
    simp only [isOwnerToken, Bool.and_eq_true, decide_eq_true_eq] at this
    exact this.1.1
  have hformat : 1 ≤ e.metadata.format.length := by
    have := e.metadata.format_valid
    simp only [isFormat, Bool.and_eq_true, decide_eq_true_eq] at this
    exact this.1.1
  have halgorithm : 1 ≤ e.compressionAlgorithm.length := by
    have := e.algorithm_valid
    simp only [isAlgorithm, Bool.and_eq_true, decide_eq_true_eq] at this
    exact this.1.1
  simp only [BinaryEnvelopeFormat.encode, ensureBound, except_bind_eq_ok, raiseIf_eq_ok,
    exists_const, hversion, not_lt, pure, Except.pure, Except.ok.injEq]
  constructor
  · rintro ⟨f, hf, -, -, d, hd, hle, rfl⟩
    obtain ⟨hfowner, hfformat, hfcontent, hftrust, hfalgorithm, hfpayload⟩ :=
      encodedFields_eq_ok.mp hf
    obtain ⟨o, ho, s, hs, v, hv, c, hc, t, ht, a, ha, p, hp, rfl⟩ := output_eq_ok.mp hd
    exact ⟨hle, ⟨o ++ f.owner, s ++ f.serdeFormat, v, c, t ++ f.trustProfile,
      a ++ f.algorithm, p ++ f.payload, hversion,
      writeText_eq_some.mpr ⟨_, hfowner, pos_of_encodedText howner hfowner, _, ho, rfl⟩,
      writeText_eq_some.mpr ⟨_, hfformat, pos_of_encodedText hformat hfformat, _, hs, rfl⟩,
      hv, writeContentType_eq_some.mpr ⟨_, hfcontent, hc⟩,
      writeText_eq_some.mpr ⟨_, hftrust,
        pos_of_encodedText (trustProfile_nonempty _) hftrust, _, ht, rfl⟩,
      writeText_eq_some.mpr ⟨_, hfalgorithm, pos_of_encodedText halgorithm hfalgorithm, _,
        ha, rfl⟩,
      by simp [writeSized, hfpayload, hp]⟩, rfl⟩
  · rintro ⟨hle, l, rfl⟩
    obtain ⟨owner, hfowner, -, o, ho, hlowner⟩ := writeText_eq_some.mp l.owner_eq
    obtain ⟨serdeFormat, hfformat, -, s, hs, hlformat⟩ := writeText_eq_some.mp l.serdeFormat_eq
    obtain ⟨contentType, hfcontent, hc⟩ := writeContentType_eq_some.mp l.contentType_eq
    obtain ⟨trustProfile, hftrust, -, t, ht, hltrust⟩ := writeText_eq_some.mp l.trustProfile_eq
    obtain ⟨algorithm, hfalgorithm, -, a, ha, hlalgorithm⟩ :=
      writeText_eq_some.mp l.algorithm_eq
    obtain ⟨p, hp, hlpayload⟩ : ∃ p, packU32 e.payload.length = some p ∧
        p ++ e.payload = l.payload := by
      simpa [writeSized] using l.payload_eq
    let f : EncodedFields :=
      ⟨owner, serdeFormat, contentType, trustProfile, algorithm, e.payload⟩
    have hf : encodedFields e = .ok f :=
      encodedFields_eq_ok.mpr ⟨hfowner, hfformat, hfcontent, hftrust, hfalgorithm, rfl⟩
    have hd : f.output 1 e.metadata.version = .ok l.bytes := by
      refine output_eq_ok.mpr ⟨o, ho, s, hs, _, l.serdeVersion_eq, _, hc, t, ht, a, ha, p, hp, ?_⟩
      rw [hlowner, hlformat, hltrust, hlalgorithm, hlpayload]
      rfl
    have hsize : f.size ≤ format.maxEncodedSize := by
      rwa [size_eq_length hd]
    refine ⟨f, hf, ?_, hsize, l.bytes, hd, hle, rfl⟩
    -- each field is part of an output that has passed the bound
    rintro ⟨field, hmem, hlarge⟩
    have hfield : field.length ≤ (f.fields.map List.length).sum :=
      List.single_le_sum (fun _ _ => Nat.zero_le _) _ (List.mem_map_of_mem hmem)
    have hmax := format.max_le
    unfold EncodedFields.size at hsize
    omega

end Layout

theorem redacted_isEnvelopeError (exception : FormatException) :
    (BinaryEnvelopeFormat.redacted exception).isEnvelopeError = true := by
  cases exception with
  | _ => rfl

/-! ## No other exception -/

section Uncaught

theorem malformedData_ne :
    malformedData ≠ .indexError := by
  rintro ⟨⟩

theorem avoids_readRequiredText
    (encoding : Encoding) (maximum : Nat) (data : Bytes) (cursor : Nat) :
    Avoids .indexError (readRequiredText encoding maximum data cursor) := by
  refine (avoids_readSized malformedData_ne _ data cursor).bind fun raw _ => ?_
  exact (avoids_orRaise malformedData_ne _).bind fun value _ => avoids_ok _ _

theorem avoids_readContentType
    (data : Bytes) (cursor : Nat) :
    Avoids .indexError (readContentType data cursor) := by
  refine (avoids_readU32 malformedData_ne data cursor).bind fun size _ => ?_
  dsimp only
  split
  · exact avoids_ok _ _
  · refine (avoids_raiseIf malformedData_ne _).bind fun _ _ => ?_
    refine (avoids_takeBytes malformedData_ne _ data _).bind fun raw _ => ?_
    exact (avoids_orRaise malformedData_ne _).bind fun value _ => avoids_ok _ _

/-- One byte is taken for the version, so that there is one to look at. -/
theorem avoids_head_take
    {data versionBytes : Bytes} {cursor cursor' : Nat}
    (h : take 1 data cursor = .ok (versionBytes, cursor')) :
    Avoids (.indexError : BinaryException) (orRaise .indexError versionBytes.head?) := by
  unfold take takeBytes at h
  split at h
  case isTrue hle =>
      obtain ⟨rfl, -⟩ := Prod.mk.inj (Except.ok.inj h)
      obtain ⟨b, hb⟩ := List.length_eq_one_iff.mp
        (List.length_take_of_le (l := data.drop cursor) (i := 1) (by rwa [List.length_drop]))
      rw [hb]
      exact avoids_ok _ b
  case isFalse =>
      cases h

/-- **The body of `decode` never raises the exception that nothing catches.** -/
theorem decodeBody_avoids
    (data : Bytes) :
    Avoids .indexError (BinaryEnvelopeFormat.decodeBody data) := by
  refine (avoids_takeBytes malformedData_ne _ data _).bind fun magicBytes _ => ?_
  refine (avoids_raiseIf malformedData_ne _).bind fun _ _ => ?_
  refine (avoids_takeBytes malformedData_ne _ data _).bind fun versionBytes hversion => ?_
  refine (avoids_head_take hversion).bind fun version _ => ?_
  refine (avoids_raiseIf (by rintro ⟨⟩) _).bind fun _ _ => ?_
  refine (avoids_readRequiredText _ _ data _).bind fun owner _ => ?_
  refine (avoids_readRequiredText _ _ data _).bind fun serdeFormat _ => ?_
  refine (avoids_readU32 malformedData_ne data _).bind fun serdeVersion _ => ?_
  refine (avoids_readContentType data _).bind fun contentType _ => ?_
  refine (avoids_readRequiredText _ _ data _).bind fun trustValue _ => ?_
  refine (avoids_readRequiredText _ _ data _).bind fun algorithm _ => ?_
  refine (avoids_readU32 malformedData_ne data _).bind fun payloadSize _ => ?_
  refine (avoids_takeBytes malformedData_ne _ data _).bind fun payload _ => ?_
  refine (avoids_raiseIf malformedData_ne _).bind fun _ _ => ?_
  refine (avoids_orRaise (by rintro ⟨⟩) _).bind fun trustProfile _ => ?_
  refine (avoids_mapError (by rintro _ ⟨⟩) _).bind fun metadata _ => ?_
  exact avoids_mapError (by rintro _ ⟨⟩) _

end Uncaught

/--
**The binary format is a bijection onto its image.**  What encodes decodes to
the same envelope and has the precomputed size; what decodes encodes to the
same bytes; and decoding raises only the module's envelope errors, although its clauses
do not catch every exception of its body.
-/
theorem binary_format_bijection
    (format : BinaryEnvelopeFormat) :
    (∀ e d, e.version = 1 → format.encode e = .ok d →
      format.decode d = .ok e ∧ ∃ f, encodedFields e = .ok f ∧ f.size = d.length) ∧
    (∀ d e, format.decode d = .ok e → e.version = 1 ∧ format.encode e = .ok d) ∧
    (∀ d exception, format.decode d = .error exception →
      exception.isEnvelopeError = true) := by
  refine ⟨?_, ?_, ?_⟩
  · intro e d hversion hencode
    refine ⟨decode_eq_ok_iff.mpr ((encode_eq_ok_iff hversion).mp hencode), ?_⟩
    obtain ⟨f, hf, hrest⟩ := except_bind_eq_ok.mp hencode
    obtain ⟨_, -, hrest⟩ := except_bind_eq_ok.mp hrest
    obtain ⟨_, -, hrest⟩ := except_bind_eq_ok.mp hrest
    obtain ⟨encoded, houtput, hrest⟩ := except_bind_eq_ok.mp hrest
    obtain ⟨_, -, hreturn⟩ := except_bind_eq_ok.mp hrest
    obtain rfl := Except.ok.inj hreturn
    rw [hversion] at houtput
    exact ⟨f, hf, size_eq_length houtput⟩
  · intro d e hdecode
    obtain ⟨hle, l, rfl⟩ := decode_eq_ok_iff.mp hdecode
    exact ⟨l.version_eq, (encode_eq_ok_iff l.version_eq).mpr ⟨hle, l, rfl⟩⟩
  · intro d exception h
    rcases except_bind_eq_error.mp h with hsize | ⟨_, -, hbody⟩
    · unfold ensureBound raiseIf at hsize
      split at hsize
      case isTrue =>
          cases hsize
          rfl
      case isFalse =>
          cases hsize
    · cases hresult : BinaryEnvelopeFormat.decodeBody d with
      | ok e =>
          rw [hresult] at hbody
          cases hbody
      | error exception' =>
          rw [hresult] at hbody
          cases hbody
          cases exception' with
          | format e => exact redacted_isEnvelopeError e
          | indexError => exact absurd hresult (decodeBody_avoids d)

/-- An envelope with every kind of field. -/
def sampleEnvelope : ResultEnvelope where
  version := 1
  ownerToken := text "owner~1"
  metadata :=
    { format := text "json"
      version := 1
      contentType := some (text "application/json")
      trustProfile := .untrusted
      format_valid := by decide
      version_pos := by decide }
  compressionAlgorithm := text "none"
  payload := [0x7B, 0x7D]
  version_pos := by decide
  owner_valid := by decide
  algorithm_valid := by decide

theorem binary_format_bijection_sample :
    ∃ d, (BinaryEnvelopeFormat.mk 1024 (by decide) (by decide)).encode sampleEnvelope =
        .ok d ∧
      (BinaryEnvelopeFormat.mk 1024 (by decide) (by decide)).decode d =
        .ok sampleEnvelope := by
  let format : BinaryEnvelopeFormat := ⟨1024, by decide, by decide⟩
  have hencode : ∃ d, format.encode sampleEnvelope = .ok d := by
    exact ⟨_, rfl⟩
  obtain ⟨d, hd⟩ := hencode
  exact ⟨d, hd, ((binary_format_bijection format).1 sampleEnvelope d rfl hd).1⟩

end CacheRedis
end Bluetape
