import Bluetape.Base.OrderedDict
import Bluetape.CacheRedis.FormatAgreement

/-!
# The envelope codec

`ResultEnvelopeCodec` composes a payload codec and compressors of the caller
with a built-in format.  The code of the caller is called through functions
that may fail and that may return a value of another type; the calls of a
decoding are recorded.

* `openEnvelope_of_encode`: what encoding emits passes the checks of decoding;
* `envelope_codec_round_trip`: decoding gives the value back to the owner of the
  token, and nothing to the owner of another one.
-/

namespace Bluetape
namespace CacheRedis

open Base Serde

/-! ## The parts of a codec -/

/-- The subclasses of `EnvelopeError` with their codes. -/
inductive EnvelopeError
  | size (code : EnvelopeErrorCode)
  | encode (code : EnvelopeErrorCode)
  | decode (code : EnvelopeErrorCode)
deriving DecidableEq, Repr

/-- The exceptions that the codec raises. -/
inductive CodecException
  | typeError (message : String)
  | valueError (message : String)
  | envelope (e : EnvelopeError)
deriving DecidableEq, Repr

/-- An exception of a codec or of a format: an envelope error or another one. -/
inductive CallException
  | envelope (e : EnvelopeError)
  | other
deriving DecidableEq, Repr

/--
`PayloadCodec`.  A function of the caller may return a value of another type
than its contract says, none here.
-/
structure PayloadCodec (T : Type) where
  encode : T → Except CallException (Option SerializedPayload)
  decode : SerializedPayload → Except CallException T

/-- `Compressor`, with `none` for values of another type. -/
structure Compressor where
  algorithm : Except Unit (Option Text)
  compress : Bytes → Except Unit (Option Bytes)
  decompress : Bytes → Except Unit (Option Bytes)

/-- Decoding gives back what was encoded. -/
def PayloadCodec.RoundTrips {T : Type} (codec : PayloadCodec T) : Prop :=
  ∀ value payload, codec.encode value = .ok (some payload) → codec.decode payload = .ok value

/-- Decompressing gives back what was compressed. -/
def Compressor.RoundTrips (compressor : Compressor) : Prop :=
  ∀ data compressed, compressor.compress data = .ok (some compressed) →
    compressor.decompress compressed = .ok (some data)

/-- The built-in formats. -/
inductive BuiltinFormat
  | binary (format : BinaryEnvelopeFormat)
  | json (format : JsonEnvelopeFormat)

namespace BuiltinFormat

/-- The bound of a format. -/
def maxEncodedSize : BuiltinFormat → Nat
  | binary format => format.maxEncodedSize
  | json format => format.maxEncodedSize

/-- A format exception as its caller sees it. -/
def ofFormat : FormatException → CallException
  | .envelopeSize code => .envelope (.size code)
  | .envelopeDecode code => .envelope (.decode code)
  | _ => .other

/-- An exception of the binary `decode` as its caller sees it. -/
def ofBinary : BinaryException → CallException
  | .format e => ofFormat e
  | .indexError => .other

/-- An exception of the JSON format as its caller sees it. -/
def ofJson : JsonException → CallException
  | .format e => ofFormat e
  | _ => .other

/-- `EnvelopeFormat.encode` -/
def encode : BuiltinFormat → ResultEnvelope → Except CallException Bytes
  | binary format, e => (format.encode e).mapError ofFormat
  | json format, e => (format.encode e).mapError ofJson

/-- `EnvelopeFormat.decode`, with room for a number of nested containers -/
def decode (frames : Nat) : BuiltinFormat → Bytes → Except CallException ResultEnvelope
  | binary format, data => (format.decode data).mapError ofBinary
  | json format, data => (format.decode frames data).mapError ofJson

/-- **What a built-in format encodes it decodes.** -/
theorem decode_encode
    {format : BuiltinFormat} {frames : Nat} {e : ResultEnvelope} {data : Bytes}
    (hframes : 2 ≤ frames)
    (hversion : e.version = 1)
    (h : format.encode e = .ok data) :
    format.decode frames data = .ok e := by
  cases format with
  | binary format =>
      exact mapError_eq_ok.mpr
        (BinaryEnvelopeFormat.decode_encode hversion (mapError_eq_ok.mp h))
  | json format =>
      exact mapError_eq_ok.mpr
        (JsonEnvelopeFormat.decode_encode hframes hversion (mapError_eq_ok.mp h))

end BuiltinFormat

/-- The algorithm of an envelope that is not compressed. -/
def identity : Text :=
  text "identity"

/-- `_validate_algorithm`, for a value that may be no string -/
def validateAlgorithm : Option Text → Except CodecException Text
  | none => .error (.typeError "compression_algorithm must be an exact str")
  | some algorithm =>
      if isAlgorithm algorithm then .ok algorithm
      else .error (.valueError "compression algorithm must be 1..64 allowed ASCII characters")

/-- `_algorithm_for` -/
def algorithmFor (compressor : Compressor) : Except CodecException Text := do
  let algorithm ← compressor.algorithm.mapError fun _ =>
    .valueError "compressor algorithm cannot be read"
  let algorithm ← validateAlgorithm algorithm
  raiseIf (algorithm = identity)
    (CodecException.valueError "compressor algorithm identity is reserved")
  return algorithm

/-- `_build_reader_registry` -/
def buildReaderRegistry (writer : Option Compressor) (readers : List Compressor) :
    Except CodecException (OrderedDict Text Compressor) :=
  (writer.toList ++ readers).foldlM (fun registry compressor => do
    let algorithm ← algorithmFor compressor
    raiseIf ((registry.lookup algorithm).isSome)
      (CodecException.valueError "compressor algorithm must be unique")
    return registry.assign algorithm compressor) .empty

/-- `ResultEnvelopeCodec`, as its constructor leaves it -/
structure ResultEnvelopeCodec (T : Type) where
  payloadCodec : PayloadCodec T
  envelopeFormat : BuiltinFormat
  compressor : Option Compressor
  decompressors : List Compressor
  maxEncodedSize : Nat
  readers : OrderedDict Text Compressor
  one_le_max : 1 ≤ maxEncodedSize
  max_le : maxEncodedSize ≤ maxU32Value
  max_le_bound : maxEncodedSize ≤ envelopeFormat.maxEncodedSize
  readers_built : buildReaderRegistry compressor decompressors = .ok readers

/-- `ResultEnvelopeMatch` -/
structure ResultEnvelopeMatch (T : Type) where
  value : T
deriving DecidableEq, Repr

namespace ResultEnvelopeCodec

variable {T : Type}

/-- The constructor of `ResultEnvelopeCodec`. -/
def make (payloadCodec : PayloadCodec T) (envelopeFormat : BuiltinFormat)
    (compressor : Option Compressor) (decompressors : List Compressor) (maxEncodedSize : Nat) :
    Except CodecException (ResultEnvelopeCodec T) :=
  if hmax : 1 ≤ maxEncodedSize ∧ maxEncodedSize ≤ maxU32Value then
    if hbound : maxEncodedSize ≤ envelopeFormat.maxEncodedSize then
      match hreaders : buildReaderRegistry compressor decompressors with
      | .ok readers =>
          .ok ⟨payloadCodec, envelopeFormat, compressor, decompressors, maxEncodedSize, readers,
            hmax.1, hmax.2, hbound, hreaders⟩
      | .error e => .error e
    else .error (.valueError "built-in format bound must cover codec bound")
  else .error (.valueError "max_encoded_size is outside the supported range")

theorem make_eq_ok
    {payloadCodec : PayloadCodec T} {envelopeFormat : BuiltinFormat}
    {compressor : Option Compressor} {decompressors : List Compressor} {maxEncodedSize : Nat}
    {codec : ResultEnvelopeCodec T}
    (h : make payloadCodec envelopeFormat compressor decompressors maxEncodedSize = .ok codec) :
    codec.payloadCodec = payloadCodec ∧ codec.envelopeFormat = envelopeFormat ∧
      codec.compressor = compressor ∧ codec.decompressors = decompressors ∧
      codec.maxEncodedSize = maxEncodedSize := by
  unfold make at h
  split at h
  case isTrue =>
    split at h
    case isTrue =>
      split at h
      · cases h
        exact ⟨rfl, rfl, rfl, rfl, rfl⟩
      · cases h
    case isFalse =>
      cases h
  case isFalse =>
    cases h

/-! ## Encoding -/

/-- `_validate_owner_token` -/
def validateOwnerToken (token : Text) : Except CodecException Unit :=
  raiseIf (isOwnerToken token = false)
    (.valueError "owner token must be 1..128 allowed ASCII characters")

/-- What `encode` makes of an exception of the payload codec. -/
def encodeFailure (code : EnvelopeErrorCode) : CallException → CodecException
  | .envelope e => .envelope e
  | .other => .envelope (.encode code)

/-- The algorithm and the payload as they go into the envelope. -/
def compressed (compressor : Option Compressor) (data : Bytes) :
    Except CodecException (Text × Bytes) :=
  match compressor with
  | none => .ok (identity, data)
  | some compressor => do
      let algorithm ← algorithmFor compressor
      let payload ← (compressor.compress data).mapError fun _ =>
        CodecException.envelope (.encode .compressionFailure)
      let payload ← orRaise (.envelope (.encode .compressionFailure)) payload
      return (algorithm, payload)

/-- An exception of the constructor of the envelope. -/
def constructorFailure : FormatException → CodecException
  | .valueError message => .valueError message
  | _ => .typeError "owner_token must be an exact str"

/-- `ResultEnvelopeCodec.encode` -/
def encode (codec : ResultEnvelopeCodec T) (ownerToken : Text) (value : T) :
    Except CodecException Bytes := do
  validateOwnerToken ownerToken
  let serialized ← (codec.payloadCodec.encode value).mapError
    (encodeFailure .payloadCodecFailure)
  let serialized ← orRaise (.envelope (.encode .payloadCodecFailure)) serialized
  let (algorithm, payload) ← compressed codec.compressor serialized.data
  let envelope ← (ResultEnvelope.make 1 ownerToken serialized.metadata algorithm
    payload).mapError constructorFailure
  let encoded ← (codec.envelopeFormat.encode envelope).mapError
    (encodeFailure .unsupportedFormat)
  raiseIf (codec.maxEncodedSize < encoded.length)
    (CodecException.envelope (.size .encodedSizeLimit))
  return encoded

/-! ## Decoding -/

/-- A call of code of the caller. -/
inductive CallerCall
  | decompress (algorithm : Text) (payload : Bytes)
  | decodePayload (payload : SerializedPayload)
deriving Repr

/-- A result with the calls on the way to it. -/
structure Recorded (α : Type) where
  calls : List CallerCall
  result : Except CodecException α

/-- What `decode_matching` makes of an exception of a format or of the payload codec. -/
def decodeFailure (code : EnvelopeErrorCode) : CallException → CodecException
  | .envelope e => .envelope e
  | .other => .envelope (.decode code)

/-- The envelope of the data, checked; no code of the caller is called. -/
def openEnvelope (codec : ResultEnvelopeCodec T) (frames : Nat) (data : Bytes)
    (expectedOwnerToken : Text) : Except CodecException ResultEnvelope := do
  validateOwnerToken expectedOwnerToken
  raiseIf (codec.maxEncodedSize < data.length)
    (CodecException.envelope (.size .encodedSizeLimit))
  let envelope ← (codec.envelopeFormat.decode frames data).mapError
    (decodeFailure .unsupportedFormat)
  raiseIf (envelope.version ≠ 1) (CodecException.envelope (.decode .unsupportedVersion))
  return envelope

/-- The payload of an envelope, decompressed by its reader. -/
def decompressed (reader : Compressor) (envelope : ResultEnvelope) :
    Except CodecException Bytes := do
  let logical ← (reader.decompress envelope.payload).mapError fun _ =>
    CodecException.envelope (.decode .compressionFailure)
  orRaise (.envelope (.decode .compressionFailure)) logical

/-- The payload of an envelope before its compression. -/
def logicalPayload (codec : ResultEnvelopeCodec T) (envelope : ResultEnvelope) :
    Recorded Bytes :=
  if envelope.compressionAlgorithm = identity then ⟨[], .ok envelope.payload⟩
  else
    match codec.readers.lookup envelope.compressionAlgorithm with
    | none => ⟨[], .error (.envelope (.decode .unknownAlgorithm))⟩
    | some reader =>
        ⟨[.decompress envelope.compressionAlgorithm envelope.payload],
          decompressed reader envelope⟩

/-- The value of an envelope whose token has matched. -/
def matched (codec : ResultEnvelopeCodec T) (envelope : ResultEnvelope) :
    Recorded (Option (ResultEnvelopeMatch T)) :=
  match codec.logicalPayload envelope with
  | ⟨calls, .error e⟩ => ⟨calls, .error e⟩
  | ⟨calls, .ok logical⟩ =>
      ⟨calls ++ [.decodePayload ⟨envelope.metadata, logical⟩], do
        let value ← (codec.payloadCodec.decode ⟨envelope.metadata, logical⟩).mapError
          (decodeFailure .payloadCodecFailure)
        return some ⟨value⟩⟩

/-- `ResultEnvelopeCodec.decode_matching` -/
def decodeMatching (codec : ResultEnvelopeCodec T) (frames : Nat) (data : Bytes)
    (expectedOwnerToken : Text) : Recorded (Option (ResultEnvelopeMatch T)) :=
  match codec.openEnvelope frames data expectedOwnerToken with
  | .error e => ⟨[], .error e⟩
  | .ok envelope =>
      if envelope.ownerToken ≠ expectedOwnerToken then ⟨[], .ok none⟩
      else codec.matched envelope

/-- `ResultEnvelopeCodec.decode` -/
def decode (codec : ResultEnvelopeCodec T) (frames : Nat) (data : Bytes)
    (expectedOwnerToken : Text) : Except CodecException (Option T) := do
  return (← (codec.decodeMatching frames data expectedOwnerToken).result).map
    ResultEnvelopeMatch.value

/-! ## Round trip -/

/-- A compressor that is in the registry stays there while readers are added. -/
theorem lookup_of_foldlM
    {readers : List Compressor} {registry registry' : OrderedDict Text Compressor}
    {algorithm : Text} {compressor : Compressor}
    (h : readers.foldlM (fun (registry : OrderedDict Text Compressor) compressor => do
      let algorithm ← algorithmFor compressor
      raiseIf ((registry.lookup algorithm).isSome)
        (CodecException.valueError "compressor algorithm must be unique")
      return registry.assign algorithm compressor) registry = .ok registry')
    (hlookup : registry.lookup algorithm = some compressor) :
    registry'.lookup algorithm = some compressor := by
  induction readers generalizing registry with
  | nil =>
      cases h
      exact hlookup
  | cons reader readers ih =>
      rw [List.foldlM_cons] at h
      obtain ⟨next, hnext, h⟩ := except_bind_eq_ok.mp h
      obtain ⟨algorithm', -, hnext⟩ := except_bind_eq_ok.mp hnext
      obtain ⟨_, hfresh, hreturn⟩ := except_bind_eq_ok.mp hnext
      cases hreturn
      have hfresh := raiseIf_eq_ok.mp hfresh
      refine ih h ?_
      rw [OrderedDict.lookup_assign, if_neg]
      · exact hlookup
      · rintro rfl
        simp [hlookup] at hfresh

/-- The reader of what a codec writes is its writer. -/
theorem lookup_writer
    {codec : ResultEnvelopeCodec T} {compressor : Compressor} {algorithm : Text}
    (hcompressor : codec.compressor = some compressor)
    (halgorithm : algorithmFor compressor = .ok algorithm) :
    codec.readers.lookup algorithm = some compressor := by
  have hbuilt := codec.readers_built
  rw [hcompressor, buildReaderRegistry, Option.toList_some, List.singleton_append,
    List.foldlM_cons] at hbuilt
  obtain ⟨registry, hfirst, hrest⟩ := except_bind_eq_ok.mp hbuilt
  obtain ⟨algorithm', halgorithm', hfirst⟩ := except_bind_eq_ok.mp hfirst
  obtain rfl := Except.ok.inj (halgorithm.symm.trans halgorithm')
  obtain ⟨_, -, hreturn⟩ := except_bind_eq_ok.mp hfirst
  cases hreturn
  refine lookup_of_foldlM hrest ?_
  rw [OrderedDict.lookup_assign, if_pos rfl]

/-- An envelope that a codec writes for a value. -/
structure Writes (codec : ResultEnvelopeCodec T) (token : Text) (value : T)
    (serialized : SerializedPayload) (envelope : ResultEnvelope) : Prop where
  token_valid : isOwnerToken token = true
  encoded : codec.payloadCodec.encode value = .ok (some serialized)
  compressed : compressed codec.compressor serialized.data =
    .ok (envelope.compressionAlgorithm, envelope.payload)
  version : envelope.version = 1
  ownerToken : envelope.ownerToken = token
  metadata : envelope.metadata = serialized.metadata

theorem encode_eq_ok
    {codec : ResultEnvelopeCodec T} {token : Text} {value : T} {data : Bytes}
    (h : codec.encode token value = .ok data) :
    ∃ serialized envelope, codec.Writes token value serialized envelope ∧
      codec.envelopeFormat.encode envelope = .ok data ∧ data.length ≤ codec.maxEncodedSize := by
  obtain ⟨_, htoken, h⟩ := except_bind_eq_ok.mp h
  obtain ⟨returned, hencode, h⟩ := except_bind_eq_ok.mp h
  obtain ⟨serialized, hserialized, h⟩ := except_bind_eq_ok.mp h
  obtain ⟨⟨algorithm, payload⟩, hcompressed, h⟩ := except_bind_eq_ok.mp h
  obtain ⟨envelope, hmake, h⟩ := except_bind_eq_ok.mp h
  obtain ⟨encoded, hencoded, h⟩ := except_bind_eq_ok.mp h
  obtain ⟨_, hbound, hreturn⟩ := except_bind_eq_ok.mp h
  cases hreturn
  obtain rfl := orRaise_eq_ok.mp hserialized
  obtain ⟨hversion, howner, hmetadata, rfl, rfl⟩ :=
    ResultEnvelope.make_eq_ok_iff.mp (mapError_eq_ok.mp hmake)
  exact ⟨serialized, envelope, ⟨by simpa using raiseIf_eq_ok.mp htoken, mapError_eq_ok.mp hencode,
    hcompressed, hversion, howner, hmetadata⟩, mapError_eq_ok.mp hencoded,
    not_lt.mp (raiseIf_eq_ok.mp hbound)⟩

/-- **What encoding emits passes the checks of decoding**, for any token. -/
theorem openEnvelope_of_encode
    {codec : ResultEnvelopeCodec T} {frames : Nat} {envelope : ResultEnvelope} {data : Bytes}
    {expected : Text}
    (hframes : 2 ≤ frames)
    (hversion : envelope.version = 1)
    (hencode : codec.envelopeFormat.encode envelope = .ok data)
    (hbound : data.length ≤ codec.maxEncodedSize)
    (hexpected : isOwnerToken expected = true) :
    codec.openEnvelope frames data expected = .ok envelope := by
  have hdecode := BuiltinFormat.decode_encode hframes hversion hencode
  refine except_bind_eq_ok.mpr ⟨(), raiseIf_eq_ok.mpr (by simp [hexpected]), ?_⟩
  refine except_bind_eq_ok.mpr ⟨(), raiseIf_eq_ok.mpr (not_lt.mpr hbound), ?_⟩
  refine except_bind_eq_ok.mpr ⟨envelope, mapError_eq_ok.mpr hdecode, ?_⟩
  exact except_bind_eq_ok.mpr ⟨(), raiseIf_eq_ok.mpr (not_not.mpr hversion), rfl⟩

/-- How a payload was compressed: not at all, or by the writer, which is its reader. -/
theorem compressed_eq_ok
    {codec : ResultEnvelopeCodec T} {data payload : Bytes} {algorithm : Text}
    (h : compressed codec.compressor data = .ok (algorithm, payload)) :
    (algorithm = identity ∧ payload = data) ∨
      ∃ compressor, codec.compressor = some compressor ∧ algorithm ≠ identity ∧
        codec.readers.lookup algorithm = some compressor ∧
        compressor.compress data = .ok (some payload) := by
  cases hcompressor : codec.compressor with
  | none =>
      rw [hcompressor] at h
      obtain ⟨rfl, rfl⟩ := Prod.mk.inj (Except.ok.inj h)
      exact .inl ⟨rfl, rfl⟩
  | some compressor =>
      rw [hcompressor] at h
      obtain ⟨algorithm', halgorithm, h⟩ := except_bind_eq_ok.mp h
      obtain ⟨returned, hcompress, h⟩ := except_bind_eq_ok.mp h
      obtain ⟨payload', hpayload, hreturn⟩ := except_bind_eq_ok.mp h
      obtain ⟨rfl, rfl⟩ := Prod.mk.inj (Except.ok.inj hreturn)
      obtain rfl := orRaise_eq_ok.mp hpayload
      have hreserved : algorithm' ≠ identity := by
        obtain ⟨_, -, hread⟩ := except_bind_eq_ok.mp halgorithm
        obtain ⟨_, -, hread⟩ := except_bind_eq_ok.mp hread
        obtain ⟨_, hraise, hreturn⟩ := except_bind_eq_ok.mp hread
        obtain rfl := Except.ok.inj hreturn
        exact raiseIf_eq_ok.mp hraise
      exact .inr ⟨compressor, rfl, hreserved, lookup_writer hcompressor halgorithm,
        mapError_eq_ok.mp hcompress⟩

/-- The payload of an envelope that a codec wrote is the one of its value. -/
theorem logicalPayload_of_writes
    {codec : ResultEnvelopeCodec T} {token : Text} {value : T} {serialized : SerializedPayload}
    {envelope : ResultEnvelope}
    (hcompressor : ∀ compressor ∈ codec.compressor, compressor.RoundTrips)
    (h : codec.Writes token value serialized envelope) :
    (codec.logicalPayload envelope).result = .ok serialized.data := by
  unfold logicalPayload
  rcases compressed_eq_ok h.compressed with ⟨halgorithm, hpayload⟩ |
    ⟨compressor, hsome, halgorithm, hlookup, hcompress⟩
  · rw [if_pos halgorithm, hpayload]
  · have hdecompress := hcompressor compressor hsome _ _ hcompress
    rw [if_neg halgorithm, hlookup]
    simp only [decompressed, hdecompress]
    rfl

theorem matched_of_ok
    {codec : ResultEnvelopeCodec T} {envelope : ResultEnvelope} {logical : Bytes} {value : T}
    (hlogical : (codec.logicalPayload envelope).result = .ok logical)
    (hvalue : codec.payloadCodec.decode ⟨envelope.metadata, logical⟩ = .ok value) :
    (codec.matched envelope).result = .ok (some ⟨value⟩) := by
  unfold matched
  cases hrecorded : codec.logicalPayload envelope with
  | mk calls result =>
      rw [hrecorded] at hlogical
      obtain rfl : result = .ok logical := hlogical
      simp only [hvalue]
      rfl

/-- What encoding emits is within the bound of the codec. -/
theorem length_le_of_encode
    {codec : ResultEnvelopeCodec T} {token : Text} {value : T} {data : Bytes}
    (h : codec.encode token value = .ok data) :
    data.length ≤ codec.maxEncodedSize := by
  obtain ⟨_, _, -, -, hbound⟩ := encode_eq_ok h
  exact hbound

/-- A value comes back under its token. -/
theorem decodeMatching_of_encode
    {codec : ResultEnvelopeCodec T} {frames : Nat} {token : Text} {value : T} {data : Bytes}
    (hframes : 2 ≤ frames)
    (hpayload : codec.payloadCodec.RoundTrips)
    (hcompressor : ∀ compressor ∈ codec.compressor, compressor.RoundTrips)
    (hencode : codec.encode token value = .ok data) :
    (codec.decodeMatching frames data token).result = .ok (some ⟨value⟩) := by
  obtain ⟨serialized, envelope, hwrites, hformat, hbound⟩ := encode_eq_ok hencode
  have hlogical := logicalPayload_of_writes hcompressor hwrites
  have hvalue : codec.payloadCodec.decode ⟨envelope.metadata, serialized.data⟩ = .ok value := by
    rw [hwrites.metadata]
    exact hpayload value serialized hwrites.encoded
  rw [decodeMatching, openEnvelope_of_encode hframes hwrites.version hformat hbound
    hwrites.token_valid]
  simp only [hwrites.ownerToken, ne_eq, not_true, if_false]
  exact matched_of_ok hlogical hvalue

/--
**Round trip and isolation of tokens.**  What encoding emits is within the bound,
passes the checks of decoding and names a compressor that the codec reads; it
decodes to its value under its token when the parts of the codec give back what they were
given; and under another token nothing is decoded and no code of the caller is called.
-/
theorem envelope_codec_round_trip
    (codec : ResultEnvelopeCodec T)
    (frames : Nat)
    (hframes : 2 ≤ frames)
    (token : Text)
    (value : T)
    (data : Bytes)
    (hencode : codec.encode token value = .ok data) :
    data.length ≤ codec.maxEncodedSize ∧
    (∃ envelope, codec.openEnvelope frames data token = .ok envelope ∧
      envelope.ownerToken = token ∧
      (envelope.compressionAlgorithm = identity ∨ ∃ compressor,
        codec.readers.lookup envelope.compressionAlgorithm = some compressor ∧
        codec.compressor = some compressor)) ∧
    (codec.payloadCodec.RoundTrips → (∀ compressor ∈ codec.compressor, compressor.RoundTrips) →
      (codec.decodeMatching frames data token).result = .ok (some ⟨value⟩)) ∧
    (∀ other, isOwnerToken other = true → other ≠ token →
      codec.decodeMatching frames data other = ⟨[], .ok none⟩) := by
  obtain ⟨serialized, envelope, hwrites, hformat, hbound⟩ := encode_eq_ok hencode
  have hopen : ∀ expected, isOwnerToken expected = true →
      codec.openEnvelope frames data expected = .ok envelope :=
    fun expected hexpected =>
      openEnvelope_of_encode hframes hwrites.version hformat hbound hexpected
  refine ⟨hbound, ⟨envelope, hopen token hwrites.token_valid, hwrites.ownerToken, ?_⟩,
    fun hpayload hcompressor =>
      decodeMatching_of_encode hframes hpayload hcompressor hencode, ?_⟩
  · rcases compressed_eq_ok hwrites.compressed with ⟨halgorithm, -⟩ |
      ⟨compressor, hsome, -, hlookup, -⟩
    · exact .inl halgorithm
    · exact .inr ⟨compressor, hlookup, hsome⟩
  · intro other hother hne
    rw [decodeMatching, hopen other hother]
    exact if_pos (by rw [hwrites.ownerToken]; exact hne.symm)

end ResultEnvelopeCodec

/-- A payload codec of bytes under the sample metadata. -/
def bytesCodec : PayloadCodec Bytes where
  encode value := .ok (some ⟨sampleEnvelope.metadata, value⟩)
  decode payload := .ok payload.data

/-- A compressor that turns the bytes around. -/
def reversing : Compressor where
  algorithm := .ok (some (text "reverse"))
  compress data := .ok (some data.reverse)
  decompress data := .ok (some data.reverse)

set_option maxRecDepth 50000 in
/-- A codec of compressed bytes, once it is constructed, encodes. -/
theorem envelope_codec_round_trip_reversing :
    ∃ codec data, ResultEnvelopeCodec.make bytesCodec (.json smallJsonFormat) (some reversing)
        [] 1024 = .ok codec ∧
      codec.encode (text "owner~1") [1, 2, 3] = .ok data ∧
      (codec.decodeMatching 2 data (text "owner~1")).result = .ok (some ⟨[1, 2, 3]⟩) ∧
      codec.decodeMatching 2 data (text "owner~2") = ⟨[], .ok none⟩ := by
  have hok : (do
      let codec ← ResultEnvelopeCodec.make bytesCodec (.json smallJsonFormat) (some reversing)
        [] 1024
      codec.encode (text "owner~1") [1, 2, 3]).isOk = true := by
    decide
  obtain ⟨data, hdata⟩ := exists_ok_of_isOk hok
  obtain ⟨codec, hcodec, hencode⟩ := except_bind_eq_ok.mp hdata
  obtain ⟨hpayload, -, hcompressor, -, -⟩ := ResultEnvelopeCodec.make_eq_ok hcodec
  have htrip := ResultEnvelopeCodec.envelope_codec_round_trip codec 2 le_rfl _ _ data hencode
  refine ⟨codec, data, hcodec, hencode, htrip.2.2.1 ?_ ?_, htrip.2.2.2 _ (by decide)
    (by decide)⟩
  · rw [hpayload]
    intro value payload h
    obtain rfl := Option.some.inj (Except.ok.inj h)
    rfl
  · rw [hcompressor]
    intro compressor hsome data compressed h
    obtain rfl := Option.some.inj hsome
    obtain rfl := Option.some.inj (Except.ok.inj h)
    simp [reversing]

end CacheRedis
end Bluetape
