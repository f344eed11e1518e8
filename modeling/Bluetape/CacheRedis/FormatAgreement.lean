import Bluetape.CacheRedis.JsonFormat

/-!
# The two formats agree

What either format accepts it gives back, and an envelope that both accept is
read alike from both encodings.  Which envelopes a format accepts is said by its
limits: the size bound of each, and the 32 bits that the binary layout has for
the version of the metadata.
-/

namespace Bluetape
namespace CacheRedis

open Base Serde Json

section BinaryAcceptance

theorem packU32_isSome_iff
    {n : Int} :
    (∃ bs, packU32 n = some bs) ↔ 0 ≤ n ∧ n < 2 ^ 32 := by
  unfold packU32
  constructor
  · rintro ⟨bs, h⟩
    split at h
    case isTrue hrange =>
      exact hrange
    case isFalse =>
      cases h
  · intro hrange
    exact ⟨_, if_pos hrange⟩

theorem packU32_length
    {bs : Bytes}
    (h : bs.length < 2 ^ 32) :
    ∃ out, packU32 bs.length = some out :=
  packU32_isSome_iff.mpr ⟨by omega, by omega⟩

theorem packContentType_isOk
    {contentType : Option Bytes}
    (h : ∀ bs ∈ contentType, bs.length < 2 ^ 32) :
    ∃ out, EncodedFields.packContentType contentType = .ok out := by
  cases contentType with
  | none =>
      exact ⟨_, rfl⟩
  | some bs =>
      obtain ⟨size, hsize⟩ := packU32_length (h bs rfl)
      exact ⟨_, except_bind_eq_ok.mpr ⟨size, orRaise_eq_ok.mpr hsize, rfl⟩⟩

/-- **Which envelopes the binary format accepts**, when their texts are encoded. -/
theorem BinaryEnvelopeFormat.encode_isOk_iff
    {format : BinaryEnvelopeFormat} {e : ResultEnvelope} {f : EncodedFields}
    (hversion : e.version = 1)
    (hfields : encodedFields e = .ok f) :
    (∃ d, format.encode e = .ok d) ↔
      e.metadata.version < 2 ^ 32 ∧ f.size ≤ format.maxEncodedSize := by
  constructor
  · rintro ⟨d, h⟩
    obtain ⟨f', hf', h⟩ := except_bind_eq_ok.mp h
    obtain rfl := Except.ok.inj (hfields.symm.trans hf')
    obtain ⟨_, -, h⟩ := except_bind_eq_ok.mp h
    obtain ⟨_, hbound, h⟩ := except_bind_eq_ok.mp h
    obtain ⟨encoded, houtput, -⟩ := except_bind_eq_ok.mp h
    rw [hversion] at houtput
    obtain ⟨_, -, _, -, v, hv, -⟩ := output_eq_ok.mp houtput
    exact ⟨(packU32_isSome_iff.mp ⟨v, hv⟩).2, not_lt.mp (raiseIf_eq_ok.mp hbound)⟩
  · rintro ⟨hserde, hbound⟩
    have hmax := format.max_le
    have hsize : (f.fields.map List.length).sum + f.contentType.elim 0 List.length + 33 ≤
        maxU32Value := by
      have hf : f.size = 5 + 7 * 4 + (f.fields.map List.length).sum +
          f.contentType.elim 0 List.length := by
        unfold EncodedFields.size
        cases f.contentType <;> rfl
      omega
    have hlimit : maxU32Value < 2 ^ 32 := by decide
    have hfield : ∀ field ∈ f.fields, field.length ≤ maxU32Value := by
      intro field hmem
      have := List.single_le_sum (fun _ _ => Nat.zero_le _) _
        (List.mem_map_of_mem (f := List.length) hmem)
      omega
    have hcontent : ∀ bs ∈ f.contentType, bs.length < 2 ^ 32 := by
      intro bs hbs
      rw [hbs] at hsize
      simp only [Option.elim] at hsize
      omega
    have hpack : ∀ field ∈ f.fields, ∃ out, packU32 field.length = some out :=
      fun field hmem => packU32_length (lt_of_le_of_lt (hfield field hmem) hlimit)
    obtain ⟨o, ho⟩ := hpack f.owner (by simp [EncodedFields.fields])
    obtain ⟨s, hs⟩ := hpack f.serdeFormat (by simp [EncodedFields.fields])
    obtain ⟨v, hv⟩ := packU32_isSome_iff.mpr ⟨e.metadata.version_pos.le, hserde⟩
    obtain ⟨c, hc⟩ := packContentType_isOk hcontent
    obtain ⟨t, ht⟩ := hpack f.trustProfile (by simp [EncodedFields.fields])
    obtain ⟨a, ha⟩ := hpack f.algorithm (by simp [EncodedFields.fields])
    obtain ⟨p, hp⟩ := hpack f.payload (by simp [EncodedFields.fields])
    obtain ⟨d, houtput⟩ : ∃ d, f.output 1 e.metadata.version = .ok d :=
      ⟨_, output_eq_ok.mpr ⟨o, ho, s, hs, v, hv, c, hc, t, ht, a, ha, p, hp, rfl⟩⟩
    refine ⟨d, except_bind_eq_ok.mpr ⟨f, hfields, except_bind_eq_ok.mpr ⟨(), ?_, ?_⟩⟩⟩
    · rw [raiseIf_eq_ok]
      rintro ⟨field, hmem, hlarge⟩
      exact absurd (hfield field hmem) (not_le.mpr hlarge)
    refine except_bind_eq_ok.mpr ⟨(), raiseIf_eq_ok.mpr (not_lt.mpr hbound), ?_⟩
    refine except_bind_eq_ok.mpr ⟨d, by rwa [hversion], ?_⟩
    refine except_bind_eq_ok.mpr ⟨(), raiseIf_eq_ok.mpr (not_lt.mpr ?_), rfl⟩
    rwa [← size_eq_length houtput]

end BinaryAcceptance

section Acceptance

theorem encodedText_isOk
    {characters value : Text} {maximum : Nat}
    (field : String)
    (hcharacters : ∀ p ∈ characters, p.ord < 128)
    (hvalue : value.all (fun character => characters.contains character) = true)
    (hlength : value.length ≤ maximum) :
    ∃ bs, encodedText value field .ascii maximum = .ok bs := by
  obtain ⟨bs, hbs⟩ := encodeAscii_isSome (t := value) fun p hp =>
    hcharacters p (List.contains_iff_mem.mp (List.all_eq_true.mp hvalue p hp))
  refine ⟨bs, encodedText_eq_ok.mpr ⟨hbs, ?_⟩⟩
  rwa [length_encodeAscii hbs]

theorem encodedContentType_isOk
    {contentType : Option Text}
    (h : checkContentType contentType = .ok ()) :
    ∃ bs, encodedContentType contentType = .ok bs := by
  cases contentType with
  | none =>
      exact ⟨none, rfl⟩
  | some value =>
      obtain ⟨bs, hbs, hle⟩ := checkContentType_eq_ok.mp h
      exact ⟨some bs, except_bind_eq_ok.mpr ⟨bs, encodedText_eq_ok.mpr ⟨hbs, hle⟩, rfl⟩⟩

/-- The texts of an envelope are encoded, when its content type can be. -/
theorem encodedFields_isOk
    {e : ResultEnvelope}
    (hcontent : checkContentType e.metadata.contentType = .ok ()) :
    ∃ f, encodedFields e = .ok f := by
  have howner := e.owner_valid
  have hformat := e.metadata.format_valid
  have halgorithm := e.algorithm_valid
  simp only [isOwnerToken, isFormat, isAlgorithm, Bool.and_eq_true, decide_eq_true_eq]
    at howner hformat halgorithm
  obtain ⟨owner, hfowner⟩ := encodedText_isOk "owner token"
    (by decide) howner.2 howner.1.2
  obtain ⟨serdeFormat, hfformat⟩ := encodedText_isOk "serde format"
    (by decide) hformat.2 hformat.1.2
  obtain ⟨contentType, hfcontent⟩ := encodedContentType_isOk hcontent
  obtain ⟨trustProfile, hftrust⟩ : ∃ bs, encodedText e.metadata.trustProfile.value
      "trust profile" .ascii 64 = .ok bs := by
    cases e.metadata.trustProfile with
    | untrusted =>
        exact ⟨_, rfl⟩
    | trustedInternal =>
        exact ⟨_, rfl⟩
  obtain ⟨algorithm, hfalgorithm⟩ := encodedText_isOk "compression algorithm"
    (by decide) halgorithm.2 halgorithm.1.2
  exact ⟨⟨owner, serdeFormat, contentType, trustProfile, algorithm, e.payload⟩,
    encodedFields_eq_ok.mpr ⟨hfowner, hfformat, hfcontent, hftrust, hfalgorithm, rfl⟩⟩

/-- **What the JSON format encodes it decodes**, with room for two containers. -/
theorem JsonEnvelopeFormat.decode_encode
    {format : JsonEnvelopeFormat} {frames : Nat} {e : ResultEnvelope} {d : Bytes}
    (hframes : 2 ≤ frames)
    (hversion : e.version = 1)
    (h : format.encode e = .ok d) :
    format.decode frames d = .ok e := by
  obtain ⟨hcontent, hshort, hdocument, hbound⟩ := JsonEnvelopeFormat.encode_eq_ok_iff.mp h
  exact JsonEnvelopeFormat.decode_canonical hframes hversion hcontent hshort hdocument hbound

theorem BinaryEnvelopeFormat.decode_encode
    {format : BinaryEnvelopeFormat} {e : ResultEnvelope} {d : Bytes}
    (hversion : e.version = 1)
    (h : format.encode e = .ok d) :
    format.decode d = .ok e :=
  decode_eq_ok_iff.mpr ((encode_eq_ok_iff hversion).mp h)

/-- The predicted size of an encoded envelope is the size it has. -/
theorem JsonEnvelopeFormat.predictedSize_of_encode
    {format : JsonEnvelopeFormat} {e : ResultEnvelope} {d : Bytes}
    (h : format.encode e = .ok d) :
    ∃ head, documentHead e = .ok head ∧ predictedSize head e.payload = d.length := by
  obtain ⟨_, -, h⟩ := except_bind_eq_ok.mp h
  obtain ⟨head, hhead, h⟩ := except_bind_eq_ok.mp h
  obtain ⟨_, -, h⟩ := except_bind_eq_ok.mp h
  obtain ⟨_, -, hreturn⟩ := except_bind_eq_ok.mp h
  obtain rfl := Except.ok.inj hreturn
  exact ⟨head, hhead, predictedSize_eq_length head e.payload⟩

/-- **Which envelopes the JSON format accepts**, when their integers can be converted. -/
theorem JsonEnvelopeFormat.encode_isOk_iff
    {format : JsonEnvelopeFormat} {e : ResultEnvelope} {head : Bytes}
    (hcontent : checkContentType e.metadata.contentType = .ok ())
    (hhead : documentHead e = .ok head) :
    (∃ d, format.encode e = .ok d) ↔ predictedSize head e.payload ≤ format.maxEncodedSize := by
  constructor
  · rintro ⟨d, h⟩
    obtain ⟨head', hhead', hsize⟩ := JsonEnvelopeFormat.predictedSize_of_encode h
    obtain rfl := Except.ok.inj (hhead.symm.trans hhead')
    rw [hsize]
    exact (JsonEnvelopeFormat.encode_eq_ok_iff.mp h).2.2.2
  · intro hbound
    have hshort := short_of_documentHead hhead
    obtain ⟨head', hhead', hascii⟩ := documentHead_of_short hshort
    obtain rfl := Except.ok.inj (hhead.symm.trans hhead')
    refine ⟨_, JsonEnvelopeFormat.encode_eq_ok_iff.mpr
      ⟨hcontent, hshort, encodeAscii_documentText hascii, ?_⟩⟩
    rwa [← predictedSize_eq_length]

end Acceptance

/-! ## Other versions -/

section OtherVersions

/-- An output starts with the magic and the version. -/
theorem output_head
    {f : EncodedFields} {version metadataVersion : Int} {d : Bytes}
    (h : f.output version metadataVersion = .ok d) :
    0 ≤ version ∧ version < 256 ∧ ∃ rest, d = magic ++ UInt8.ofNat version.toNat :: rest := by
  obtain ⟨output, happended, h⟩ := except_bind_eq_ok.mp h
  obtain ⟨_, hrange, hreturn⟩ := except_bind_eq_ok.mp happended
  obtain rfl := Except.ok.inj hreturn
  have hrange := raiseIf_eq_ok.mp hrange
  simp only [except_bind_eq_ok] at h
  obtain ⟨o, -, s, -, v, -, c, -, t, -, a, -, p, -, hreturn⟩ := h
  obtain rfl := Except.ok.inj hreturn
  refine ⟨by omega, by omega, ?_⟩
  simp only [List.append_assoc]
  exact ⟨_, rfl⟩

theorem BinaryEnvelopeFormat.decode_other_version
    {format : BinaryEnvelopeFormat} {e : ResultEnvelope} {d : Bytes}
    (hversion : e.version ≠ 1)
    (h : format.encode e = .ok d) :
    format.decode d = .error (.format (.envelopeDecode .unsupportedVersion)) := by
  obtain ⟨f, -, h⟩ := except_bind_eq_ok.mp h
  obtain ⟨_, -, h⟩ := except_bind_eq_ok.mp h
  obtain ⟨_, -, h⟩ := except_bind_eq_ok.mp h
  obtain ⟨encoded, houtput, h⟩ := except_bind_eq_ok.mp h
  obtain ⟨_, hbound, hreturn⟩ := except_bind_eq_ok.mp h
  obtain rfl := Except.ok.inj hreturn
  obtain ⟨hlow, hhigh, rest, hd⟩ := output_head houtput
  have hbody : BinaryEnvelopeFormat.decodeBody encoded =
      .error (.format (.envelopeDecode .unsupportedVersion)) := by
    have hmagic := (reads_take magic.length).accepts (a := magic) (writeBytes_of_length rfl) []
      (UInt8.ofNat e.version.toNat :: rest)
    have hone := (reads_take 1).accepts (a := [UInt8.ofNat e.version.toNat])
      (writeBytes_of_length rfl) magic rest
    have hbyte : (UInt8.ofNat e.version.toNat).toNat ≠ formatVersion := by
      simp only [UInt8.toNat_ofNat', formatVersion]
      omega
    rw [List.nil_append, List.length_nil, ← hd] at hmagic
    rw [List.singleton_append, ← hd] at hone
    have hmagic : take magic.length encoded 0 = .ok (magic, magic.length) := hmagic
    simp only [BinaryEnvelopeFormat.decodeBody, hmagic, hone, bind, Except.bind, raiseIf,
      ne_eq, not_true, if_false, List.head?_cons, orRaise, hbyte, not_false_iff, if_true]
  simp only [BinaryEnvelopeFormat.decode, hbody]
  rw [hbound]
  rfl

theorem JsonEnvelopeFormat.decode_other_version
    {format : JsonEnvelopeFormat} {frames : Nat} {e : ResultEnvelope} {d : Bytes}
    (hframes : 2 ≤ frames)
    (hversion : e.version ≠ 1)
    (h : format.encode e = .ok d) :
    format.decode frames d = .error (.format (.envelopeDecode .unsupportedVersion)) := by
  obtain ⟨hcontent, hshort, hdocument, hbound⟩ := JsonEnvelopeFormat.encode_eq_ok_iff.mp h
  have hread := decodeDocument_canonical hframes hcontent hshort hdocument
  have hfields : (metadataDocument e.metadata hshort.2).fields metadataKeys =
      some [.str e.metadata.format, .int ⟨e.metadata.version, hshort.2⟩,
        contentTypeDocument e.metadata.contentType, .str e.metadata.trustProfile.value] := by
    rw [metadataDocument, Document.fields]
    exact if_pos rfl
  have hversion : e.version ≠ formatVersion := hversion
  have hchecked : readDocument ((envelopeEntries e hshort).map Prod.snd) =
      .error (.format (.envelopeDecode .unsupportedVersion)) := by
    simp only [envelopeEntries, List.map_cons, List.map_nil, readDocument, hfields,
      Document.int?, orRaise, bind, Except.bind, raiseIf, hversion, ne_eq, not_false_iff, if_true]
  have hensure : (ensureBound d.length format.maxEncodedSize).mapError JsonException.format =
      .ok () :=
    mapError_eq_ok.mpr (raiseIf_eq_ok.mpr (not_lt.mpr hbound))
  rw [JsonEnvelopeFormat.decode, hensure, hread, hchecked]
  rfl

end OtherVersions

/--
**The JSON format and the binary format agree.**  What the JSON format encodes
has the predicted size and decodes to the same envelope; both encodings of an
envelope decode to it, or are refused for its version; and what the JSON format
decodes can be encoded again exactly within the limits of the format that encodes
it, and decodes to the same envelope.
-/
theorem json_format_agreement
    (frames : Nat)
    (hframes : 2 ≤ frames)
    (json : JsonEnvelopeFormat)
    (binary : BinaryEnvelopeFormat) :
    (∀ e d, e.version = 1 → json.encode e = .ok d →
      json.decode frames d = .ok e ∧
        ∃ head, documentHead e = .ok head ∧ predictedSize head e.payload = d.length) ∧
    (∀ e d b, json.encode e = .ok d → binary.encode e = .ok b →
      (e.version = 1 → json.decode frames d = .ok e ∧ binary.decode b = .ok e) ∧
      (e.version ≠ 1 →
        json.decode frames d = .error (.format (.envelopeDecode .unsupportedVersion)) ∧
        binary.decode b = .error (.format (.envelopeDecode .unsupportedVersion)))) ∧
    (∀ d e (format : JsonEnvelopeFormat), format.decode frames d = .ok e →
      (∃ head, documentHead e = .ok head ∧
        ((∃ out, json.encode e = .ok out) ↔
          predictedSize head e.payload ≤ json.maxEncodedSize)) ∧
      (∃ f, encodedFields e = .ok f ∧
        ((∃ out, binary.encode e = .ok out) ↔
          e.metadata.version < 2 ^ 32 ∧ f.size ≤ binary.maxEncodedSize)) ∧
      (∀ out, json.encode e = .ok out → json.decode frames out = .ok e) ∧
      (∀ out, binary.encode e = .ok out → binary.decode out = .ok e)) := by
  refine ⟨?_, ?_, ?_⟩
  · intro e d hversion h
    exact ⟨JsonEnvelopeFormat.decode_encode hframes hversion h,
      JsonEnvelopeFormat.predictedSize_of_encode h⟩
  · intro e d b hjson hbinary
    constructor
    · intro hversion
      exact ⟨JsonEnvelopeFormat.decode_encode hframes hversion hjson,
        BinaryEnvelopeFormat.decode_encode hversion hbinary⟩
    · intro hversion
      exact ⟨JsonEnvelopeFormat.decode_other_version hframes hversion hjson,
        BinaryEnvelopeFormat.decode_other_version hversion hbinary⟩
  · intro d e format h
    obtain ⟨hversion, hcontent, hshort⟩ := JsonEnvelopeFormat.canonical_of_decode h
    obtain ⟨head, hhead, -⟩ := documentHead_of_short hshort
    obtain ⟨f, hf⟩ := encodedFields_isOk hcontent
    refine ⟨⟨head, hhead, JsonEnvelopeFormat.encode_isOk_iff hcontent hhead⟩,
      ⟨f, hf, BinaryEnvelopeFormat.encode_isOk_iff hversion hf⟩, ?_, ?_⟩
    · exact fun out hout => JsonEnvelopeFormat.decode_encode hframes hversion hout
    · exact fun out hout => BinaryEnvelopeFormat.decode_encode hversion hout

theorem exists_ok_of_isOk
    {ε α : Type} {x : Except ε α}
    (h : x.isOk = true) :
    ∃ a, x = .ok a := by
  cases x with
  | error e =>
      cases h
  | ok a =>
      exact ⟨a, rfl⟩

/-- The sample envelope with other versions and without content. -/
def versionedEnvelope (version metadataVersion : Int) (hversion : 0 < version)
    (hmetadata : 0 < metadataVersion) : ResultEnvelope where
  version := version
  ownerToken := sampleEnvelope.ownerToken
  metadata :=
    { format := sampleEnvelope.metadata.format
      version := metadataVersion
      contentType := none
      trustProfile := .untrusted
      format_valid := sampleEnvelope.metadata.format_valid
      version_pos := hmetadata }
  compressionAlgorithm := sampleEnvelope.compressionAlgorithm
  payload := []
  version_pos := hversion
  owner_valid := sampleEnvelope.owner_valid
  algorithm_valid := sampleEnvelope.algorithm_valid

/-- A JSON format with a bound. -/
def smallJsonFormat : JsonEnvelopeFormat :=
  ⟨1024, by decide, by decide⟩

/-- A binary format with the same bound. -/
def smallBinaryFormat : BinaryEnvelopeFormat :=
  ⟨1024, by decide, by decide⟩

set_option maxRecDepth 50000 in
/-- An envelope with a payload and a content type, in both formats and back. -/
theorem json_format_agreement_sample :
    ∃ d b, smallJsonFormat.encode sampleEnvelope = .ok d ∧
      smallBinaryFormat.encode sampleEnvelope = .ok b ∧
      (∃ head, documentHead sampleEnvelope = .ok head ∧
        predictedSize head sampleEnvelope.payload = d.length) ∧
      smallJsonFormat.decode 2 d = .ok sampleEnvelope ∧
      smallBinaryFormat.decode b = .ok sampleEnvelope ∧
      ∀ out, smallBinaryFormat.encode sampleEnvelope = .ok out →
        smallBinaryFormat.decode out = .ok sampleEnvelope := by
  have hjson : (smallJsonFormat.encode sampleEnvelope).isOk = true := by
    decide
  have hbinary : (smallBinaryFormat.encode sampleEnvelope).isOk = true := by
    decide
  obtain ⟨d, hd⟩ := exists_ok_of_isOk hjson
  obtain ⟨b, hb⟩ := exists_ok_of_isOk hbinary
  obtain ⟨hround, hboth, hread⟩ :=
    json_format_agreement 2 le_rfl smallJsonFormat smallBinaryFormat
  obtain ⟨hdecoded, hdecoded'⟩ := (hboth sampleEnvelope d b hd hb).1 rfl
  exact ⟨d, b, hd, hb, (hround sampleEnvelope d rfl hd).2, hdecoded, hdecoded',
    (hread d sampleEnvelope smallJsonFormat hdecoded).2.2.2⟩

set_option maxRecDepth 50000 in
/--
A document whose metadata has a version of 33 bits is read by the JSON format
and written by no binary one; and what both formats write for an envelope of
version 2 neither of them reads.
-/
theorem json_format_wide_version :
    (∃ d, smallJsonFormat.decode 2 d =
        .ok (versionedEnvelope 1 (2 ^ 32) (by decide) (by decide)) ∧
      (BinaryEnvelopeFormat.mk maxU32Value (by decide) (by decide)).encode
        (versionedEnvelope 1 (2 ^ 32) (by decide) (by decide)) = .error .structError) ∧
    (∃ d b, smallJsonFormat.encode (versionedEnvelope 2 1 (by decide) (by decide)) = .ok d ∧
      smallBinaryFormat.encode (versionedEnvelope 2 1 (by decide) (by decide)) = .ok b ∧
      smallJsonFormat.decode 2 d = .error (.format (.envelopeDecode .unsupportedVersion)) ∧
      smallBinaryFormat.decode b =
        .error (.format (.envelopeDecode .unsupportedVersion))) := by
  constructor
  · have hok : (smallJsonFormat.encode
        (versionedEnvelope 1 (2 ^ 32) (by decide) (by decide))).isOk = true := by
      decide
    obtain ⟨d, hd⟩ := exists_ok_of_isOk hok
    exact ⟨d, JsonEnvelopeFormat.decode_encode le_rfl rfl hd, rfl⟩
  · have hjson : (smallJsonFormat.encode
        (versionedEnvelope 2 1 (by decide) (by decide))).isOk = true := by
      decide
    have hbinary : (smallBinaryFormat.encode
        (versionedEnvelope 2 1 (by decide) (by decide))).isOk = true := by
      decide
    have hversion : (versionedEnvelope 2 1 (by decide) (by decide)).version ≠ 1 := by
      simp [versionedEnvelope]
    obtain ⟨d, hd⟩ := exists_ok_of_isOk hjson
    obtain ⟨b, hb⟩ := exists_ok_of_isOk hbinary
    exact ⟨d, b, hd, hb, JsonEnvelopeFormat.decode_other_version le_rfl hversion hd,
      BinaryEnvelopeFormat.decode_other_version hversion hb⟩

end CacheRedis
end Bluetape
