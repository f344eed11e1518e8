import Bluetape.Base.Base64
import Bluetape.Base.JsonAscii
import Bluetape.CacheRedis.BinaryFormat
import Bluetape.Serde.JsonScan

/-!
# The JSON envelope format

`JsonEnvelopeFormat.encode` and `decode`.  Encoding writes one compact document
in ASCII; decoding reads JSON with the hooks of the module and accepts a
document of these members in this order only, whatever its white space and its
escapes.
-/

namespace Bluetape
namespace CacheRedis

open Base Serde Json

/-- How many digits the interpreter converts between integers and texts. -/
def maxStrDigits : Nat := 4300

/-- The exceptions of the JSON format. -/
inductive JsonException
  | format (e : FormatException)
  | unicodeError
  | recursionError
deriving DecidableEq, Repr

/-! ## Encoding -/

/-- A literal of bytes. -/
def literal (s : String) : Bytes :=
  s.toList.map byte

/-- `_json_string` -/
def jsonString (value : Text) : Except JsonException Bytes :=
  orRaise .unicodeError (encodeAscii (quoteAscii value))

/-- `str(value).encode("ascii")`, of an integer -/
def jsonInteger (value : Int) : Except JsonException Bytes := do
  raiseIf (maxStrDigits < (decimal value.natAbs).length)
    (JsonException.format (.valueError "Exceeds the limit for integer string conversion"))
  orRaise .unicodeError (encodeAscii (intText value))

/-- The content type in the document. -/
def jsonContentType : Option Text → Except JsonException Bytes
  | none => .ok (literal "null")
  | some contentType => jsonString contentType

/-- The check of the content type in `encode`. -/
def checkContentType : Option Text → Except JsonException Unit
  | none => .ok ()
  | some contentType => do
      let contentBytes ← orRaise .unicodeError (encodeUtf8 contentType)
      raiseIf (maxContentTypeSize < contentBytes.length)
        (JsonException.format (.valueError "content type exceeds its encoded size limit"))

/-- The document up to its payload. -/
def documentHead (e : ResultEnvelope) : Except JsonException Bytes := do
  let owner ← jsonString e.ownerToken
  let serdeFormat ← jsonString e.metadata.format
  let contentType ← jsonContentType e.metadata.contentType
  let trustProfile ← jsonString e.metadata.trustProfile.value
  let algorithm ← jsonString e.compressionAlgorithm
  let version ← jsonInteger e.version
  let serdeVersion ← jsonInteger e.metadata.version
  return literal "\x7b\"version\":" ++ version ++ literal ",\"owner_token\":" ++ owner ++
    literal ",\"metadata\":\x7b\"format\":" ++ serdeFormat ++ literal ",\"version\":" ++
    serdeVersion ++ literal ",\"content_type\":" ++ contentType ++
    literal ",\"trust_profile\":" ++ trustProfile ++ literal "\x7d,\"compression\":" ++
    algorithm ++ literal ",\"payload\":\""

/-- `predicted_size` -/
def predictedSize (head payload : Bytes) : Nat :=
  head.length + 4 * ((payload.length + 2) / 3) + 2

/-- `base64.b64encode` -/
def b64encode (payload : Bytes) : Bytes :=
  (Base64.encode payload).map fun p => UInt8.ofNat p.ord

/-- `JsonEnvelopeFormat` -/
structure JsonEnvelopeFormat where
  maxEncodedSize : Nat
  one_le_max : 1 ≤ maxEncodedSize
  max_le : maxEncodedSize ≤ maxU32Value

/-- `JsonEnvelopeFormat.encode` -/
def JsonEnvelopeFormat.encode (format : JsonEnvelopeFormat) (e : ResultEnvelope) :
    Except JsonException Bytes := do
  checkContentType e.metadata.contentType
  let head ← documentHead e
  (ensureBound (predictedSize head e.payload) format.maxEncodedSize).mapError .format
  let encoded := head ++ b64encode e.payload ++ literal "\"\x7d"
  (ensureBound encoded.length format.maxEncodedSize).mapError .format
  return encoded

/-! ## Decoding -/

/-- An integer that was read from a text. -/
structure ReadInt where
  value : Int
  short : (decimal value.natAbs).length ≤ maxStrDigits

/-- What the reader gives: the values that the format looks into, and others. -/
inductive Document
  | null
  | int (n : ReadInt)
  | str (value : Text)
  | dict (entries : List (Text × Document))
  | other

theorem length_decimal_intOfText_le
    {value : Text}
    (hdigits : (scanMinus value).2 ≠ [] ∧ ∀ p ∈ (scanMinus value).2, isDecimal p = true) :
    (decimal (intOfText value).natAbs).length ≤ (scanMinus value).2.length := by
  obtain ⟨hne, hall⟩ := hdigits
  set digits := (scanMinus value).2.map fun p => UInt8.ofNat p.ord with hdef
  have hdigit : digits.all isDigit = true := by
    refine List.all_eq_true.mpr fun b hb => ?_
    obtain ⟨p, hp, rfl⟩ := List.mem_map.mp hb
    have hp := hall p hp
    simp only [isDecimal, decide_eq_true_eq] at hp
    simp only [isDigit, decide_eq_true_eq, UInt8.toNat_ofNat']
    omega
  have habs : (intOfText value).natAbs = decimalValue digits := by
    simp only [intOfText, ← hdef]
    split <;> omega
  have hlt := decimalValue_lt hdigit
  rw [hdef, List.length_map] at hlt
  rw [habs]
  exact decimal_length_le (List.length_pos_iff.mpr hne) hlt

/-- `int(value)`, with the limit of the interpreter -/
def parseInteger (value : Text) : Except FormatException Document :=
  if hdigits : (scanMinus value).2 ≠ [] ∧ ∀ p ∈ (scanMinus value).2, isDecimal p = true then
    if hshort : (scanMinus value).2.length ≤ maxStrDigits then
      .ok (.int ⟨intOfText value, (length_decimal_intOfText_le hdigits).trans hshort⟩)
    else .error (.valueError "Exceeds the limit for integer string conversion")
  else .error (.valueError "invalid literal for int() with base 10")

/-- `_object_no_duplicates` -/
def objectNoDuplicates (pairs : List (Text × Document)) : Except FormatException Document := do
  let result ← pairs.foldlM (fun result (key, value) => do
    raiseIf (key ∈ result.map Prod.fst) malformed
    return result ++ [(key, value)]) []
  return .dict result

/-- The decoder of the module. -/
def documentHooks : Hooks FormatException Document where
  null := .null
  bool _ := .other
  string := .str
  array _ := .other
  parseInt := parseInteger
  parseFloat _ := .ok .other
  parseConstant _ := .ok .other
  objectPairs := objectNoDuplicates

/-- The exception for a document that is not read. -/
def scanFailure : Failure FormatException → JsonException
  | .decode => .format (.valueError "JSONDecodeError")
  | .recursion => .recursionError
  | .hook e => .format e

/-- The rejection of a document. -/
def rejected : JsonException :=
  .format malformed

/-- The values of a dict with these keys in this order, none for another value. -/
def Document.fields (keys : List Text) : Document → Option (List Document)
  | .dict entries =>
      if entries.map Prod.fst = keys then some (entries.map Prod.snd) else none
  | _ => none

/-- The value of a string. -/
def Document.str? : Document → Option Text
  | .str value => some value
  | _ => none

/-- The value of an integer. -/
def Document.int? : Document → Option ReadInt
  | .int n => some n
  | _ => none

/-- The keys of the document. -/
def documentKeys : List Text :=
  [text "version", text "owner_token", text "metadata", text "compression", text "payload"]

/-- The keys of its metadata. -/
def metadataKeys : List Text :=
  [text "format", text "version", text "content_type", text "trust_profile"]

/-- The payload as `decode` reads it. -/
def readPayload (value : Document) : Except JsonException Bytes := do
  let payloadText ← orRaise rejected value.str?
  raiseIf (∃ p ∈ payloadText, 128 ≤ p.ord) rejected
  let payload ← orRaise rejected (Base64.decode payloadText)
  raiseIf (Base64.encode payload ≠ payloadText) rejected
  return payload

/-- The content type as `decode` reads it. -/
def readJsonContentType : Document → Except JsonException (Option Text)
  | .null => .ok none
  | .str contentType => do
      let contentBytes ← orRaise .unicodeError (encodeUtf8 contentType)
      raiseIf (maxContentTypeSize < contentBytes.length) rejected
      return some contentType
  | _ => .error rejected

/-- The metadata as `decode` reads it. -/
def readMetadata : List Document → Except JsonException PayloadMetadata
  | [serdeFormat, serdeVersion, contentType, trustValue] => do
      let serdeFormat ← orRaise rejected serdeFormat.str?
      let serdeVersion ← orRaise rejected serdeVersion.int?
      let contentType ← readJsonContentType contentType
      let trustValue ← orRaise rejected trustValue.str?
      let trustProfile ← orRaise (.format (.valueError "not a valid TrustProfile"))
        (TrustProfile.ofValue trustValue)
      (PayloadMetadata.make serdeFormat serdeVersion.value contentType trustProfile).mapError
        fun _ => .format .invalidMetadata
  | _ => .error rejected

/-- The checks of `decode` on the values of the document. -/
def readDocument : List Document → Except JsonException ResultEnvelope
  | [version, owner, metadata, compression, payload] => do
      let metadataValues ← orRaise rejected (metadata.fields metadataKeys)
      let version ← orRaise rejected version.int?
      raiseIf (version.value ≠ formatVersion)
        (JsonException.format (.envelopeDecode .unsupportedVersion))
      let owner ← orRaise rejected owner.str?
      let compression ← orRaise rejected compression.str?
      let payload ← readPayload payload
      let metadata ← readMetadata metadataValues
      (ResultEnvelope.make version.value owner metadata compression payload).mapError .format
  | _ => .error rejected

/-- The body of the `try` block of `decode`. -/
def decodeDocument (frames : Nat) (data : Bytes) : Except JsonException ResultEnvelope := do
  let decoded ← orRaise .unicodeError (decodeUtf8 data)
  let (document, rest) ← (scanOnce documentHooks frames decoded).mapError scanFailure
  raiseIf (rest ≠ []) rejected
  let values ← orRaise rejected (document.fields documentKeys)
  readDocument values

/-- The `except` clauses of `decode`. -/
def redactedJson : JsonException → JsonException
  | .format e => .format (BinaryEnvelopeFormat.redacted e)
  | .unicodeError => rejected
  | .recursionError => .recursionError

/-- `JsonEnvelopeFormat.decode`, with room for a number of nested containers -/
def JsonEnvelopeFormat.decode (format : JsonEnvelopeFormat) (frames : Nat) (data : Bytes) :
    Except JsonException ResultEnvelope := do
  (ensureBound data.length format.maxEncodedSize).mapError .format
  (decodeDocument frames data).mapError redactedJson

/-! ## The canonical document -/

section Canonical

/-- The text of the content type. -/
def contentTypeText : Option Text → Text
  | none => text "null"
  | some contentType => quoteAscii contentType

/-- The document up to its payload, as a text. -/
def headText (e : ResultEnvelope) : Text :=
  text "\x7b\"version\":" ++ intText e.version ++ text ",\"owner_token\":" ++
    quoteAscii e.ownerToken ++ text ",\"metadata\":\x7b\"format\":" ++
    quoteAscii e.metadata.format ++ text ",\"version\":" ++ intText e.metadata.version ++
    text ",\"content_type\":" ++ contentTypeText e.metadata.contentType ++
    text ",\"trust_profile\":" ++ quoteAscii e.metadata.trustProfile.value ++
    text "\x7d,\"compression\":" ++ quoteAscii e.compressionAlgorithm ++ text ",\"payload\":\""

/-- The metadata of the document, as a text. -/
def metadataText (m : PayloadMetadata) : Text :=
  spellObject [(text "format", quoteAscii m.format), (text "version", intText m.version),
    (text "content_type", contentTypeText m.contentType),
    (text "trust_profile", quoteAscii m.trustProfile.value)]

/-- The document as a text. -/
def documentText (e : ResultEnvelope) : Text :=
  spellObject [(text "version", intText e.version), (text "owner_token", quoteAscii e.ownerToken),
    (text "metadata", metadataText e.metadata),
    (text "compression", quoteAscii e.compressionAlgorithm),
    (text "payload", quoteAscii (Base64.encode e.payload))]

/-- The interpreter converts the integers of an envelope. -/
def ShortIntegers (e : ResultEnvelope) : Prop :=
  (decimal e.version.natAbs).length ≤ maxStrDigits ∧
    (decimal e.metadata.version.natAbs).length ≤ maxStrDigits

set_option maxRecDepth 50000 in
/-- A Base64 text needs no escapes. -/
theorem quoteAscii_base64
    (bs : Bytes) :
    quoteAscii (Base64.encode bs) = quotationMark :: Base64.encode bs ++ [quotationMark] := by
  have hsymbol : ∀ d, escapeAscii (Base64.alphabet.symbol d) = [Base64.alphabet.symbol d] := by
    decide
  have hplain : ∀ p ∈ Base64.encode bs, escapeAscii p = [p] := by
    intro p hp
    rcases Base64.mem_encode hp with rfl | ⟨d, rfl⟩
    · decide
    · exact hsymbol d
  rw [quoteAscii, List.flatMap_congr hplain]
  simp

theorem documentText_eq
    (e : ResultEnvelope) :
    documentText e = headText e ++ Base64.encode e.payload ++ text "\"\x7d" := by
  -- each literal of the encoder is a stretch of marks and names
  have hversion : text "\x7b\"version\":" =
      beginObject :: (quote (text "version") ++ [nameSeparator]) := rfl
  have howner : text ",\"owner_token\":" =
      valueSeparator :: (quote (text "owner_token") ++ [nameSeparator]) := rfl
  have hmetadata : text ",\"metadata\":\x7b\"format\":" =
      valueSeparator :: (quote (text "metadata") ++ nameSeparator :: beginObject ::
        (quote (text "format") ++ [nameSeparator])) := rfl
  have hserde : text ",\"version\":" =
      valueSeparator :: (quote (text "version") ++ [nameSeparator]) := rfl
  have hcontent : text ",\"content_type\":" =
      valueSeparator :: (quote (text "content_type") ++ [nameSeparator]) := rfl
  have htrust : text ",\"trust_profile\":" =
      valueSeparator :: (quote (text "trust_profile") ++ [nameSeparator]) := rfl
  have hcompression : text "\x7d,\"compression\":" =
      endObject :: valueSeparator :: (quote (text "compression") ++ [nameSeparator]) := rfl
  have hpayload : text ",\"payload\":\"" =
      valueSeparator :: (quote (text "payload") ++ [nameSeparator, quotationMark]) := rfl
  have hend : text "\"\x7d" = [quotationMark, endObject] := rfl
  simp only [documentText, metadataText, headText, spellObject, spellMember, spellMembers,
    quoteAscii_base64, hversion, howner, hmetadata, hserde, hcontent, htrust, hcompression,
    hpayload, hend, List.append_assoc, List.cons_append, List.nil_append, List.append_nil]

theorem intText_ascii
    (n : Int) :
    ∀ p ∈ intText n, p.ord < 128 := by
  intro p hp
  rcases List.mem_append.mp hp with hp | hp
  · split at hp
    · obtain rfl := List.mem_singleton.mp hp
      decide
    · cases hp
  · obtain ⟨b, hb, rfl⟩ := List.mem_map.mp hp
    have hdigit := List.all_eq_true.mp (decimal_all_isDigit n.natAbs) b hb
    rw [ord_asciiDigit hdigit]
    simp only [isDigit, decide_eq_true_eq] at hdigit
    omega

theorem contentTypeText_ascii
    (contentType : Option Text) :
    ∀ p ∈ contentTypeText contentType, p.ord < 128 := by
  cases contentType with
  | none =>
      decide
  | some contentType =>
      exact quoteAscii_ascii contentType

theorem jsonInteger_eq_ok
    {n : Int} {bs : Bytes}
    (hbs : encodeAscii (intText n) = some bs)
    (hshort : (decimal n.natAbs).length ≤ maxStrDigits) :
    jsonInteger n = .ok bs := by
  rw [jsonInteger, hbs, raiseIf, if_neg (not_lt.mpr hshort)]
  rfl

theorem short_of_jsonInteger
    {n : Int} {bs : Bytes}
    (h : jsonInteger n = .ok bs) :
    (decimal n.natAbs).length ≤ maxStrDigits := by
  obtain ⟨_, hshort, -⟩ := except_bind_eq_ok.mp h
  exact not_lt.mp (raiseIf_eq_ok.mp hshort)

/-- The head is encoded when its integers can be converted. -/
theorem documentHead_of_short
    {e : ResultEnvelope}
    (hshort : ShortIntegers e) :
    ∃ head, documentHead e = .ok head ∧ encodeAscii (headText e) = some head := by
  obtain ⟨version, hversion⟩ := encodeAscii_isSome (intText_ascii e.version)
  obtain ⟨owner, howner⟩ := encodeAscii_isSome (quoteAscii_ascii e.ownerToken)
  obtain ⟨serdeFormat, hformat⟩ := encodeAscii_isSome (quoteAscii_ascii e.metadata.format)
  obtain ⟨serdeVersion, hserde⟩ := encodeAscii_isSome (intText_ascii e.metadata.version)
  obtain ⟨contentType, hcontent⟩ :=
    encodeAscii_isSome (contentTypeText_ascii e.metadata.contentType)
  obtain ⟨trust, htrust⟩ := encodeAscii_isSome (quoteAscii_ascii e.metadata.trustProfile.value)
  obtain ⟨algorithm, halgorithm⟩ :=
    encodeAscii_isSome (quoteAscii_ascii e.compressionAlgorithm)
  have hjson : jsonContentType e.metadata.contentType = .ok contentType := by
    cases hvalue : e.metadata.contentType with
    | none =>
        rw [hvalue] at hcontent
        have hnull : encodeAscii (text "null") = some (literal "null") := rfl
        obtain rfl := Option.some.inj (hnull.symm.trans hcontent)
        rfl
    | some value =>
        rw [hvalue] at hcontent
        exact orRaise_eq_ok.mpr hcontent
  refine ⟨literal "\x7b\"version\":" ++ version ++ literal ",\"owner_token\":" ++ owner ++
    literal ",\"metadata\":\x7b\"format\":" ++ serdeFormat ++ literal ",\"version\":" ++
    serdeVersion ++ literal ",\"content_type\":" ++ contentType ++
    literal ",\"trust_profile\":" ++ trust ++ literal "\x7d,\"compression\":" ++
    algorithm ++ literal ",\"payload\":\"", ?_, ?_⟩
  · rw [documentHead]
    simp only [jsonString, howner, hformat, htrust, halgorithm, hjson,
      jsonInteger_eq_ok hversion hshort.1, jsonInteger_eq_ok hserde hshort.2, orRaise, bind,
      Except.bind, pure, Except.pure]
  · have hliteral : ∀ s ∈ ["\x7b\"version\":", ",\"owner_token\":",
        ",\"metadata\":\x7b\"format\":", ",\"version\":", ",\"content_type\":",
        ",\"trust_profile\":", "\x7d,\"compression\":", ",\"payload\":\""],
        encodeAscii (text s) = some (literal s) := by
      decide
    simp only [List.forall_mem_cons] at hliteral
    obtain ⟨h₁, h₂, h₃, h₄, h₅, h₆, h₇, h₈, -⟩ := hliteral
    rw [headText]
    refine encodeAscii_append (encodeAscii_append ?_ halgorithm) h₈
    refine encodeAscii_append (encodeAscii_append ?_ htrust) h₇
    refine encodeAscii_append (encodeAscii_append ?_ hcontent) h₆
    refine encodeAscii_append (encodeAscii_append ?_ hserde) h₅
    refine encodeAscii_append (encodeAscii_append ?_ hformat) h₄
    refine encodeAscii_append (encodeAscii_append ?_ howner) h₃
    exact encodeAscii_append (encodeAscii_append h₁ hversion) h₂

theorem short_of_documentHead
    {e : ResultEnvelope} {head : Bytes}
    (h : documentHead e = .ok head) :
    ShortIntegers e := by
  obtain ⟨_, -, h⟩ := except_bind_eq_ok.mp h
  obtain ⟨_, -, h⟩ := except_bind_eq_ok.mp h
  obtain ⟨_, -, h⟩ := except_bind_eq_ok.mp h
  obtain ⟨_, -, h⟩ := except_bind_eq_ok.mp h
  obtain ⟨_, -, h⟩ := except_bind_eq_ok.mp h
  obtain ⟨_, hversion, h⟩ := except_bind_eq_ok.mp h
  obtain ⟨_, hserde, -⟩ := except_bind_eq_ok.mp h
  exact ⟨short_of_jsonInteger hversion, short_of_jsonInteger hserde⟩

set_option maxRecDepth 50000 in
theorem base64_ascii
    (bs : Bytes) :
    ∀ p ∈ Base64.encode bs, p.ord < 128 := by
  have hsymbol : ∀ d, (Base64.alphabet.symbol d).ord < 128 := by
    decide
  intro p hp
  rcases Base64.mem_encode hp with rfl | ⟨d, rfl⟩
  · decide
  · exact hsymbol d

theorem encodeAscii_base64
    (bs : Bytes) :
    encodeAscii (Base64.encode bs) = some (b64encode bs) :=
  encodeAscii_of_ascii (base64_ascii bs)

/-- The bytes of the document, by its head. -/
theorem encodeAscii_documentText
    {e : ResultEnvelope} {head : Bytes}
    (h : encodeAscii (headText e) = some head) :
    encodeAscii (documentText e) =
      some (head ++ b64encode e.payload ++ literal "\"\x7d") := by
  have hend : encodeAscii (text "\"\x7d") = some (literal "\"\x7d") := rfl
  rw [documentText_eq]
  exact encodeAscii_append (encodeAscii_append h (encodeAscii_base64 _)) hend

/-- The predicted size is the length of the document. -/
theorem predictedSize_eq_length
    (head payload : Bytes) :
    predictedSize head payload = (head ++ b64encode payload ++ literal "\"\x7d").length := by
  simp only [predictedSize, b64encode, List.length_append, List.length_map,
    Base64.length_encode]
  rfl

/-- **Encoding writes the canonical document, within the size bound.** -/
theorem JsonEnvelopeFormat.encode_eq_ok_iff
    {format : JsonEnvelopeFormat} {e : ResultEnvelope} {d : Bytes} :
    format.encode e = .ok d ↔
      checkContentType e.metadata.contentType = .ok () ∧ ShortIntegers e ∧
        encodeAscii (documentText e) = some d ∧ d.length ≤ format.maxEncodedSize := by
  constructor
  · intro h
    obtain ⟨⟨⟩, hcontent, h⟩ := except_bind_eq_ok.mp h
    obtain ⟨head, hhead, h⟩ := except_bind_eq_ok.mp h
    obtain ⟨_, -, h⟩ := except_bind_eq_ok.mp h
    obtain ⟨_, hbound, hreturn⟩ := except_bind_eq_ok.mp h
    have hshort := short_of_documentHead hhead
    obtain ⟨head', hhead', hascii⟩ := documentHead_of_short hshort
    obtain rfl := Except.ok.inj (hhead.symm.trans hhead')
    obtain rfl := Except.ok.inj hreturn
    exact ⟨hcontent, hshort, encodeAscii_documentText hascii,
      not_lt.mp (raiseIf_eq_ok.mp (mapError_eq_ok.mp hbound))⟩
  · rintro ⟨hcontent, hshort, hdocument, hbound⟩
    obtain ⟨head, hhead, hascii⟩ := documentHead_of_short hshort
    obtain rfl := Option.some.inj ((encodeAscii_documentText hascii).symm.trans hdocument)
    have hensure : ∀ size, size ≤ format.maxEncodedSize →
        (ensureBound size format.maxEncodedSize).mapError JsonException.format = .ok () :=
      fun size hsize => mapError_eq_ok.mpr (raiseIf_eq_ok.mpr (not_lt.mpr hsize))
    refine except_bind_eq_ok.mpr ⟨(), hcontent, except_bind_eq_ok.mpr ⟨head, hhead, ?_⟩⟩
    refine except_bind_eq_ok.mpr ⟨(), hensure _ ?_, ?_⟩
    · rwa [predictedSize_eq_length]
    · exact except_bind_eq_ok.mpr ⟨(), hensure _ hbound, rfl⟩

end Canonical

/-! ## Reading the canonical document -/

section Reading

theorem not_surrogate_of_contains
    {characters value : Text}
    (hcharacters : ∀ p ∈ characters, p.ord < 128)
    (hvalue : value.all (fun character => characters.contains character) = true) :
    ∀ p ∈ value, ¬(0xD800 ≤ p.ord ∧ p.ord ≤ 0xDFFF) := by
  intro p hp
  have hmem := List.contains_iff_mem.mp (List.all_eq_true.mp hvalue p hp)
  have := hcharacters p hmem
  omega

theorem not_surrogate_owner
    (e : ResultEnvelope) :
    ∀ p ∈ e.ownerToken, ¬(0xD800 ≤ p.ord ∧ p.ord ≤ 0xDFFF) := by
  have hvalid := e.owner_valid
  simp only [isOwnerToken, Bool.and_eq_true] at hvalid
  exact not_surrogate_of_contains (by decide) hvalid.2

theorem not_surrogate_format
    (m : PayloadMetadata) :
    ∀ p ∈ m.format, ¬(0xD800 ≤ p.ord ∧ p.ord ≤ 0xDFFF) := by
  have hvalid := m.format_valid
  simp only [isFormat, Bool.and_eq_true] at hvalid
  exact not_surrogate_of_contains (by decide) hvalid.2

theorem not_surrogate_algorithm
    (e : ResultEnvelope) :
    ∀ p ∈ e.compressionAlgorithm, ¬(0xD800 ≤ p.ord ∧ p.ord ≤ 0xDFFF) := by
  have hvalid := e.algorithm_valid
  simp only [isAlgorithm, Bool.and_eq_true] at hvalid
  exact not_surrogate_of_contains (by decide) hvalid.2

theorem not_surrogate_trustProfile
    (profile : TrustProfile) :
    ∀ p ∈ profile.value, ¬(0xD800 ≤ p.ord ∧ p.ord ≤ 0xDFFF) := by
  cases profile <;> decide

theorem not_surrogate_base64
    (bs : Bytes) :
    ∀ p ∈ Base64.encode bs, ¬(0xD800 ≤ p.ord ∧ p.ord ≤ 0xDFFF) :=
  not_surrogate_of_encodeUtf8 (encodeUtf8_of_encodeAscii (encodeAscii_base64 bs))

theorem parseInteger_intText
    {n : Int}
    (hshort : (decimal n.natAbs).length ≤ maxStrDigits) :
    parseInteger (intText n) = .ok (.int ⟨n, hshort⟩) := by
  have hdigits : (scanMinus (intText n)).2 = asciiText (decimal n.natAbs) := by
    rw [scanMinus_intText]
  obtain ⟨p, t, ht, -, -, -⟩ := asciiText_decimal n.natAbs
  have hall : (scanMinus (intText n)).2 ≠ [] ∧
      ∀ p ∈ (scanMinus (intText n)).2, isDecimal p = true := by
    rw [hdigits]
    exact ⟨by simp [ht], isDecimal_of_mem_asciiText (decimal_all_isDigit _)⟩
  have hlength : (scanMinus (intText n)).2.length ≤ maxStrDigits := by
    rwa [hdigits, asciiText, List.length_map]
  rw [parseInteger, dif_pos hall, dif_pos hlength]
  simp only [intOfText_intText]

/-- The token of an integer. -/
def intNumber (n : Int) : Number where
  parts := ⟨intText n, [], []⟩
  scans := by simpa [NumberText.text] using scanNumber_intText n

theorem intNumber_text
    (n : Int) :
    (intNumber n).parts.text = intText n := by
  simp [intNumber, NumberText.text]

theorem reads_intText
    {n : Int} {frames : Nat}
    (hshort : (decimal n.natAbs).length ≤ maxStrDigits) :
    Json.Reads (scanOnce documentHooks frames) (intText n) (.int ⟨n, hshort⟩) := by
  have heval : eval documentHooks (.number (intNumber n)) = .ok (.int ⟨n, hshort⟩) := by
    rw [eval, intNumber_text]
    exact parseInteger_intText hshort
  have hread := scanOnce_render (.number (intNumber n)) (Nat.zero_le frames) heval
  rwa [render, intNumber_text] at hread

theorem startsValue_intText
    (n : Int) :
    StartsValue (intText n) := by
  have hstarts := startsValue_render (.number (intNumber n))
  rwa [render, intNumber_text] at hstarts

theorem objectNoDuplicates_of_nodup
    {pairs : List (Text × Document)}
    (h : (pairs.map Prod.fst).Nodup) :
    objectNoDuplicates pairs = .ok (.dict pairs) := by
  simp only [objectNoDuplicates]
  rw [foldlM_of_nodup h]
  rfl

/-- The value that the reader gives for a content type. -/
def contentTypeDocument : Option Text → Document
  | none => .null
  | some contentType => .str contentType

/-- The value that the reader gives for metadata. -/
def metadataDocument (m : PayloadMetadata)
    (hshort : (decimal m.version.natAbs).length ≤ maxStrDigits) : Document :=
  .dict [(text "format", .str m.format), (text "version", .int ⟨m.version, hshort⟩),
    (text "content_type", contentTypeDocument m.contentType),
    (text "trust_profile", .str m.trustProfile.value)]

/-- The values that the reader gives for an envelope. -/
def envelopeEntries (e : ResultEnvelope) (hshort : ShortIntegers e) : List (Text × Document) :=
  [(text "version", .int ⟨e.version, hshort.1⟩), (text "owner_token", .str e.ownerToken),
    (text "metadata", metadataDocument e.metadata hshort.2),
    (text "compression", .str e.compressionAlgorithm),
    (text "payload", .str (Base64.encode e.payload))]

/-- A content type that `encode` lets pass has UTF-8 bytes within the limit. -/
theorem checkContentType_eq_ok
    {contentType : Text} :
    checkContentType (some contentType) = .ok () ↔
      ∃ bs, encodeUtf8 contentType = some bs ∧ bs.length ≤ maxContentTypeSize := by
  simp only [checkContentType, except_bind_eq_ok, orRaise_eq_ok, raiseIf_eq_ok, not_lt]

theorem reads_contentType
    {contentType : Option Text} {frames : Nat}
    (h : checkContentType contentType = .ok ()) :
    Json.Reads (scanOnce documentHooks frames) (contentTypeText contentType)
      (contentTypeDocument contentType) := by
  cases contentType with
  | none =>
      exact scanOnce_render .null (Nat.zero_le frames) rfl
  | some contentType =>
      obtain ⟨bs, hbs, -⟩ := checkContentType_eq_ok.mp h
      exact scanOnce_quoteAscii (not_surrogate_of_encodeUtf8 hbs)

theorem startsValue_contentType
    (contentType : Option Text) :
    StartsValue (contentTypeText contentType) := by
  cases contentType with
  | none =>
      exact startsValue_render .null
  | some contentType =>
      exact startsValue_quoteAscii contentType

theorem reads_metadata
    {m : PayloadMetadata} {frames : Nat}
    (hcontent : checkContentType m.contentType = .ok ())
    (hshort : (decimal m.version.natAbs).length ≤ maxStrDigits) :
    Json.Reads (scanOnce documentHooks (frames + 1)) (metadataText m)
      (metadataDocument m hshort) := by
  refine scanOnce_spelled (.cons ⟨rfl, startsValue_quoteAscii _, ?_⟩
    (.cons ⟨rfl, startsValue_intText _, ?_⟩ (.cons ⟨rfl, startsValue_contentType _, ?_⟩
      (.cons ⟨rfl, startsValue_quoteAscii _, ?_⟩ .nil))))
    (objectNoDuplicates_of_nodup (by decide : metadataKeys.Nodup))
  · exact scanOnce_quoteAscii (not_surrogate_format m)
  · exact reads_intText hshort
  · exact reads_contentType hcontent
  · exact scanOnce_quoteAscii (not_surrogate_trustProfile _)

/-- **The canonical document is read as the values of its envelope.** -/
theorem reads_document
    {e : ResultEnvelope}
    (frames : Nat)
    (hcontent : checkContentType e.metadata.contentType = .ok ())
    (hshort : ShortIntegers e) :
    Json.Reads (scanOnce documentHooks (frames + 2)) (documentText e)
      (.dict (envelopeEntries e hshort)) := by
  refine scanOnce_spelled (.cons ⟨rfl, startsValue_intText _, ?_⟩
    (.cons ⟨rfl, startsValue_quoteAscii _, ?_⟩ (.cons ⟨rfl, ⟨_, _, rfl, by decide⟩, ?_⟩
      (.cons ⟨rfl, startsValue_quoteAscii _, ?_⟩ (.cons ⟨rfl, startsValue_quoteAscii _, ?_⟩
        .nil)))))
    (objectNoDuplicates_of_nodup (by decide : documentKeys.Nodup))
  · exact reads_intText hshort.1
  · exact scanOnce_quoteAscii (not_surrogate_owner e)
  · exact reads_metadata hcontent hshort.2
  · exact scanOnce_quoteAscii (not_surrogate_algorithm e)
  · exact scanOnce_quoteAscii (not_surrogate_base64 _)

theorem readPayload_base64
    (bs : Bytes) :
    readPayload (.str (Base64.encode bs)) = .ok bs := by
  have hascii : ¬∃ p ∈ Base64.encode bs, 128 ≤ p.ord := by
    rintro ⟨p, hp, hlarge⟩
    exact absurd (base64_ascii bs p hp) (not_lt.mpr hlarge)
  refine except_bind_eq_ok.mpr ⟨_, rfl, except_bind_eq_ok.mpr ⟨(), raiseIf_eq_ok.mpr hascii, ?_⟩⟩
  refine except_bind_eq_ok.mpr ⟨bs, orRaise_eq_ok.mpr (Base64.decode_encode bs), ?_⟩
  exact except_bind_eq_ok.mpr ⟨(), raiseIf_eq_ok.mpr (not_not.mpr rfl), rfl⟩

theorem readJsonContentType_document
    {contentType : Option Text}
    (h : checkContentType contentType = .ok ()) :
    readJsonContentType (contentTypeDocument contentType) = .ok contentType := by
  cases contentType with
  | none =>
      rfl
  | some contentType =>
      obtain ⟨bs, hbs, hle⟩ := checkContentType_eq_ok.mp h
      refine except_bind_eq_ok.mpr ⟨bs, orRaise_eq_ok.mpr hbs, ?_⟩
      exact except_bind_eq_ok.mpr ⟨(), raiseIf_eq_ok.mpr (not_lt.mpr hle), rfl⟩

theorem readMetadata_document
    {m : PayloadMetadata}
    (hcontent : checkContentType m.contentType = .ok ())
    (hshort : (decimal m.version.natAbs).length ≤ maxStrDigits) :
    readMetadata [.str m.format, .int ⟨m.version, hshort⟩, contentTypeDocument m.contentType,
      .str m.trustProfile.value] = .ok m := by
  have hmake : PayloadMetadata.make m.format m.version m.contentType m.trustProfile = .ok m :=
    PayloadMetadata.make_eq_ok_iff.mpr ⟨rfl, rfl, rfl, rfl⟩
  have htrust : TrustProfile.ofValue m.trustProfile.value = some m.trustProfile :=
    TrustProfile.ofValue_eq_some_iff.mpr rfl
  simp only [readMetadata, Document.str?, Document.int?, orRaise, bind, Except.bind,
    readJsonContentType_document hcontent, htrust, hmake]
  rfl

theorem readDocument_entries
    {e : ResultEnvelope}
    (hversion : e.version = 1)
    (hcontent : checkContentType e.metadata.contentType = .ok ())
    (hshort : ShortIntegers e) :
    readDocument ((envelopeEntries e hshort).map Prod.snd) = .ok e := by
  have hmetadata := readMetadata_document hcontent hshort.2
  have hmake : ResultEnvelope.make e.version e.ownerToken e.metadata e.compressionAlgorithm
      e.payload = .ok e :=
    ResultEnvelope.make_eq_ok_iff.mpr ⟨rfl, rfl, rfl, rfl, rfl⟩
  refine except_bind_eq_ok.mpr ⟨_, rfl, except_bind_eq_ok.mpr ⟨_, rfl, ?_⟩⟩
  refine except_bind_eq_ok.mpr ⟨(), raiseIf_eq_ok.mpr (not_not.mpr hversion), ?_⟩
  refine except_bind_eq_ok.mpr ⟨_, rfl, except_bind_eq_ok.mpr ⟨_, rfl, ?_⟩⟩
  refine except_bind_eq_ok.mpr ⟨_, readPayload_base64 e.payload, ?_⟩
  exact except_bind_eq_ok.mpr ⟨_, hmetadata, mapError_eq_ok.mpr hmake⟩

/-- Decoding the canonical document is checking the values of its envelope. -/
theorem decodeDocument_canonical
    {frames : Nat} {e : ResultEnvelope} {d : Bytes}
    (hframes : 2 ≤ frames)
    (hcontent : checkContentType e.metadata.contentType = .ok ())
    (hshort : ShortIntegers e)
    (hdocument : encodeAscii (documentText e) = some d) :
    decodeDocument frames d = readDocument ((envelopeEntries e hshort).map Prod.snd) := by
  obtain ⟨frames, rfl⟩ := Nat.exists_eq_add_of_le' hframes
  have hread := reads_document frames hcontent hshort [] endsNumber_nil
  rw [List.append_nil] at hread
  have hfields : (Document.dict (envelopeEntries e hshort)).fields documentKeys =
      some ((envelopeEntries e hshort).map Prod.snd) := by
    rw [Document.fields]
    exact if_pos rfl
  simp only [decodeDocument, decodeUtf8_of_encodeAscii hdocument, hread, hfields, orRaise, bind,
    Except.bind, Except.mapError, raiseIf, ne_eq, not_true, if_false]

/-- **The canonical document decodes to its envelope.** -/
theorem JsonEnvelopeFormat.decode_canonical
    {format : JsonEnvelopeFormat} {frames : Nat} {e : ResultEnvelope} {d : Bytes}
    (hframes : 2 ≤ frames)
    (hversion : e.version = 1)
    (hcontent : checkContentType e.metadata.contentType = .ok ())
    (hshort : ShortIntegers e)
    (hdocument : encodeAscii (documentText e) = some d)
    (hbound : d.length ≤ format.maxEncodedSize) :
    format.decode frames d = .ok e := by
  refine except_bind_eq_ok.mpr ⟨(), mapError_eq_ok.mpr (raiseIf_eq_ok.mpr (not_lt.mpr hbound)), ?_⟩
  rw [mapError_eq_ok, decodeDocument_canonical hframes hcontent hshort hdocument]
  exact readDocument_entries hversion hcontent hshort

theorem checkContentType_of_read
    {value : Document} {contentType : Option Text}
    (h : readJsonContentType value = .ok contentType) :
    checkContentType contentType = .ok () := by
  cases value with
  | null =>
      cases h
      rfl
  | str value =>
      obtain ⟨bs, hbs, h⟩ := except_bind_eq_ok.mp h
      obtain ⟨_, hle, hreturn⟩ := except_bind_eq_ok.mp h
      cases hreturn
      exact checkContentType_eq_ok.mpr
        ⟨bs, orRaise_eq_ok.mp hbs, not_lt.mp (raiseIf_eq_ok.mp hle)⟩
  | int n =>
      cases h
  | dict entries =>
      cases h
  | other =>
      cases h

theorem canonical_of_readMetadata
    {values : List Document} {m : PayloadMetadata}
    (h : readMetadata values = .ok m) :
    checkContentType m.contentType = .ok () ∧
      (decimal m.version.natAbs).length ≤ maxStrDigits := by
  unfold readMetadata at h
  split at h
  · obtain ⟨_, -, h⟩ := except_bind_eq_ok.mp h
    obtain ⟨serdeVersion, -, h⟩ := except_bind_eq_ok.mp h
    obtain ⟨contentType, hcontent, h⟩ := except_bind_eq_ok.mp h
    obtain ⟨_, -, h⟩ := except_bind_eq_ok.mp h
    obtain ⟨_, -, hmake⟩ := except_bind_eq_ok.mp h
    obtain ⟨-, hversion, rfl, -⟩ := PayloadMetadata.make_eq_ok_iff.mp (mapError_eq_ok.mp hmake)
    exact ⟨checkContentType_of_read hcontent, hversion ▸ serdeVersion.short⟩
  · cases h

theorem canonical_of_readDocument
    {values : List Document} {e : ResultEnvelope}
    (h : readDocument values = .ok e) :
    e.version = 1 ∧ checkContentType e.metadata.contentType = .ok () ∧ ShortIntegers e := by
  unfold readDocument at h
  split at h
  · obtain ⟨_, -, h⟩ := except_bind_eq_ok.mp h
    obtain ⟨version, -, h⟩ := except_bind_eq_ok.mp h
    obtain ⟨_, hone, h⟩ := except_bind_eq_ok.mp h
    obtain ⟨_, -, h⟩ := except_bind_eq_ok.mp h
    obtain ⟨_, -, h⟩ := except_bind_eq_ok.mp h
    obtain ⟨_, -, h⟩ := except_bind_eq_ok.mp h
    obtain ⟨m, hmetadata, hmake⟩ := except_bind_eq_ok.mp h
    have hone := not_not.mp (raiseIf_eq_ok.mp hone)
    obtain ⟨hversion, -, rfl, -, -⟩ :=
      ResultEnvelope.make_eq_ok_iff.mp (mapError_eq_ok.mp hmake)
    obtain ⟨hcontent, hshort⟩ := canonical_of_readMetadata hmetadata
    exact ⟨hversion.trans hone, hcontent, hversion ▸ version.short, hshort⟩
  · cases h

/--
**What decoding accepts can be written again**: it is an envelope of version 1
whose integers and content type are within their limits.
-/
theorem JsonEnvelopeFormat.canonical_of_decode
    {format : JsonEnvelopeFormat} {frames : Nat} {e : ResultEnvelope} {d : Bytes}
    (h : format.decode frames d = .ok e) :
    e.version = 1 ∧ checkContentType e.metadata.contentType = .ok () ∧ ShortIntegers e := by
  obtain ⟨_, -, h⟩ := except_bind_eq_ok.mp h
  obtain ⟨decoded, -, h⟩ := except_bind_eq_ok.mp (mapError_eq_ok.mp h)
  obtain ⟨⟨document, rest⟩, -, h⟩ := except_bind_eq_ok.mp h
  obtain ⟨_, -, h⟩ := except_bind_eq_ok.mp h
  obtain ⟨values, -, h⟩ := except_bind_eq_ok.mp h
  exact canonical_of_readDocument h

end Reading

end CacheRedis
end Bluetape
