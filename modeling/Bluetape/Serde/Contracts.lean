import Bluetape.Base.TextCodec

/-!
# Payload contracts

The metadata of a serialized payload and the failures of the serde package.  A
value of `PayloadMetadata` has passed the checks of its constructor.
-/

namespace Bluetape
namespace Serde

open Base

/-- `TrustProfile` -/
inductive TrustProfile
  | untrusted
  | trustedInternal
deriving DecidableEq, Repr

/-- The value of a member. -/
def TrustProfile.value : TrustProfile → Text
  | untrusted => text "untrusted"
  | trustedInternal => text "trusted_internal"

/-- `TrustProfile(value)`, none for the `ValueError` -/
def TrustProfile.ofValue (value : Text) : Option TrustProfile :=
  if value = TrustProfile.untrusted.value then some untrusted
  else if value = TrustProfile.trustedInternal.value then some trustedInternal
  else none

theorem TrustProfile.ofValue_eq_some_iff
    {value : Text} {profile : TrustProfile} :
    TrustProfile.ofValue value = some profile ↔ value = profile.value := by
  have hne : TrustProfile.trustedInternal.value ≠ TrustProfile.untrusted.value := by
    decide
  unfold ofValue
  constructor
  · intro h
    split at h
    case isTrue huntrusted =>
      cases h
      exact huntrusted
    case isFalse =>
      split at h
      case isTrue htrusted =>
        cases h
        exact htrusted
      case isFalse =>
        cases h
  · rintro rfl
    cases profile with
    | untrusted =>
        exact if_pos rfl
    | trustedInternal =>
        rw [if_neg hne, if_pos rfl]

/-- The codes that a `PayloadLimitError` allows. -/
inductive PayloadLimitCode
  | inputLimit
  | outputLimit
  | nestingLimit
  | integerDigitLimit
deriving DecidableEq, Repr

/-- The codes that a `MalformedPayloadError` allows. -/
inductive MalformedPayloadCode
  | invalidUtf8
  | duplicateKey
  | decodeNonFiniteNumber
  | invalidJson
deriving DecidableEq, Repr

/-- The codes that a `SerdeEncodeError` allows. -/
inductive SerdeEncodeCode
  | unsupportedValue
  | circularReference
  | encodeNonFiniteNumber
  | encodeRecursion
deriving DecidableEq, Repr

/-- The subclasses of `SerdeError` with their codes. -/
inductive SerdeError
  | invalidMetadata
  | formatMismatch
  | contentTypeMismatch
  | unsupportedVersion
  | trustProfileMismatch
  | payloadLimit (code : PayloadLimitCode)
  | malformedPayload (code : MalformedPayloadCode)
  | encode (code : SerdeEncodeCode)
deriving DecidableEq, Repr

/-- `_ALLOWED_FORMAT_CHARACTERS` -/
def allowedFormatCharacters : Text :=
  text "abcdefghijklmnopqrstuvwxyz0123456789-_./"

/-- What the constructor of `PayloadMetadata` demands of a format. -/
def isFormat (format : Text) : Bool :=
  decide (1 ≤ format.length ∧ format.length ≤ 64) &&
    format.all (fun char => allowedFormatCharacters.contains char)

/-- `PayloadMetadata` -/
structure PayloadMetadata where
  format : Text
  version : Int
  contentType : Option Text
  trustProfile : TrustProfile
  format_valid : isFormat format = true
  version_pos : 0 < version
deriving DecidableEq, Repr

/-- The constructor of `PayloadMetadata`. -/
def PayloadMetadata.make (format : Text) (version : Int) (contentType : Option Text)
    (trustProfile : TrustProfile) : Except SerdeError PayloadMetadata :=
  if h : isFormat format = true ∧ 0 < version then
    .ok ⟨format, version, contentType, trustProfile, h.1, h.2⟩
  else .error .invalidMetadata

theorem PayloadMetadata.make_eq_ok_iff
    {format : Text} {version : Int} {contentType : Option Text}
    {trustProfile : TrustProfile} {m : PayloadMetadata} :
    PayloadMetadata.make format version contentType trustProfile = .ok m ↔
      m.format = format ∧ m.version = version ∧ m.contentType = contentType ∧
        m.trustProfile = trustProfile := by
  unfold make
  constructor
  · intro h
    split at h
    case isTrue =>
      cases h
      exact ⟨rfl, rfl, rfl, rfl⟩
    case isFalse =>
      cases h
  · rintro ⟨rfl, rfl, rfl, rfl⟩
    exact dif_pos ⟨m.format_valid, m.version_pos⟩

/-- `SerializedPayload` -/
structure SerializedPayload where
  metadata : PayloadMetadata
  data : Bytes
deriving Repr

end Serde
end Bluetape
