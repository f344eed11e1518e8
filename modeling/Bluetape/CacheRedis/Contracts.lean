import Bluetape.Serde.Contracts

/-!
# Result envelopes

The envelope of a loaded result: the token of the owner that loaded it, the
metadata of its payload, the compression and the payload.  A value of
`ResultEnvelope` has passed the checks of its constructor.
-/

namespace Bluetape
namespace CacheRedis

open Base Serde

/-- `_TOKEN_CHARACTERS` -/
def tokenCharacters : Text :=
  text "abcdefghijklmnopqrstuvwxyzABCDEFGHIJKLMNOPQRSTUVWXYZ0123456789._~-"

/-- `_ALGORITHM_CHARACTERS` -/
def algorithmCharacters : Text :=
  text "abcdefghijklmnopqrstuvwxyz0123456789-_."

/-- `_validate_owner_token` -/
def isOwnerToken (token : Text) : Bool :=
  decide (1 ≤ token.length ∧ token.length ≤ 128) &&
    token.all (fun character => tokenCharacters.contains character)

/-- `_validate_algorithm` -/
def isAlgorithm (algorithm : Text) : Bool :=
  decide (1 ≤ algorithm.length ∧ algorithm.length ≤ 64) &&
    algorithm.all (fun character => algorithmCharacters.contains character)

/-- `EnvelopeErrorCode` -/
inductive EnvelopeErrorCode
  | invalidInput
  | encodedSizeLimit
  | malformedEnvelope
  | unsupportedVersion
  | unsupportedFormat
  | unknownAlgorithm
  | compressionFailure
  | payloadCodecFailure
deriving DecidableEq, Repr

/-- The exceptions that the code of the envelope formats raises. -/
inductive FormatException
  | valueError (message : String)
  | structError
  | invalidMetadata
  | envelopeSize (code : EnvelopeErrorCode)
  | envelopeDecode (code : EnvelopeErrorCode)
deriving DecidableEq, Repr

/-- The subclasses of `EnvelopeError`. -/
def FormatException.isEnvelopeError : FormatException → Bool
  | envelopeSize _ | envelopeDecode _ => true
  | _ => false

/-- `ResultEnvelope` -/
structure ResultEnvelope where
  version : Int
  ownerToken : Text
  metadata : PayloadMetadata
  compressionAlgorithm : Text
  payload : Bytes
  version_pos : 0 < version
  owner_valid : isOwnerToken ownerToken = true
  algorithm_valid : isAlgorithm compressionAlgorithm = true
deriving Repr

/-- The constructor of `ResultEnvelope`. -/
def ResultEnvelope.make (version : Int) (ownerToken : Text) (metadata : PayloadMetadata)
    (compressionAlgorithm : Text) (payload : Bytes) :
    Except FormatException ResultEnvelope :=
  if hversion : 0 < version then
    if howner : isOwnerToken ownerToken = true then
      if halgorithm : isAlgorithm compressionAlgorithm = true then
        .ok ⟨version, ownerToken, metadata, compressionAlgorithm, payload, hversion,
          howner, halgorithm⟩
      else .error (.valueError "compression algorithm must be 1..64 allowed ASCII characters")
    else .error (.valueError "owner token must be 1..128 allowed ASCII characters")
  else .error (.valueError "version must be positive")

theorem ResultEnvelope.make_eq_ok_iff
    {version : Int} {ownerToken : Text} {metadata : PayloadMetadata}
    {compressionAlgorithm : Text} {payload : Bytes} {e : ResultEnvelope} :
    ResultEnvelope.make version ownerToken metadata compressionAlgorithm payload = .ok e ↔
      e.version = version ∧ e.ownerToken = ownerToken ∧ e.metadata = metadata ∧
        e.compressionAlgorithm = compressionAlgorithm ∧ e.payload = payload := by
  unfold make
  constructor
  · intro h
    split at h
    case isTrue =>
      split at h
      case isTrue =>
        split at h
        case isTrue =>
          cases h
          exact ⟨rfl, rfl, rfl, rfl, rfl⟩
        case isFalse =>
          cases h
      case isFalse =>
        cases h
    case isFalse =>
      cases h
  · rintro ⟨rfl, rfl, rfl, rfl, rfl⟩
    rw [dif_pos e.version_pos, dif_pos e.owner_valid, dif_pos e.algorithm_valid]

end CacheRedis
end Bluetape
