import Bluetape.Base.Json
import Bluetape.Jwt.Profiles
import Bluetape.Jwt.Repository

/-!
# Verifying tokens

`JWSProvider.verify` is what a provider without a cache does with a token, a snapshot of
the keys and a reading of the clock.  Decoding a signed token is the work of a library:
the provider has it as a function of the token and the key.
-/

namespace Bluetape
namespace Jwt

open Base

variable {K : Type}

/-- A value in a header; the provider asks only whether it is a string. -/
inductive HeaderValue
  | str (t : Text)
  | dict (entries : List (Text × HeaderValue))
  | other

/-- What `jwt.decode` gives: the header and the claims, or the class of its exception. -/
inductive Decoding
  | decoded (header : HeaderValue) (claims : RawValue)
  | badSignature
  | decodeError
  | joseError
  | otherError

/-- `JWSProvider` without its cache, with the functions of the libraries that it uses -/
structure JWSProvider (K : Type) where
  algorithm : JWSAlgorithm
  profile : ValidationProfile
  decode : Text → K → Decoding
  sha256 : Bytes → Bytes

/-- `_MAX_TOKEN_BYTES` -/
def maxTokenBytes : Nat := 16384

/-- `_MAX_PROTECTED_HEADER_BYTES` -/
def maxProtectedHeaderBytes : Nat := 512

/-! ## Headers -/

section Headers

/-- The value of a character of `_BASE64URL_SEGMENT`. -/
def sextet (p : CodePoint) : Option Nat :=
  if 65 ≤ p.ord ∧ p.ord ≤ 90 then some (p.ord - 65)
  else if 97 ≤ p.ord ∧ p.ord ≤ 122 then some (p.ord - 71)
  else if 48 ≤ p.ord ∧ p.ord ≤ 57 then some (p.ord + 4)
  else if p = Json.mark '-' then some 62
  else if p = Json.mark '_' then some 63
  else none

/-- The bytes of groups of four sextets; the last group may have two or three. -/
def decodeSextets : List Nat → Option Bytes
  | [] => some []
  | [_] => none
  | [a, b] => some [UInt8.ofNat (a * 4 + b / 16)]
  | [a, b, c] => some [UInt8.ofNat (a * 4 + b / 16), UInt8.ofNat (b % 16 * 16 + c / 4)]
  | a :: b :: c :: d :: rest => do
      let bytes ← decodeSextets rest
      return UInt8.ofNat (a * 4 + b / 16) :: UInt8.ofNat (b % 16 * 16 + c / 4) ::
        UInt8.ofNat (c % 4 * 64 + d) :: bytes

/-- `base64.b64decode` of a padded segment -/
def b64decode (encoded : Text) : Option Bytes := do
  let sextets ← encoded.mapM sextet
  decodeSextets sextets

/-- `_validate_token_shape`: the three segments -/
def validateTokenShape (token : Text) : Except JWTError (Text × Text × Text) := do
  raiseIf (token.length > maxTokenBytes) JWTError.malformedTokenError
  let encoded ← orRaise .malformedTokenError (encodeUtf8 token)
  raiseIf (encoded.length > maxTokenBytes) JWTError.malformedTokenError
  match token.splitOn (Json.mark '.') with
  | [header, payload, signature] => do
      raiseIf (([header, payload, signature].all fun segment =>
        !segment.isEmpty && segment.all fun p => (sextet p).isSome) = false)
        JWTError.malformedTokenError
      return (header, payload, signature)
  | _ => .error .malformedTokenError

/-- `_strict_object` -/
def strictObject (pairs : List (Text × HeaderValue)) : Except Unit HeaderValue :=
  if (pairs.map Prod.fst).Nodup then .ok (.dict pairs) else .error ()

/-- `_StrictJSONDecoder` -/
def strictHooks : Json.Hooks Unit HeaderValue where
  null := .other
  bool _ := .other
  string := .str
  array _ := .other
  parseInt _ := .ok .other
  parseFloat _ := .ok .other
  parseConstant _ := .error ()
  objectPairs := strictObject

/-- The string in a header. -/
def HeaderValue.str? : HeaderValue → Option Text
  | str t => some t
  | _ => none

/-- The names and values that a header must have besides its key identifier. -/
def JWSProvider.expectedHeader (provider : JWSProvider K) : List (Text × Text) :=
  [(text "alg", provider.algorithm.value), (text "typ", provider.profile.tokenType)] ++
    provider.profile.protectedHeaders

/-- The header with its strings, when it has the allowed names and the expected values. -/
def JWSProvider.acceptHeader (provider : JWSProvider K) (entries : List (Text × HeaderValue)) :
    Option (List (Text × Text)) := do
  let header ← entries.mapM fun entry => entry.2.str?.map fun value => (entry.1, value)
  let allowed := text "kid" :: provider.expectedHeader.map Prod.fst
  guard ((∀ name ∈ header.map Prod.fst, name ∈ allowed) ∧
    ∀ name ∈ allowed, name ∈ header.map Prod.fst)
  guard (∀ entry ∈ provider.expectedHeader, header.lookup entry.1 = some entry.2)
  return header

/-- `_read_header`; a header is too short to nest more containers than there is room for. -/
def JWSProvider.readHeader (provider : JWSProvider K) (encoded : Text) :
    Except JWTError (List (Text × Text)) := do
  let raw ← orRaise .malformedTokenError (b64decode encoded)
  raiseIf (raw.length > maxProtectedHeaderBytes) JWTError.malformedTokenError
  let decoded ← orRaise .malformedTokenError (decodeUtf8 raw)
  match ← (Json.loads strictHooks maxProtectedHeaderBytes decoded).mapError
      fun _ => JWTError.malformedTokenError with
  | .dict entries => do
      let header ← orRaise .unsupportedTokenError (provider.acceptHeader entries)
      let kid ← orRaise .unsupportedTokenError (header.lookup (text "kid"))
      raiseIf (isKid kid = false) JWTError.unsupportedTokenError
      return header
  | _ => .error .malformedTokenError

/-- `decoded.header != header` of two dicts, or a header that is no dict -/
def differs (decoded : HeaderValue) (header : List (Text × Text)) : Bool :=
  match decoded with
  | .dict entries =>
      !(decide (entries.length = header.length) &&
        header.all fun entry => ((entries.lookup entry.1).bind HeaderValue.str?) = some entry.2)
  | _ => true

end Headers

/-! ## Verification without a cache -/

section Verify

/-- What a token says once its signature has been checked. -/
structure SignedClaims where
  claims : TokenClaims
  kid : Text
  tokenType : Text
  headers : List (Text × Text)

/-- The key that a snapshot has for verification under an identifier. -/
def KeySnapshot.verificationKey (snapshot : KeySnapshot K) (kid : Text) :
    Except JWTError (JWTKey K) := do
  let entry ← orRaise .keyUnavailableError (snapshot.entries.lookup kid)
  raiseIf (entry.status = .revoked) JWTError.keyUnavailableError
  orRaise .keyUnavailableError entry.key

/-- The header and the claims of a decoded token. -/
def Decoding.result : Decoding → Except JWTError (HeaderValue × RawValue)
  | decoded header claims => .ok (header, claims)
  | badSignature => .error .signatureError
  | decodeError => .error .malformedTokenError
  | joseError => .error .unsupportedTokenError
  | otherError => .error .signatureError

/-- `verify` from the header to the claims, where the time does not matter -/
def JWSProvider.decodeToken (provider : JWSProvider K) (token encodedHeader : Text)
    (snapshot : KeySnapshot K) : Except JWTError SignedClaims := do
  let header ← provider.readHeader encodedHeader
  let key ← snapshot.verificationKey ((header.lookup (text "kid")).getD [])
  raiseIf (key.algorithm ≠ provider.algorithm) JWTError.unsupportedTokenError
  let (decodedHeader, payload) ← (provider.decode token key.providerKey).result
  raiseIf (differs decodedHeader header = true) JWTError.malformedTokenError
  let claims ← claimsFromPayload payload
  return {
    claims := claims
    kid := key.kid
    tokenType := (header.lookup (text "typ")).getD []
    headers := provider.profile.protectedHeaders.map fun entry =>
      (entry.1, (header.lookup entry.1).getD []) }

/-- The part of `verify` that a cache saves. -/
def JWSProvider.verifyUncached (provider : JWSProvider K) (token encodedHeader : Text)
    (snapshot : KeySnapshot K) (now : Instant) : Except JWTError VerifiedToken := do
  let signed ← provider.decodeToken token encodedHeader snapshot
  validateClaims signed.claims.toClaimFields provider.profile signed.tokenType signed.headers now
  toVerifiedToken signed.claims signed.kid provider.algorithm signed.tokenType signed.headers

/-- `verify` of a provider without a cache; a clock that fails gives no reading. -/
def JWSProvider.verify (provider : JWSProvider K) (token : Text) (snapshot : KeySnapshot K)
    (reading : Option Instant) : Except JWTError VerifiedToken := do
  let (encodedHeader, _, _) ← validateTokenShape token
  let now ← orRaise .configurationError reading
  provider.verifyUncached token encodedHeader snapshot now

/-- The claims that a verified token was made of. -/
def VerifiedFields.claimFields {J : Type} (fields : VerifiedFields J) : ClaimFields J where
  issuer := some fields.issuer
  subject := fields.subject
  audience := fields.audience
  expiresAt := fields.expiresAt
  notBefore := fields.notBefore
  issuedAt := fields.issuedAt
  jwtId := fields.jwtId
  custom := fields.custom

/-- `_validate_cached` -/
def JWSProvider.validateCached (provider : JWSProvider K) (value : VerifiedToken) (now : Instant) :
    Except JWTError Unit := do
  let claims ← TokenClaims.make (value.claimFields.withCustom (passed value.custom))
  validateClaims claims.toClaimFields provider.profile value.tokenType value.headers now

/-- A snapshot gives out a key under its own identifier, and no revoked one. -/
theorem KeySnapshot.verificationKey_eq_ok
    {snapshot : KeySnapshot K} {kid : Text} {key : JWTKey K}
    (h : snapshot.verificationKey kid = .ok key) :
    key.kid = kid ∧ ¬InMemoryKeyRepository.Revoked snapshot kid := by
  simp only [verificationKey, except_bind_eq_ok, orRaise_eq_ok, raiseIf_eq_ok] at h
  obtain ⟨entry, hentry, -, hstatus, hkey⟩ := h
  constructor
  · exact (snapshot.named _ (OrderedDict.lookup_eq_some.mp hentry)).2 key hkey
  · rintro ⟨entry', hentry', hrevoked⟩
    rw [hentry] at hentry'
    obtain rfl := Option.some.inj hentry'
    exact hstatus hrevoked

/-- The header of the token names the key identifier. -/
def JWSProvider.SignedUnder (provider : JWSProvider K) (token kid : Text) : Prop :=
  ∃ encodedHeader payload signature header,
    validateTokenShape token = .ok (encodedHeader, payload, signature) ∧
      provider.readHeader encodedHeader = .ok header ∧ header.lookup (text "kid") = some kid

theorem JWSProvider.kid_of_readHeader
    {provider : JWSProvider K} {encoded : Text} {header : List (Text × Text)}
    (h : provider.readHeader encoded = .ok header) :
    ∃ kid, header.lookup (text "kid") = some kid := by
  simp only [readHeader, except_bind_eq_ok] at h
  obtain ⟨raw, -, -, -, decoded, -, object, -, h⟩ := h
  split at h
  case h_1 entries =>
    simp only [except_bind_eq_ok, orRaise_eq_ok] at h
    obtain ⟨header', -, kid, hkid, -, -, h⟩ := h
    cases h
    exact ⟨kid, hkid⟩
  case h_2 =>
    cases h

theorem toVerifiedToken_eq_ok
    {claims : TokenClaims} {kid tokenType : Text} {algorithm : JWSAlgorithm}
    {headers : List (Text × Text)} {value : VerifiedToken}
    (h : toVerifiedToken claims kid algorithm tokenType headers = .ok value) :
    value.claimFields = claims.toClaimFields ∧ value.kid = kid ∧
      value.tokenType = tokenType ∧ value.headers = headers := by
  simp only [toVerifiedToken, except_bind_eq_ok, orRaise_eq_ok] at h
  obtain ⟨issuer, hissuer, -, -, h⟩ := h
  obtain ⟨hfrozen, hfields⟩ := VerifiedToken.make_eq_ok h
  have hcustom : claims.custom = value.custom :=
    Option.some.inj (claims.frozen.freezeDict_passed.symm.trans hfrozen)
  rw [← hcustom] at hfields
  simp only [VerifiedFields.claimFields, hfields, VerifiedFields.withCustom, ← hissuer, and_self]

/-- What a successful verification has checked. -/
theorem JWSProvider.verifyUncached_eq_ok
    {provider : JWSProvider K} {token encodedHeader : Text} {snapshot : KeySnapshot K}
    {now : Instant} {value : VerifiedToken}
    (h : provider.verifyUncached token encodedHeader snapshot now = .ok value) :
    ∃ signed, provider.decodeToken token encodedHeader snapshot = .ok signed ∧
      validateClaims signed.claims.toClaimFields provider.profile signed.tokenType
        signed.headers now = .ok () ∧
      toVerifiedToken signed.claims signed.kid provider.algorithm signed.tokenType
        signed.headers = .ok value := by
  simp only [verifyUncached, except_bind_eq_ok] at h
  obtain ⟨signed, hsigned, ⟨⟩, hvalid, hvalue⟩ := h
  exact ⟨signed, hsigned, hvalid, hvalue⟩

/-- A token is verified under the key that its header names, and not with a revoked one. -/
theorem JWSProvider.kid_of_verify
    {provider : JWSProvider K} {token : Text} {snapshot : KeySnapshot K}
    {reading : Option Instant} {value : VerifiedToken}
    (h : provider.verify token snapshot reading = .ok value) :
    provider.SignedUnder token value.kid ∧
      ¬InMemoryKeyRepository.Revoked snapshot value.kid := by
  simp only [verify, except_bind_eq_ok, orRaise_eq_ok] at h
  obtain ⟨⟨encodedHeader, payload, signature⟩, hshape, now, -, h⟩ := h
  obtain ⟨signed, hsigned, -, hvalue⟩ := provider.verifyUncached_eq_ok h
  simp only [decodeToken, except_bind_eq_ok] at hsigned
  obtain ⟨header, hheader, key, hkey, -, -, decoded, -, -, -, claims, -, hsigned⟩ := hsigned
  obtain ⟨kid, hkid⟩ := provider.kid_of_readHeader hheader
  rw [hkid] at hkey
  obtain ⟨hname, hrevoked⟩ := KeySnapshot.verificationKey_eq_ok hkey
  cases hsigned
  rw [(toVerifiedToken_eq_ok hvalue).2.1, hname]
  exact ⟨⟨encodedHeader, payload, signature, header, hshape, hheader, hkid⟩, hrevoked⟩

/-- The temporal checks accept a token that is verified. -/
theorem JWSProvider.temporal_of_verify
    {provider : JWSProvider K} {token : Text} {snapshot : KeySnapshot K}
    {reading : Option Instant} {value : VerifiedToken}
    (h : provider.verify token snapshot reading = .ok value) :
    ∃ now, reading = some now ∧
      validateTemporalClaims value.claimFields provider.profile now = .ok () := by
  simp only [verify, except_bind_eq_ok, orRaise_eq_ok] at h
  obtain ⟨⟨encodedHeader, payload, signature⟩, -, now, hreading, h⟩ := h
  obtain ⟨signed, -, hvalid, hvalue⟩ := provider.verifyUncached_eq_ok h
  refine ⟨now, hreading, ?_⟩
  rw [(toVerifiedToken_eq_ok hvalue).1]
  exact validateClaims_temporal hvalid

theorem JWSProvider.SignedUnder.unique
    {provider : JWSProvider K} {token kid kid' : Text}
    (h : provider.SignedUnder token kid) (h' : provider.SignedUnder token kid') :
    kid = kid' := by
  obtain ⟨encodedHeader, payload, signature, header, hshape, hheader, hkid⟩ := h
  obtain ⟨encodedHeader', payload', signature', header', hshape', hheader', hkid'⟩ := h'
  rw [hshape] at hshape'
  cases hshape'
  rw [hheader] at hheader'
  cases hheader'
  rw [hkid] at hkid'
  exact Option.some.inj hkid'

/--
**Checking a verified token again is verifying it again**: once a token has been verified
against a snapshot, at any time the claims alone decide.
-/
theorem JWSProvider.verifyUncached_again
    {provider : JWSProvider K} {token encodedHeader : Text} {snapshot : KeySnapshot K}
    {before : Instant} {value : VerifiedToken}
    (h : provider.verifyUncached token encodedHeader snapshot before = .ok value)
    (now : Instant) :
    provider.verifyUncached token encodedHeader snapshot now =
      (provider.validateCached value now).map fun _ => value := by
  obtain ⟨signed, hsigned, -, hvalue⟩ := provider.verifyUncached_eq_ok h
  obtain ⟨hclaims, -, htype, hheaders⟩ := toVerifiedToken_eq_ok hvalue
  have hmake : TokenClaims.make (value.claimFields.withCustom (passed value.custom)) =
      .ok signed.claims := by
    have hcustom : value.custom = signed.claims.custom := congrArg ClaimFields.custom hclaims
    rw [hclaims, hcustom]
    exact signed.claims.make_fields
  simp only [verifyUncached, validateCached, hsigned, hmake, htype, hheaders, hvalue, bind,
    Except.bind]
  cases validateClaims signed.claims.toClaimFields provider.profile signed.tokenType
      signed.headers now with
  | error e =>
      rfl
  | ok u =>
      rfl

end Verify

end Jwt
end Bluetape
