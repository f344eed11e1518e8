import Bluetape.Jwt.FrozenJson

/-!
# Claims

The claims of a token as its payload gives them, and the verified token that
callers get.  Values of both types have passed the checks of their constructors.
-/

namespace Bluetape
namespace Jwt

open Base

/-- `_REGISTERED_CLAIMS` -/
def registeredClaims : List Text :=
  [text "iss", text "sub", text "aud", text "exp", text "nbf", text "iat", text "jti"]

/-- `_RESERVED_HEADERS` -/
def reservedHeaders : List Text :=
  [text "alg", text "kid", text "typ", text "crit", text "jku", text "jwk", text "x5u",
    text "x5c", text "x5t", text "x5t#S256", text "cty", text "b64", text "zip"]

/-! ## Claims and verified tokens -/

/-- The fields of `TokenClaims`, with its custom claims before or after they are frozen. -/
structure ClaimFields (J : Type) where
  issuer : Option Text
  subject : Option Text
  audience : List Text
  expiresAt : Option Instant
  notBefore : Option Instant
  issuedAt : Option Instant
  jwtId : Option Text
  custom : List (Text × J)

/-- The fields with other custom claims. -/
def ClaimFields.withCustom {J J' : Type} (fields : ClaimFields J) (custom : List (Text × J')) :
    ClaimFields J' :=
  { fields with custom := custom }

/-- What the constructor of `TokenClaims` demands besides that the custom claims are frozen. -/
def ClaimFields.accepted {J : Type} (fields : ClaimFields J) : Bool :=
  fields.issuer.all isTrimmed && fields.subject.all isTrimmed && fields.jwtId.all isTrimmed &&
    fields.audience.all isTrimmed &&
    (fields.custom.map Prod.fst).all fun name => name ∉ registeredClaims

/-- `TokenClaims` -/
structure TokenClaims extends ClaimFields JSONValue where
  valid : toClaimFields.accepted = true
  frozen : Frozen custom

/-- The constructor of `TokenClaims`; freezing changes no name. -/
def TokenClaims.make (fields : ClaimFields RawValue) : Except JWTError TokenClaims :=
  match hfrozen : freezeDict fields.custom with
  | none => .error .claimError
  | some custom =>
      if hvalid : (fields.withCustom custom).accepted = true then
        .ok ⟨fields.withCustom custom, hvalid, ⟨fields.custom, hfrozen⟩⟩
      else .error .claimError

/-- Fields with the same names and strings, frozen to the custom claims of a value. -/
theorem TokenClaims.make_of_frozen
    {raw : List (Text × RawValue)}
    (claims : TokenClaims)
    (hfrozen : freezeDict raw = some claims.custom) :
    TokenClaims.make (claims.toClaimFields.withCustom raw) = .ok claims := by
  unfold make
  split
  case h_1 hnone =>
    rw [ClaimFields.withCustom, hfrozen] at hnone
    cases hnone
  case h_2 custom hsome =>
    obtain rfl : claims.custom = custom := Option.some.inj (hfrozen.symm.trans hsome)
    exact dif_pos claims.valid

/-- The fields of claims make the same claims again. -/
theorem TokenClaims.make_fields
    (claims : TokenClaims) :
    TokenClaims.make (claims.toClaimFields.withCustom (passed claims.custom)) = .ok claims :=
  make_of_frozen claims claims.frozen.freezeDict_passed

/-- The fields of `VerifiedToken`, with its custom claims before or after they are frozen. -/
structure VerifiedFields (J : Type) where
  kid : Text
  algorithm : JWSAlgorithm
  tokenType : Text
  issuer : Text
  subject : Option Text
  audience : List Text
  expiresAt : Option Instant
  notBefore : Option Instant
  issuedAt : Option Instant
  jwtId : Option Text
  custom : List (Text × J)
  headers : List (Text × Text)

/-- The fields with other custom claims. -/
def VerifiedFields.withCustom {J J' : Type} (fields : VerifiedFields J)
    (custom : List (Text × J')) : VerifiedFields J' :=
  { fields with custom := custom }

/-- What the constructor of `VerifiedToken` demands besides that the custom claims are frozen. -/
def VerifiedFields.accepted {J : Type} (fields : VerifiedFields J) : Bool :=
  isTrimmed fields.kid && isTrimmed fields.tokenType && isTrimmed fields.issuer &&
    fields.subject.all isTrimmed && !fields.audience.isEmpty && fields.audience.all isTrimmed &&
    fields.jwtId.all isTrimmed &&
    ((fields.custom.map Prod.fst).all fun name => name ∉ registeredClaims) &&
    fields.headers.all fun entry =>
      isTrimmed entry.1 && decide (entry.1 ∉ reservedHeaders) && isTrimmed entry.2

/-- `VerifiedToken` -/
structure VerifiedToken extends VerifiedFields JSONValue where
  valid : toVerifiedFields.accepted = true
  frozen : Frozen custom

/-- The constructor of `VerifiedToken`. -/
def VerifiedToken.make (fields : VerifiedFields RawValue) : Except JWTError VerifiedToken :=
  match hfrozen : freezeDict fields.custom with
  | none => .error .claimError
  | some custom =>
      if hvalid : (fields.withCustom custom).accepted = true then
        .ok ⟨fields.withCustom custom, hvalid, ⟨fields.custom, hfrozen⟩⟩
      else .error .claimError

theorem VerifiedToken.make_eq_ok
    {fields : VerifiedFields RawValue} {token : VerifiedToken}
    (h : VerifiedToken.make fields = .ok token) :
    freezeDict fields.custom = some token.custom ∧
      token.toVerifiedFields = fields.withCustom token.custom := by
  unfold make at h
  split at h
  case h_1 =>
    cases h
  case h_2 custom hfrozen =>
    split at h
    case isTrue =>
      cases h
      exact ⟨hfrozen, rfl⟩
    case isFalse =>
      cases h

/-- Accepted fields make a token. -/
theorem VerifiedToken.exists_make
    {fields : VerifiedFields RawValue} {custom : List (Text × JSONValue)}
    (hfrozen : freezeDict fields.custom = some custom)
    (haccepted : (fields.withCustom custom).accepted = true) :
    ∃ token, VerifiedToken.make fields = .ok token := by
  unfold make
  split
  case h_1 hnone =>
    rw [hfrozen] at hnone
    cases hnone
  case h_2 custom' hsome =>
    obtain rfl : custom = custom' := Option.some.inj (hfrozen.symm.trans hsome)
    exact ⟨_, dif_pos haccepted⟩

/-- `_to_verified_token` -/
def toVerifiedToken (claims : TokenClaims) (kid : Text) (algorithm : JWSAlgorithm)
    (tokenType : Text) (headers : List (Text × Text)) : Except JWTError VerifiedToken := do
  let issuer ← orRaise .claimError claims.issuer
  raiseIf (claims.audience = []) JWTError.claimError
  VerifiedToken.make
    { kid := kid
      algorithm := algorithm
      tokenType := tokenType
      issuer := issuer
      subject := claims.subject
      audience := claims.audience
      expiresAt := claims.expiresAt
      notBefore := claims.notBefore
      issuedAt := claims.issuedAt
      jwtId := claims.jwtId
      custom := passed claims.custom
      headers := headers }

/-! ## Payloads -/

/-- `_validate_string` of an inbound value -/
def validateString : RawValue → Except JWTError Text
  | .str value => if isTrimmed value then .ok value else .error .malformedTokenError
  | _ => .error .malformedTokenError

/-- `_normalize_audience` of an inbound value that may not be empty -/
def normalizeAudience : RawValue → Except JWTError (List Text)
  | .str value => do
      return [← validateString (.str value)]
  | .list items | .tuple items => do
      raiseIf (items.isEmpty = true) JWTError.malformedTokenError
      items.mapM validateString
  | _ => .error .malformedTokenError

/-- `_numeric_date_to_datetime` -/
def numericDateToDatetime : RawValue → Except JWTError Instant
  | .int n => orRaise .malformedTokenError (fromTimestamp n)
  | .float (some x) => orRaise .malformedTokenError (fromTimestamp x)
  | _ => .error .malformedTokenError

/-- A claim that may be missing, converted. -/
def optionalClaim {α : Type} (copied : List (Text × RawValue)) (name : Text)
    (convert : RawValue → Except JWTError α) : Except JWTError (Option α) :=
  match copied.lookup name with
  | none => .ok none
  | some value => (convert value).map some

/-- `_claims_from_payload` -/
def claimsFromPayload : RawValue → Except JWTError TokenClaims
  | .dict copied | .mapping copied => do
      raiseIf ((copied.all fun entry => isTrimmed entry.1) = false) JWTError.malformedTokenError
      let audience ← optionalClaim copied (text "aud") normalizeAudience
      let expiresAt ← optionalClaim copied (text "exp") numericDateToDatetime
      let notBefore ← optionalClaim copied (text "nbf") numericDateToDatetime
      let issuedAt ← optionalClaim copied (text "iat") numericDateToDatetime
      let custom := copied.filter fun entry => entry.1 ∉ registeredClaims
      let frozenCustom ← orRaise .malformedTokenError (freezeDict custom)
      let issuer ← optionalClaim copied (text "iss") validateString
      let subject ← optionalClaim copied (text "sub") validateString
      let jwtId ← optionalClaim copied (text "jti") validateString
      (TokenClaims.make
        { issuer := issuer
          subject := subject
          audience := audience.getD []
          expiresAt := expiresAt
          notBefore := notBefore
          issuedAt := issuedAt
          jwtId := jwtId
          custom := passed frozenCustom }).mapError fun _ => .malformedTokenError
  | _ => .error .malformedTokenError

end Jwt
end Bluetape
