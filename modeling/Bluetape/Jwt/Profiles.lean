import Bluetape.Jwt.Claims

/-!
# Validation profiles

The policy of a provider, and the checks of claims against it at one reference time.
Every check is made of the claims, the policy and the time alone.
-/

namespace Bluetape
namespace Jwt

open Base

/--
`ValidationProfile` with the values that its constructor has normalised; durations in
microseconds
-/
structure ValidationProfile where
  tokenType : Text
  allowedIssuers : List Text
  acceptedAudiences : List Text
  requiredClaims : List Text
  protectedHeaders : List (Text × Text)
  clockSkew : Nat
  maxTokenAge : Option Nat
  fingerprint : Text

/-- The policy for one issuer and one audience, without a clock skew. -/
def strictProfile : ValidationProfile where
  tokenType := text "JWT"
  allowedIssuers := [text "i"]
  acceptedAudiences := [text "a"]
  requiredClaims := [text "iss", text "aud"]
  protectedHeaders := []
  clockSkew := 0
  maxTokenAge := none
  fingerprint := text "4399b5197b6e5807cf176d2426a8634d22285d0e1ddad53a56989dcafa77d4b9"

/-- Two dicts are equal, whatever the order of their entries. -/
def sameDict (a b : List (Text × Text)) : Bool :=
  decide (a.length = b.length) && a.all fun entry => b.lookup entry.1 = some entry.2

/-- `_present_claims` -/
def presentClaims (claims : ClaimFields JSONValue) : List Text :=
  claims.custom.map Prod.fst ++
    (if claims.issuer.isSome then [text "iss"] else []) ++
    (if claims.subject.isSome then [text "sub"] else []) ++
    (if claims.audience.isEmpty then [] else [text "aud"]) ++
    (if claims.expiresAt.isSome then [text "exp"] else []) ++
    (if claims.notBefore.isSome then [text "nbf"] else []) ++
    (if claims.issuedAt.isSome then [text "iat"] else []) ++
    (if claims.jwtId.isSome then [text "jti"] else [])

/-- The age of the token, if the profile bounds it. -/
def validateTokenAge (claims : ClaimFields JSONValue) (profile : ValidationProfile)
    (now : Instant) : Except JWTError Unit :=
  match profile.maxTokenAge with
  | none => .ok ()
  | some maxTokenAge =>
      match claims.issuedAt with
      | none => .error .claimError
      | some issuedAt =>
          let tokenAge := now.micros - issuedAt.micros
          raiseIf (tokenAge > maxTokenAge ∧ tokenAge - maxTokenAge > profile.clockSkew)
            JWTError.expiredError

/-- `_validate_temporal_claims` -/
def validateTemporalClaims (claims : ClaimFields JSONValue) (profile : ValidationProfile)
    (now : Instant) : Except JWTError Unit := do
  raiseIf (∃ expiresAt ∈ claims.expiresAt, now.micros - expiresAt.micros ≥ profile.clockSkew)
    JWTError.expiredError
  raiseIf (∃ notBefore ∈ claims.notBefore, notBefore.micros - now.micros > profile.clockSkew)
    JWTError.notYetValidError
  raiseIf (∃ issuedAt ∈ claims.issuedAt, issuedAt.micros - now.micros > profile.clockSkew)
    JWTError.notYetValidError
  raiseIf (∃ expiresAt ∈ claims.expiresAt, ∃ notBefore ∈ claims.notBefore,
    expiresAt.micros ≤ notBefore.micros) JWTError.claimError
  validateTokenAge claims profile now

/-- `_validate_claims` -/
def validateClaims (claims : ClaimFields JSONValue) (profile : ValidationProfile) (tokenType : Text)
    (protectedHeaders : List (Text × Text)) (now : Instant) : Except JWTError Unit := do
  raiseIf (tokenType ≠ profile.tokenType ∨
    sameDict protectedHeaders profile.protectedHeaders = false) JWTError.unsupportedTokenError
  raiseIf (¬∀ name ∈ profile.requiredClaims, name ∈ presentClaims claims) JWTError.claimError
  raiseIf (¬∃ issuer ∈ claims.issuer, issuer ∈ profile.allowedIssuers) JWTError.claimError
  raiseIf (¬∃ audience ∈ claims.audience, audience ∈ profile.acceptedAudiences)
    JWTError.claimError
  validateTemporalClaims claims profile now

theorem validateClaims_temporal
    {claims : ClaimFields JSONValue} {profile : ValidationProfile} {tokenType : Text}
    {protectedHeaders : List (Text × Text)} {now : Instant} {u : Unit}
    (h : validateClaims claims profile tokenType protectedHeaders now = .ok u) :
    validateTemporalClaims claims profile now = .ok () := by
  simp only [validateClaims, except_bind_eq_ok] at h
  obtain ⟨-, -, -, -, -, -, -, -, h⟩ := h
  exact h

end Jwt
end Bluetape
