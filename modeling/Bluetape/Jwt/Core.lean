import Bluetape.Base.BinaryReader
import Mathlib.Data.List.DropRight
import Mathlib.Data.Rat.Floor

/-!
# Errors, strings and instants of the JWT package
-/

namespace Bluetape
namespace Jwt

open Base

/-- `JWSAlgorithm` -/
inductive JWSAlgorithm
  | HS256
  | HS384
  | HS512
  | RS256
  | RS384
  | RS512
  | PS256
  | PS384
  | PS512
deriving DecidableEq, Repr

/-- The value of a member. -/
def JWSAlgorithm.value : JWSAlgorithm → Text
  | HS256 => text "HS256"
  | HS384 => text "HS384"
  | HS512 => text "HS512"
  | RS256 => text "RS256"
  | RS384 => text "RS384"
  | RS512 => text "RS512"
  | PS256 => text "PS256"
  | PS384 => text "PS384"
  | PS512 => text "PS512"

/-- The classes of exceptions. -/
inductive JWTError
  | configurationError
  | keyStateError
  | keyUnavailableError
  | malformedTokenError
  | unsupportedTokenError
  | signatureError
  | expiredError
  | notYetValidError
  | claimError
  | cacheError
deriving DecidableEq, Repr

/-! ## Strings -/

/-- The characters that `str.strip` takes off. -/
def isWhitespace (p : CodePoint) : Bool :=
  let n := p.ord
  decide ((9 ≤ n ∧ n ≤ 13) ∨ (28 ≤ n ∧ n ≤ 32) ∨ n = 0x85 ∨ n = 0xA0 ∨ n = 0x1680 ∨
    (0x2000 ≤ n ∧ n ≤ 0x200A) ∨ n = 0x2028 ∨ n = 0x2029 ∨ n = 0x202F ∨ n = 0x205F ∨ n = 0x3000)

/-- `value.strip()` -/
def strip (value : Text) : Text :=
  (value.dropWhile isWhitespace).rdropWhile isWhitespace

/-- A nonempty string without white space around it and without a NUL. -/
def isTrimmed (value : Text) : Bool :=
  decide (value ≠ [] ∧ value = strip value ∧ CodePoint.scalar (Char.ofNat 0) ∉ value)

/-- What `_validate_kid` demands. -/
def isKid (kid : Text) : Bool :=
  isTrimmed kid && (encodeUtf8 kid).any fun encoded => decide (encoded.length ≤ 128)

/-! ## Instants -/

/-- An aware datetime in UTC, in microseconds since 1970, from year 1 to year 9999. -/
structure Instant where
  micros : Int
  range : -62135596800000000 ≤ micros ∧ micros ≤ 253402300799999999
deriving DecidableEq, Repr

/-- The nearest integer, and of two the even one. -/
def roundHalfEven (q : ℚ) : Int :=
  let rest := q - ⌊q⌋
  if rest < 1 / 2 then ⌊q⌋
  else if 1 / 2 < rest then ⌊q⌋ + 1
  else if ⌊q⌋ % 2 = 0 then ⌊q⌋
  else ⌊q⌋ + 1

/-- `datetime.fromtimestamp(value, tz=UTC)`, none for its exceptions -/
def fromTimestamp (value : ℚ) : Option Instant :=
  let micros := roundHalfEven (value * 1000000)
  if h : -62135596800000000 ≤ micros ∧ micros ≤ 253402300799999999 then some ⟨micros, h⟩
  else none

end Jwt
end Bluetape
