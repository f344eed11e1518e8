import Bluetape.Serde.Json

/-!
# Reading strict JSON

The depth of a text is scanned before the parser of the language reads it; the
hooks of the parser refuse duplicate keys, numbers that are not finite and
integers with too many digits; last, surrogates are joined or refused.
-/

namespace Bluetape
namespace Serde

open Base Base.Json

/-- The exceptions that the helpers of `json_deserialize` raise. -/
inductive DecodeSignal
  | duplicateKey
  | nonFiniteNumber
  | nestingLimit
  | integerDigitLimit
  | unpairedSurrogate
  | recursionError
deriving DecidableEq, Repr

/-- `_preflight_json_text`, from a state of its scan on -/
def preflightJsonText (maxNestingDepth : Nat) :
    (inString escaped : Bool) → (depth : Nat) → Text → Except DecodeSignal Unit
  | _, _, _, [] => .ok ()
  | true, escaped, depth, character :: rest =>
      if escaped then preflightJsonText maxNestingDepth true false depth rest
      else if character = escapeMark then preflightJsonText maxNestingDepth true true depth rest
      else if character = quotationMark then
        preflightJsonText maxNestingDepth false false depth rest
      else preflightJsonText maxNestingDepth true false depth rest
  | false, escaped, depth, character :: rest =>
      if character = quotationMark then preflightJsonText maxNestingDepth true escaped depth rest
      else if character = beginArray ∨ character = beginObject then
        if depth + 1 > maxNestingDepth then .error .nestingLimit
        else preflightJsonText maxNestingDepth false escaped (depth + 1) rest
      else if (character = endArray ∨ character = endObject) ∧ depth > 0 then
        preflightJsonText maxNestingDepth false escaped (depth - 1) rest
      else preflightJsonText maxNestingDepth false escaped depth rest

section Hooks

variable {F : Type}

/-- `_reject_duplicate_keys` -/
def rejectDuplicateKeys (pairs : List (Text × JsonValue F)) :
    Except DecodeSignal (JsonValue F) := do
  let value ← pairs.foldlM (fun value (key, item) => do
    raiseIf (key ∈ value.map Prod.fst) DecodeSignal.duplicateKey
    return value ++ [(key, item)]) []
  return .dict value

/-- `_parse_finite_float` -/
def parseFiniteFloat (floats : Floats F) (value : Text) : Except DecodeSignal (JsonValue F) := do
  raiseIf (¬floats.isFinite (floats.parse value)) DecodeSignal.nonFiniteNumber
  return .float (floats.parse value)

/-- `int(value)` of a minus sign or none and of digits -/
def intOfText (value : Text) : Int :=
  let digits := (scanMinus value).2.map fun p => UInt8.ofNat p.ord
  if (scanMinus value).1 = [] then decimalValue digits else -decimalValue digits

/-- `_parse_limited_int` -/
def parseLimitedInt (value : Text) : Except DecodeSignal (JsonValue F) := do
  let digitCount := (value.length : Int) - (if value.head? = some (mark '-') then 1 else 0)
  raiseIf (digitCount > maxJsonIntegerDigits) DecodeSignal.integerDigitLimit
  return .int (intOfText value)

/-- The hooks that `json_deserialize` gives to the parser. -/
def jsonHooks (floats : Floats F) : Hooks DecodeSignal (JsonValue F) where
  null := .none
  bool := .bool
  string := .str
  array := .list
  parseInt := parseLimitedInt
  parseFloat := parseFiniteFloat floats
  parseConstant _ := .error .nonFiniteNumber
  objectPairs := rejectDuplicateKeys

end Hooks

/-- `_normalize_unicode_scalar_string` -/
def normalizeUnicodeScalarString : Text → Except DecodeSignal Text
  | [] => .ok []
  | p :: rest =>
      if 0xD800 ≤ p.ord ∧ p.ord ≤ 0xDBFF then
        match rest with
        | [] => .error .unpairedSurrogate
        | low :: rest => do
            raiseIf (¬(0xDC00 ≤ low.ord ∧ low.ord ≤ 0xDFFF)) DecodeSignal.unpairedSurrogate
            let normalized ← normalizeUnicodeScalarString rest
            return joinPair p.ord low.ord :: normalized
      else if 0xDC00 ≤ p.ord ∧ p.ord ≤ 0xDFFF then .error .unpairedSurrogate
      else do
        let normalized ← normalizeUnicodeScalarString rest
        return p :: normalized

section Normalize

variable {F : Type}

/-- `value[key] = item` on the entries of a dict -/
def setEntry (entries : List (Text × JsonValue F)) (key : Text) (item : JsonValue F) :
    List (Text × JsonValue F) :=
  if key ∈ entries.map Prod.fst then
    entries.map fun entry => if entry.1 = key then (key, item) else entry
  else entries ++ [(key, item)]

/-- `value[normalized_key] = value.pop(key)` -/
def moveEntry (entries : List (Text × JsonValue F)) (update : Text × Text) :
    List (Text × JsonValue F) :=
  match entries.find? fun entry => entry.1 = update.1 with
  | none => entries
  | some entry =>
      setEntry (entries.filter fun entry => entry.1 ≠ update.1) update.2 entry.2

/-- The loop over a dict: its entries with their items replaced, and the key updates. -/
def normalizeEntries (normalize : JsonValue F → Except DecodeSignal (JsonValue F))
    (keys : List Text) :
    List (Text × JsonValue F) →
      Except DecodeSignal (List (Text × JsonValue F) × List (Text × Text))
  | [] => .ok ([], [])
  | (key, item) :: entries => do
      let item ← normalize item
      let normalizedKey ← normalizeUnicodeScalarString key
      raiseIf (normalizedKey ≠ key ∧ normalizedKey ∈ keys) DecodeSignal.duplicateKey
      let (rest, keyUpdates) ← normalizeEntries normalize keys entries
      return ((key, item) :: rest,
        if normalizedKey = key then keyUpdates else (key, normalizedKey) :: keyUpdates)

/-- `_normalize_decoded_strings`, with room for a number of nested containers -/
def normalizeDecodedStrings : (frames : Nat) → JsonValue F → Except DecodeSignal (JsonValue F)
  | _, .str t => do return .str (← normalizeUnicodeScalarString t)
  | 0, .list _ => .error .recursionError
  | 0, .dict _ => .error .recursionError
  | frames + 1, .list items => do
      return .list (← items.mapM (normalizeDecodedStrings frames))
  | frames + 1, .dict entries => do
      let (entries, keyUpdates) ←
        normalizeEntries (normalizeDecodedStrings frames) (entries.map Prod.fst) entries
      return .dict (keyUpdates.foldl moveEntry entries)
  | _, value => .ok value

/-- The error for what the parser, its hooks or the normalisation raises. -/
def DecodeSignal.error : DecodeSignal → SerdeError
  | duplicateKey => .malformedPayload .duplicateKey
  | nonFiniteNumber => .malformedPayload .decodeNonFiniteNumber
  | nestingLimit => .payloadLimit .nestingLimit
  | integerDigitLimit => .payloadLimit .integerDigitLimit
  | unpairedSurrogate => .malformedPayload .invalidJson
  | recursionError => .malformedPayload .invalidJson

/-- The error for a failure of the parser. -/
def parserError : Failure DecodeSignal → SerdeError
  | .decode => .malformedPayload .invalidJson
  | .recursion => .malformedPayload .invalidJson
  | .hook signal => signal.error

/-- `_validate_actual_metadata` -/
def validateActualMetadata (actual expected : PayloadMetadata) : Except SerdeError Unit := do
  raiseIf (actual.format ≠ expected.format) SerdeError.formatMismatch
  raiseIf (actual.contentType ≠ expected.contentType) SerdeError.contentTypeMismatch
  raiseIf (actual.version ≠ expected.version) SerdeError.unsupportedVersion
  raiseIf (actual.trustProfile ≠ expected.trustProfile) SerdeError.trustProfileMismatch

/--
`json_deserialize`, with room for a number of nested containers in the parser and in
the normalisation
-/
def jsonDeserialize (floats : Floats F) (frames : Nat) (payload : SerializedPayload)
    (expectedMetadata : PayloadMetadata) (maxInputSize maxNestingDepth : Int) :
    Except JsonException (JsonValue F) := do
  validateLimits "max_input_size" maxInputSize maxNestingDepth
  Except.mapError JsonException.serde (do
    validateJsonMetadata expectedMetadata
    validateActualMetadata payload.metadata expectedMetadata
    raiseIf ((payload.data.length : Int) > maxInputSize) (SerdeError.payloadLimit .inputLimit)
    let text ← orRaise (.malformedPayload .invalidUtf8) (decodeUtf8 payload.data)
    (preflightJsonText maxNestingDepth.toNat false false 0 text).mapError DecodeSignal.error
    let result ← (loads (jsonHooks floats) frames text).mapError parserError
    (normalizeDecodedStrings frames result).mapError DecodeSignal.error)

end Normalize

end Serde
end Bluetape
