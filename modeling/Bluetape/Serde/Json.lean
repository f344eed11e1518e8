import Bluetape.Base.Json
import Bluetape.Serde.Contracts

/-!
# Strict JSON

A value to write is a graph of lists and dicts on a heap, so that it may share
objects and contain itself.  Before it is written, a walk over the graph checks
it and bounds its encoding from below; the encoder of the language then yields
the text in chunks.  A text to read is scanned for its depth, read with hooks
that check its numbers and its keys, and its strings are checked for surrogates.
-/

namespace Bluetape
namespace Serde

open Base Base.Json

/-- `MAX_SUPPORTED_NESTING_DEPTH` -/
def maxSupportedNestingDepth : Nat := 256

/-- `MAX_JSON_INTEGER_DIGITS` -/
def maxJsonIntegerDigits : Nat := 640

/-- `sys.maxsize` -/
def sysMaxsize : Int := 2 ^ 63 - 1

/-- What the language does with floats: `math.isfinite`, `float.__repr__`, `float(text)`. -/
structure Floats (F : Type) where
  isFinite : F → Bool
  repr : F → Text
  parse : Text → F

/-! ## Values -/

/-- A value to write; a value of none of the exact types is `other`. -/
inductive PyValue (F : Type)
  | none
  | bool (b : Bool)
  | int (n : Int)
  | float (x : F)
  | str (t : Text)
  | ref (id : Nat)
  | other
deriving DecidableEq, Repr

/-- A key of a dict that may be of any type. -/
inductive DictKey
  | str (t : Text)
  | other
deriving DecidableEq, Repr

/-- The text of a key that is a string. -/
def DictKey.str? : DictKey → Option Text
  | str t => some t
  | other => Option.none

/-- An object on the heap; a dict has no string twice among its keys. -/
inductive Container (F : Type)
  | list (items : List (PyValue F))
  | dict (entries : List (DictKey × PyValue F))
      (nodup : (entries.filterMap fun entry => entry.1.str?).Nodup)

/-- The object of each identity. -/
abbrev Heap (F : Type) :=
  Nat → Container F

/-- `JsonValue`, a value that is read -/
inductive JsonValue (F : Type)
  | none
  | bool (b : Bool)
  | int (n : Int)
  | float (x : F)
  | str (t : Text)
  | list (items : List (JsonValue F))
  | dict (entries : List (Text × JsonValue F))

/-- What the exceptions of the two functions are. -/
inductive JsonException
  | valueError (message : String)
  | serde (error : SerdeError)
deriving DecidableEq, Repr

section Preflight

variable {F : Type}

/-- The bytes that a code point adds to the lower bound. -/
def encodedLowerBound (character : CodePoint) : Except SerdeError Nat :=
  if 0xD800 ≤ character.ord ∧ character.ord ≤ 0xDFFF then .error (.encode .unsupportedValue)
  else if character.ord ≤ 0x7F then .ok 1
  else if character.ord ≤ 0x7FF then .ok 2
  else if character.ord ≤ 0xFFFF then .ok 3
  else .ok 4

/-- `_validate_unicode_scalar_string` -/
def validateUnicodeScalarString (value : Text) : Except SerdeError Nat :=
  value.foldlM (fun bound character => do return bound + (← encodedLowerBound character)) 2

/-- `_list_values` and `_dict_values` with what they have left to yield. -/
inductive TraversalIterator (F : Type)
  | listValues (items : List (PyValue F))
  | dictValues (entries : List (DictKey × PyValue F))

/-- The iterator over an object. -/
def Container.iterator : Container F → TraversalIterator F
  | list items => .listValues items
  | dict entries _ => .dictValues entries

/-- `next(iterator)`, none for `StopIteration` -/
def TraversalIterator.next :
    TraversalIterator F → Except SerdeError (Option ((PyValue F × Nat) × TraversalIterator F))
  | listValues [] => .ok Option.none
  | listValues (item :: items) => .ok (some ((item, 0), listValues items))
  | dictValues [] => .ok Option.none
  | dictValues ((.other, _) :: _) => .error (.encode .unsupportedValue)
  | dictValues ((.str key, item) :: entries) => do
      let keyLowerBound ← validateUnicodeScalarString key
      return some ((item, keyLowerBound + 1), dictValues entries)

/-- `_TraversalFrame` -/
structure TraversalFrame (F : Type) where
  containerId : Nat
  iterator : TraversalIterator F

/-- The state of the walk between two visits. -/
structure Walk (F : Type) where
  current : PyValue F
  pendingLowerBound : Nat
  stack : List (TraversalFrame F)
  activeContainerIds : Finset Nat
  validatedOutputLowerBound : Nat

/-- The checks of a value: its lower bound, and its identity if it is a container. -/
def Walk.check (floats : Floats F) (maxNestingDepth : Nat) (w : Walk F) :
    Except SerdeError (Nat × Option Nat) :=
  match w.current with
  | .none => .ok (1, Option.none)
  | .bool _ => .ok (1, Option.none)
  | .int n => do
      raiseIf (n ≥ 10 ^ maxJsonIntegerDigits ∨ n ≤ -10 ^ maxJsonIntegerDigits)
        (SerdeError.payloadLimit .integerDigitLimit)
      return (1, Option.none)
  | .str t => do return (← validateUnicodeScalarString t, Option.none)
  | .float x => do
      raiseIf (¬floats.isFinite x) (SerdeError.encode .encodeNonFiniteNumber)
      return (1, Option.none)
  | .ref id => do
      raiseIf (w.stack.length + 1 > maxNestingDepth) (SerdeError.payloadLimit .nestingLimit)
      raiseIf (id ∈ w.activeContainerIds) (SerdeError.encode .circularReference)
      return (1, some id)
  | .other => .error (.encode .unsupportedValue)

/-- What is left to visit: the next value, with the frames and identities around it. -/
def advance :
    List (TraversalFrame F) → Finset Nat →
      Except SerdeError (Option ((PyValue F × Nat) × List (TraversalFrame F) × Finset Nat))
  | [], _ => .ok Option.none
  | frame :: stack, active => do
      match ← frame.iterator.next with
      | some (item, iterator) =>
          return some (item, { frame with iterator := iterator } :: stack, active)
      | Option.none => advance stack (active.erase frame.containerId)

/-- One visit, none when it was the last one. -/
def Walk.visit (floats : Floats F) (h : Heap F) (maxNestingDepth maxOutputSize : Nat)
    (w : Walk F) : Except SerdeError (Option (Walk F)) := do
  let (valueLowerBound, containerId) ← w.check floats maxNestingDepth
  let bound := w.validatedOutputLowerBound + (w.pendingLowerBound + valueLowerBound)
  raiseIf (bound > maxOutputSize) (SerdeError.payloadLimit .outputLimit)
  let (stack, active) :=
    match containerId with
    | Option.none => (w.stack, w.activeContainerIds)
    | some id => (⟨id, (h id).iterator⟩ :: w.stack, insert id w.activeContainerIds)
  match ← advance stack active with
  | Option.none => return Option.none
  | some ((current, pending), stack, active) =>
      return some ⟨current, pending, stack, active, bound⟩

/--
The walk from a state on.  Every visit raises the bound, so that there are at most
`maxOutputSize + 1` of them.
-/
def Walk.run (floats : Floats F) (h : Heap F) (maxNestingDepth maxOutputSize : Nat) :
    Nat → Walk F → Except SerdeError Unit
  | 0, _ => .error (.payloadLimit .outputLimit)
  | fuel + 1, w => do
      match ← w.visit floats h maxNestingDepth maxOutputSize with
      | Option.none => return ()
      | some w => w.run floats h maxNestingDepth maxOutputSize fuel

/-- `_preflight_json_value` -/
def preflightJsonValue (floats : Floats F) (h : Heap F) (value : PyValue F)
    (maxNestingDepth maxOutputSize : Nat) : Except SerdeError Unit :=
  Walk.run floats h maxNestingDepth maxOutputSize (maxOutputSize + 1) ⟨value, 0, [], ∅, 0⟩

end Preflight

/-! ## The encoder of the language -/

section Encoder

variable {F : Type}

/-- What ends the chunks of an encoder early. -/
inductive EncodeFailure
  | typeError
  | valueError
  | recursionError
deriving DecidableEq, Repr

/-- The chunks that a generator yields, and what it raises after them. -/
structure Emission where
  chunks : List Text
  failure : Option EncodeFailure

/-- `yield chunk` -/
def Emission.yield (chunk : Text) : Emission :=
  ⟨[chunk], none⟩

def Emission.raise (failure : EncodeFailure) : Emission :=
  ⟨[], some failure⟩

/-- One generator after another one. -/
def Emission.andThen (a b : Emission) : Emission :=
  match a.failure with
  | none => ⟨a.chunks ++ b.chunks, b.failure⟩
  | some failure => ⟨a.chunks, some failure⟩

/-- The text of ASCII bytes. -/
def asciiText (bs : Bytes) : Text :=
  bs.map fun b => .scalar (Char.ofNat b.toNat)

/-- `int.__repr__` -/
def intText (n : Int) : Text :=
  (if n < 0 then [mark '-'] else []) ++ asciiText (decimal n.natAbs)

/-- The elements of a list; the text before an element goes into its first chunk. -/
def encodeItems (encode : Text → PyValue F → Emission) : Text → List (PyValue F) → Emission
  | _, [] => ⟨[], none⟩
  | buf, item :: items => (encode buf item).andThen (encodeItems encode [valueSeparator] items)

/--
The entries of a dict.  The preflight has rejected the keys that are no strings,
of which the encoder would write some.
-/
def encodeEntries (encode : Text → PyValue F → Emission) :
    Bool → List (DictKey × PyValue F) → Emission
  | _, [] => ⟨[], none⟩
  | _, (.other, _) :: _ => .raise .typeError
  | first, (.str key, item) :: entries =>
      (⟨(if first then [] else [[valueSeparator]]) ++ [quote key, [nameSeparator]], none⟩ :
        Emission).andThen ((encode [] item).andThen (encodeEntries encode false entries))

/-- `_iterencode_list` and `_iterencode_dict` of a nonempty object that no marker holds. -/
def encodeContainer (encode : Text → PyValue F → Emission) : Container F → Emission
  | .list items => (encodeItems encode [beginArray] items).andThen (.yield [endArray])
  | .dict entries _ =>
      (Emission.yield [beginObject]).andThen
        ((encodeEntries encode true entries).andThen (.yield [endObject]))

/-- The text of an empty object. -/
def emptyText : Container F → Option Text
  | .list [] => some [beginArray, endArray]
  | .dict [] _ => some [beginObject, endObject]
  | _ => none

/-- `yield buf` before the chunks of a container; nothing is before the outermost one. -/
def bufferChunk (buf : Text) : Emission :=
  ⟨if buf = [] then [] else [buf], none⟩

/-- The values that are no containers, written after `buf`. -/
def encodeScalar (floats : Floats F) (buf : Text) : PyValue F → Emission
  | .none => .yield (buf ++ text "null")
  | .bool true => .yield (buf ++ text "true")
  | .bool false => .yield (buf ++ text "false")
  | .int n => .yield (buf ++ intText n)
  | .float x => if floats.isFinite x then .yield (buf ++ floats.repr x) else .raise .valueError
  | .str t => .yield (buf ++ quote t)
  | .ref _ => ⟨[], none⟩
  | .other => (bufferChunk buf).andThen (.raise .typeError)

/-- `JSONEncoder.iterencode`, with room for a number of nested containers -/
def iterencode (floats : Floats F) (h : Heap F) :
    (frames : Nat) → (markers : List Nat) → Text → PyValue F → Emission
  | frames, markers, buf, .ref id =>
      (bufferChunk buf).andThen
        (match frames with
        | 0 => .raise .recursionError
        | frames + 1 =>
            match emptyText (h id) with
            | some empty => .yield empty
            | none =>
                if id ∈ markers then .raise .valueError
                else encodeContainer (iterencode floats h frames (id :: markers)) (h id))
  | _, _, buf, value => encodeScalar floats buf value

end Encoder

/-! ## Writing -/

section Serialize

variable {F : Type}

/-- `_validate_configuration` and the size and depth part of its twin -/
def validateLimits (sizeName : String) (maxSize maxNestingDepth : Int) :
    Except JsonException Unit := do
  raiseIf (¬(0 ≤ maxSize ∧ maxSize < sysMaxsize))
    (JsonException.valueError (sizeName ++ " must be between 0 and sys.maxsize - 1"))
  raiseIf (¬(0 ≤ maxNestingDepth ∧ maxNestingDepth ≤ maxSupportedNestingDepth))
    (JsonException.valueError
      "max_nesting_depth must be between 0 and MAX_SUPPORTED_NESTING_DEPTH")

/-- `_validate_json_metadata` -/
def validateJsonMetadata (metadata : PayloadMetadata) : Except SerdeError Unit := do
  raiseIf (metadata.format ≠ text "json") SerdeError.formatMismatch
  raiseIf (metadata.contentType ≠ some (text "application/json")) SerdeError.contentTypeMismatch
  raiseIf (metadata.version ≠ 1) SerdeError.unsupportedVersion

/-- The loop over the chunks of the encoder. -/
def collectChunks (maxOutputSize : Nat) : List Text → Bytes → Except SerdeError Bytes
  | [], output => .ok output
  | chunk :: chunks, output => do
      let encodedChunk ← orRaise (.encode .unsupportedValue) (encodeUtf8 chunk)
      raiseIf ((maxOutputSize : Int) - output.length < encodedChunk.length)
        (SerdeError.payloadLimit .outputLimit)
      collectChunks maxOutputSize chunks (output ++ encodedChunk)

/-- The exception for what the encoder raises. -/
def EncodeFailure.error : EncodeFailure → SerdeError
  | recursionError => .encode .encodeRecursion
  | typeError | valueError => .encode .unsupportedValue

/-- What is left of an emission once its chunks have been collected. -/
def Emission.finish (emission : Emission) (output : Bytes) : Except SerdeError Bytes :=
  match emission.failure with
  | none => .ok output
  | some failure => .error failure.error

/-- `json_serialize`, with room for a number of nested containers in the encoder -/
def jsonSerialize (floats : Floats F) (frames : Nat) (h : Heap F) (value : PyValue F)
    (metadata : PayloadMetadata) (maxOutputSize maxNestingDepth : Int) :
    Except JsonException SerializedPayload := do
  validateLimits "max_output_size" maxOutputSize maxNestingDepth
  let data ← Except.mapError JsonException.serde (do
    validateJsonMetadata metadata
    preflightJsonValue floats h value maxNestingDepth.toNat maxOutputSize.toNat
    let emission := iterencode floats h frames [] [] value
    let output ← collectChunks maxOutputSize.toNat emission.chunks []
    emission.finish output)
  return ⟨metadata, data⟩

end Serialize

end Serde
end Bluetape
