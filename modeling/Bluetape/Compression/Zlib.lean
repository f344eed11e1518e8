import Bluetape.Base.StreamDecoder
import Bluetape.Compression.Core

/-!
# An incremental `zlib`

What `_decompress` relies on: the decompressor of a window size is a stream decoder, a call
returns what the decoder writes for its chunk, and never more than `max_length` bytes.

* `Incremental`: the answers of such a `zlib`, whatever was asked before;
* `reference`: the whole input, byte by byte;
* `simulated`: a `zlib` for given decoders, which answers as the real one does.
-/

namespace Bluetape
namespace Compression

open Base
open Base.StreamDecoder

/-- The stream decoders of the window sizes. -/
abbrev Decoders (σ : Type) :=
  Int → StreamDecoder σ UInt8 UInt8

variable {σ : Type} (dec : Decoders σ)

/-- A state after a chunk that was written completely. -/
def afterChunk (maxLength : Nat) : Bytes × Reading σ UInt8 → Option σ
  | (written, .more s) => if written.length < maxLength then some s else none
  | _ => none

/-- The current decompressor: its window size, and its state inside the stream. -/
def current : Dialogue.History ZlibQuestion.Answer → Option (Int × σ)
  | [] => none
  | ⟨.importModule, _⟩ :: h => current h
  | ⟨.decompressobj wbits, _⟩ :: _ => some (wbits, (dec wbits).start)
  | ⟨.decompress chunk maxLength, _⟩ :: h => do
      let (wbits, s) ← current h
      let s' ← afterChunk maxLength ((dec wbits).feed s chunk)
      return (wbits, s')

/--
The answers to a chunk.  Where the decoder rejects the chunk after `maxLength` bytes exactly,
both are possible: the bytes, or the error.
-/
inductive Answers (maxLength : Nat) : Bytes × Reading σ UInt8 → Option (Bytes × Attributes) → Prop
  | more {written : Bytes} {s : σ} (hfits : written.length < maxLength) :
      Answers maxLength (written, .more s) (some (written, ⟨false, [], []⟩))
  | finished {written rest : Bytes} (hfits : written.length < maxLength) :
      Answers maxLength (written, .finished rest) (some (written, ⟨true, [], rest⟩))
  | rejected {written : Bytes} (hfits : written.length ≤ maxLength) :
      Answers maxLength (written, .rejected) none
  | full {written : Bytes} {reading : Reading σ UInt8} (hfull : maxLength ≤ written.length)
      (attributes : Attributes) :
      Answers maxLength (written, reading) (some (written.take maxLength, attributes))

/-- `zlib` decodes incrementally. -/
structure Incremental (zlib : Zlib) : Prop where
  imported : ∀ h, zlib h .importModule = true
  answers : ∀ h wbits s chunk maxLength, current dec h = some (wbits, s) → 0 < maxLength →
    Answers maxLength ((dec wbits).feed s chunk) (zlib h (.decompress chunk maxLength))

/-- Members may follow one another. -/
def Format.several : Format → Bool
  | .gzip => true
  | .zlib | .deflate => false

/-- The whole input, one byte at a time. -/
def reference (format : Format) (source : Bytes) (limit : Nat) : Except Failure Bytes :=
  (dec format.wbits).decode format.several (.inside (dec format.wbits).start) limit source

/-- What `_decompress` makes of it. -/
def outcome : Except Failure Bytes → Except Raised Bytes
  | .ok output => .ok output
  | .error .limitExceeded => .error limitExceeded
  | .error .corrupted => .error invalidData

/-- The bytes of a chunk that a call has read. -/
def readOf (chunk : Bytes) : Option (Bytes × Attributes) → Bytes
  | none => []
  | some (_, attributes) =>
      chunk.take (chunk.length - attributes.unusedData.length - attributes.unconsumedTail.length)

/-- The bytes that were read so far. -/
def consumed : Dialogue.History ZlibQuestion.Answer → Bytes
  | [] => []
  | ⟨.importModule, _⟩ :: h => consumed h
  | ⟨.decompressobj _, _⟩ :: h => consumed h
  | ⟨.decompress chunk _, answer⟩ :: h => consumed h ++ readOf chunk answer

/-- A chunk starts where the bytes that were read end. -/
def FeedsNext (source : Bytes) (h : Dialogue.History ZlibQuestion.Answer) :
    ZlibQuestion → Prop
  | .decompress chunk _ => consumed h ++ chunk <+: source
  | _ => True

/--
A call that fails although the decoder writes `maxLength` bytes for its chunk before it
rejects it.
-/
def Overruns (zlib : Zlib) (h : Dialogue.History ZlibQuestion.Answer) : ZlibQuestion → Prop
  | .decompress chunk maxLength =>
      zlib h (.decompress chunk maxLength) = none ∧
        ∃ wbits s written, current dec h = some (wbits, s) ∧
          (dec wbits).feed s chunk = (written, .rejected) ∧ written.length = maxLength
  | _ => False

/-- The answer to a chunk, with the error at once where a chunk is rejected. -/
def simulatedAnswer (maxLength : Nat) : Bytes × Reading σ UInt8 → Option (Bytes × Attributes)
  | (written, reading) =>
      if maxLength < written.length then some (written.take maxLength, ⟨false, [], []⟩)
      else
        match reading with
        | .more _ => some (written, ⟨false, [], []⟩)
        | .finished rest => some (written, ⟨true, [], rest⟩)
        | .rejected => none

/-- A `zlib` for given decoders. -/
def simulated : Zlib
  | _, .importModule => true
  | _, .decompressobj _ => ()
  | h, .decompress chunk maxLength => do
      let (wbits, s) ← current dec h
      simulatedAnswer maxLength ((dec wbits).feed s chunk)

/-- A chunk that fills the output exactly. -/
theorem Answers.filled
    {maxLength : Nat} {written : Bytes}
    (hfull : written.length = maxLength)
    (reading : Reading σ UInt8) (attributes : Attributes) :
    Answers maxLength (written, reading) (some (written, attributes)) := by
  have htaken : written.take maxLength = written := List.take_of_length_le hfull.le
  nth_rewrite 2 [← htaken]
  exact .full hfull.ge attributes

theorem answers_simulatedAnswer
    (maxLength : Nat) (fed : Bytes × Reading σ UInt8) :
    Answers maxLength fed (simulatedAnswer maxLength fed) := by
  obtain ⟨written, reading⟩ := fed
  simp only [simulatedAnswer]
  split
  case isTrue hlonger =>
    exact .full hlonger.le _
  case isFalse hfits =>
    have hle := Nat.le_of_not_lt hfits
    cases reading with
    | rejected =>
        exact .rejected hle
    | more s =>
        rcases hle.lt_or_eq with hlt | heq
        · exact .more hlt
        · exact .filled heq _ _
    | finished rest =>
        rcases hle.lt_or_eq with hlt | heq
        · exact .finished hlt
        · exact .filled heq _ _

/-- **The simulated `zlib` is incremental.** -/
theorem incremental_simulated :
    Incremental dec (simulated dec) := by
  constructor
  · intro h
    rfl
  · intro h wbits s chunk maxLength hcurrent _
    change Answers maxLength _ ((current dec h).bind _)
    rw [hcurrent]
    exact answers_simulatedAnswer maxLength _

/-- Inside a raw deflate stream of stored blocks. -/
inductive StoredState
  | header
  | lengths (final : Bool) (read : Bytes)
  | body (final : Bool) (left : Nat)

/-- After a block. -/
def StoredState.closeBlock (final : Bool) : Status StoredState :=
  if final then .finished else .more .header

/-- One byte of a raw deflate stream of stored blocks; other blocks are rejected. -/
def StoredState.step : StoredState → UInt8 → Bytes × Status StoredState
  | .header, b =>
      if b.toNat / 2 % 4 = 0 then ([], .more (.lengths (b.toNat % 2 = 1) []))
      else ([], .rejected)
  | .lengths final [low, high, notLow], notHigh =>
      let length := low.toNat + 256 * high.toNat
      if length + (notLow.toNat + 256 * notHigh.toNat) ≠ 65535 then ([], .rejected)
      else if length = 0 then ([], closeBlock final)
      else ([], .more (.body final length))
  | .lengths final read, b => ([], .more (.lengths final (read ++ [b])))
  | .body final left, b =>
      ([b], if left ≤ 1 then closeBlock final else .more (.body final (left - 1)))

/-- Raw deflate as far as stored blocks go, whatever the window size. -/
def storedBlocks : Decoders StoredState :=
  fun _ => ⟨.header, StoredState.step⟩

end Compression
end Bluetape
