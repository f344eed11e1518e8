import Bluetape.Base.AsciiDecimal
import Bluetape.Base.Evaluation

/-!
# Bounded decompression

`_decompress` as a program that asks `zlib` for its answers.

* `takeChunk`: which bytes the next call is given;
* `memberRound`: one round of `while not decompressor.eof`;
* `outerRound`: one round of `while True`, which decodes one member;
* `decompress`: `_decompress`.
-/

namespace Bluetape
namespace Compression

open Base

/-- `_INPUT_CHUNK_SIZE` -/
def inputChunkSize : Nat :=
  64 * 1024

/-- `_GZIP_MINIMUM_MEMBER_SIZE` -/
def gzipMinimumMemberSize : Nat :=
  20

/-- `sys.maxsize` -/
def maxsize : Nat :=
  2 ^ 63 - 1

/-- `format_name` -/
inductive Format
  | gzip
  | zlib
  | deflate
deriving DecidableEq, Repr

/-- `zlib.MAX_WBITS` -/
def maxWbits : Int :=
  15

/-- `wbits` of `_decompress` -/
def Format.wbits : Format → Int
  | .gzip => 16 + maxWbits
  | .zlib => maxWbits
  | .deflate => -maxWbits

/-- What `_decompress` raises. -/
inductive Raised
  | valueError (message : String)
  | compressionError (message : String)
  | decompressionLimitError (message : String)
deriving DecidableEq, Repr

def invalidData : Raised :=
  .compressionError "invalid compressed data"

def limitExceeded : Raised :=
  .decompressionLimitError "decompressed output exceeds max_output_size"

/-- The attributes of a decompressor. -/
structure Attributes where
  eof : Bool
  unconsumedTail : Bytes
  unusedData : Bytes
deriving DecidableEq, Repr

/-- The attributes of a new decompressor. -/
def Attributes.fresh : Attributes :=
  ⟨false, [], []⟩

/-- What `_decompress` asks: `zlib`, a new decompressor, and a call of the current one. -/
inductive ZlibQuestion
  | importModule
  | decompressobj (wbits : Int)
  | decompress (chunk : Bytes) (maxLength : Nat)
deriving DecidableEq, Repr

/-- A call answers `none` for `zlib.error`, and else what it returns and leaves. -/
abbrev ZlibQuestion.Answer : ZlibQuestion → Type
  | .importModule => Bool
  | .decompressobj _ => Unit
  | .decompress _ _ => Option (Bytes × Attributes)

/-- What answers the questions of a run, knowing the run so far. -/
abbrev Zlib :=
  Dialogue.History ZlibQuestion.Answer → (q : ZlibQuestion) → q.Answer

/-- Programs that ask `zlib` and may raise. -/
abbrev Prog (α : Type) :=
  ExceptT Raised (Proc Unit Empty ZlibQuestion ZlibQuestion.Answer) α

/-- Ask a question. -/
def asking (q : ZlibQuestion) : Prog q.Answer :=
  liftM (Proc.request q : Proc Unit Empty ZlibQuestion ZlibQuestion.Answer q.Answer)

/-- The variables of `_decompress`. -/
structure Progress where
  cursor : Nat
  remaining : Nat
  output : List Bytes
  pending : List Bytes
  unusedRefeedChunkSize : Option Nat
deriving DecidableEq, Repr

namespace Progress

/-- The refeed size after a piece of that size. -/
def nextRefeedChunkSize (size : Nat) : Nat :=
  if size = gzipMinimumMemberSize then 1 else min inputChunkSize (size * 2)

/-- The largest piece that is taken from the queue. -/
def pieceSize (p : Progress) : Nat :=
  p.unusedRefeedChunkSize.getD inputChunkSize

/-- The next chunk: from the queue, else from the source, else nothing. -/
def takeChunk (source : Bytes) (p : Progress) : Bytes × Progress :=
  match p.pending with
  | queued :: rest =>
      let chunkSize := min queued.length p.pieceSize
      (queued.take chunkSize,
        { p with
          unusedRefeedChunkSize := p.unusedRefeedChunkSize.map nextRefeedChunkSize
          pending := if chunkSize < queued.length then queued.drop chunkSize :: rest else rest })
  | [] =>
      if p.cursor < source.length then
        let nextCursor := min (p.cursor + inputChunkSize) source.length
        ((source.take nextCursor).drop p.cursor, { p with cursor := nextCursor })
      else ([], p)

/-- `output.append` and `remaining -=` -/
def collect (p : Progress) (decoded : Bytes) : Progress :=
  if decoded ≠ [] then
    { p with output := p.output ++ [decoded], remaining := p.remaining - decoded.length }
  else p

/-- `pending.appendleft` -/
def requeue (p : Progress) (piece : Bytes) : Progress :=
  { p with pending := piece :: p.pending }

/-- The queue and the refeed size after a gzip member. -/
def endMember (p : Progress) (unusedData : Bytes) : Progress :=
  let p := if unusedData ≠ [] then p.requeue unusedData else p
  { p with
    unusedRefeedChunkSize := if p.pending ≠ [] then some gzipMinimumMemberSize else none }

/-- Before the loop. -/
def initial (maxOutputSize : Nat) : Progress :=
  ⟨0, maxOutputSize, [], [], none⟩

end Progress

/-- What a round makes of an answer to its chunk. -/
def handleAnswer (chunk : Bytes) (p : Progress) :
    Option (Bytes × Attributes) → Prog ((Progress × Attributes) ⊕ (Progress × Attributes))
  | none => throw invalidData
  | some (decoded, attributes) =>
      if p.remaining < decoded.length then throw limitExceeded
      else if attributes.unconsumedTail ≠ [] then
        return .inl ((p.collect decoded).requeue attributes.unconsumedTail, attributes)
      else if attributes.eof then return .inr (p.collect decoded, attributes)
      else if chunk = [] then throw invalidData
      else return .inl (p.collect decoded, attributes)

/-- One round of `while not decompressor.eof` -/
def memberRound (source : Bytes) (loop : Progress × Attributes) :
    Prog ((Progress × Attributes) ⊕ (Progress × Attributes)) :=
  if loop.2.eof then return .inr loop
  else do
    let taken := loop.1.takeChunk source
    let answer : Option (Bytes × Attributes) ←
      asking (.decompress taken.1 (taken.2.remaining + 1))
    handleAnswer taken.1 taken.2 answer

/-- What follows the last round of a member. -/
def closeMember (format : Format) (source : Bytes) (p : Progress) (attributes : Attributes) :
    Prog (Progress ⊕ Bytes) :=
  if format ≠ .gzip then
    if attributes.unusedData ≠ [] ∨ p.pending ≠ [] ∨ p.cursor < source.length then
      throw invalidData
    else return .inr p.output.flatten
  else
    let p := p.endMember attributes.unusedData
    if p.pending = [] ∧ p.cursor = source.length then return .inr p.output.flatten
    else return .inl p

/-- One round of `while True` -/
def outerRound (format : Format) (source : Bytes) (p : Progress) : Prog (Progress ⊕ Bytes) := do
  let _ ← asking (.decompressobj format.wbits)
  let ended ← Proc.exceptLoop (memberRound source) (p, Attributes.fresh)
  closeMember format source ended.1 ended.2

/-- `_validate_max_output_size` of an integer -/
def validateMaxOutputSize (maxOutputSize : Int) : Prog Unit :=
  if ¬(0 ≤ maxOutputSize ∧ maxOutputSize < maxsize) then
    throw (.valueError "max_output_size is outside the supported range")
  else pure ()

/-- `_zlib` -/
def importZlib : Prog Unit := do
  let imported : Bool ← asking .importModule
  if imported then pure ()
  else throw (.compressionError "zlib support is unavailable")

/-- `_decompress` -/
def decompress (source : Bytes) (maxOutputSize : Int) (format : Format) : Prog Bytes := do
  validateMaxOutputSize maxOutputSize
  importZlib
  Proc.exceptLoop (outerRound format source) (Progress.initial maxOutputSize.toNat)

end Compression
end Bluetape
