import Bluetape.Base.BinaryReader
import Bluetape.Base.Proc
import Bluetape.Base.Radix

/-!
# Identifier generators

What the generators of identifiers share: the readings of the clock and of the
entropy source with their checks, and a call of `new`, which reads both before
it takes the lock and draws the identifier in one section under it.

Calls of one generator run in threads of a pool.  The section of a call notes
what it issues, so that the list `issued` is in lock order; no section reads it.
-/

namespace Bluetape
namespace Id

open Base

/-- The exceptions of a generator, and what a callback of the caller raises. -/
inductive Raised
  | typeError (message : String)
  | invalidIDError (message : String)
  | idOverflowError (message : String)
  | valueError (message : String)
  | callback
deriving DecidableEq, Repr

/-- What the clock answers: an integer, something else, or an exception. -/
inductive ClockResult
  | int (value : Int)
  | bool (value : Bool)
  | other
  | raised
deriving DecidableEq, Repr

/-- What the entropy source answers. -/
inductive EntropyResult
  | bytes (value : Bytes)
  | other
  | raised
deriving DecidableEq, Repr

/-- `MAX_TIMESTAMP` -/
def maxTimestamp : Nat :=
  (1 <<< 48) - 1

/-- `read_timestamp` -/
def readTimestamp : ClockResult → Except Raised Nat
  | .raised => .error .callback
  | .bool _ | .other => .error (.typeError "clock result must be an integer")
  | .int value =>
      if 0 ≤ value ∧ value ≤ maxTimestamp then .ok value.toNat
      else .error (.idOverflowError "clock result exceeds the 48-bit timestamp range")

/-- `read_entropy` -/
def readEntropy : EntropyResult → Except Raised Bytes
  | .raised => .error .callback
  | .other => .error (.typeError "entropy result must be bytes")
  | .bytes value =>
      if value.length ≠ 10 then
        .error (.invalidIDError "entropy result must contain exactly 10 bytes")
      else .ok value

/-- `int.from_bytes(value, "big")` -/
def fromBytesBig (value : Bytes) : Nat :=
  readDigits (value.map UInt8.toFin)

theorem readTimestamp_eq_ok
    {r : ClockResult} {ms : Nat}
    (h : readTimestamp r = .ok ms) :
    r = .int ms ∧ ms ≤ maxTimestamp := by
  cases r with
  | int value =>
      simp only [readTimestamp] at h
      split at h
      case isTrue hrange =>
          obtain rfl := Except.ok.inj h
          exact ⟨by rw [Int.toNat_of_nonneg hrange.1], by omega⟩
      case isFalse =>
          cases h
  | bool _ | other | raised =>
      cases h

theorem readEntropy_eq_ok
    {r : EntropyResult} {value : Bytes}
    (h : readEntropy r = .ok value) :
    r = .bytes value ∧ value.length = 10 := by
  cases r with
  | bytes bs =>
      simp only [readEntropy] at h
      split at h
      case isTrue =>
          cases h
      case isFalse hlen =>
          obtain rfl := Except.ok.inj h
          exact ⟨rfl, by simpa using hlen⟩
  | other | raised =>
      cases h

theorem fromBytesBig_lt
    (value : Bytes) :
    fromBytesBig value < 256 ^ value.length := by
  have h := readDigits_lt (value.map UInt8.toFin)
  rwa [List.length_map] at h

end Id
end Bluetape
