import Bluetape.LeaderRedis.Scripts

/-!
# Script replies on the client side

What a script reply looks like on the wire, the parsers of `_scripts.py`, and
the exceptions that the lock code raises or lets pass.
-/

namespace Bluetape
namespace LeaderRedis

open Base

/-- The status word of a reply. -/
inductive Status
  | acquired
  | contended
  | corrupt
  | renewed
  | notHeld
  | held
  | absent
  | present
  | deleted
  | minTtlApplied
deriving DecidableEq, Repr

/-- The first part of a reply with this status. -/
def Status.text : Status → Bytes
  | acquired => ascii "ACQUIRED"
  | contended => ascii "CONTENDED"
  | corrupt => ascii "CORRUPT"
  | renewed => ascii "RENEWED"
  | notHeld => ascii "NOT_HELD"
  | held => ascii "HELD"
  | absent => ascii "ABSENT"
  | present => ascii "PRESENT"
  | deleted => ascii "DELETED"
  | minTtlApplied => ascii "MIN_TTL_APPLIED"

/-- The status of a script's reply. -/
def Reply.status : Reply → Status
  | acquired _ => .acquired
  | contended => .contended
  | corrupt => .corrupt
  | renewed => .renewed
  | notHeld => .notHeld
  | held => .held
  | absent => .absent
  | present _ => .present
  | deleted => .deleted
  | minTtlApplied => .minTtlApplied

/-- The parts of a reply after its status. -/
def Reply.payload : Reply → List Bytes
  | acquired fence => [fence]
  | present record => [record]
  | _ => []

/-- What `evalsha` or `eval` returns: byte strings, or any other object. -/
inductive RawReply
  | parts (parts : List Bytes)
  | other
deriving DecidableEq, Repr

/-- The Lua table of a reply, as the client library returns it. -/
def Reply.wire (reply : Reply) : RawReply :=
  .parts (reply.status.text :: reply.payload)

/-- `_parse_acquire_response`, none for the raised `ValueError` -/
def parseAcquireResponse : RawReply → Option (Status × Option Nat)
  | .parts parts =>
      if parts = [Status.contended.text] then some (.contended, none)
      else if parts = [Status.corrupt.text] then some (.corrupt, none)
      else
        match parts with
        | [status, fence] =>
            if status = Status.acquired.text ∧ isCanonicalFence fence = true then
              some (.acquired, some (decimalValue fence))
            else none
        | _ => none
  | .other => none

/-- `_parse_status_response`, none for the raised `ValueError` -/
def parseStatusResponse (allowed : List Status) : RawReply → Option Status
  | .parts [part] => allowed.find? (fun status => status.text = part)
  | _ => none

/-- `_parse_reconcile_response`, none for the raised `ValueError` -/
def parseReconcileResponse : RawReply → Option (Status × Option LeaseRecord)
  | .parts parts =>
      if parts = [Status.absent.text] then some (.absent, none)
      else if parts = [Status.corrupt.text] then some (.corrupt, none)
      else
        match parts with
        | [status, record] =>
            if status = Status.present.text then
              (LeaseRecord.parse record).map (fun r => (.present, some r))
            else none
        | _ => none
  | .other => none

/-! ## What the parsers accept of the scripts -/

theorem Status.text_injective
    {s t : Status}
    (h : s.text = t.text) :
    s = t := by
  revert h
  cases s <;> cases t <;> decide

/-- A parsed status is the status of the reply, which has no payload. -/
theorem status_of_parseStatusResponse
    {allowed : List Status} {reply : Reply} {s : Status}
    (h : parseStatusResponse allowed reply.wire = some s) :
    reply.status = s ∧ s ∈ allowed ∧ reply.payload = [] := by
  unfold Reply.wire parseStatusResponse at h
  cases hpayload : reply.payload with
  | cons part rest =>
      simp [hpayload] at h
  | nil =>
      simp only [hpayload] at h
      have htext : s.text = reply.status.text := by
        simpa using List.find?_some h
      exact ⟨(Status.text_injective htext).symm, List.mem_of_find?_eq_some h, rfl⟩

/-- A parsed fence comes from an `ACQUIRED` reply with it. -/
theorem acquired_of_parseAcquireResponse
    {reply : Reply} {fence : Nat}
    (h : parseAcquireResponse reply.wire = some (.acquired, some fence)) :
    ∃ text, reply = .acquired text ∧ isCanonicalFence text = true ∧
      decimalValue text = fence := by
  simp only [Reply.wire, parseAcquireResponse] at h
  split at h
  case isTrue =>
      simp at h
  case isFalse =>
      split at h
      case isTrue =>
          simp at h
      case isFalse =>
          split at h
          case h_2 =>
              simp at h
          case h_1 status text hparts =>
              obtain ⟨rfl, hpayload⟩ := List.cons.inj hparts
              split at h
              case isFalse =>
                  simp at h
              case isTrue hok =>
                  have hstatus := Status.text_injective hok.1
                  cases reply <;> simp [Reply.status] at hstatus
                  simp only [Reply.payload, List.cons.injEq, and_true] at hpayload
                  subst hpayload
                  simp only [Option.some.injEq, Prod.mk.injEq, true_and] at h
                  exact ⟨_, rfl, hok.2, h⟩

/-- `CONTENDED` is parsed from its own reply only. -/
theorem contended_of_parseAcquireResponse
    {raw : RawReply} {fence : Option Nat}
    (h : parseAcquireResponse raw = some (.contended, fence)) :
    raw = Reply.contended.wire := by
  cases raw with
  | other => cases h
  | parts parts =>
      simp only [parseAcquireResponse] at h
      split at h
      case isTrue hparts =>
          rw [hparts]
          rfl
      case isFalse =>
          split at h
          case isTrue =>
              simp at h
          case isFalse =>
              split at h
              case h_2 =>
                  simp at h
              case h_1 =>
                  split at h <;> simp at h

/-- A parsed record comes from a `PRESENT` reply with its bytes. -/
theorem present_of_parseReconcileResponse
    {reply : Reply} {s : Status} {r : LeaseRecord}
    (h : parseReconcileResponse reply.wire = some (s, some r)) :
    s = .present ∧ reply = .present r.toBytes := by
  simp only [Reply.wire, parseReconcileResponse] at h
  split at h
  case isTrue =>
      simp at h
  case isFalse =>
      split at h
      case isTrue =>
          simp at h
      case isFalse =>
          split at h
          case h_2 =>
              simp at h
          case h_1 status text hparts =>
              obtain ⟨rfl, hpayload⟩ := List.cons.inj hparts
              split at h
              case isFalse =>
                  simp at h
              case isTrue hok =>
                  have hstatus := Status.text_injective hok
                  cases reply <;> simp [Reply.status] at hstatus
                  simp only [Reply.payload, List.cons.injEq, and_true] at hpayload
                  subst hpayload
                  obtain ⟨r', hparse, heq⟩ := Option.map_eq_some_iff.mp h
                  simp only [Prod.mk.injEq, Option.some.injEq] at heq
                  obtain ⟨rfl, rfl⟩ := heq
                  exact ⟨rfl, by rw [LeaseRecord.toBytes_of_parse hparse]⟩

/-! ## Exceptions -/

/--
What Python code may raise here.  `uncertain` stands for the three error types
after which a command may or may not have run; tags tell foreign exceptions
apart.
-/
inductive Raised
  | backendError
  | releaseError
  | leaseLost
  | invalidOptions
  | execution (action lifecycle : Raised)
  | uncertain
  | exception (tag : Nat)
  | control (tag : Nat)
  | base (tag : Nat)
deriving DecidableEq, Repr

namespace Raised

/-- Instances of `LeaderError` -/
def isLeaderError : Raised → Bool
  | backendError | releaseError | leaseLost | invalidOptions | execution .. => true
  | _ => false

/-- Instances of `KeyboardInterrupt`, `SystemExit` or `GeneratorExit` -/
def isControl : Raised → Bool
  | control _ => true
  | _ => false

/-- Instances of `Exception` -/
def isException : Raised → Bool
  | control _ | base _ => false
  | _ => true

/-- The message of a lifecycle failure, which a note repeats. -/
def message : Raised → String
  | backendError => "leader backend operation failed"
  | releaseError => "leader release failed"
  | leaseLost => "leader lease was lost"
  | invalidOptions => "leader options are invalid"
  | execution .. => "leader action and lifecycle both failed"
  | _ => ""

end Raised

end LeaderRedis
end Bluetape
