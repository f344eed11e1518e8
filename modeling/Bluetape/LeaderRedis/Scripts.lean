import Bluetape.LeaderRedis.Support

/-!
# The lease scripts

The five Lua sources of `_scripts.py` as programs over the three keys of one
lock, and the argument checks of the dispatcher.
-/

namespace Bluetape
namespace LeaderRedis

open Base

/-- The keys of one lock: `KEYS[1]`, `KEYS[2]` and `KEYS[3]`. -/
inductive LeaseKey
  | lease
  | fence
  | history
deriving DecidableEq, Repr

/-- The replies of the scripts. -/
inductive Reply
  | acquired (fence : Bytes)
  | contended
  | corrupt
  | renewed
  | notHeld
  | held
  | absent
  | present (record : Bytes)
  | deleted
  | minTtlApplied
deriving DecidableEq, Repr

/-- The Lua pattern `^[1-9][0-9]*$` -/
def fencePattern : List LuaPattern.Item :=
  [.single isPositiveDigit, .star isDigit]

/-- The Lua class `[%w_-]` in the C locale -/
def luaOwnerClass (b : UInt8) : Bool :=
  isDigit b || decide (65 ≤ b.toNat ∧ b.toNat ≤ 90) ||
    decide (97 ≤ b.toNat ∧ b.toNat ≤ 122) || b == byte '_' || b == byte '-'

/-- The Lua pattern `^v1:([%w_-]+):([1-9][0-9]*)$` -/
def recordPattern : List LuaPattern.Item :=
  [LuaPattern.literal 'v', LuaPattern.literal '1', LuaPattern.literal ':',
    .openCapture, .plus luaOwnerClass, .closeCapture, LuaPattern.literal ':',
    .openCapture, .single isPositiveDigit, .star isDigit, .closeCapture]

/-- `valid_fence` of `_FENCE_VALIDATION` -/
def validFence (fence : Bytes) : Bool :=
  if (LuaPattern.matchAnchored fencePattern fence).isNone then false
  else
    let length := fence.length
    decide (length < 19) ||
      (length == 19 && decide (fence ≤ ascii "9223372036854775807"))

/-- `string.match` with the record pattern: the owner and the fence. -/
def matchRecord (current : Bytes) : Option (Bytes × Bytes) :=
  match LuaPattern.matchAnchored recordPattern current with
  | some [owner, fence] => some (owner, fence)
  | _ => none

/-- The record check that every script repeats; none when it fails. -/
def luaRecord (current : Bytes) : Option (Bytes × Bytes) :=
  match matchRecord current with
  | none => none
  | some (owner, fence) =>
      if owner.length ≠ 32 || !validFence fence then none
      else some (owner, fence)

section Scripts

open Script

/-! ## `ACQUIRE_SCRIPT`, block by block -/

/-- The history marker: its type, none when the script returns `CORRUPT`. -/
def acquireHistory : Script LeaseKey (Option KeyType) := do
  let historyType ← type .history
  if historyType ≠ .none then
    if historyType ≠ .string then return none
    if (← pttl .history) ≠ -1 then return none
    if (← Script.get .history) ≠ some (ascii "v1") then return none
  return some historyType

/-- The fence counter: `previous`, none when the script returns `CORRUPT`. -/
def acquirePrevious (historyType : KeyType) :
    Script LeaseKey (Option (Option Bytes)) := do
  let fenceType ← type .fence
  if fenceType = .none then
    if historyType ≠ .none then return none
    return some none
  else
    if historyType = .none then return none
    if fenceType ≠ .string then return none
    if (← pttl .fence) ≠ -1 then return none
    let previous ← getString .fence
    if !validFence previous then return none
    return some (some previous)

/-- The lease key: the reply when there is a lease, none when there is not. -/
def acquireContention (historyType : KeyType) (previous : Option Bytes) :
    Script LeaseKey (Option Reply) := do
  let leaseType ← type .lease
  if leaseType ≠ .none then
    if historyType = .none then return some .corrupt
    if leaseType ≠ .string then return some .corrupt
    let current ← getString .lease
    match luaRecord current with
    | none => return some .corrupt
    | some (_, fence) =>
        if some fence ≠ previous then return some .corrupt
        if (← pttl .lease) ≤ 0 then return some .corrupt
        return some .contended
  return none

/-- The next fence and the record with it. -/
def acquireIssue (historyType : KeyType) (previous : Option Bytes)
    (owner ttl : Bytes) : Script LeaseKey Reply := do
  if previous = some (ascii "9223372036854775807") then return .corrupt
  if historyType = .none then Script.set .history (ascii "v1")
  let _ ← incr .fence
  let fence ← getString .fence
  if !validFence fence then return .corrupt
  let record := ascii "v1" ++ byte ':' :: (owner ++ byte ':' :: fence)
  setPX .lease record ttl
  return .acquired fence

/-- `ACQUIRE_SCRIPT` with `ARGV[1]` the owner token and `ARGV[2]` the TTL -/
def acquireScript (owner ttl : Bytes) : Script LeaseKey Reply := do
  match ← acquireHistory with
  | none => return .corrupt
  | some historyType =>
      match ← acquirePrevious historyType with
      | none => return .corrupt
      | some previous =>
          match ← acquireContention historyType previous with
          | some reply => return reply
          | none => acquireIssue historyType previous owner ttl

/-! ## The scripts on an existing lease -/

/--
The lines that the other four scripts share: the canonical record with time
left, or the reply.  `missing` is `NOT_HELD`, and `ABSENT` in
`RECONCILE_SCRIPT`.
-/
def leaseGuard (missing : Reply) : Script LeaseKey (Except Reply Bytes) := do
  let leaseType ← type .lease
  if leaseType = .none then return .error missing
  if leaseType ≠ .string then return .error .corrupt
  let current ← getString .lease
  if (luaRecord current).isNone then return .error .corrupt
  let ttl ← pttl .lease
  if ttl = -1 then return .error .corrupt
  if ttl ≤ 0 then return .error missing
  return .ok current

/-- `RENEW_SCRIPT` with `ARGV[1]` the record and `ARGV[2]` the TTL -/
def renewScript (record ttl : Bytes) : Script LeaseKey Reply := do
  match ← leaseGuard .notHeld with
  | .error reply => return reply
  | .ok current =>
      if current ≠ record then return .notHeld
      let _ ← pexpire .lease ttl
      return .renewed

/-- `PROBE_SCRIPT` with `ARGV[1]` the record -/
def probeScript (record : Bytes) : Script LeaseKey Reply := do
  match ← leaseGuard .notHeld with
  | .error reply => return reply
  | .ok current =>
      if current ≠ record then return .notHeld
      return .held

/-- `RECONCILE_SCRIPT` -/
def reconcileScript : Script LeaseKey Reply := do
  match ← leaseGuard .absent with
  | .error reply => return reply
  | .ok current => return .present current

/-- `RELEASE_SCRIPT` with `ARGV[1]` the record and `ARGV[2]` the remaining minimum -/
def releaseScript (record remaining : Bytes) : Script LeaseKey Reply := do
  match ← leaseGuard .notHeld with
  | .error reply => return reply
  | .ok current =>
      if current ≠ record then return .notHeld
      if remaining = ascii "0" then
        let _ ← del .lease
        return .deleted
      let _ ← pexpire .lease remaining
      return .minTtlApplied

end Scripts

/-! ## Dispatch -/

/-- A script with its arguments. -/
inductive Call
  | acquire (owner ttl : Bytes)
  | renew (record ttl : Bytes)
  | probe (record : Bytes)
  | release (record remaining : Bytes)
  | reconcile
deriving DecidableEq, Repr

/-- `_validate_milliseconds` -/
def validateMilliseconds (value : Bytes) (allowZero : Bool) : Bool :=
  (allowZero && value == ascii "0") || isCanonicalFence value

/-- `_validate_dispatch`, on the arguments of each script -/
def validateDispatch : Call → Bool
  | .acquire owner ttl => isOwnerToken owner && validateMilliseconds ttl false
  | .renew record ttl =>
      (LeaseRecord.parse record).isSome && validateMilliseconds ttl false
  | .probe record => (LeaseRecord.parse record).isSome
  | .release record remaining =>
      (LeaseRecord.parse record).isSome && validateMilliseconds remaining true
  | .reconcile => true

namespace Call

/-- The source that a call runs. -/
def script : Call → Script LeaseKey Reply
  | acquire owner ttl => acquireScript owner ttl
  | renew record ttl => renewScript record ttl
  | probe record => probeScript record
  | release record remaining => releaseScript record remaining
  | reconcile => reconcileScript

end Call

/-! ## The clock -/

section FrozenClock

open Script

theorem frozen_acquireHistory :
    FrozenClock acquireHistory := by
  refine (frozen_type _).bind fun historyType => ?_
  split
  · split
    · exact frozen_pure _
    · refine (frozen_pttl _).bind fun ttl => ?_
      split
      · exact frozen_pure _
      · refine (frozen_get _).bind fun marker => ?_
        split <;> exact frozen_pure _
  · exact frozen_pure _

theorem frozen_acquirePrevious
    (historyType : KeyType) :
    FrozenClock (acquirePrevious historyType) := by
  refine (frozen_type _).bind fun fenceType => ?_
  split
  · split <;> exact frozen_pure _
  · split
    · exact frozen_pure _
    · split
      · exact frozen_pure _
      · refine (frozen_pttl _).bind fun ttl => ?_
        split
        · exact frozen_pure _
        · refine (frozen_getString _).bind fun previous => ?_
          split <;> exact frozen_pure _

theorem frozen_acquireContention
    (historyType : KeyType) (previous : Option Bytes) :
    FrozenClock (acquireContention historyType previous) := by
  refine (frozen_type _).bind fun leaseType => ?_
  split
  · split
    · exact frozen_pure _
    · split
      · exact frozen_pure _
      · refine (frozen_getString _).bind fun current => ?_
        split
        · exact frozen_pure _
        · split
          · exact frozen_pure _
          · refine (frozen_pttl _).bind fun ttl => ?_
            split <;> exact frozen_pure _
  · exact frozen_pure _

theorem frozen_acquireIssue
    (historyType : KeyType) (previous : Option Bytes) (owner ttl : Bytes) :
    FrozenClock (acquireIssue historyType previous owner ttl) := by
  have hissue : FrozenClock (do
      let _ ← incr .fence
      let fence ← getString .fence
      if !validFence fence then return .corrupt
      let record := ascii "v1" ++ byte ':' :: (owner ++ byte ':' :: fence)
      setPX .lease record ttl
      return .acquired fence : Script LeaseKey Reply) := by
    refine (frozen_incr _).bind fun _ => (frozen_getString _).bind fun fence => ?_
    split
    · exact frozen_pure _
    · exact (frozen_setPX _ _ _).bind fun _ => frozen_pure _
  unfold acquireIssue
  split
  · exact frozen_pure _
  · split
    · exact (frozen_set _ _).bind fun _ => hissue
    · exact hissue

theorem frozen_acquireScript
    (owner ttl : Bytes) :
    FrozenClock (acquireScript owner ttl) := by
  refine frozen_acquireHistory.bind fun historyType => ?_
  cases historyType with
  | none =>
      exact frozen_pure _
  | some historyType =>
      refine (frozen_acquirePrevious historyType).bind fun previous => ?_
      cases previous with
      | none =>
          exact frozen_pure _
      | some previous =>
          refine (frozen_acquireContention historyType previous).bind fun reply => ?_
          cases reply with
          | none =>
              exact frozen_acquireIssue historyType previous owner ttl
          | some reply =>
              exact frozen_pure _

theorem frozen_leaseGuard
    (missing : Reply) :
    FrozenClock (leaseGuard missing) := by
  refine (frozen_type _).bind fun leaseType => ?_
  split
  · exact frozen_pure _
  · split
    · exact frozen_pure _
    · refine (frozen_getString _).bind fun current => ?_
      split
      · exact frozen_pure _
      · refine (frozen_pttl _).bind fun ttl => ?_
        split
        · exact frozen_pure _
        · split <;> exact frozen_pure _

/-- **Frozen clock**: no script moves the clock. -/
theorem Call.frozen
    (call : Call) :
    FrozenClock call.script := by
  cases call with
  | acquire owner ttl =>
      exact frozen_acquireScript owner ttl
  | reconcile =>
      refine (frozen_leaseGuard _).bind fun guard => ?_
      cases guard <;> exact frozen_pure _
  | renew record ttl =>
      refine (frozen_leaseGuard _).bind fun guard => ?_
      cases guard with
      | error reply =>
          exact frozen_pure _
      | ok current =>
          dsimp only
          split
          · exact frozen_pure _
          · exact (frozen_pexpire _ _).bind fun _ => frozen_pure _
  | probe record =>
      refine (frozen_leaseGuard _).bind fun guard => ?_
      cases guard with
      | error reply =>
          exact frozen_pure _
      | ok current =>
          dsimp only
          split <;> exact frozen_pure _
  | release record remaining =>
      refine (frozen_leaseGuard _).bind fun guard => ?_
      cases guard with
      | error reply =>
          exact frozen_pure _
      | ok current =>
          dsimp only
          split
          · exact frozen_pure _
          · split
            · exact (frozen_del _).bind fun _ => frozen_pure _
            · exact (frozen_pexpire _ _).bind fun _ => frozen_pure _

end FrozenClock

end LeaderRedis
end Bluetape
