import Bluetape.Base.LuaPattern
import Bluetape.Base.RedisKeyspace
import Bluetape.CacheRedis.Coordination
import Bluetape.CacheRedis.ProviderLifecycle

/-!
# The snapshot script and the reader of its reply

`COORDINATION_SNAPSHOT_SCRIPT` reports for the marker and for the result of a flight
whether the key exists, the length of its value and a prefix of it.  The client checks
that these fit together and to the limits it has asked with.

* `snapshot_script_and_reader_agree`: whatever is stored, the reply passes the checks,
  and the snapshot says what is stored.
-/

namespace Bluetape
namespace CacheRedis

open Base Serde

/-- `MAX_COORDINATION_MARKER_SIZE` -/
def maxCoordinationMarkerSize : Nat := 138

/-- `DEFAULT_MAX_ENCODED_SIZE` -/
def defaultMaxEncodedSize : Nat := 16 * 1024 * 1024

/-- A limit that `_validate_size_limit` accepts. -/
structure SizeLimit (maximum : Nat) where
  value : Nat
  one_le : 1 ≤ value
  le_maximum : value ≤ maximum

/-- The keys of a flight: `KEYS[1]` and `KEYS[2]`. -/
inductive FlightKey
  | marker
  | result
deriving DecidableEq, Repr

/-- A value of a reply, by the type that the client decodes it to. -/
inductive ReplyValue
  | int (n : Int)
  | bytes (value : Bytes)
  | other
deriving DecidableEq, Repr

/-- A reply: a list, or a value of another type. -/
inductive ScriptReply
  | list (values : List ReplyValue)
  | other
deriving DecidableEq, Repr

section Script

open Script

/-- `tonumber` of an argument; without a number the arithmetic after it fails. -/
def numberArgument (argument : Bytes) : Script FlightKey Int :=
  match Base.parseInteger argument with
  | none => fail .scriptError
  | some n => pure n

/-- `COORDINATION_SNAPSHOT_SCRIPT` -/
def coordinationSnapshotScript (argument₁ argument₂ : Bytes) :
    Script FlightKey (List ReplyValue) := do
  let markerExists ← existsKey .marker
  let markerLength ← strlen .marker
  let markerLimit ← numberArgument argument₁
  let markerReadLimit := if markerLimit < 7 then 7 else markerLimit
  let markerProbe ← getRange .marker 0 (markerReadLimit - 1)
  let markerValue := LuaPattern.sub markerProbe 1 markerLimit
  if LuaPattern.sub markerProbe 1 7 = asciiBytes (text "active:") then
    return [.int markerExists, .int markerLength, .bytes markerValue, .int 0, .int 0, .bytes []]
  let resultExists ← existsKey .result
  let resultLength ← strlen .result
  let resultLimit ← numberArgument argument₂
  let resultValue ← getRange .result 0 (resultLimit - 1)
  return [.int markerExists, .int markerLength, .bytes markerValue,
    .int resultExists, .int resultLength, .bytes resultValue]

end Script

/-! ## The reader -/

/-- The `raise` statements of the reader. -/
def invalidResponse {β : Type} : Except RedisErrorCode β :=
  .error .invalidResponse

/-- `_snapshot_part` -/
def snapshotPart (present length value : ReplyValue) (maximum : Nat) :
    Except RedisErrorCode (Option Bytes × Bool) :=
  match present, length, value with
  | .int present, .int length, .bytes value =>
      if present ≠ 0 ∧ present ≠ 1 then invalidResponse
      else if length < 0 then invalidResponse
      else if present = 0 then
        if length ≠ 0 ∨ value ≠ [] then invalidResponse else .ok (none, false)
      else
        let oversized := decide ((maximum : Int) < length)
        let expectedSize := if oversized then (maximum : Int) else length
        if (value.length : Int) ≠ expectedSize then invalidResponse
        else .ok (some value, oversized)
  | _, _, _ => invalidResponse

/-- `_coordination_snapshot` -/
def readCoordinationSnapshot (response : ScriptReply) (maxMarkerSize maxResultSize : Nat) :
    Except RedisErrorCode RedisCoordinationSnapshot :=
  match response with
  | .list [v₀, v₁, v₂, v₃, v₄, v₅] => do
      let (marker, markerOversized) ← snapshotPart v₀ v₁ v₂ maxMarkerSize
      let (result, resultOversized) ← snapshotPart v₃ v₄ v₅ maxResultSize
      return ⟨marker, result, markerOversized, resultOversized⟩
  | _ => invalidResponse

/-! ## What the script replies -/

/-- The keys hold strings: what GET replies for them. -/
def Stores (db : Keyspace FlightKey) (stored : FlightKey → Option Bytes) : Prop :=
  ∀ k, (Script.get k).run db = (.ok (stored k), db)

/-- The reply of EXISTS for what is stored. -/
def presence (stored : Option Bytes) : Int :=
  if stored.isSome then 1 else 0

/-- The marker starts with `active:`. -/
def IsActive (marker : Option Bytes) : Prop :=
  asciiBytes (text "active:") <+: marker.getD []

instance (marker : Option Bytes) : Decidable (IsActive marker) :=
  inferInstanceAs (Decidable (_ <+: _))

/-- The result that the reply reports: nothing beside an active marker. -/
def reportedResult (stored : FlightKey → Option Bytes) : Option Bytes :=
  if IsActive (stored .marker) then none else stored .result

/-- The three values of the reply about one key. -/
def reportOf (stored : Option Bytes) (limit : Nat) : List ReplyValue :=
  [.int (presence stored), .int (stored.getD []).length, .bytes ((stored.getD []).take limit)]

/-- The probe of the marker holds the bytes of the prefix, whatever the limit is. -/
theorem probe_active_iff
    (marker : Option Bytes) (limit : Nat) :
    ((marker.getD []).take (max 7 limit)).take 7 = asciiBytes (text "active:") ↔
      IsActive marker := by
  have hlength : (asciiBytes (text "active:")).length = 7 := by
    rfl
  rw [List.take_take, min_eq_left (le_max_left 7 limit), IsActive, List.prefix_iff_eq_take,
    hlength, eq_comm]

theorem numberArgument_decimal
    {n : Nat}
    (hpos : 1 ≤ n)
    (hle : n ≤ maxInt64)
    (db : Keyspace FlightKey) :
    (numberArgument (decimal n)).run db = (.ok (n : Int), db) := by
  simp only [numberArgument, parseInteger_decimal hpos hle]
  rfl

/-- **The reply, for every content of the two keys**, and every limit that is a number there. -/
theorem run_coordinationSnapshotScript
    {db : Keyspace FlightKey} {stored : FlightKey → Option Bytes} {maximum : Nat}
    (markerSize : SizeLimit maxCoordinationMarkerSize)
    (resultSize : SizeLimit maximum)
    (hmaximum : maximum ≤ maxInt64)
    (h : Stores db stored) :
    (coordinationSnapshotScript (decimal markerSize.value) (decimal resultSize.value)).run db =
      (.ok (reportOf (stored .marker) markerSize.value ++
        reportOf (reportedResult stored) resultSize.value), db) := by
  obtain ⟨hmarker, hmarkerSome⟩ := Script.stringOf_of_get (h .marker)
  obtain ⟨hresult, hresultSome⟩ := Script.stringOf_of_get (h .result)
  have hlimit₁ := numberArgument_decimal markerSize.one_le
    (markerSize.le_maximum.trans (by decide))
  have hlimit₂ := numberArgument_decimal resultSize.one_le
    (resultSize.le_maximum.trans hmaximum)
  have hread : (if (markerSize.value : Int) < 7 then 7 else (markerSize.value : Int)) =
      ((max 7 markerSize.value : Nat) : Int) := by
    split <;> omega
  unfold coordinationSnapshotScript
  rw [Script.run_bind_ok (Script.run_existsKey .marker db),
    Script.run_bind_ok (Script.run_strlen hmarker), Script.run_bind_ok (hlimit₁ db)]
  simp only [hread]
  rw [Script.run_bind_ok (Script.run_getRange hmarker _ _),
    Script.rangeOf_zero _ (le_max_of_le_left (by decide))]
  have hvalue : LuaPattern.sub ((stored .marker).getD [] |>.take (max 7 markerSize.value)) 1
      markerSize.value = ((stored .marker).getD []).take markerSize.value := by
    rw [LuaPattern.sub_one, List.take_take, min_eq_left (le_max_right 7 markerSize.value)]
  have hprobe : LuaPattern.sub ((stored .marker).getD [] |>.take (max 7 markerSize.value)) 1 7 =
      asciiBytes (text "active:") ↔ IsActive (stored .marker) := by
    rw [← probe_active_iff (stored .marker) markerSize.value]
    exact Iff.of_eq (congrArg (· = _) (LuaPattern.sub_one _ 7))
  simp only [hvalue, hprobe, Script.run_ite, hmarkerSome]
  by_cases hactive : IsActive (stored .marker)
  · rw [if_pos hactive, reportedResult, if_pos hactive]
    simp [reportOf, presence]
  · rw [if_neg hactive, reportedResult, if_neg hactive,
      Script.run_bind_ok (Script.run_existsKey .result db),
      Script.run_bind_ok (Script.run_strlen hresult), Script.run_bind_ok (hlimit₂ db),
      Script.run_bind_ok (Script.run_getRange hresult _ _),
      Script.rangeOf_zero _ resultSize.one_le]
    simp [reportOf, presence, hresultSome]

/-! ## What the snapshot says -/

/-- The reader accepts the three values about a key, and cuts what exceeds the limit. -/
theorem snapshotPart_report
    (stored : Option Bytes) (limit : Nat) :
    snapshotPart (.int (presence stored)) (.int (stored.getD []).length)
        (.bytes ((stored.getD []).take limit)) limit =
      .ok (stored.map (·.take limit), decide (limit < (stored.getD []).length)) := by
  cases stored with
  | none =>
      simp [snapshotPart, presence]
  | some value =>
      have hnonneg : ¬ (value.length : Int) < 0 := by
        omega
      have hsize : min (limit : Int) value.length =
          if limit < value.length then (limit : Int) else value.length := by
        split <;> omega
      simp [snapshotPart, presence, hnonneg, hsize]

/-- The reader accepts what is reported about both keys. -/
theorem readCoordinationSnapshot_report
    (marker result : Option Bytes) (markerLimit resultLimit : Nat) :
    readCoordinationSnapshot (.list (reportOf marker markerLimit ++ reportOf result resultLimit))
        markerLimit resultLimit =
      .ok ⟨marker.map (·.take markerLimit), result.map (·.take resultLimit),
        decide (markerLimit < (marker.getD []).length),
        decide (resultLimit < (result.getD []).length)⟩ := by
  simp only [reportOf, List.cons_append, List.nil_append, readCoordinationSnapshot,
    snapshotPart_report]
  rfl

/-- One part of a snapshot agrees with what is stored and with the reported length. -/
structure PartAgrees (stored : Option Bytes) (limit : Nat) (reported : Int)
    (part : Option Bytes) (oversized : Bool) : Prop where
  length : reported = (stored.getD []).length
  flag : oversized = true ↔ (limit : Int) < reported
  exact : oversized = false → part = stored
  cut : part = stored.map (·.take limit)

theorem PartAgrees.of_report
    (stored : Option Bytes) (limit : Nat) :
    PartAgrees stored limit (stored.getD []).length (stored.map (·.take limit))
      (decide (limit < (stored.getD []).length)) where
  length := rfl
  flag := by simp
  exact hfits := by
    cases stored with
    | none =>
        rfl
    | some value =>
        have hle : value.length ≤ limit := by simpa using hfits
        simp [List.take_of_length_le hle]
  cut := rfl

/--
**The script and the reader of its reply agree.**  The reply is accepted, whatever the
keys store and the limits are.  Each part is flagged exactly when its reported length
exceeds the limit and is exact otherwise; the result is read beside every marker but an
active one, where it is reported absent.
-/
theorem snapshot_script_and_reader_agree
    {db : Keyspace FlightKey} {stored : FlightKey → Option Bytes}
    (markerSize : SizeLimit maxCoordinationMarkerSize)
    (resultSize : SizeLimit defaultMaxEncodedSize)
    (h : Stores db stored) :
    ∃ markerExists markerLength markerValue resultExists resultLength resultValue snapshot,
      (coordinationSnapshotScript (decimal markerSize.value) (decimal resultSize.value)).run db =
        (.ok [.int markerExists, .int markerLength, markerValue,
          .int resultExists, .int resultLength, resultValue], db) ∧
      readCoordinationSnapshot (.list [.int markerExists, .int markerLength, markerValue,
          .int resultExists, .int resultLength, resultValue]) markerSize.value resultSize.value =
        .ok snapshot ∧
      PartAgrees (stored .marker) markerSize.value markerLength
        snapshot.marker snapshot.markerOversized ∧
      (¬ IsActive (stored .marker) →
        PartAgrees (stored .result) resultSize.value resultLength
          snapshot.result snapshot.resultOversized) ∧
      (IsActive (stored .marker) →
        PartAgrees none resultSize.value resultLength
          snapshot.result snapshot.resultOversized) := by
  refine ⟨_, _, _, _, _, _, _,
    run_coordinationSnapshotScript markerSize resultSize (by decide) h,
    readCoordinationSnapshot_report _ _ _ _, PartAgrees.of_report _ _, ?_, ?_⟩
  · intro hactive
    have hreported : reportedResult stored = stored .result := if_neg hactive
    simpa only [hreported] using PartAgrees.of_report (stored .result) resultSize.value
  · intro hactive
    have hreported : reportedResult stored = none := if_pos hactive
    simpa only [hreported] using PartAgrees.of_report none resultSize.value

/-! ## Two snapshots -/

/-- A server that stores these strings, without expiry. -/
def storing (stored : FlightKey → Option Bytes) : Keyspace FlightKey :=
  ⟨0, fun k => (stored k).map fun v => ⟨.string v, none⟩⟩

theorem stores_storing
    (stored : FlightKey → Option Bytes) :
    Stores (storing stored) stored := by
  intro k
  have hlookup : (storing stored).lookup k = (stored k).map fun v => ⟨.string v, none⟩ := by
    cases hk : stored k with
    | none =>
        simp [storing, Keyspace.lookup, hk]
    | some v =>
        simp [storing, Keyspace.lookup, hk, Entry.expired, Option.filter]
  simp only [Script.run, Script.get, hlookup]
  cases hk : stored k with
  | none =>
      rfl
  | some v =>
      rfl

/-- A completed flight with a result of two bytes. -/
def completedFlight : FlightKey → Option Bytes
  | .marker => some (completionMarker (text "t"))
  | .result => some [byte 'a', byte 'b']

/-- The least limits. -/
def leastLimit {maximum : Nat} (h : 1 ≤ maximum) : SizeLimit maximum :=
  ⟨1, le_rfl, h⟩

theorem one_le_maxCoordinationMarkerSize :
    1 ≤ maxCoordinationMarkerSize := by
  decide

theorem one_le_defaultMaxEncodedSize :
    1 ≤ defaultMaxEncodedSize := by
  decide

theorem snapshot_agrees_completed :
    ∃ markerExists markerLength markerValue resultExists resultLength resultValue snapshot,
      (coordinationSnapshotScript (decimal 1) (decimal 1)).run (storing completedFlight) =
        (.ok [.int markerExists, .int markerLength, markerValue,
          .int resultExists, .int resultLength, resultValue], storing completedFlight) ∧
      readCoordinationSnapshot (.list [.int markerExists, .int markerLength, markerValue,
          .int resultExists, .int resultLength, resultValue]) 1 1 = .ok snapshot ∧
      PartAgrees (completedFlight .marker) 1 markerLength
        snapshot.marker snapshot.markerOversized ∧
      (¬ IsActive (completedFlight .marker) →
        PartAgrees (completedFlight .result) 1 resultLength
          snapshot.result snapshot.resultOversized) ∧
      (IsActive (completedFlight .marker) →
        PartAgrees none 1 resultLength snapshot.result snapshot.resultOversized) :=
  snapshot_script_and_reader_agree (leastLimit one_le_maxCoordinationMarkerSize)
    (leastLimit one_le_defaultMaxEncodedSize) (stores_storing completedFlight)

/-- A result beyond the limit is reported as a prefix of it. -/
theorem oversized_result_is_cut :
    Stores (storing completedFlight) completedFlight ∧
    ¬ IsActive (completedFlight .marker) ∧
    ∃ reply snapshot,
      (coordinationSnapshotScript (decimal 138) (decimal 1)).run (storing completedFlight) =
        (.ok reply, storing completedFlight) ∧
      readCoordinationSnapshot (.list reply) 138 1 = .ok snapshot ∧
      snapshot.result = some [byte 'a'] ∧ snapshot.result ≠ completedFlight .result := by
  refine ⟨stores_storing completedFlight, by decide, _, _,
    run_coordinationSnapshotScript ⟨138, by decide, by decide⟩
      (leastLimit one_le_defaultMaxEncodedSize) (by decide) (stores_storing completedFlight),
    rfl, rfl, ?_⟩
  decide

end CacheRedis
end Bluetape
