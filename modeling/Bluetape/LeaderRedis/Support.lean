import Bluetape.Base.LuaPattern
import Bluetape.Base.RedisKeyspace

/-!
# Lease records and script arguments

The values that the Redis lock adapter writes and checks: owner tokens,
canonical fences, lease records `v1:<owner>:<fence>`, and whole-millisecond
durations.  A `LeaseRecord` carries its validity, as `_LeaseRecord.__post_init__`
enforces it.
-/

namespace Bluetape
namespace LeaderRedis

open Base

/-- ASCII text as bytes. -/
def ascii (s : String) : Bytes :=
  s.toList.map byte

/-- `_OWNER_ALPHABET` -/
def ownerAlphabet : Bytes :=
  ascii "ABCDEFGHIJKLMNOPQRSTUVWXYZabcdefghijklmnopqrstuvwxyz0123456789-_"

/-- `_OWNER_TOKEN_LENGTH` -/
def ownerTokenLength : Nat := 32

/-- `_MAX_REDIS_INTEGER` -/
def maxRedisInteger : Nat := 9223372036854775807

/-- `_MAX_REDIS_INTEGER_TEXT` -/
def maxRedisIntegerText : Bytes :=
  ascii "9223372036854775807"

/-- `_is_owner_token` -/
def isOwnerToken (value : Bytes) : Bool :=
  value.length == ownerTokenLength && value.all (fun c => ownerAlphabet.contains c)

/-- `_is_canonical_fence` -/
def isCanonicalFence (value : Bytes) : Bool :=
  match value with
  | [] => false
  | c :: _ =>
      isPositiveDigit c && value.all isDigit &&
        (decide (value.length < maxRedisIntegerText.length) ||
          (value.length == maxRedisIntegerText.length &&
            decide (value ≤ maxRedisIntegerText)))

/-- `_LeaseRecord` with the checks of its constructor. -/
structure LeaseRecord where
  ownerToken : Bytes
  fencingToken : Nat
  owner_valid : isOwnerToken ownerToken = true
  fence_pos : 0 < fencingToken
  fence_le : fencingToken ≤ maxRedisInteger
deriving DecidableEq

namespace LeaseRecord

/-- `_LeaseRecord.__init__`, none for the raised `ValueError` -/
def make (ownerToken : Bytes) (fencingToken : Nat) : Option LeaseRecord :=
  if ho : isOwnerToken ownerToken = true then
    if hp : 0 < fencingToken then
      if hl : fencingToken ≤ maxRedisInteger then
        some ⟨ownerToken, fencingToken, ho, hp, hl⟩
      else none
    else none
  else none

/-- `_LeaseRecord.to_bytes` -/
def toBytes (r : LeaseRecord) : Bytes :=
  ascii "v1" ++ byte ':' :: (r.ownerToken ++ byte ':' :: decimal r.fencingToken)

/-- `_LeaseRecord.parse`, none for the raised `ValueError` -/
def parse (value : Bytes) : Option LeaseRecord :=
  if value.all (fun b => decide (b.toNat < 128)) then
    match value.splitOn (byte ':') with
    | [version, owner, fence] =>
        if version = ascii "v1" ∧ isOwnerToken owner = true ∧
            isCanonicalFence fence = true then
          make owner (decimalValue fence)
        else none
    | _ => none
  else none

@[ext] theorem ext
    {r s : LeaseRecord}
    (ho : r.ownerToken = s.ownerToken)
    (hf : r.fencingToken = s.fencingToken) :
    r = s := by
  cases r
  cases s
  simp_all

theorem make_self
    (r : LeaseRecord) :
    make r.ownerToken r.fencingToken = some r := by
  simp [make, r.owner_valid, r.fence_pos, r.fence_le]

end LeaseRecord

/-! ## Fences -/

theorem maxRedisIntegerText_length :
    maxRedisIntegerText.length = 19 := by
  decide

theorem decimalValue_maxRedisIntegerText :
    decimalValue maxRedisIntegerText = maxRedisInteger := by
  decide

theorem isDigit_maxRedisIntegerText :
    maxRedisIntegerText.all isDigit = true := by
  decide

/-- The length rule and the text comparison bound the value by `2^63 - 1`. -/
theorem length_rule_iff
    {bs : Bytes}
    (h : isCanonicalPositive bs = true) :
    (bs.length < 19 ∨ bs.length = 19 ∧ bs ≤ maxRedisIntegerText) ↔
      decimalValue bs ≤ maxRedisInteger := by
  have hall := isCanonicalPositive_all h
  rcases Nat.lt_trichotomy bs.length 19 with hlt | heq | hgt
  · have hval := decimalValue_lt_of_length_lt hall hlt
    have hle : decimalValue bs ≤ maxRedisInteger := by
      unfold maxRedisInteger
      omega
    simp [hlt, hle]
  · have hcmp := @digits_le_iff bs maxRedisIntegerText
      (by rw [heq, maxRedisIntegerText_length]) hall isDigit_maxRedisIntegerText
    rw [decimalValue_maxRedisIntegerText] at hcmp
    simp [heq, hcmp]
  · have hval := pow_le_decimalValue h hgt
    have hnot : ¬ decimalValue bs ≤ maxRedisInteger := by
      unfold maxRedisInteger
      omega
    simp only [hnot, iff_false]
    omega

/-- `_is_canonical_fence` accepts the canonical numerals up to `2^63 - 1`. -/
theorem isCanonicalFence_iff
    (bs : Bytes) :
    isCanonicalFence bs = true ↔
      isCanonicalPositive bs = true ∧ decimalValue bs ≤ maxRedisInteger := by
  cases bs with
  | nil =>
      simp [isCanonicalFence, isCanonicalPositive]
  | cons c cs =>
      have hcanon : isCanonicalPositive (c :: cs) = true ↔
          isPositiveDigit c = true ∧ (c :: cs).all isDigit = true := by
        constructor
        · intro h
          refine ⟨?_, isCanonicalPositive_all h⟩
          simp only [isCanonicalPositive, Bool.and_eq_true] at h
          exact h.1
        · rintro ⟨h1, h2⟩
          simp only [List.all_cons, Bool.and_eq_true] at h2
          simp [isCanonicalPositive, h1, h2.2]
      unfold isCanonicalFence
      rw [maxRedisIntegerText_length]
      simp only [Bool.and_eq_true, Bool.or_eq_true, decide_eq_true_eq,
        beq_iff_eq]
      constructor
      · rintro ⟨hhead, hlen⟩
        have hc := hcanon.mpr hhead
        exact ⟨hc, (length_rule_iff hc).mp hlen⟩
      · rintro ⟨hc, hval⟩
        exact ⟨hcanon.mp hc, (length_rule_iff hc).mpr hval⟩

theorem isCanonicalFence_decimal
    {n : Nat}
    (hpos : 0 < n)
    (hle : n ≤ maxRedisInteger) :
    isCanonicalFence (decimal n) = true := by
  rw [isCanonicalFence_iff, decimalValue_decimal]
  exact ⟨isCanonicalPositive_decimal hpos, hle⟩

/-! ## Lease records -/

set_option maxRecDepth 50000 in
theorem ascii_of_mem_ownerAlphabet :
    ∀ b ∈ ownerAlphabet, b.toNat < 128 ∧ b ≠ byte ':' := by
  decide

theorem ownerToken_bytes
    {owner : Bytes}
    (h : isOwnerToken owner = true) :
    ∀ b ∈ owner, b.toNat < 128 ∧ b ≠ byte ':' := by
  simp only [isOwnerToken, Bool.and_eq_true, List.all_eq_true,
    List.contains_iff_mem] at h
  exact fun b hb => ascii_of_mem_ownerAlphabet b (h.2 b hb)

theorem digit_bytes
    {bs : Bytes}
    (h : bs.all isDigit = true) :
    ∀ b ∈ bs, b.toNat < 128 ∧ b ≠ byte ':' := by
  intro b hb
  have hd := List.all_eq_true.mp h b hb
  simp only [isDigit, decide_eq_true_eq] at hd
  refine ⟨by omega, ?_⟩
  rintro rfl
  exact absurd hd (by decide)

namespace LeaseRecord

theorem splitOn_toBytes
    (r : LeaseRecord) :
    r.toBytes.splitOn (byte ':') =
      [ascii "v1", r.ownerToken, decimal r.fencingToken] := by
  have hv : byte ':' ∉ ascii "v1" := by
    decide
  have ho : byte ':' ∉ r.ownerToken :=
    fun hmem => (ownerToken_bytes r.owner_valid _ hmem).2 rfl
  have hf : byte ':' ∉ decimal r.fencingToken :=
    fun hmem => (digit_bytes (decimal_all_isDigit _) _ hmem).2 rfl
  rw [toBytes, List.splitOn_append_cons_self_of_not_mem hv,
    List.splitOn_append_cons_self_of_not_mem ho, List.splitOn_eq_singleton hf]

set_option maxRecDepth 50000 in
theorem toBytes_ascii
    (r : LeaseRecord) :
    r.toBytes.all (fun b => decide (b.toNat < 128)) = true := by
  have hv : ∀ b ∈ ascii "v1", b.toNat < 128 := by
    decide
  have hcolon : (byte ':').toNat < 128 := by
    decide
  have ho := ownerToken_bytes r.owner_valid
  have hf := digit_bytes (decimal_all_isDigit r.fencingToken)
  rw [List.all_eq_true]
  intro b hb
  simp only [toBytes, List.mem_append, List.mem_cons] at hb
  rw [decide_eq_true_eq]
  rcases hb with hb | rfl | hb | rfl | hb
  · exact hv b hb
  · exact hcolon
  · exact (ho b hb).1
  · exact hcolon
  · exact (hf b hb).1

/-- Parsing a rendered record gives the record back. -/
@[simp] theorem parse_toBytes
    (r : LeaseRecord) :
    parse r.toBytes = some r := by
  unfold parse
  rw [if_pos r.toBytes_ascii, splitOn_toBytes]
  have hfence := isCanonicalFence_decimal r.fence_pos r.fence_le
  simp [r.owner_valid, hfence, make_self]

theorem toBytes_injective
    {r s : LeaseRecord}
    (h : r.toBytes = s.toBytes) :
    r = s := by
  have := congrArg parse h
  simpa using this

/-- Only a rendered record parses. -/
theorem toBytes_of_parse
    {value : Bytes} {r : LeaseRecord}
    (h : parse value = some r) :
    value = r.toBytes := by
  unfold parse at h
  split at h
  case isFalse =>
      simp at h
  case isTrue =>
      split at h
      case h_2 =>
          simp at h
      case h_1 version owner fence hsplit =>
          split at h
          case isFalse =>
              simp at h
          case isTrue hok =>
              obtain ⟨rfl, howner, hfence⟩ := hok
              have hjoin : [byte ':'].intercalate (value.splitOn (byte ':')) = value :=
                List.intercalate_splitOn (byte ':')
              rw [hsplit] at hjoin
              obtain ⟨hcanon, hle⟩ := (isCanonicalFence_iff fence).mp hfence
              have hmake : make owner (decimalValue fence) =
                  some ⟨owner, decimalValue fence, howner,
                    decimalValue_pos hcanon, hle⟩ := by
                simp [make, howner, decimalValue_pos hcanon, hle]
              rw [hmake] at h
              cases h
              rw [toBytes, decimal_decimalValue hcanon, ← hjoin]
              simp [List.intercalate, List.intersperse]

end LeaseRecord

/-! ## Durations -/

/-- A `timedelta`, as its exact number of microseconds between `min` and `max`. -/
structure Timedelta where
  total : Int
  min_le : -86399999913600000000 ≤ total
  le_max : total ≤ 86399999999999999999
deriving DecidableEq, Repr

/-- `timedelta(0)` -/
def noTime : Timedelta :=
  ⟨0, by decide, by decide⟩

theorem noTime_nonneg :
    0 ≤ noTime.total :=
  le_refl 0

namespace Timedelta

/-- `timedelta.days`, the floor of the whole days -/
def days (value : Timedelta) : Int :=
  value.total / 86400000000

/-- `timedelta.seconds` -/
def seconds (value : Timedelta) : Int :=
  value.total % 86400000000 / 1000000

/-- `timedelta.microseconds` -/
def microseconds (value : Timedelta) : Int :=
  value.total % 1000000

end Timedelta

/-- `_duration_milliseconds`, none for the raised `ValueError` -/
def durationMilliseconds (value : Timedelta) : Option Nat :=
  if value.total ≤ 0 then none
  else
    let milliseconds := value.days * 86400000 + value.seconds * 1000 +
      value.microseconds / 1000
    if milliseconds ≤ 0 then none else some milliseconds.toNat

/-- `_duration_nanoseconds` -/
def durationNanoseconds (value : Timedelta) : Int :=
  value.days * 86400000000000 + value.seconds * 1000000000 +
    value.microseconds * 1000

theorem durationNanoseconds_eq
    (value : Timedelta) :
    durationNanoseconds value = value.total * 1000 := by
  unfold durationNanoseconds Timedelta.days Timedelta.seconds Timedelta.microseconds
  omega

/-- The result is the whole milliseconds, when there is at least one. -/
theorem durationMilliseconds_eq
    (value : Timedelta) :
    durationMilliseconds value =
      if value.total < 1000 then none else some (value.total / 1000).toNat := by
  have hms : value.days * 86400000 + value.seconds * 1000 +
      value.microseconds / 1000 = value.total / 1000 := by
    unfold Timedelta.days Timedelta.seconds Timedelta.microseconds
    omega
  unfold durationMilliseconds
  dsimp only
  rw [hms]
  by_cases h : value.total < 1000
  · rw [if_pos h]
    by_cases h0 : value.total ≤ 0
    · rw [if_pos h0]
    · rw [if_neg h0, if_pos (by omega)]
  · rw [if_neg h, if_neg (by omega), if_neg (by omega)]

theorem durationMilliseconds_pos
    {value : Timedelta} {milliseconds : Nat}
    (h : durationMilliseconds value = some milliseconds) :
    0 < milliseconds := by
  rw [durationMilliseconds_eq] at h
  split at h
  · cases h
  · have hms := Option.some.inj h
    omega

end LeaderRedis
end Bluetape
