import Bluetape.LeaderRedis.Scripts

/-!
# The record check of the Lua sources

The checks that the scripts make with `string.match` are evaluated here: the
fence check is `_is_canonical_fence`, and the record check accepts every
rendered `LeaseRecord` and extracts its two fields.
-/

namespace Bluetape
namespace LeaderRedis

open Base

/-! ## Fences -/

/-- A final greedy class matches exactly when everything left is in it. -/
theorem matchItems_star_end
    (cls : UInt8 → Bool) (s start : Bytes) (caps : List Bytes) :
    LuaPattern.matchItems [.star cls] s start caps =
      if s.all cls = true then some caps.reverse else none := by
  have hshort : ∀ k, k < LuaPattern.runLength cls s →
      LuaPattern.matchItems [] (s.drop k) start caps = none := by
    intro k hk
    have hle := LuaPattern.runLength_le cls s
    have hne : s.drop k ≠ [] := by
      rw [Ne, List.drop_eq_nil_iff]
      omega
    simp [LuaPattern.matchItems, hne]
  rw [LuaPattern.matchItems,
    LuaPattern.findSome_attempts (Nat.zero_le _) hshort]
  by_cases hall : s.all cls = true
  · rw [if_pos hall, LuaPattern.runLength_of_all hall]
    simp [LuaPattern.matchItems]
  · rw [if_neg hall]
    have hne : s.drop (LuaPattern.runLength cls s) ≠ [] :=
      fun h => hall (LuaPattern.all_of_drop_runLength_eq_nil h)
    simp [LuaPattern.matchItems, hne]

theorem matchAnchored_fencePattern
    (fence : Bytes) :
    LuaPattern.matchAnchored fencePattern fence =
      if isCanonicalPositive fence = true then some [] else none := by
  cases fence with
  | nil =>
      simp [LuaPattern.matchAnchored, fencePattern, LuaPattern.matchItems,
        isCanonicalPositive]
  | cons b bs =>
      unfold LuaPattern.matchAnchored fencePattern
      rw [LuaPattern.matchItems, matchItems_star_end]
      cases hb : isPositiveDigit b <;> simp [isCanonicalPositive, hb]

/-- The Lua fence check is `_is_canonical_fence`. -/
theorem validFence_eq
    (fence : Bytes) :
    validFence fence = isCanonicalFence fence := by
  rw [Bool.eq_iff_iff, isCanonicalFence_iff]
  unfold validFence
  rw [matchAnchored_fencePattern]
  by_cases hcanon : isCanonicalPositive fence = true
  · have hrule := length_rule_iff hcanon
    unfold maxRedisIntegerText at hrule
    simp [hcanon, ← hrule]
  · simp [hcanon]

/-! ## Records -/

set_option maxRecDepth 50000 in
theorem luaOwnerClass_of_mem_ownerAlphabet :
    ∀ b ∈ ownerAlphabet, luaOwnerClass b = true := by
  decide

theorem luaOwnerClass_colon :
    luaOwnerClass (byte ':') = false := by
  decide

theorem luaOwnerClass_all
    {owner : Bytes}
    (h : isOwnerToken owner = true) :
    owner.all luaOwnerClass = true := by
  simp only [isOwnerToken, Bool.and_eq_true, List.all_eq_true,
    List.contains_iff_mem] at h
  rw [List.all_eq_true]
  exact fun b hb => luaOwnerClass_of_mem_ownerAlphabet b (h.2 b hb)

theorem ownerToken_length
    {owner : Bytes}
    (h : isOwnerToken owner = true) :
    owner.length = 32 := by
  simp only [isOwnerToken, Bool.and_eq_true, beq_iff_eq] at h
  exact h.1

/-- The greedy owner class stops at the colon and nowhere else. -/
theorem matchItems_owner
    {owner : Bytes} (rest start : Bytes) (ps : List LuaPattern.Item)
    (caps : List Bytes)
    (hne : owner ≠ [])
    (hall : owner.all luaOwnerClass = true) :
    LuaPattern.matchItems
        (.plus luaOwnerClass :: .closeCapture :: LuaPattern.literal ':' :: ps)
        (owner ++ byte ':' :: rest) start caps =
      LuaPattern.matchItems (.closeCapture :: LuaPattern.literal ':' :: ps)
        (byte ':' :: rest) start caps := by
  have hlen : LuaPattern.runLength luaOwnerClass (owner ++ byte ':' :: rest) =
      owner.length := by
    rw [LuaPattern.runLength_append_of_all hall,
      LuaPattern.runLength_cons_of_false luaOwnerClass_colon, Nat.add_zero]
  have hpos : 1 ≤ owner.length := by
    have := List.length_pos_iff.mpr hne
    omega
  have hshort : ∀ k, k < owner.length →
      LuaPattern.matchItems (.closeCapture :: LuaPattern.literal ':' :: ps)
        ((owner ++ byte ':' :: rest).drop k) start caps = none := by
    intro k hk
    rw [LuaPattern.matchItems]
    refine LuaPattern.matchItems_single_eq_none_of_run luaOwnerClass ?_
      (by rw [hlen]; exact hk)
    intro b hb
    rw [beq_eq_false_iff_ne]
    rintro rfl
    rw [luaOwnerClass_colon] at hb
    exact Bool.false_ne_true hb
  rw [LuaPattern.matchItems, hlen, LuaPattern.findSome_attempts hpos hshort]
  simp

/-- The captured fence reaches to the end of the subject. -/
theorem matchItems_fence
    {fence : Bytes} (caps : List Bytes)
    (h : isCanonicalPositive fence = true) :
    LuaPattern.matchItems
        [.openCapture, .single isPositiveDigit, .star isDigit, .closeCapture]
        fence [] caps =
      some (caps.reverse ++ [fence]) := by
  cases fence with
  | nil =>
      simp [isCanonicalPositive] at h
  | cons b bs =>
      simp only [isCanonicalPositive, Bool.and_eq_true] at h
      have hrun := LuaPattern.runLength_of_all h.2
      have hshort : ∀ k, k < LuaPattern.runLength isDigit bs →
          LuaPattern.matchItems [.closeCapture] (bs.drop k) (b :: bs) caps =
            none := by
        intro k hk
        have hne : bs.drop k ≠ [] := by
          rw [Ne, List.drop_eq_nil_iff]
          omega
        simp [LuaPattern.matchItems, hne]
      rw [LuaPattern.matchItems, LuaPattern.matchItems]
      simp only [h.1, if_true]
      rw [LuaPattern.matchItems,
        LuaPattern.findSome_attempts (Nat.zero_le _) hshort, hrun]
      simp [LuaPattern.matchItems]

/-- Every script reads a rendered record as its owner and its fence. -/
theorem luaRecord_toBytes
    (r : LeaseRecord) :
    luaRecord r.toBytes = some (r.ownerToken, decimal r.fencingToken) := by
  have hlen := ownerToken_length r.owner_valid
  have hne : r.ownerToken ≠ [] := by
    intro h
    rw [h] at hlen
    simp at hlen
  have hcanon := isCanonicalPositive_decimal r.fence_pos
  have hv1 : r.toBytes =
      byte 'v' :: byte '1' :: byte ':' ::
        (r.ownerToken ++ byte ':' :: decimal r.fencingToken) := by
    rfl
  have hmatch : LuaPattern.matchAnchored recordPattern r.toBytes =
      some [r.ownerToken, decimal r.fencingToken] := by
    unfold LuaPattern.matchAnchored recordPattern
    rw [hv1]
    simp only [LuaPattern.literal, LuaPattern.matchItems, beq_self_eq_true,
      if_true]
    have howner := matchItems_owner (decimal r.fencingToken)
      (r.ownerToken ++ byte ':' :: decimal r.fencingToken)
      [.openCapture, .single isPositiveDigit, .star isDigit, .closeCapture] [] hne
      (luaOwnerClass_all r.owner_valid)
    simp only [LuaPattern.literal, LuaPattern.matchItems, beq_self_eq_true,
      if_true] at howner
    have hfence := matchItems_fence [r.ownerToken] hcanon
    simp only [LuaPattern.matchItems] at hfence
    rw [howner]
    have hcap : (r.ownerToken ++ byte ':' :: decimal r.fencingToken).take
        ((r.ownerToken ++ byte ':' :: decimal r.fencingToken).length -
          (byte ':' :: decimal r.fencingToken).length) = r.ownerToken := by
      simp
    rw [hcap, hfence]
    rfl
  have hvalid : validFence (decimal r.fencingToken) = true := by
    rw [validFence_eq]
    exact isCanonicalFence_decimal r.fence_pos r.fence_le
  simp [luaRecord, matchRecord, hmatch, hlen, hvalid]

/-! ## Both validators -/

set_option maxRecDepth 50000 in
theorem mem_ownerAlphabet_of_luaOwnerClass
    {b : UInt8}
    (h : luaOwnerClass b = true) :
    b ∈ ownerAlphabet := by
  have hall : ∀ n < 256, luaOwnerClass (UInt8.ofNat n) = true →
      UInt8.ofNat n ∈ ownerAlphabet := by
    decide
  have hb := hall b.toNat b.toNat_lt
  rw [UInt8.ofNat_toNat] at hb
  exact hb h

/-- What the record pattern matches. -/
theorem matchAnchored_recordPattern
    {value : Bytes} {out : List Bytes}
    (h : LuaPattern.matchAnchored recordPattern value = some out) :
    ∃ owner fence, value = ascii "v1" ++ byte ':' :: (owner ++ byte ':' :: fence) ∧
      out = [owner, fence] ∧ owner.all luaOwnerClass = true ∧ isCanonicalPositive fence = true := by
  unfold LuaPattern.matchAnchored recordPattern at h
  obtain ⟨v, s₁, rfl, hv, h⟩ := LuaPattern.matchItems_single_some h
  obtain ⟨one, s₂, rfl, hone, h⟩ := LuaPattern.matchItems_single_some h
  obtain ⟨colon, s₃, rfl, hcolon, h⟩ := LuaPattern.matchItems_single_some h
  obtain ⟨owner, s₄, rfl, -, howner, h⟩ := LuaPattern.exists_of_attempts h
  obtain ⟨colon', s₅, rfl, hcolon', h⟩ := LuaPattern.matchItems_single_some h
  obtain ⟨digit, s₆, rfl, hdigit, h⟩ := LuaPattern.matchItems_single_some h
  obtain ⟨digits, s₇, rfl, -, hdigits, h⟩ := LuaPattern.exists_of_attempts h
  simp only [LuaPattern.matchItems] at h
  obtain ⟨rfl, hout⟩ := Option.ite_none_right_eq_some.mp h
  obtain rfl := eq_of_beq hv
  obtain rfl := eq_of_beq hone
  obtain rfl := eq_of_beq hcolon
  obtain rfl := eq_of_beq hcolon'
  refine ⟨owner, digit :: digits, by simp [ascii], ?_, howner, ?_⟩
  · simpa using (Option.some.inj hout).symm
  · simp [isCanonicalPositive, hdigit, hdigits]

/-- The scripts read only rendered records, as their fields. -/
theorem luaRecord_some
    {value owner fence : Bytes}
    (h : luaRecord value = some (owner, fence)) :
    ∃ r : LeaseRecord, value = r.toBytes ∧ r.ownerToken = owner ∧
      decimal r.fencingToken = fence := by
  unfold luaRecord matchRecord at h
  split at h
  case h_1 => cases h
  case h_2 owner' fence' hmatch =>
      split at hmatch
      case h_2 => cases hmatch
      case h_1 owner'' fence'' hanchored =>
          obtain ⟨rfl, rfl⟩ := Prod.mk.inj (Option.some.inj hmatch)
          obtain ⟨o, f, hvalue, hout, hclass, hcanon⟩ := matchAnchored_recordPattern hanchored
          obtain ⟨rfl, rfl⟩ : owner'' = o ∧ fence'' = f := by simpa using hout
          split at h
          case isTrue => cases h
          case isFalse hok =>
              obtain ⟨rfl, rfl⟩ := Prod.mk.inj (Option.some.inj h)
              simp only [ne_eq, Bool.or_eq_true, decide_eq_true_eq, Bool.not_eq_true', not_or,
                not_not, Bool.not_eq_false, validFence_eq] at hok
              obtain ⟨hlength, hfence⟩ := hok
              have howner : isOwnerToken owner'' = true := by
                simp only [isOwnerToken, Bool.and_eq_true, beq_iff_eq, List.all_eq_true,
                  List.contains_iff_mem]
                exact ⟨hlength, fun b hb =>
                  mem_ownerAlphabet_of_luaOwnerClass (List.all_eq_true.mp hclass b hb)⟩
              have hle := ((isCanonicalFence_iff fence'').mp hfence).2
              refine ⟨⟨owner'', decimalValue fence'', howner, decimalValue_pos hcanon, hle⟩,
                ?_, rfl, decimal_decimalValue hcanon⟩
              rw [hvalue, LeaseRecord.toBytes, decimal_decimalValue hcanon]

/--
**The Lua check and `_LeaseRecord.parse` accept the same bytes**, with the same
owner and fence, and rendering is the inverse of parsing.
-/
theorem lua_and_python_validators_agree :
    (∀ value : Bytes, luaRecord value =
      (LeaseRecord.parse value).map fun r => (r.ownerToken, decimal r.fencingToken)) ∧
    (∀ r : LeaseRecord, LeaseRecord.parse r.toBytes = some r) ∧
    ∀ (value : Bytes) (r : LeaseRecord), LeaseRecord.parse value = some r ↔ value = r.toBytes := by
  have hparse : ∀ (value : Bytes) (r : LeaseRecord),
      LeaseRecord.parse value = some r ↔ value = r.toBytes := by
    intro value r
    constructor
    · exact LeaseRecord.toBytes_of_parse
    · rintro rfl
      exact LeaseRecord.parse_toBytes r
  refine ⟨fun value => ?_, LeaseRecord.parse_toBytes, hparse⟩
  cases hvalue : LeaseRecord.parse value with
  | some r =>
      obtain rfl := (hparse value r).mp hvalue
      exact luaRecord_toBytes r
  | none =>
      cases hlua : luaRecord value with
      | none => rfl
      | some fields =>
          -- what the scripts read is a rendered record, which parses
          obtain ⟨owner, fence⟩ := fields
          obtain ⟨r, rfl, -, -⟩ := luaRecord_some hlua
          rw [LeaseRecord.parse_toBytes] at hvalue
          cases hvalue

end LeaderRedis
end Bluetape
