import Bluetape.Id.Generator
import Bluetape.Id.Ulid
import Bluetape.Id.Uuid

/-!
# The monotonic generators

`UUID7Generator` and `MonotonicULIDGenerator`.  Under the lock both go on from
the last millisecond issued when the clock has not passed it: by a counter,
which the one carries into the millisecond and the other does not.
-/

namespace Bluetape
namespace Id

open Base

/-! ## `UUID7Generator` -/

/-- `_RAND_A_MASK` -/
def randAMask : Nat :=
  (1 <<< 12) - 1

/-- `_RAND_B_MASK` -/
def randBMask : Nat :=
  (1 <<< 62) - 1

/-- The fields of `UUID7Generator` that change. -/
structure UUID7Fields where
  lastMs : Option Nat
  counter : Nat
deriving DecidableEq, Repr

/-- The millisecond and the counter that the section of `new` decides on. -/
def UUID7Fields.next (observedMs seed : Nat) (s : UUID7Fields) : Except Raised (Nat × Nat) :=
  match s.lastMs with
  | none => .ok (observedMs, seed)
  | some lastMs =>
      if observedMs > lastMs then .ok (observedMs, seed)
      else if s.counter < randAMask then .ok (lastMs, s.counter + 1)
      else
        let logicalMs := lastMs + 1
        if logicalMs > maxTimestamp then
          .error (.idOverflowError "UUIDv7 timestamp range is exhausted")
        else .ok (logicalMs, seed)

/-- The section of `UUID7Generator.new`. -/
def UUID7Fields.draw (observedMs : Nat) (entropy : Bytes) (s : UUID7Fields) :
    Except Raised UUID × UUID7Fields :=
  let seed := fromBytesBig (entropy.take 2) &&& randAMask
  let randomBits := fromBytesBig (entropy.drop 2) &&& randBMask
  match s.next observedMs seed with
  | .error e => (.error e, s)
  | .ok (logicalMs, counter) =>
      match UUID.ofInt (packUuid7 logicalMs counter randomBits) with
      | .error e => (.error e, s)
      | .ok value => (.ok value, ⟨some logicalMs, counter⟩)

/-- `UUID7Generator` -/
def uuid7Generator : Generator UUID7Fields UUID where
  init := ⟨none, 0⟩
  lastMs := UUID7Fields.lastMs
  draw := UUID7Fields.draw

/-! ## `MonotonicULIDGenerator` -/

/-- The fields of `MonotonicULIDGenerator` that change. -/
structure ULIDFields where
  lastMs : Option Nat
  randomness : Nat
deriving DecidableEq, Repr

/-- The millisecond and the randomness that the section of `new` decides on. -/
def ULIDFields.next (observedMs freshRandomness : Nat) (s : ULIDFields) :
    Except Raised (Nat × Nat) :=
  match s.lastMs with
  | none => .ok (observedMs, freshRandomness)
  | some lastMs =>
      if observedMs > lastMs then .ok (observedMs, freshRandomness)
      else if s.randomness = maxRandomness then
        .error (.idOverflowError "monotonic ULID randomness is exhausted")
      else .ok (lastMs, s.randomness + 1)

/-- The section of `MonotonicULIDGenerator.new`. -/
def ULIDFields.draw (observedMs : Nat) (entropy : Bytes) (s : ULIDFields) :
    Except Raised Text × ULIDFields :=
  let freshRandomness := fromBytesBig entropy
  match s.next observedMs freshRandomness with
  | .error e => (.error e, s)
  | .ok (logicalMs, randomness) =>
      (.ok (encode logicalMs randomness), ⟨some logicalMs, randomness⟩)

/-- `MonotonicULIDGenerator` -/
def monotonicULIDGenerator : Generator ULIDFields Text where
  init := ⟨none, 0⟩
  lastMs := ULIDFields.lastMs
  draw := ULIDFields.draw

/-! ## Going upwards -/

/--
The last millisecond and tail are followed by a greater pair, whose
millisecond is no smaller than the one observed.
-/
def Advances (lastMs : Option Nat) (tail observedMs ms tail' : Nat) : Prop :=
  observedMs ≤ ms ∧
    ∀ last ∈ lastMs, last < ms ∨ last = ms ∧ tail < tail'

theorem Advances.le
    {lastMs : Option Nat} {tail observedMs ms tail' : Nat}
    (h : Advances lastMs tail observedMs ms tail') :
    ∀ m, lastMs = some m → m ≤ ms := by
  intro m hm
  rcases h.2 m hm with hlt | ⟨rfl, -⟩
  · exact hlt.le
  · exact le_rfl

section Uuid

variable {s : UUID7Fields} {observedMs seed ms counter : Nat}

theorem UUID7Fields.next_eq_ok
    (hobserved : observedMs ≤ maxTimestamp)
    (hseed : seed < 2 ^ 12)
    (hlast : ∀ last ∈ s.lastMs, last ≤ maxTimestamp)
    (h : s.next observedMs seed = .ok (ms, counter)) :
    Advances s.lastMs s.counter observedMs ms counter ∧ counter < 2 ^ 12 ∧ ms ≤ maxTimestamp := by
  cases hstate : s.lastMs with
  | none =>
      simp only [next, hstate, Except.ok.injEq, Prod.mk.injEq] at h
      obtain ⟨rfl, rfl⟩ := h
      exact ⟨⟨le_rfl, nofun⟩, hseed, hobserved⟩
  | some last =>
      have hbound := hlast last hstate
      simp only [next, hstate] at h
      split_ifs at h with hlater hroom hend
      · -- the clock has moved on
        obtain ⟨rfl, rfl⟩ := Prod.mk.inj (Except.ok.inj h)
        refine ⟨⟨le_rfl, fun m hm => ?_⟩, hseed, hobserved⟩
        obtain rfl := Option.some.inj hm
        exact Or.inl hlater
      · -- one more in the same millisecond
        obtain ⟨rfl, rfl⟩ := Prod.mk.inj (Except.ok.inj h)
        simp only [randAMask, Nat.shiftLeft_eq] at hroom
        refine ⟨⟨by omega, fun m hm => ?_⟩, by omega, hbound⟩
        obtain rfl := Option.some.inj hm
        exact Or.inr ⟨rfl, Nat.lt_succ_self _⟩
      · -- the counter is carried into the millisecond
        obtain ⟨rfl, rfl⟩ := Prod.mk.inj (Except.ok.inj h)
        refine ⟨⟨by omega, fun m hm => ?_⟩, hseed, by omega⟩
        obtain rfl := Option.some.inj hm
        exact Or.inl (Nat.lt_succ_self _)

/-- The bits after the counter, from eight bytes of entropy. -/
theorem and_randBMask_lt
    (n : Nat) :
    n &&& randBMask < 2 ^ 62 := by
  rw [randBMask, Nat.shiftLeft_eq, Nat.one_mul, Nat.and_two_pow_sub_one_eq_mod]
  exact Nat.mod_lt n (Nat.two_pow_pos 62)

theorem and_randAMask_lt
    (n : Nat) :
    n &&& randAMask < 2 ^ 12 := by
  rw [randAMask, Nat.shiftLeft_eq, Nat.one_mul, Nat.and_two_pow_sub_one_eq_mod]
  exact Nat.mod_lt n (Nat.two_pow_pos 12)

/-- The fields hold the millisecond and the counter of the last identifier. -/
def UUID7Fields.Follows (s : UUID7Fields) : Option UUID → Prop
  | none => s.lastMs = none
  | some value => ∃ ms randomBits, s.lastMs = some ms ∧ ms ≤ maxTimestamp ∧
      s.counter < 2 ^ 12 ∧ randomBits < 2 ^ 62 ∧ value.int = packUuid7 ms s.counter randomBits

theorem UUID7Fields.Follows.lastMs_le
    {last : Option UUID}
    (h : s.Follows last) :
    ∀ m ∈ s.lastMs, m ≤ maxTimestamp := by
  intro m hm
  cases last with
  | none =>
      rw [Option.mem_def, show s.lastMs = none from h] at hm
      cases hm
  | some value =>
      obtain ⟨ms, randomBits, hms, hbound, -⟩ := h
      obtain rfl := Option.some.inj (hm.symm.trans hms)
      exact hbound

/-- What a section of `UUID7Generator.new` returns and leaves. -/
theorem UUID7Fields.draw_eq_ok
    {entropy : Bytes} {value : UUID} {s' : UUID7Fields}
    (h : s.draw observedMs entropy = (.ok value, s')) :
    ∃ ms counter randomBits, randomBits < 2 ^ 62 ∧
      s.next observedMs (fromBytesBig (entropy.take 2) &&& randAMask) = .ok (ms, counter) ∧
      value.int = packUuid7 ms counter randomBits ∧ s' = ⟨some ms, counter⟩ := by
  simp only [draw] at h
  cases hnext : s.next observedMs (fromBytesBig (entropy.take 2) &&& randAMask) with
  | error e =>
      simp [hnext] at h
  | ok pair =>
      obtain ⟨ms, counter⟩ := pair
      simp only [hnext, UUID.ofInt] at h
      split at h
      case h_1 =>
          simp at h
      case h_2 value' hvalue =>
          split at hvalue
          case isFalse =>
              cases hvalue
          case isTrue hlt =>
              obtain rfl := Except.ok.inj hvalue
              obtain ⟨hvalue, rfl⟩ := Prod.mk.inj h
              obtain rfl := Except.ok.inj hvalue
              exact ⟨ms, counter, _, and_randBMask_lt _, rfl, rfl, rfl⟩

/-- A section of `UUID7Generator.new` that raises changes nothing. -/
theorem UUID7Fields.draw_eq_error
    {entropy : Bytes} {e : Raised} {s' : UUID7Fields}
    (h : s.draw observedMs entropy = (.error e, s')) :
    s' = s := by
  simp only [draw] at h
  split at h
  case h_1 =>
      exact (Prod.mk.inj h).2.symm
  case h_2 =>
      split at h
      case h_1 =>
          exact (Prod.mk.inj h).2.symm
      case h_2 =>
          simp at h

theorem packUuid7_lt_packUuid7
    {counter' randomBits randomBits' ms' : Nat}
    (hcounter : counter < 2 ^ 12)
    (hrandom : randomBits < 2 ^ 62)
    (hcounter' : counter' < 2 ^ 12)
    (hrandom' : randomBits' < 2 ^ 62)
    (h : ms < ms' ∨ ms = ms' ∧ counter < counter') :
    packUuid7 ms counter randomBits < packUuid7 ms' counter' randomBits' := by
  rw [packUuid7_eq hcounter hrandom, packUuid7_eq hcounter' hrandom']
  rcases h with h | ⟨rfl, h⟩
  · omega
  · omega

/-- The stamp of a version 7 identifier. -/
structure Stamped7 (value : UUID) (ms : Nat) : Prop where
  version : value.version = some 7
  variant : value.variant = .rfc4122
  timestamp : uuid7TimestampMs (.uuid value) = .ok ms
  timestamp_text : uuid7TimestampMs (.str value.toText) = .ok ms

theorem UUID7Fields.follows_init :
    UUID7Fields.Follows uuid7Generator.init none :=
  rfl

/-- **`UUID7Generator` ascends.** -/
def uuid7Ascending : Ascending uuid7Generator (fun u v => u.int < v.int) Stamped7 where
  Follows := UUID7Fields.Follows
  init := UUID7Fields.follows_init
  raises := UUID7Fields.draw_eq_error
  issues := by
    intro observedMs entropy s last value s' hobserved _ hfollows hdraw
    obtain ⟨ms, counter, randomBits, hrandom, hnext, hvalue, rfl⟩ := UUID7Fields.draw_eq_ok hdraw
    obtain ⟨hadvances, hcounter, hms⟩ :=
      UUID7Fields.next_eq_ok hobserved (and_randAMask_lt _) hfollows.lastMs_le hnext
    have hstamp : Stamped7 value ms :=
      ⟨version_packUuid7 hcounter hrandom hvalue, variant_packUuid7 hcounter hrandom hvalue,
        uuid7TimestampMs_packUuid7 hcounter hrandom hvalue rfl,
        uuid7TimestampMs_packUuid7 hcounter hrandom hvalue (parse_toText value)⟩
    refine ⟨⟨ms, randomBits, rfl, hms, hcounter, hrandom, hvalue⟩, ms, rfl, hstamp, hadvances.1, ?_⟩
    rintro previous rfl
    obtain ⟨ms₀, randomBits₀, hms₀, -, hcounter₀, hrandom₀, hprevious⟩ := hfollows
    refine ⟨?_, hadvances.le⟩
    show previous.int < value.int
    rw [hprevious, hvalue]
    exact packUuid7_lt_packUuid7 hcounter₀ hrandom₀ hcounter hrandom (hadvances.2 ms₀ hms₀)
  trans := lt_trans
  irrefl v := lt_irrefl v.int

end Uuid

section Ulid

variable {s : ULIDFields} {observedMs fresh ms randomness : Nat}

theorem ULIDFields.next_eq_ok
    (hobserved : observedMs ≤ maxTimestamp)
    (hfresh : fresh ≤ maxRandomness)
    (hlast : ∀ last ∈ s.lastMs, last ≤ maxTimestamp ∧ s.randomness ≤ maxRandomness)
    (h : s.next observedMs fresh = .ok (ms, randomness)) :
    Advances s.lastMs s.randomness observedMs ms randomness ∧
      randomness ≤ maxRandomness ∧ ms ≤ maxTimestamp := by
  cases hstate : s.lastMs with
  | none =>
      simp only [next, hstate, Except.ok.injEq, Prod.mk.injEq] at h
      obtain ⟨rfl, rfl⟩ := h
      exact ⟨⟨le_rfl, nofun⟩, hfresh, hobserved⟩
  | some last =>
      obtain ⟨hbound, hrandom⟩ := hlast last hstate
      simp only [next, hstate] at h
      split_ifs at h with hlater hfull
      · obtain ⟨rfl, rfl⟩ := Prod.mk.inj (Except.ok.inj h)
        refine ⟨⟨le_rfl, fun m hm => ?_⟩, hfresh, hobserved⟩
        obtain rfl := Option.some.inj hm
        exact Or.inl hlater
      · obtain ⟨rfl, rfl⟩ := Prod.mk.inj (Except.ok.inj h)
        refine ⟨⟨by omega, fun m hm => ?_⟩, by omega, hbound⟩
        obtain rfl := Option.some.inj hm
        exact Or.inr ⟨rfl, Nat.lt_succ_self _⟩

/-- The fields hold the millisecond and the randomness of the last identifier. -/
def ULIDFields.Follows (s : ULIDFields) : Option Text → Prop
  | none => s.lastMs = none
  | some value => ∃ ms, s.lastMs = some ms ∧ ms ≤ maxTimestamp ∧
      s.randomness ≤ maxRandomness ∧ value = encode ms s.randomness

theorem ULIDFields.Follows.bounds
    {last : Option Text}
    (h : s.Follows last) :
    ∀ m ∈ s.lastMs, m ≤ maxTimestamp ∧ s.randomness ≤ maxRandomness := by
  intro m hm
  cases last with
  | none =>
      rw [Option.mem_def, show s.lastMs = none from h] at hm
      cases hm
  | some value =>
      obtain ⟨ms, hms, hbound, hrandom, -⟩ := h
      obtain rfl := Option.some.inj (hm.symm.trans hms)
      exact ⟨hbound, hrandom⟩

/-- What a section of `MonotonicULIDGenerator.new` returns and leaves. -/
theorem ULIDFields.draw_eq_ok
    {entropy : Bytes} {value : Text} {s' : ULIDFields}
    (h : s.draw observedMs entropy = (.ok value, s')) :
    ∃ ms randomness, s.next observedMs (fromBytesBig entropy) = .ok (ms, randomness) ∧
      value = encode ms randomness ∧ s' = ⟨some ms, randomness⟩ := by
  simp only [draw] at h
  cases hnext : s.next observedMs (fromBytesBig entropy) with
  | error e =>
      simp [hnext] at h
  | ok pair =>
      simp only [hnext] at h
      obtain ⟨hvalue, rfl⟩ := Prod.mk.inj h
      obtain rfl := Except.ok.inj hvalue
      exact ⟨pair.1, pair.2, rfl, rfl, rfl⟩

/-- A section of `MonotonicULIDGenerator.new` that raises changes nothing. -/
theorem ULIDFields.draw_eq_error
    {entropy : Bytes} {e : Raised} {s' : ULIDFields}
    (h : s.draw observedMs entropy = (.error e, s')) :
    s' = s := by
  simp only [draw] at h
  split at h
  case h_1 =>
      exact (Prod.mk.inj h).2.symm
  case h_2 =>
      simp at h

/-- The stamp of a ULID. -/
def StampedUlid (value : Text) (ms : Nat) : Prop :=
  ulidTimestampMs value = .ok ms

/-- A text reads as a smaller number and is the smaller text. -/
def UlidLt (left right : Text) : Prop :=
  textLt left right ∧ ∃ m n, decode left = .ok m ∧ decode right = .ok n ∧ m < n

theorem ULIDFields.follows_init :
    ULIDFields.Follows monotonicULIDGenerator.init none :=
  rfl

/-- A section of `MonotonicULIDGenerator.new` that issues a ULID raises the state. -/
theorem ULIDFields.issues
    {observedMs : Nat} {entropy : Bytes} {s : ULIDFields} {last : Option Text} {value : Text}
    {s' : ULIDFields}
    (hobserved : observedMs ≤ maxTimestamp)
    (hlength : entropy.length = 10)
    (hfollows : ULIDFields.Follows s last)
    (hdraw : s.draw observedMs entropy = (.ok value, s')) :
    ULIDFields.Follows s' (some value) ∧
      ∃ logical, s'.lastMs = some logical ∧ StampedUlid value logical ∧ observedMs ≤ logical ∧
        ∀ previous ∈ last, UlidLt previous value ∧ ∀ m, s.lastMs = some m → m ≤ logical := by
  obtain ⟨ms, randomness, hnext, rfl, rfl⟩ := ULIDFields.draw_eq_ok hdraw
  have hfresh : fromBytesBig entropy ≤ maxRandomness := by
    have hlt := fromBytesBig_lt entropy
    rw [hlength] at hlt
    simp only [maxRandomness, Nat.shiftLeft_eq]
    omega
  obtain ⟨hadvances, hrandom, hms⟩ :=
    ULIDFields.next_eq_ok hobserved hfresh hfollows.bounds hnext
  refine ⟨⟨ms, rfl, hms, hrandom, rfl⟩, ms, rfl, ulidTimestampMs_encode hms hrandom,
    hadvances.1, ?_⟩
  rintro previous rfl
  obtain ⟨ms₀, hms₀, hbound₀, hrandom₀, rfl⟩ := hfollows
  have hlt : packUlid ms₀ s.randomness < packUlid ms randomness := by
    simp only [maxRandomness, Nat.shiftLeft_eq] at hrandom hrandom₀
    unfold packUlid
    rcases hadvances.2 ms₀ hms₀ with h | ⟨rfl, h⟩
    · omega
    · omega
  exact ⟨⟨textLt_encode hbound₀ hrandom₀ hms hrandom hlt, _, _,
    decode_encode hbound₀ hrandom₀, decode_encode hms hrandom, hlt⟩, hadvances.le⟩

theorem UlidLt.trans
    {u v w : Text}
    (huv : UlidLt u v)
    (hvw : UlidLt v w) :
    UlidLt u w := by
  obtain ⟨huv, m, n, hu, hv, hmn⟩ := huv
  obtain ⟨hvw, n', k, hv', hw, hnk⟩ := hvw
  obtain rfl := Except.ok.inj (hv.symm.trans hv')
  exact ⟨List.lex_trans (fun hpq hqr => Nat.lt_trans hpq hqr) huv hvw, m, k, hu, hw,
    hmn.trans hnk⟩

theorem UlidLt.irrefl
    (v : Text) :
    ¬ UlidLt v v := by
  rintro ⟨-, m, n, hm, hn, hlt⟩
  obtain rfl := Except.ok.inj (hm.symm.trans hn)
  exact lt_irrefl m hlt

/-- **`MonotonicULIDGenerator` ascends.** -/
def ulidAscending : Ascending monotonicULIDGenerator UlidLt StampedUlid where
  Follows := ULIDFields.Follows
  init := ULIDFields.follows_init
  raises := ULIDFields.draw_eq_error
  issues := ULIDFields.issues
  trans := UlidLt.trans
  irrefl := UlidLt.irrefl

end Ulid

/-! ## Runs -/

/--
**Monotonic identifiers**: however the calls of one generator interleave and
whatever its clock and its entropy source answer, the identifiers go upwards in
lock order with their milliseconds, each millisecond is the one used and no
smaller than the one observed, and a call that raises has changed nothing.
-/
theorem monotonic_identifiers :
    (∀ (T : Type) [DecidableEq T] (ls : List (System.PoolLabel T Unit Question Empty Answer))
      (c : System.Pool T (World T UUID7Fields UUID) (Shared T UUID7Fields UUID) Unit Question
        Answer (Except Raised UUID)),
      Run (System.PoolStep (calls T UUID7Fields UUID)) uuid7Generator.start ls c →
      OrderlyRun uuid7Generator (fun u v => u.int < v.int) Stamped7 ls c) ∧
    (∀ (T : Type) [DecidableEq T] (ls : List (System.PoolLabel T Unit Question Empty Answer))
      (c : System.Pool T (World T ULIDFields Text) (Shared T ULIDFields Text) Unit Question
        Answer (Except Raised Text)),
      Run (System.PoolStep (calls T ULIDFields Text)) monotonicULIDGenerator.start ls c →
      OrderlyRun monotonicULIDGenerator UlidLt StampedUlid ls c) :=
  ⟨fun _ _ _ _ hrun => uuid7Ascending.run_orderly hrun,
    fun _ _ _ _ hrun => ulidAscending.run_orderly hrun⟩

/-- The steps of one call, by what its callbacks answer. -/
def callSteps {T : Type} (t : T) (clock : ClockResult) (entropy : EntropyResult) :
    List (System.Choice T Question Empty Answer) :=
  [.run t, .answer t .clock clock, .run t, .answer t (.randomBytes 10) entropy, .run t]

/--
Two calls, the second after the clock has gone backwards and at the end of the
counter: a UUID carries into the millisecond, a ULID is refused.
-/
theorem monotonic_identifiers_backwards :
    (∃ ls, ∃ c : System.Pool Bool (World Bool UUID7Fields UUID) (Shared Bool UUID7Fields UUID) Unit
        Question Answer (Except Raised UUID),
      Run (System.PoolStep (calls Bool UUID7Fields UUID)) uuid7Generator.start ls c ∧
      c.world.shared.issued.length = 2 ∧
      OrderlyRun uuid7Generator (fun u v => u.int < v.int) Stamped7 ls c) ∧
    (∃ ls, ∃ c : System.Pool Bool (World Bool ULIDFields Text) (Shared Bool ULIDFields Text) Unit
        Question Answer (Except Raised Text),
      Run (System.PoolStep (calls Bool ULIDFields Text)) monotonicULIDGenerator.start ls c ∧
      c.world.shared.issued.length = 1 ∧
      OrderlyRun monotonicULIDGenerator UlidLt StampedUlid ls c) := by
  let entropy := EntropyResult.bytes (List.replicate 10 255)
  let steps := callSteps false (.int 5) entropy ++ callSteps true (.int 3) entropy
  constructor
  · have hschedule : ((calls Bool UUID7Fields UUID).schedule uuid7Generator.start steps).map
        (·.world.shared.issued.length) = some 2 := by
      decide
    obtain ⟨c, hc, hlength⟩ := Option.map_eq_some_iff.mp hschedule
    obtain ⟨ls, hrun⟩ := System.schedule_run hc
    exact ⟨ls, c, hrun, hlength, monotonic_identifiers.1 Bool ls c hrun⟩
  · have hschedule : ((calls Bool ULIDFields Text).schedule monotonicULIDGenerator.start
        steps).map (·.world.shared.issued.length) = some 1 := by
      decide
    obtain ⟨c, hc, hlength⟩ := Option.map_eq_some_iff.mp hschedule
    obtain ⟨ls, hrun⟩ := System.schedule_run hc
    exact ⟨ls, c, hrun, hlength, monotonic_identifiers.2 Bool ls c hrun⟩

end Id
end Bluetape
