import Bluetape.Base.AsciiDecimal

/-!
# A single-primary Redis keyspace

A keyspace maps keys to entries with an optional absolute expiry, in
milliseconds of the server clock.  An entry with expiry `e` is visible while
the clock reads at most `e`; an expired entry is invisible to every command.

A Lua script runs atomically with a frozen clock.  `Script` is the monad of
such programs: a failing command aborts the script and keeps the writes made
before it, as the server does.

The commands are those that the scripts and clients of a coordination protocol
use.  Expiries and counters are signed 64-bit integers on the server, so an
expiry beyond that range is an error reply and not a write.
-/

namespace Bluetape
namespace Base

/-- The largest signed 64-bit integer. -/
def maxInt64 : Nat := 9223372036854775807

/-- The reply of TYPE; every type but strings is one case. -/
inductive KeyType
  | none
  | string
  | aggregate
deriving DecidableEq, Repr

/-- The value of a key: a byte string, or a value of another type. -/
inductive RedisValue
  | string (bytes : Bytes)
  | aggregate
deriving DecidableEq, Repr

/-- A stored value with its optional absolute expiry. -/
structure Entry where
  value : RedisValue
  expireAt : Option Nat
deriving DecidableEq, Repr

/-- The clock has passed the expiry of the entry. -/
def Entry.expired (e : Entry) (now : Nat) : Bool :=
  match e.expireAt with
  | none => false
  | some t => decide (t < now)

/-- The error replies of the commands used here, and of a script that fails. -/
inductive CommandError
  | wrongType
  | notAnInteger
  | overflow
  | invalidExpireTime
  | scriptError
deriving DecidableEq, Repr

/-- The server: its clock and what is stored under each key. -/
structure Keyspace (κ : Type) where
  now : Nat
  entries : κ → Option Entry

namespace Keyspace

variable {κ : Type}

/-- A server without keys. -/
def empty (now : Nat) : Keyspace κ :=
  ⟨now, fun _ => none⟩

/-- The entry that commands see under a key. -/
def lookup (db : Keyspace κ) (k : κ) : Option Entry :=
  (db.entries k).filter (fun e => !e.expired db.now)

/-- Let time pass. -/
def advance (db : Keyspace κ) (ms : Nat) : Keyspace κ :=
  { db with now := db.now + ms }

@[simp] theorem lookup_empty
    (now : Nat) (k : κ) :
    (empty now : Keyspace κ).lookup k = none := by
  rfl

@[simp] theorem advance_now
    (db : Keyspace κ) (ms : Nat) :
    (db.advance ms).now = db.now + ms := by
  rfl

theorem lookup_eq_some
    {db : Keyspace κ} {k : κ} {e : Entry} :
    db.lookup k = some e ↔ db.entries k = some e ∧ e.expired db.now = false := by
  simp [lookup, Option.filter_eq_some_iff]

/-- A visible entry has not reached its expiry. -/
theorem now_le_of_lookup
    {db : Keyspace κ} {k : κ} {e : Entry} {t : Nat}
    (h : db.lookup k = some e)
    (ht : e.expireAt = some t) :
    db.now ≤ t := by
  have hexp := (lookup_eq_some.mp h).2
  simpa [Entry.expired, ht] using hexp

/-- What is visible after some time was visible before. -/
theorem lookup_of_advance
    {db : Keyspace κ} {ms : Nat} {k : κ} {e : Entry}
    (h : (db.advance ms).lookup k = some e) :
    db.lookup k = some e := by
  rw [lookup_eq_some] at h ⊢
  refine ⟨h.1, ?_⟩
  have hexp := h.2
  unfold Entry.expired at hexp ⊢
  split at hexp
  · rfl
  · simp only [advance_now, decide_eq_false_iff_not] at hexp ⊢
    omega

/-- An entry without expiry stays visible. -/
theorem lookup_advance_persistent
    {db : Keyspace κ} {k : κ} {v : RedisValue}
    (h : db.lookup k = some ⟨v, none⟩) (ms : Nat) :
    (db.advance ms).lookup k = some ⟨v, none⟩ := by
  rw [lookup_eq_some] at h ⊢
  exact ⟨h.1, rfl⟩

/-- An absent key stays absent while only time passes. -/
theorem lookup_advance_none
    {db : Keyspace κ} {k : κ}
    (h : db.lookup k = none) (ms : Nat) :
    (db.advance ms).lookup k = none := by
  cases hk : (db.advance ms).lookup k with
  | none =>
      rfl
  | some e =>
      rw [lookup_of_advance hk] at h
      exact absurd h (by simp)

/-- What has not expired stays visible while time passes. -/
theorem lookup_advance_of_le
    {db : Keyspace κ} {k : κ} {v : RedisValue} {t ms : Nat}
    (h : db.lookup k = some ⟨v, some t⟩)
    (hle : db.now + ms ≤ t) :
    (db.advance ms).lookup k = some ⟨v, some t⟩ := by
  rw [lookup_eq_some] at h ⊢
  refine ⟨h.1, ?_⟩
  simp only [Entry.expired, advance_now, decide_eq_false_iff_not]
  omega

/-- What has expired is no longer visible. -/
theorem lookup_advance_of_lt
    {db : Keyspace κ} {k : κ} {v : RedisValue} {t ms : Nat}
    (h : db.lookup k = some ⟨v, some t⟩)
    (hlt : t < db.now + ms) :
    (db.advance ms).lookup k = none := by
  cases hlater : (db.advance ms).lookup k with
  | none =>
      rfl
  | some e =>
      have hentry := lookup_of_advance hlater
      rw [h] at hentry
      obtain rfl := Option.some.inj hentry
      have hle := now_le_of_lookup hlater rfl
      simp only [advance_now] at hle
      omega

variable [DecidableEq κ]

/-- Replace what is stored under a key. -/
def write (db : Keyspace κ) (k : κ) (e : Option Entry) : Keyspace κ :=
  { db with entries := Function.update db.entries k e }

@[simp] theorem write_now
    (db : Keyspace κ) (k : κ) (e : Option Entry) :
    (db.write k e).now = db.now := by
  rfl

theorem lookup_write
    (db : Keyspace κ) (k : κ) (e : Option Entry) :
    (db.write k e).lookup k = e.filter (fun e => !e.expired db.now) := by
  simp [lookup, write]

@[simp] theorem lookup_write_persistent
    (db : Keyspace κ) (k : κ) (v : RedisValue) :
    (db.write k (some ⟨v, none⟩)).lookup k = some ⟨v, none⟩ := by
  simp [lookup_write, Entry.expired, Option.filter]

/-- An entry whose expiry has not passed is visible. -/
theorem lookup_write_of_le
    {db : Keyspace κ} {k : κ} {v : RedisValue} {t : Nat}
    (hle : db.now ≤ t) :
    (db.write k (some ⟨v, some t⟩)).lookup k = some ⟨v, some t⟩ := by
  have hlive : ¬ t < db.now := by
    omega
  simp [lookup_write, Entry.expired, hlive, Option.filter]

@[simp] theorem lookup_write_none
    (db : Keyspace κ) (k : κ) :
    (db.write k none).lookup k = none := by
  simp [lookup_write]

@[simp] theorem lookup_write_ne
    (db : Keyspace κ) {j k : κ} (e : Option Entry) (h : j ≠ k) :
    (db.write k e).lookup j = db.lookup j := by
  simp [lookup, write, Function.update_of_ne h]

end Keyspace

/-! ## Integers on the wire -/

/-- The strict integer syntax of the server: no leading zeros, no plus sign. -/
def parseInteger (bs : Bytes) : Option Int :=
  if bs = [byte '0'] then
    some 0
  else if isCanonicalPositive bs && decide (decimalValue bs ≤ maxInt64) then
    some (decimalValue bs)
  else if bs.head? = some (byte '-') && isCanonicalPositive bs.tail &&
      decide (decimalValue bs.tail ≤ maxInt64 + 1) then
    some (-(decimalValue bs.tail : Int))
  else
    none

/-- The decimal form in which the server stores a counter. -/
def formatInteger (n : Int) : Bytes :=
  if n < 0 then byte '-' :: decimal n.natAbs else decimal n.natAbs

theorem parseInteger_positive
    {bs : Bytes}
    (h : isCanonicalPositive bs = true)
    (hle : decimalValue bs ≤ maxInt64) :
    parseInteger bs = some (decimalValue bs : Int) := by
  have hne : bs ≠ [byte '0'] := by
    rintro rfl
    exact absurd h (by decide)
  simp [parseInteger, hne, h, hle]

/-- The server reads the canonical text of a positive number back. -/
theorem parseInteger_decimal
    {n : Nat}
    (hpos : 0 < n)
    (hle : n ≤ maxInt64) :
    parseInteger (decimal n) = some (n : Int) := by
  have hvalue : decimalValue (decimal n) = n := decimalValue_decimal n
  rw [parseInteger_positive (isCanonicalPositive_decimal hpos) (by rw [hvalue]; exact hle), hvalue]

theorem formatInteger_natCast
    (n : Nat) :
    formatInteger (n : Int) = decimal n := by
  simp [formatInteger]

/-! ## Commands and scripts -/

/-- A program over the keyspace that may abort with an error reply. -/
def Script (κ α : Type) : Type :=
  Keyspace κ → Except CommandError α × Keyspace κ

namespace Script

variable {κ α β : Type}

/-- Run a script to its reply and the keyspace it leaves. -/
def run (s : Script κ α) (db : Keyspace κ) : Except CommandError α × Keyspace κ :=
  s db

/-- Abort with an error reply. -/
def fail (e : CommandError) : Script κ α :=
  fun db => (.error e, db)

instance : Monad (Script κ) where
  pure a := fun db => (.ok a, db)
  bind s f := fun db =>
    match s db with
    | (.ok a, db') => f a db'
    | (.error e, db') => (.error e, db')

@[simp] theorem run_pure
    (a : α) (db : Keyspace κ) :
    (pure a : Script κ α).run db = (.ok a, db) := by
  rfl

@[simp] theorem run_bind
    (s : Script κ α) (f : α → Script κ β) (db : Keyspace κ) :
    (s >>= f).run db =
      match s.run db with
      | (.ok a, db') => (f a).run db'
      | (.error e, db') => (.error e, db') := by
  rfl

theorem map_eq_bind
    {κ α β : Type} (f : α → β) (s : Script κ α) :
    f <$> s = s >>= fun a => pure (f a) := by
  rfl

theorem run_bind_ok
    {s : Script κ α} {f : α → Script κ β} {db db' : Keyspace κ} {a : α}
    (h : s.run db = (.ok a, db')) :
    (s >>= f).run db = (f a).run db' := by
  rw [run_bind, h]

theorem run_bind_error
    {s : Script κ α} {f : α → Script κ β} {db db' : Keyspace κ} {e : CommandError}
    (h : s.run db = (.error e, db')) :
    (s >>= f).run db = (.error e, db') := by
  rw [run_bind, h]

@[simp] theorem run_ite
    (c : Prop) [Decidable c] (s t : Script κ α) (db : Keyspace κ) :
    (if c then s else t).run db = if c then s.run db else t.run db := by
  split <;> rfl

/-- The type of what a command sees. -/
def typeOf : Option Entry → KeyType
  | none => .none
  | some ⟨.string _, _⟩ => .string
  | some ⟨.aggregate, _⟩ => .aggregate

/-- PTTL: -2 for no key, -1 for no expiry, else the time left. -/
def pttlOf (now : Nat) : Option Entry → Int
  | none => -2
  | some ⟨_, none⟩ => -1
  | some ⟨_, some t⟩ => ((t - now : Nat) : Int)

/-- TYPE -/
def type (k : κ) : Script κ KeyType :=
  fun db => (.ok (typeOf (db.lookup k)), db)

/-- PTTL -/
def pttl (k : κ) : Script κ Int :=
  fun db => (.ok (pttlOf db.now (db.lookup k)), db)

/-- GET; none is the nil reply. -/
def get (k : κ) : Script κ (Option Bytes) :=
  fun db =>
    match db.lookup k with
    | none => (.ok none, db)
    | some ⟨.string v, _⟩ => (.ok (some v), db)
    | some ⟨.aggregate, _⟩ => (.error .wrongType, db)

/-- GET in a script that goes on to use the reply as a string. -/
def getString (k : κ) : Script κ Bytes := do
  match ← get k with
  | some v => pure v
  | none => fail .scriptError

/-- EXISTS -/
def existsKey (k : κ) : Script κ Int :=
  fun db => (.ok (if (db.lookup k).isSome then 1 else 0), db)

/-- What the string commands read; a missing key reads as the empty string. -/
def stringOf : Option Entry → Except CommandError Bytes
  | none => .ok []
  | some ⟨.string v, _⟩ => .ok v
  | some ⟨.aggregate, _⟩ => .error .wrongType

/-- STRLEN -/
def strlen (k : κ) : Script κ Int :=
  fun db => ((stringOf (db.lookup k)).map fun v => (v.length : Int), db)

/-- The bytes between two offsets, both included; negative ones count from the end. -/
def rangeOf (v : Bytes) (first last : Int) : Bytes :=
  let size : Int := v.length
  let start := max 0 (if first < 0 then size + first else first)
  let stop := min (size - 1) (max 0 (if last < 0 then size + last else last))
  if first < 0 ∧ last < 0 ∧ last < first ∨ stop < start ∨ v = [] then []
  else (v.drop start.toNat).take (stop - start + 1).toNat

/-- GETRANGE -/
def getRange (k : κ) (first last : Int) : Script κ Bytes :=
  fun db => ((stringOf (db.lookup k)).map fun v => rangeOf v first last, db)

/-- The absolute expiry for a PX argument. -/
def expireTime (now : Nat) (px : Bytes) : Except CommandError Int :=
  match parseInteger px with
  | none => .error .notAnInteger
  | some ms =>
      if (maxInt64 : Int) < now + ms then .error .invalidExpireTime
      else .ok (now + ms)

variable [DecidableEq κ]

/-- SET without options; it also drops an expiry. -/
def set (k : κ) (v : Bytes) : Script κ Unit :=
  fun db => (.ok (), db.write k (some ⟨.string v, none⟩))

/-- SET with PX -/
def setPX (k : κ) (v px : Bytes) : Script κ Unit :=
  fun db =>
    match expireTime db.now px with
    | .error e => (.error e, db)
    | .ok t =>
        if t ≤ db.now then (.error .invalidExpireTime, db)
        else (.ok (), db.write k (some ⟨.string v, some t.toNat⟩))

/-- SET with NX and PX; the reply tells whether the value was stored. -/
def setNXPX (k : κ) (v px : Bytes) : Script κ Bool :=
  fun db =>
    match expireTime db.now px with
    | .error e => (.error e, db)
    | .ok t =>
        if t ≤ db.now then (.error .invalidExpireTime, db)
        else
          match db.lookup k with
          | some _ => (.ok false, db)
          | none => (.ok true, db.write k (some ⟨.string v, some t.toNat⟩))

/-- INCR; a missing key counts from zero, an expiry is kept. -/
def incr (k : κ) : Script κ Int :=
  fun db =>
    match db.lookup k with
    | none => (.ok 1, db.write k (some ⟨.string (formatInteger 1), none⟩))
    | some ⟨.aggregate, _⟩ => (.error .wrongType, db)
    | some ⟨.string v, expireAt⟩ =>
        match parseInteger v with
        | none => (.error .notAnInteger, db)
        | some n =>
            if n = maxInt64 then (.error .overflow, db)
            else (.ok (n + 1), db.write k (some ⟨.string (formatInteger (n + 1)), expireAt⟩))

/-- PEXPIRE; an expiry that is not in the future deletes the key. -/
def pexpire (k : κ) (px : Bytes) : Script κ Bool :=
  fun db =>
    match expireTime db.now px with
    | .error e => (.error e, db)
    | .ok t =>
        match db.lookup k with
        | none => (.ok false, db)
        | some e =>
            if t ≤ db.now then (.ok true, db.write k none)
            else (.ok true, db.write k (some ⟨e.value, some t.toNat⟩))

/-- DEL; the reply tells whether the key was there. -/
def del (k : κ) : Script κ Bool :=
  fun db =>
    match db.lookup k with
    | none => (.ok false, db)
    | some _ => (.ok true, db.write k none)

/-! ### The clock -/

omit [DecidableEq κ] in
/-- The script leaves the server clock alone. -/
def FrozenClock (s : Script κ α) : Prop :=
  ∀ db, (s.run db).2.now = db.now

section FrozenClock

omit [DecidableEq κ] in
theorem frozen_pure
    (a : α) :
    FrozenClock (pure a : Script κ α) :=
  fun _ => rfl

omit [DecidableEq κ] in
theorem frozen_fail
    (e : CommandError) :
    FrozenClock (fail e : Script κ α) :=
  fun _ => rfl

omit [DecidableEq κ] in
theorem FrozenClock.bind
    {s : Script κ α} {f : α → Script κ β}
    (hs : FrozenClock s)
    (hf : ∀ a, FrozenClock (f a)) :
    FrozenClock (s >>= f) := by
  intro db
  have hnow := hs db
  rcases hrun : s.run db with ⟨e | a, db'⟩
  · rw [hrun] at hnow
    rw [run_bind_error hrun]
    exact hnow
  · rw [hrun] at hnow
    rw [run_bind_ok hrun, hf a db']
    exact hnow

omit [DecidableEq κ] in
theorem frozen_type
    (k : κ) :
    FrozenClock (type k) :=
  fun _ => rfl

omit [DecidableEq κ] in
theorem frozen_pttl
    (k : κ) :
    FrozenClock (pttl k) :=
  fun _ => rfl

omit [DecidableEq κ] in
theorem frozen_get
    (k : κ) :
    FrozenClock (get k) := by
  intro db
  simp only [run, get]
  split <;> rfl

omit [DecidableEq κ] in
theorem frozen_getString
    (k : κ) :
    FrozenClock (getString k) := by
  refine (frozen_get k).bind fun v => ?_
  cases v
  · exact frozen_fail _
  · exact frozen_pure _

theorem frozen_set
    (k : κ) (v : Bytes) :
    FrozenClock (set k v) :=
  fun _ => rfl

theorem frozen_setPX
    (k : κ) (v px : Bytes) :
    FrozenClock (setPX k v px) := by
  intro db
  simp only [run, setPX]
  split
  · rfl
  · split <;> rfl

theorem frozen_incr
    (k : κ) :
    FrozenClock (incr k) := by
  intro db
  simp only [run, incr]
  split
  · rfl
  · rfl
  · split
    · rfl
    · split <;> rfl

theorem frozen_pexpire
    (k : κ) (px : Bytes) :
    FrozenClock (pexpire k px) := by
  intro db
  simp only [run, pexpire]
  split
  · rfl
  · split
    · rfl
    · split <;> rfl

theorem frozen_del
    (k : κ) :
    FrozenClock (del k) := by
  intro db
  simp only [run, del]
  split <;> rfl

end FrozenClock

/-! ### Running the commands -/

omit [DecidableEq κ] in
@[simp] theorem run_type
    (k : κ) (db : Keyspace κ) :
    (type k).run db = (.ok (typeOf (db.lookup k)), db) := by
  rfl

omit [DecidableEq κ] in
@[simp] theorem run_pttl
    (k : κ) (db : Keyspace κ) :
    (pttl k).run db = (.ok (pttlOf db.now (db.lookup k)), db) := by
  rfl

omit [DecidableEq κ] in
theorem run_get_string
    {k : κ} {db : Keyspace κ} {v : Bytes} {expireAt : Option Nat}
    (h : db.lookup k = some ⟨.string v, expireAt⟩) :
    (get k).run db = (.ok (some v), db) := by
  simp [run, get, h]

omit [DecidableEq κ] in
theorem run_getString
    {k : κ} {db : Keyspace κ} {v : Bytes} {expireAt : Option Nat}
    (h : db.lookup k = some ⟨.string v, expireAt⟩) :
    (getString k).run db = (.ok v, db) := by
  unfold getString
  rw [run_bind_ok (run_get_string h)]
  rfl

omit [DecidableEq κ] in
/-- What GET replies, as the other string commands read it. -/
theorem stringOf_of_get
    {k : κ} {db : Keyspace κ} {v : Option Bytes}
    (h : (get k).run db = (.ok v, db)) :
    stringOf (db.lookup k) = .ok (v.getD []) ∧ (db.lookup k).isSome = v.isSome := by
  simp only [run, get] at h
  split at h
  · rename_i hl
    obtain rfl : none = v := by simpa using h
    simp [hl, stringOf]
  · rename_i bytes e hl
    obtain rfl : some bytes = v := by simpa using h
    simp [hl, stringOf]
  · simp at h

omit [DecidableEq κ] in
theorem run_existsKey
    (k : κ) (db : Keyspace κ) :
    (existsKey k).run db = (.ok (if (db.lookup k).isSome then 1 else 0), db) := by
  rfl

omit [DecidableEq κ] in
theorem run_strlen
    {k : κ} {db : Keyspace κ} {v : Bytes}
    (h : stringOf (db.lookup k) = .ok v) :
    (strlen k).run db = (.ok (v.length : Int), db) := by
  simp [run, strlen, h, Except.map]

omit [DecidableEq κ] in
theorem run_getRange
    {k : κ} {db : Keyspace κ} {v : Bytes}
    (h : stringOf (db.lookup k) = .ok v) (first last : Int) :
    (getRange k first last).run db = (.ok (rangeOf v first last), db) := by
  simp [run, getRange, h, Except.map]

omit [DecidableEq κ] in
/-- The range from the start is a prefix. -/
theorem rangeOf_zero
    (v : Bytes) {n : Nat}
    (h : 1 ≤ n) :
    rangeOf v 0 ((n : Int) - 1) = v.take n := by
  cases v with
  | nil =>
      simp [rangeOf]
  | cons b v =>
      have hlast : ¬ (n : Int) - 1 < 0 := by
        omega
      have hstop : ¬ min (((b :: v).length : Int) - 1) (max 0 ((n : Int) - 1)) < 0 := by
        simp only [List.length_cons]
        omega
      have hsize :
          (min (((b :: v).length : Int) - 1) (max 0 ((n : Int) - 1)) - 0 + 1).toNat =
            min n (b :: v).length := by
        omega
      simp only [rangeOf, hlast, lt_irrefl, false_and, if_false, max_self, hstop,
        reduceCtorEq, or_false, hsize, Int.toNat_zero, List.drop_zero]
      rw [List.take_eq_take_iff]
      simp

@[simp] theorem run_set
    (k : κ) (v : Bytes) (db : Keyspace κ) :
    (set k v).run db = (.ok (), db.write k (some ⟨.string v, none⟩)) := by
  rfl

omit [DecidableEq κ] in
theorem expireTime_decimal
    (now : Nat) {ms : Nat}
    (hpos : 0 < ms)
    (hle : ms ≤ maxInt64) :
    expireTime now (decimal ms) =
      if maxInt64 < now + ms then .error .invalidExpireTime
      else .ok ((now + ms : Nat) : Int) := by
  have hparse : parseInteger (decimal ms) = some (ms : Int) := parseInteger_decimal hpos hle
  unfold expireTime
  rw [hparse]
  simp only [Nat.cast_add]
  norm_cast

/-- SET with PX and a canonical positive argument. -/
theorem run_setPX_decimal
    (k : κ) (v : Bytes) (db : Keyspace κ) {ms : Nat}
    (hpos : 0 < ms)
    (hle : ms ≤ maxInt64) :
    (setPX k v (decimal ms)).run db =
      if maxInt64 < db.now + ms then (.error .invalidExpireTime, db)
      else (.ok (), db.write k (some ⟨.string v, some (db.now + ms)⟩)) := by
  unfold run setPX
  rw [expireTime_decimal db.now hpos hle]
  by_cases hover : maxInt64 < db.now + ms
  · simp [hover]
  · have hlater : ¬ ((db.now + ms : Nat) : Int) ≤ db.now := by
      omega
    rw [if_neg hover, if_neg hover]
    simp only [if_neg hlater, Int.toNat_natCast]

/-- SET with NX and PX of a missing key, with a canonical positive argument. -/
theorem run_setNXPX_missing
    {k : κ} {db : Keyspace κ} {ms : Nat}
    (h : db.lookup k = none) (v : Bytes)
    (hpos : 0 < ms)
    (hle : db.now + ms ≤ maxInt64) :
    (setNXPX k v (decimal ms)).run db =
      (.ok true, db.write k (some ⟨.string v, some (db.now + ms)⟩)) := by
  have hlater : ¬ ((db.now + ms : Nat) : Int) ≤ db.now := by
    omega
  unfold run setNXPX
  rw [expireTime_decimal db.now hpos (by omega), if_neg (by omega)]
  simp only [if_neg hlater, h, Int.toNat_natCast]

/-- SET with NX and PX of a visible key, with a canonical positive argument. -/
theorem run_setNXPX_held
    {k : κ} {db : Keyspace κ} {e : Entry} {ms : Nat}
    (h : db.lookup k = some e) (v : Bytes)
    (hpos : 0 < ms)
    (hle : db.now + ms ≤ maxInt64) :
    (setNXPX k v (decimal ms)).run db = (.ok false, db) := by
  have hlater : ¬ ((db.now + ms : Nat) : Int) ≤ db.now := by
    omega
  unfold run setNXPX
  rw [expireTime_decimal db.now hpos (by omega), if_neg (by omega)]
  simp only [if_neg hlater, h]

/-- INCR of a missing key. -/
theorem run_incr_missing
    {k : κ} {db : Keyspace κ}
    (h : db.lookup k = none) :
    (incr k).run db =
      (.ok 1, db.write k (some ⟨.string (decimal 1), none⟩)) := by
  simp only [run, incr, h]
  rfl

/-- INCR of a canonical counter below the maximum. -/
theorem run_incr_decimal
    {k : κ} {db : Keyspace κ} {n : Nat} {expireAt : Option Nat}
    (h : db.lookup k = some ⟨.string (decimal n), expireAt⟩)
    (hpos : 0 < n)
    (hlt : n < maxInt64) :
    (incr k).run db =
      (.ok ((n + 1 : Nat) : Int),
        db.write k (some ⟨.string (decimal (n + 1)), expireAt⟩)) := by
  have hparse : parseInteger (decimal n) = some (n : Int) :=
    parseInteger_decimal hpos hlt.le
  have hne : ¬ ((n : Int) = (maxInt64 : Int)) := by
    omega
  have hsucc : (n : Int) + 1 = ((n + 1 : Nat) : Int) := by
    push_cast
    rfl
  simp only [run, incr, h, hparse, if_neg hne, hsucc, formatInteger_natCast]

/-- PEXPIRE of a visible key with a canonical positive argument. -/
theorem run_pexpire_decimal
    {k : κ} {db : Keyspace κ} {e : Entry} {ms : Nat}
    (h : db.lookup k = some e)
    (hpos : 0 < ms)
    (hle : ms ≤ maxInt64) :
    (pexpire k (decimal ms)).run db =
      if maxInt64 < db.now + ms then (.error .invalidExpireTime, db)
      else (.ok true, db.write k (some ⟨e.value, some (db.now + ms)⟩)) := by
  unfold run pexpire
  rw [expireTime_decimal db.now hpos hle]
  by_cases hover : maxInt64 < db.now + ms
  · simp [hover]
  · have hlater : ¬ ((db.now + ms : Nat) : Int) ≤ db.now := by
      omega
    rw [if_neg hover, if_neg hover]
    simp only [h, if_neg hlater, Int.toNat_natCast]

/-- DEL of a visible key. -/
theorem run_del
    {k : κ} {db : Keyspace κ} {e : Entry}
    (h : db.lookup k = some e) :
    (del k).run db = (.ok true, db.write k none) := by
  simp [run, del, h]

end Script
end Base
end Bluetape
