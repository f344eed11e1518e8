import Bluetape.Base.Interview
import Bluetape.CacheRedis.CoordinationScripts

/-!
# Coordinators around a server

The commands of the flights, executed one at a time by a server with expiring keys.  A
command that a client has given up, because of a timeout, a lost connection or a
cancellation, may still be executed later, or never.

* `flightSystem`: flights, their commands under way, and the server;
* `compareAndDelete_cases`, `publishIfValue_cases`: what the two writing scripts do.
-/

namespace Bluetape
namespace CacheRedis

open Base Serde Dialogue

/-! ## Keys -/

/-- `_coordination_keys`, from the digests of the namespace and of the logical key -/
def coordinationKeys (namespaceId keyId : Text) : Text × Text :=
  let slot := text "\x7b" ++ namespaceId ++ text ":" ++ keyId ++ text "\x7d"
  let start := text "bluetape:cache:coord:" ++ namespaceId ++ text ":" ++ slot
  (start ++ text ":lease", start ++ text ":result")

/-- The keys of the context are those of `_coordination_keys`. -/
def FlightContext.Coordinated {V : Type} (context : FlightContext V) : Prop :=
  ∃ namespaceId keyId, coordinationKeys namespaceId keyId = (context.leaseKey, context.resultKey)

/-- A lease key is never a result key. -/
theorem coordinationKeys_apart
    (namespaceId keyId namespaceId' keyId' : Text) :
    (coordinationKeys namespaceId keyId).1 ≠ (coordinationKeys namespaceId' keyId').2 := by
  intro heq
  have hlease : (text ":lease").getLast? = some (.scalar 'e') := by
    rfl
  have hresult : (text ":result").getLast? = some (.scalar 't') := by
    rfl
  have hlast := congrArg List.getLast? heq
  simp [coordinationKeys, List.getLast?_append, hlease, hresult] at hlast

/-- Flights with one result key have one lease key. -/
theorem coordinationKeys_result_inj
    {namespaceId keyId namespaceId' keyId' : Text}
    (heq : (coordinationKeys namespaceId keyId).2 = (coordinationKeys namespaceId' keyId').2) :
    (coordinationKeys namespaceId keyId).1 = (coordinationKeys namespaceId' keyId').1 := by
  unfold coordinationKeys at heq ⊢
  exact congrArg (· ++ text ":lease") (List.append_cancel_right heq)

/-! ## Scripts -/

section Scripts

open Script

variable {κ : Type} [DecidableEq κ]

/-- `COMPARE_AND_DELETE_SCRIPT` -/
def compareAndDeleteScript (key : κ) (argument : Bytes) : Script κ Bool := do
  let value ← Script.get key
  if value = some argument then del key else pure false

/-- `PUBLISH_IF_VALUE_SCRIPT` -/
def publishIfValueScript (key₁ key₂ : κ) (argument₁ argument₂ argument₃ argument₄ : Bytes) :
    Script κ Bool := do
  let value ← Script.get key₁
  if value = some argument₁ then
    setPX key₂ argument₂ argument₃
    setPX key₁ argument₄ argument₃
    return true
  else
    return false

/-- The string that a key shows. -/
def shownString (db : Keyspace κ) (key : κ) : Option Bytes :=
  match db.lookup key with
  | some ⟨.string value, _⟩ => some value
  | _ => none

omit [DecidableEq κ] in
/-- GET reads a string, nothing, or fails. -/
theorem run_get_cases
    (db : Keyspace κ) (key : κ) :
    (Script.get key).run db = (.ok (shownString db key), db) ∨
      (shownString db key = none ∧ (Script.get key).run db = (.error .wrongType, db)) := by
  unfold Script.run Script.get shownString
  cases hlookup : db.lookup key with
  | none =>
      exact .inl rfl
  | some entry =>
      obtain ⟨value, e⟩ := entry
      cases value with
      | string value => exact .inl rfl
      | aggregate => exact .inr ⟨rfl, rfl⟩

omit [DecidableEq κ] in
theorem lookup_of_shownString
    {db : Keyspace κ} {key : κ} {value : Bytes}
    (h : shownString db key = some value) :
    ∃ e, db.lookup key = some ⟨.string value, e⟩ := by
  unfold shownString at h
  split at h
  · next value' e hlookup =>
      obtain rfl := Option.some.inj h
      exact ⟨e, hlookup⟩
  · cases h

/-- **The compare-delete** removes the key when it shows the value, and does nothing else. -/
theorem compareAndDelete_cases
    (db : Keyspace κ) (key : κ) (value : Bytes) :
    (shownString db key = some value ∧
        (compareAndDeleteScript key value).run db = (.ok true, db.write key none)) ∨
      (shownString db key ≠ some value ∧
        ((compareAndDeleteScript key value).run db).2 = db) := by
  unfold compareAndDeleteScript
  rcases run_get_cases db key with hget | ⟨hnone, hget⟩
  · rw [run_bind_ok hget]
    by_cases hshown : shownString db key = some value
    · obtain ⟨e, hlookup⟩ := lookup_of_shownString hshown
      rw [if_pos hshown]
      exact .inl ⟨hshown, run_del hlookup⟩
    · rw [if_neg hshown]
      exact .inr ⟨hshown, rfl⟩
  · rw [run_bind_error hget]
    exact .inr ⟨by simp [hnone], rfl⟩

/-- SET with PX writes with an expiry in the future, or does nothing. -/
theorem setPX_cases
    (db : Keyspace κ) (key : κ) (value px : Bytes) :
    (∃ e, expireTime db.now px = .ok e ∧ db.now < e.toNat ∧
        (setPX key value px).run db =
          (.ok (), db.write key (some ⟨.string value, some e.toNat⟩))) ∨
      ∃ error, (setPX key value px).run db = (.error error, db) := by
  simp only [run, setPX]
  cases hexpire : expireTime db.now px with
  | error error =>
      exact .inr ⟨error, rfl⟩
  | ok e =>
      by_cases hpast : e ≤ db.now
      · exact .inr ⟨.invalidExpireTime, by simp [hpast]⟩
      · refine .inl ⟨e, rfl, by omega, by simp [hpast]⟩

/-- **The publication** writes both keys with one expiry, when the key shows the value. -/
theorem publishIfValue_cases
    (db : Keyspace κ) (key₁ key₂ : κ) (expected value px completion : Bytes) :
    (shownString db key₁ = some expected ∧ ∃ e, db.now < e ∧
        (publishIfValueScript key₁ key₂ expected value px completion).run db =
          (.ok true, (db.write key₂ (some ⟨.string value, some e⟩)).write key₁
            (some ⟨.string completion, some e⟩))) ∨
      (((publishIfValueScript key₁ key₂ expected value px completion).run db).2 = db ∧
        ((publishIfValueScript key₁ key₂ expected value px completion).run db).1 ≠ .ok true) := by
  unfold publishIfValueScript
  rcases run_get_cases db key₁ with hget | ⟨hnone, hget⟩
  · rw [run_bind_ok hget]
    by_cases hshown : shownString db key₁ = some expected
    · rw [if_pos hshown]
      rcases setPX_cases db key₂ value px with ⟨e, hexpire, hlater, hset⟩ | ⟨error, hset⟩
      · rw [run_bind_ok hset]
        rcases setPX_cases (db.write key₂ (some ⟨.string value, some e.toNat⟩)) key₁ completion px
          with ⟨e', hexpire', -, hset'⟩ | ⟨error, hset'⟩
        · obtain rfl := Except.ok.inj (hexpire.symm.trans hexpire')
          rw [run_bind_ok hset']
          exact .inl ⟨hshown, e.toNat, hlater, rfl⟩
        · -- the clock is frozen: the second command has the same expiry
          simp only [run, setPX, Keyspace.write_now, hexpire] at hset'
          rw [if_neg (by omega)] at hset'
          cases hset'
      · rw [run_bind_error hset]
        exact .inr ⟨rfl, by simp⟩
    · rw [if_neg hshown]
      exact .inr ⟨rfl, by simp⟩
  · rw [run_bind_error hget]
    exact .inr ⟨rfl, by simp⟩

end Scripts

/-! ## Commands -/

/-- The commands of a flight, as they reach the server. -/
inductive Command
  | setIfAbsent (key : Text) (value : Bytes) (milliseconds : Nat)
  | coordinationSnapshot (leaseKey resultKey : Text) (maxResultSize : Nat)
  | publishIfValue (leaseKey : Text) (expected : Bytes) (resultKey : Text)
      (resultValue completionValue : Bytes) (milliseconds : Nat)
  | deleteIfValue (key : Text) (value : Bytes)
deriving DecidableEq

/-- What the server replies. -/
inductive Reply
  | flag (set : Bool)
  | report (values : List ReplyValue)
deriving DecidableEq

/-- `_ttl_milliseconds`, none for its exceptions -/
def ttlMilliseconds (ttl : ℚ) : Option Nat :=
  if ttl ≤ 0 then none
  else if (maxInt64 : Int) < ⌈ttl * 1000⌉ then none
  else some ⌈ttl * 1000⌉.toNat

/-- The command that a call of the provider sends, if any. -/
def Question.command? : Question → Option Command
  | .setIfAbsent key value ttl => (ttlMilliseconds ttl).map (.setIfAbsent key value)
  | .coordinationSnapshot leaseKey resultKey maxResultSize =>
      some (.coordinationSnapshot leaseKey resultKey maxResultSize)
  | .publishIfValue leaseKey expected resultKey resultValue completionValue ttl =>
      (ttlMilliseconds ttl).map
        (.publishIfValue leaseKey expected resultKey resultValue completionValue)
  | .deleteIfValue key value => some (.deleteIfValue key value)
  | .clock | .newToken | .jitter | .sleep _ | .loader _ | .onEvent _ => none

/-- The two keys of a flight as the snapshot script names them. -/
def flightKeys (db : Keyspace Text) (leaseKey resultKey : Text) : Keyspace FlightKey where
  now := db.now
  entries
    | .marker => db.entries leaseKey
    | .result => db.entries resultKey

/-- The server executes a command. -/
def Command.serve : Command → Script Text Reply
  | .setIfAbsent key value milliseconds =>
      Reply.flag <$> Script.setNXPX key value (decimal milliseconds)
  | .coordinationSnapshot leaseKey resultKey maxResultSize => fun db =>
      -- the script only reads
      (((coordinationSnapshotScript (decimal maxCoordinationMarkerSize)
        (decimal maxResultSize)).run (flightKeys db leaseKey resultKey)).1.map .report, db)
  | .publishIfValue leaseKey expected resultKey resultValue completionValue milliseconds =>
      Reply.flag <$> publishIfValueScript leaseKey resultKey expected resultValue
        (decimal milliseconds) completionValue
  | .deleteIfValue key value => Reply.flag <$> compareAndDeleteScript key value

/-- A flight's command under way: sent, replied to, or given up. -/
structure FlightWire where
  current : Option Command
  reply : Option (Except CommandError Reply)
  stale : List Command

/-- Nothing sent yet. -/
def FlightWire.init : FlightWire :=
  ⟨none, none, []⟩

namespace FlightWire

/-- A command is sent. -/
def send (w : FlightWire) (command : Command) : FlightWire :=
  { w with current := some command, reply := none }

/-- The call has ended; a command that was not executed may still be. -/
def settle (w : FlightWire) : FlightWire :=
  ⟨none, none, w.stale ++ w.current.toList⟩

/-- The call returns what it reads from the reply. -/
def receive (w : FlightWire) (reads : Reply → Bool) : Option FlightWire :=
  match w.reply with
  | some (.ok reply) => if reads reply then some w.settle else none
  | _ => none

/-- A call that returns a flag, or raises at any time. -/
def receiveFlag (w : FlightWire) : Except FlightException Bool → Option FlightWire
  | .ok set => w.receive fun reply => decide (reply = .flag set)
  | .error _ => some w.settle

variable {V : Type}

/-- The answers that a call may get. -/
def answer (w : FlightWire) : (q : Question) → Answer V q → Option FlightWire
  | .setIfAbsent .., a => w.receiveFlag a
  | .publishIfValue .., a => w.receiveFlag a
  | .deleteIfValue .., a => w.receiveFlag a
  | .coordinationSnapshot _ _ maxResultSize, .ok snapshot => w.receive fun
      | .report values => decide (readCoordinationSnapshot (.list values)
          maxCoordinationMarkerSize maxResultSize = .ok snapshot)
      | .flag _ => false
  | .coordinationSnapshot .., .error _ => some w.settle
  | .clock, _ | .newToken, _ | .jitter, _ | .sleep _, _ | .loader _, _ | .onEvent _, _ => some w

end FlightWire

/-! ## The system -/

/-- The server, the commands under way, and the tokens that were drawn. -/
structure CoordinationWorld (T : Type) where
  db : Keyspace Text
  wire : T → FlightWire
  drawn : List (T × Text)

/-- What no flight does: time, and the execution of commands. -/
inductive CoordinationEvent (T : Type)
  | advance (milliseconds : Nat)
  | execute (t : T)
  | executeStale (t : T) (i : Nat)

namespace CoordinationWorld

variable {T V : Type} [DecidableEq T]

/-- A server with what is stored on it, and no command yet. -/
def init (db : Keyspace Text) : CoordinationWorld T :=
  ⟨db, fun _ => .init, []⟩

/-- Change the commands of one flight. -/
def setWire (w : CoordinationWorld T) (t : T) (wire : FlightWire) : CoordinationWorld T :=
  { w with wire := Function.update w.wire t wire }

/-- A flight asks: a call of the provider sends its command. -/
def issue (t : T) (q : Question) (w : CoordinationWorld T) : Option (CoordinationWorld T) :=
  match q.command? with
  | none => some w
  | some command => some (w.setWire t ((w.wire t).send command))

/-- The tokens that an answer draws. -/
def draws (t : T) : (q : Question) → Answer V q → List (T × Text)
  | .newToken, token => [(t, token)]
  | _, _ => []

/-- A flight is answered; a token is never drawn twice. -/
def answer (t : T) (q : Question) (a : Answer V q) (w : CoordinationWorld T) :
    Option (CoordinationWorld T) :=
  if ∀ x ∈ draws t q a, x.2 ∉ w.drawn.map Prod.snd then
    ((w.wire t).answer q a).map fun wire =>
      { w.setWire t wire with drawn := draws t q a ++ w.drawn }
  else none

/-- The command that an event executes, and its flight. -/
def executing (w : CoordinationWorld T) : CoordinationEvent T → Option (T × Command)
  | .advance _ => none
  | .execute t => (w.wire t).current.map (t, ·)
  | .executeStale t i => (w.wire t).stale[i]?.map (t, ·)

/-- What happens on its own. -/
def env (e : CoordinationEvent T) (w : CoordinationWorld T) : Option (CoordinationWorld T) :=
  match e with
  | .advance milliseconds => some { w with db := w.db.advance milliseconds }
  | .execute t =>
      (w.wire t).current.map fun command =>
        let (reply, db) := command.serve.run w.db
        { w with db := db }.setWire t { w.wire t with current := none, reply := some reply }
  | .executeStale t i =>
      (w.wire t).stale[i]?.map fun command =>
        { w with db := (command.serve.run w.db).2 }.setWire t
          { w.wire t with stale := (w.wire t).stale.eraseIdx i }

end CoordinationWorld

section System

variable {T V : Type} [DecidableEq T]

/-- Flights around a server. -/
def flightSystem (T V : Type) [DecidableEq T] :
    System T (CoordinationWorld T) Unit Empty Question (CoordinationEvent T) (Answer V) where
  view _ _ := ()
  put _ _ w := w
  enabled _ _ _ := true
  issue := CoordinationWorld.issue
  answer := CoordinationWorld.answer
  env := CoordinationWorld.env

/-- The flights before their first steps. -/
def flightPool (contexts : T → FlightContext V) (modes : T → RedisMode) (db : Keyspace Text) :
    System.Pool T (CoordinationWorld T) Unit Empty Question (Answer V)
      (Except FlightException V) :=
  ⟨.init db, fun t => .running (distributedLoad (contexts t) (modes t)).toProc⟩

/-- Whatever an event executes, it executes on what is stored. -/
theorem env_db
    {e : CoordinationEvent T} {w w' : CoordinationWorld T}
    (henv : CoordinationWorld.env e w = some w') :
    (∃ milliseconds, e = .advance milliseconds ∧ w'.db = w.db.advance milliseconds) ∨
      ∃ t command, w.executing e = some (t, command) ∧ w'.db = (command.serve.run w.db).2 := by
  cases e with
  | advance milliseconds =>
      obtain rfl := Option.some.inj henv
      exact .inl ⟨milliseconds, rfl, rfl⟩
  | execute t =>
      obtain ⟨command, hcurrent, rfl⟩ := Option.map_eq_some_iff.mp henv
      exact .inr ⟨t, command, by simp [CoordinationWorld.executing, hcurrent], rfl⟩
  | executeStale t i =>
      obtain ⟨command, hstale, rfl⟩ := Option.map_eq_some_iff.mp henv
      exact .inr ⟨t, command, by simp [CoordinationWorld.executing, hstale], rfl⟩

end System

end CacheRedis
end Bluetape
