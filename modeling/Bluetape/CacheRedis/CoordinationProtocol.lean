import Bluetape.CacheRedis.CleanupRuns
import Bluetape.CacheRedis.LoadProvenance

/-!
# The protocol of the coordinators

Any number of flights for one logical key, with one codec, around a server on which both
keys were empty.  The marker and the result change together or not at all, whatever is
executed late, given up or expires.

* `Effect`: what a command of a flight does to the two keys;
* `Protocol`: what the keys show, and what the flights have seen, after a run;
* `coordination_protocol`: a completed marker belongs to the stored result, only the owner
  changes what is stored, every snapshot is read, and a reused value was published.
-/

namespace Bluetape
namespace CacheRedis

open Base Serde Dialogue

/-! ## Reading the markers -/

section Markers

/-- The text before the first colon, and the text after it. -/
theorem parseMarker_of_state
    (name : Text) {token : Text} {state : MarkerState}
    (hname : ∀ p ∈ name, p.ord < 128 ∧ p ≠ .scalar ':')
    (hstate : MarkerState.ofText name = some state)
    (htoken : isOwnerToken token = true) :
    parseMarker (asciiBytes (name ++ .scalar ':' :: token)) = some (state, token) := by
  have hascii : ∀ p ∈ name ++ .scalar ':' :: token, p.ord < 128 := by
    intro p hp
    rcases List.mem_append.mp hp with hp | hp
    · exact (hname p hp).1
    · rcases List.mem_cons.mp hp with rfl | hp
      · decide
      · exact ord_of_isOwnerToken htoken p hp
  have hdecode := encodeAscii_eq_some_iff.mp (encodeAscii_asciiBytes hascii)
  have hne : ∀ p ∈ name, decide (p ≠ .scalar ':') = true :=
    fun p hp => decide_eq_true (hname p hp).2
  have htake : (name ++ .scalar ':' :: token).takeWhile (· ≠ .scalar ':') = name := by
    rw [List.takeWhile_append_of_pos hne, List.takeWhile_cons_of_neg (by simp), List.append_nil]
  have hdrop : (name ++ .scalar ':' :: token).dropWhile (· ≠ .scalar ':') =
      .scalar ':' :: token := by
    rw [List.dropWhile_append_of_pos hne, List.dropWhile_cons_of_neg (by simp)]
  simp only [parseMarker, hdecode, Option.bind_eq_bind, Option.bind_some, htake, hdrop,
    List.tail?_cons, hstate, htoken, if_true]

theorem parseMarker_activeMarker
    {token : Text}
    (htoken : isOwnerToken token = true) :
    parseMarker (activeMarker token) = some (.active, token) :=
  parseMarker_of_state (text "active") (by decide) (by decide) htoken

theorem parseMarker_completionMarker
    {token : Text}
    (htoken : isOwnerToken token = true) :
    parseMarker (completionMarker token) = some (.completed, token) :=
  parseMarker_of_state (text "completed") (by decide) (by decide) htoken

theorem completionMarker_inj
    {token token' : Text}
    (h : isOwnerToken token = true) (h' : isOwnerToken token' = true)
    (heq : completionMarker token = completionMarker token') :
    token = token' := by
  have hparse := parseMarker_completionMarker h
  rw [heq, parseMarker_completionMarker h'] at hparse
  exact (Prod.mk.inj (Option.some.inj hparse)).2.symm

theorem length_le_of_isOwnerToken
    {token : Text}
    (h : isOwnerToken token = true) :
    token.length ≤ 128 := by
  simp only [isOwnerToken, Bool.and_eq_true, decide_eq_true_eq] at h
  exact h.1.2

/-- A marker fits into a snapshot. -/
theorem length_activeMarker
    {token : Text}
    (h : isOwnerToken token = true) :
    (activeMarker token).length ≤ maxCoordinationMarkerSize := by
  have hlength := length_le_of_isOwnerToken h
  have hprefix : (text "active:").length = 7 := by
    rfl
  simp only [activeMarker, asciiBytes, List.length_map, List.length_append, hprefix,
    maxCoordinationMarkerSize]
  omega

theorem length_completionMarker
    {token : Text}
    (h : isOwnerToken token = true) :
    (completionMarker token).length ≤ maxCoordinationMarkerSize := by
  have hlength := length_le_of_isOwnerToken h
  have hprefix : (text "completed:").length = 10 := by
    rfl
  simp only [completionMarker, asciiBytes, List.length_map, List.length_append, hprefix,
    maxCoordinationMarkerSize]
  omega

theorem isActive_activeMarker
    (token : Text) :
    IsActive (some (activeMarker token)) := by
  refine ⟨asciiBytes token, ?_⟩
  simp [activeMarker, asciiBytes]

theorem not_isActive_completionMarker
    (token : Text) :
    ¬ IsActive (some (completionMarker token)) := by
  rintro ⟨rest, heq⟩
  have hcompleted : (completionMarker token).head? = some (byte 'c') := by
    rfl
  have hactive : (asciiBytes (text "active:") ++ rest).head? = some (byte 'a') := by
    rfl
  change asciiBytes (text "active:") ++ rest = completionMarker token at heq
  rw [heq, hcompleted] at hactive
  exact absurd (Option.some.inj hactive) (by decide)

end Markers

/-! ## What a command does -/

section Effects

variable {T V : Type}

/-- What a command of a flight with these keys makes of what is stored. -/
inductive Effect (leaseKey resultKey : Text) (drawn : List (T × Text)) (t : T)
    (db db' : Keyspace Text) : Command → Prop
  | none {command : Command} : db' = db → Effect leaseKey resultKey drawn t db db' command
  | acquired {token : Text} {ms e : Nat} :
      Holds drawn t token →
      db.lookup leaseKey = .none → db.now ≤ e →
      db' = db.write leaseKey (some ⟨.string (activeMarker token), some e⟩) →
      Effect leaseKey resultKey drawn t db db' (.setIfAbsent leaseKey (activeMarker token) ms)
  | published {token : Text} {encoded : Bytes} {ms e : Nat} :
      Holds drawn t token →
      shownString db leaseKey = some (activeMarker token) → db.now ≤ e →
      (((Command.publishIfValue leaseKey (activeMarker token) resultKey encoded
        (completionMarker token) ms).serve.run db).1 = .ok (.flag true)) →
      db' = (db.write resultKey (some ⟨.string encoded, some e⟩)).write leaseKey
        (some ⟨.string (completionMarker token), some e⟩) →
      Effect leaseKey resultKey drawn t db db'
        (.publishIfValue leaseKey (activeMarker token) resultKey encoded
          (completionMarker token) ms)
  | released {token : Text} :
      Holds drawn t token →
      shownString db leaseKey = some (activeMarker token) →
      db' = db.write leaseKey .none →
      Effect leaseKey resultKey drawn t db db' (.deleteIfValue leaseKey (activeMarker token))

/-- SET with NX writes with an expiry in the future where nothing is shown, or does nothing. -/
theorem setNXPX_cases
    (db : Keyspace Text) (key : Text) (value px : Bytes) :
    (db.lookup key = none ∧ ∃ e, db.now ≤ e ∧
        ((Script.setNXPX key value px).run db).2 =
          db.write key (some ⟨.string value, some e⟩)) ∨
      ((Script.setNXPX key value px).run db).2 = db := by
  unfold Script.run Script.setNXPX
  split
  · exact .inr rfl
  · next e _ =>
      split
      · exact .inr rfl
      · split
        · exact .inr rfl
        · next hnone => exact .inl ⟨hnone, e.toNat, by omega, rfl⟩

/-- The reply of a script goes into the reply of its command. -/
theorem run_map_ok
    {κ α β : Type} {f : α → β} {s : Script κ α} {db db' : Keyspace κ} {a : α}
    (h : s.run db = (.ok a, db')) :
    (f <$> s).run db = (.ok (f a), db') := by
  rw [Script.map_eq_bind, Script.run_bind_ok h]
  rfl

/-- **Every command of a flight** has one of these effects. -/
theorem effect_of_own
    {context : FlightContext V} {drawn : List (T × Text)} {t : T} {command : Command}
    (hown : OwnCommand context drawn t command)
    (db : Keyspace Text) :
    Effect context.leaseKey context.resultKey drawn t db (command.serve.run db).2 command := by
  cases command with
  | setIfAbsent key value ms =>
      obtain ⟨rfl, token, hholds, rfl⟩ := hown
      rcases setNXPX_cases db context.leaseKey (activeMarker token) (decimal ms) with
        ⟨hnone, e, hlater, hrun⟩ | hsame
      · exact .acquired hholds hnone hlater ((run_map_snd _ _ db).trans hrun)
      · exact .none ((run_map_snd _ _ db).trans hsame)
  | coordinationSnapshot leaseKey resultKey size =>
      exact .none rfl
  | publishIfValue key expected resultKey encoded completion ms =>
      obtain ⟨rfl, rfl, token, hholds, rfl, rfl⟩ := hown
      rcases publishIfValue_cases db context.leaseKey context.resultKey (activeMarker token)
        encoded (decimal ms) (completionMarker token) with ⟨hshown, e, hlater, hrun⟩ | ⟨hsame, -⟩
      · have hserve := run_map_ok (f := Reply.flag) hrun
        exact .published hholds hshown hlater.le (congrArg Prod.fst hserve)
          (congrArg Prod.snd hserve)
      · exact .none ((run_map_snd _ _ db).trans hsame)
  | deleteIfValue key value =>
      obtain ⟨rfl, token, hholds, rfl⟩ := hown
      rcases compareAndDelete_cases db context.leaseKey (activeMarker token) with
        ⟨hshown, hrun⟩ | ⟨-, hsame⟩
      · refine .released hholds hshown ((run_map_snd _ _ db).trans ?_)
        rw [hrun]
      · exact .none ((run_map_snd _ _ db).trans hsame)

end Effects

/-! ## Coordinators of one key -/

/--
Coordinators of one logical key, with one codec whose parts give back what they were given,
around a server on which both keys are empty.
-/
structure Coordinators (T V : Type) where
  contexts : T → FlightContext V
  modes : T → RedisMode
  db : Keyspace Text
  leaseKey : Text
  resultKey : Text
  codec : ResultEnvelopeCodec V
  coordinated : ∃ namespaceId keyId, coordinationKeys namespaceId keyId = (leaseKey, resultKey)
  lease : ∀ t, (contexts t).leaseKey = leaseKey
  result : ∀ t, (contexts t).resultKey = resultKey
  shared : ∀ t, (contexts t).codec = codec
  frames : ∀ t, 2 ≤ (contexts t).frames
  payloads : codec.payloadCodec.RoundTrips
  compressors : ∀ compressor ∈ codec.compressor, compressor.RoundTrips
  noMarker : db.lookup leaseKey = none
  noResult : db.lookup resultKey = none

namespace Coordinators

variable {T V : Type} [DecidableEq T] (k : Coordinators T V)

omit [DecidableEq T] in
theorem apart :
    k.resultKey ≠ k.leaseKey := by
  obtain ⟨n, i, hkeys⟩ := k.coordinated
  have hne := coordinationKeys_apart n i n i
  rw [hkeys] at hne
  exact hne.symm

/-- The coordinators before their first steps. -/
def start : FlightPool T V :=
  flightPool k.contexts k.modes k.db

/--
In the run, a flight that had loaded the value has published its envelope, while the marker
was the one of its token.
-/
inductive Publication (ls : List (FlightLabel T V)) (token : Text) (value : V)
    (encoded : Bytes) : Prop
  | intro {before after : List (FlightLabel T V)} {e : CoordinationEvent T} {c : FlightPool T V}
      {u : T} {ms : Nat} :
      ls = before ++ .env e :: after →
      Run (System.PoolStep (flightSystem T V)) k.start before c →
      c.world.executing e = some (u, .publishIfValue k.leaseKey (activeMarker token) k.resultKey
        encoded (completionMarker token) ms) →
      ((Command.publishIfValue k.leaseKey (activeMarker token) k.resultKey encoded
        (completionMarker token) ms).serve.run c.world.db).1 = .ok (.flag true) →
      Holds c.world.drawn u token →
      shownString c.world.db k.leaseKey = some (activeMarker token) →
      LoadedIn (k.contexts u) (System.told before u) value →
      k.codec.encode token value = .ok encoded →
      Publication ls token value encoded

variable {k}

theorem Publication.append
    {ls : List (FlightLabel T V)} {token : Text} {value : V} {encoded : Bytes}
    (h : k.Publication ls token value encoded) (l : FlightLabel T V) :
    k.Publication (ls ++ [l]) token value encoded := by
  obtain ⟨rfl, hrun, hexecuting, hreply, hholds, hshown, hloaded, hencode⟩ := h
  exact ⟨List.append_assoc _ _ _, hrun, hexecuting, hreply, hholds, hshown, hloaded, hencode⟩

variable (k)

/-- What the two keys show after a run. -/
inductive Stored (ls : List (FlightLabel T V)) (db : Keyspace Text) : Prop
  | absent :
      db.lookup k.leaseKey = none → db.lookup k.resultKey = none → Stored ls db
  | active {token : Text} {e : Option Nat} :
      isOwnerToken token = true →
      db.lookup k.leaseKey = some ⟨.string (activeMarker token), e⟩ →
      db.lookup k.resultKey = none → Stored ls db
  | completed {token : Text} {value : V} {encoded : Bytes} {e : Nat} :
      isOwnerToken token = true →
      db.lookup k.leaseKey = some ⟨.string (completionMarker token), some e⟩ →
      db.lookup k.resultKey = some ⟨.string encoded, some e⟩ →
      k.Publication ls token value encoded → Stored ls db

/-- What a snapshot may show after a run. -/
inductive Described (ls : List (FlightLabel T V)) : RedisCoordinationSnapshot → Prop
  | absent : Described ls ⟨none, none, false, false⟩
  | active {token : Text} :
      isOwnerToken token = true → Described ls ⟨some (activeMarker token), none, false, false⟩
  | completed {token : Text} {value : V} {encoded : Bytes} :
      isOwnerToken token = true → k.Publication ls token value encoded →
      Described ls ⟨some (completionMarker token), some encoded, false, false⟩

variable {k}

theorem Stored.append
    {ls : List (FlightLabel T V)} {db : Keyspace Text}
    (h : k.Stored ls db) (l : FlightLabel T V) :
    k.Stored (ls ++ [l]) db := by
  cases h with
  | absent hmarker hresult => exact .absent hmarker hresult
  | active htoken hmarker hresult => exact .active htoken hmarker hresult
  | completed htoken hmarker hresult hpublication =>
      exact .completed htoken hmarker hresult (hpublication.append l)

theorem Described.append
    {ls : List (FlightLabel T V)} {snapshot : RedisCoordinationSnapshot}
    (h : k.Described ls snapshot) (l : FlightLabel T V) :
    k.Described (ls ++ [l]) snapshot := by
  cases h with
  | absent => exact .absent
  | active htoken => exact .active htoken
  | completed htoken hpublication => exact .completed htoken (hpublication.append l)

/-! ## Steps of the server -/

/-- Time passes: the marker and the result expire together. -/
theorem Stored.advance
    {ls : List (FlightLabel T V)} {db : Keyspace Text}
    (h : k.Stored ls db) (ms : Nat) :
    k.Stored ls (db.advance ms) := by
  cases h with
  | absent hmarker hresult =>
      exact .absent (Keyspace.lookup_advance_none hmarker ms)
        (Keyspace.lookup_advance_none hresult ms)
  | @active token e htoken hmarker hresult =>
      have hresult' := Keyspace.lookup_advance_none hresult ms
      cases hlater : (db.advance ms).lookup k.leaseKey with
      | none =>
          exact .absent hlater hresult'
      | some entry =>
          have hentry := Keyspace.lookup_of_advance hlater
          rw [hmarker] at hentry
          obtain rfl := Option.some.inj hentry
          exact .active htoken hlater hresult'
  | @completed token value encoded e htoken hmarker hresult hpublication =>
      by_cases hle : db.now + ms ≤ e
      · exact .completed htoken (Keyspace.lookup_advance_of_le hmarker hle)
          (Keyspace.lookup_advance_of_le hresult hle) hpublication
      · exact .absent (Keyspace.lookup_advance_of_lt hmarker (by omega))
          (Keyspace.lookup_advance_of_lt hresult (by omega))

/-- While an active marker is shown, there is no result. -/
theorem Stored.noResult_of_active
    {ls : List (FlightLabel T V)} {db : Keyspace Text} {token : Text}
    (h : k.Stored ls db)
    (hshown : shownString db k.leaseKey = some (activeMarker token)) :
    db.lookup k.resultKey = none := by
  cases h with
  | absent hmarker hresult => exact hresult
  | active htoken hmarker hresult => exact hresult
  | completed htoken hmarker hresult hpublication =>
      rw [shownString_of_lookup hmarker] at hshown
      exact absurd (Option.some.inj hshown) (completionMarker_ne_activeMarker _ _)

variable (k)

/-- The data of a command come from the history of its flight. -/
def SourcedCommand (u : T) (log : Log V) : Command → Prop
  | .coordinationSnapshot leaseKey resultKey size =>
      leaseKey = k.leaseKey ∧ resultKey = k.resultKey ∧ size = k.codec.maxEncodedSize
  | .publishIfValue _ expected _ encoded _ _ =>
      ∃ token value, isOwnerToken token = true ∧ expected = activeMarker token ∧
        LoadedIn (k.contexts u) log value ∧ k.codec.encode token value = .ok encoded
  | _ => True

variable {k}

/-- A command is executed after the run. -/
theorem Stored.execute
    {before : List (FlightLabel T V)} {c : FlightPool T V} {e : CoordinationEvent T} {u : T}
    {command : Command}
    (h : k.Stored before c.world.db)
    (hrun : Run (System.PoolStep (flightSystem T V)) k.start before c)
    (hexecuting : c.world.executing e = some (u, command))
    (hown : OwnCommand (k.contexts u) c.world.drawn u command)
    (hsourced : k.SourcedCommand u (System.told before u) command) :
    k.Stored (before ++ [.env e]) (command.serve.run c.world.db).2 := by
  have heffect := effect_of_own hown c.world.db
  rw [k.lease u, k.result u] at heffect
  generalize hdb : (command.serve.run c.world.db).2 = db' at heffect
  cases heffect with
  | none hsame =>
      rw [hsame]
      exact h.append _
  | acquired hholds hnone hlater hwrite =>
      rw [hwrite]
      refine .active hholds.1 (Keyspace.lookup_write_of_le hlater) ?_
      rw [Keyspace.lookup_write_ne _ _ k.apart]
      cases h with
      | absent hmarker hresult => exact hresult
      | active htoken hmarker hresult => exact hresult
      | completed htoken hmarker hresult hpublication =>
          rw [hmarker] at hnone
          cases hnone
  | @published token encoded ms expiry hholds hshown hlater hreply hwrite =>
      obtain ⟨token', value, htoken', hexpected, hvalue, hencode⟩ := hsourced
      obtain rfl := activeMarker_inj hholds.1 htoken' hexpected
      rw [hwrite]
      refine .completed hholds.1 (Keyspace.lookup_write_of_le hlater) ?_
        ⟨rfl, hrun, hexecuting, hreply, hholds, hshown, hvalue, hencode⟩
      rw [Keyspace.lookup_write_ne _ _ k.apart]
      exact Keyspace.lookup_write_of_le hlater
  | released hholds hshown hwrite =>
      rw [hwrite]
      refine .absent (Keyspace.lookup_write_none _ _) ?_
      rw [Keyspace.lookup_write_ne _ _ k.apart]
      exact h.noResult_of_active hshown

/-! ## Snapshots -/

/-- What is within the limit is reported as it is. -/
theorem part_of_length_le
    {stored : Bytes} {limit : Nat}
    (hle : stored.length ≤ limit) :
    (some stored).map (·.take limit) = some stored ∧
      decide (limit < ((some stored).getD []).length) = false := by
  refine ⟨congrArg some (List.take_of_length_le hle), decide_eq_false ?_⟩
  exact not_lt.mpr hle

/-- GET does not fail on the key. -/
def Readable (db : Keyspace Text) (key : Text) : Prop :=
  db.lookup key = none ∨ ∃ value e, db.lookup key = some ⟨.string value, e⟩

/-- What the two keys of a flight show. -/
def shownKeys (db : Keyspace Text) (leaseKey resultKey : Text) : FlightKey → Option Bytes
  | .marker => shownString db leaseKey
  | .result => shownString db resultKey

/-- What a key shows is what GET reads. -/
theorem stores_flightKeys
    {db : Keyspace Text} {leaseKey resultKey : Text}
    (hmarker : Readable db leaseKey)
    (hresult : Readable db resultKey) :
    Stores (flightKeys db leaseKey resultKey) (shownKeys db leaseKey resultKey) := by
  have hget : ∀ key : Text, Readable db key → ∀ f : FlightKey,
      (flightKeys db leaseKey resultKey).lookup f = db.lookup key →
      (Script.get f).run (flightKeys db leaseKey resultKey) =
        (.ok (shownString db key), flightKeys db leaseKey resultKey) := by
    intro key hkey f hlookup
    rcases hkey with hnone | ⟨value, e, hsome⟩
    · simp only [Script.run, Script.get, hlookup, shownString, hnone]
    · simp only [Script.run, Script.get, hlookup, shownString, hsome]
  intro f
  cases f with
  | marker =>
      exact hget leaseKey hmarker .marker rfl
  | result =>
      exact hget resultKey hresult .result rfl

theorem maxU32Value_le_maxInt64 :
    maxU32Value ≤ maxInt64 := by
  decide

/-- The reply of a snapshot, and how its reader reads it. -/
theorem serve_coordinationSnapshot
    {db : Keyspace Text} {leaseKey resultKey : Text} {size : Nat}
    (hmarker : Readable db leaseKey)
    (hresult : Readable db resultKey)
    (hone : 1 ≤ size)
    (hmax : size ≤ maxU32Value) :
    ∃ values, (Command.coordinationSnapshot leaseKey resultKey size).serve.run db =
        (.ok (.report values), db) ∧
      readCoordinationSnapshot (.list values) maxCoordinationMarkerSize size =
        .ok ⟨(shownString db leaseKey).map (·.take maxCoordinationMarkerSize),
          (reportedResult (shownKeys db leaseKey resultKey)).map (·.take size),
          decide (maxCoordinationMarkerSize < ((shownString db leaseKey).getD []).length),
          decide (size < ((reportedResult (shownKeys db leaseKey resultKey)).getD []).length)⟩ := by
  have hscript := run_coordinationSnapshotScript
    ⟨maxCoordinationMarkerSize, one_le_maxCoordinationMarkerSize, le_rfl⟩ ⟨size, hone, hmax⟩
    maxU32Value_le_maxInt64 (stores_flightKeys hmarker hresult)
  exact ⟨_, congrArg (fun reply => (reply.1.map Reply.report, db)) hscript,
    readCoordinationSnapshot_report _ _ _ _⟩

/-- A completed marker is reported with its result. -/
theorem serve_snapshot_completed
    {db : Keyspace Text} {leaseKey resultKey token : Text} {encoded : Bytes} {size : Nat}
    {e e' : Option Nat}
    (htoken : isOwnerToken token = true)
    (hmarker : db.lookup leaseKey = some ⟨.string (completionMarker token), e⟩)
    (hresult : db.lookup resultKey = some ⟨.string encoded, e'⟩)
    (hone : 1 ≤ size)
    (hmax : size ≤ maxU32Value)
    (hbound : encoded.length ≤ size) :
    ∃ values, (Command.coordinationSnapshot leaseKey resultKey size).serve.run db =
        (.ok (.report values), db) ∧
      readCoordinationSnapshot (.list values) maxCoordinationMarkerSize size =
        .ok ⟨some (completionMarker token), some encoded, false, false⟩ := by
  obtain ⟨values, hserve, hread⟩ := serve_coordinationSnapshot (.inr ⟨_, _, hmarker⟩)
    (.inr ⟨_, _, hresult⟩) hone hmax
  obtain ⟨hpart, hflag⟩ := part_of_length_le (length_completionMarker htoken)
  obtain ⟨hpart', hflag'⟩ := part_of_length_le hbound
  refine ⟨values, hserve, ?_⟩
  simpa only [reportedResult, shownKeys, shownString_of_lookup hmarker,
    shownString_of_lookup hresult, if_neg (not_isActive_completionMarker token), hpart, hflag,
    hpart', hflag'] using hread

theorem Stored.readable
    {ls : List (FlightLabel T V)} {db : Keyspace Text}
    (h : k.Stored ls db) :
    Readable db k.leaseKey ∧ Readable db k.resultKey := by
  cases h with
  | absent hmarker hresult => exact ⟨.inl hmarker, .inl hresult⟩
  | active htoken hmarker hresult => exact ⟨.inr ⟨_, _, hmarker⟩, .inl hresult⟩
  | completed htoken hmarker hresult hpublication =>
      exact ⟨.inr ⟨_, _, hmarker⟩, .inr ⟨_, _, hresult⟩⟩

/-- **The reply of a snapshot** says what the keys show. -/
theorem Stored.report
    {ls : List (FlightLabel T V)} {db : Keyspace Text}
    (h : k.Stored ls db) :
    ∃ values snapshot, ((Command.coordinationSnapshot k.leaseKey k.resultKey
        k.codec.maxEncodedSize).serve.run db).1 = .ok (.report values) ∧
      readCoordinationSnapshot (.list values) maxCoordinationMarkerSize
        k.codec.maxEncodedSize = .ok snapshot ∧
      k.Described ls snapshot := by
  obtain ⟨values, hserve, hread⟩ := serve_coordinationSnapshot h.readable.1 h.readable.2
    k.codec.one_le_max k.codec.max_le
  refine ⟨values, _, congrArg Prod.fst hserve, hread, ?_⟩
  cases h with
  | absent hmarker hresult =>
      have hnone : shownString db k.leaseKey = none := by simp [shownString, hmarker]
      have hnone' : shownString db k.resultKey = none := by simp [shownString, hresult]
      simp only [reportedResult, shownKeys, hnone, hnone', ite_self]
      exact .absent
  | @active token e htoken hmarker hresult =>
      obtain ⟨hpart, hflag⟩ := part_of_length_le (length_activeMarker htoken)
      simp only [reportedResult, shownKeys, shownString_of_lookup hmarker,
        if_pos (isActive_activeMarker token), hpart, hflag]
      exact .active htoken
  | @completed token value encoded e htoken hmarker hresult hpublication =>
      have hbound : encoded.length ≤ k.codec.maxEncodedSize := by
        obtain ⟨-, -, -, -, -, -, -, hencode⟩ := hpublication
        exact ResultEnvelopeCodec.length_le_of_encode hencode
      obtain ⟨values', hserve', hread'⟩ := serve_snapshot_completed htoken hmarker hresult
        k.codec.one_le_max k.codec.max_le hbound
      rw [hserve] at hserve'
      obtain rfl := Reply.report.inj (Except.ok.inj (Prod.mk.inj hserve').1)
      obtain heq := Except.ok.inj (hread.symm.trans hread')
      rw [heq]
      exact .completed htoken hpublication

/-! ## Runs -/

variable (k)

/-- What the keys show after a run, and what the flights have been told. -/
structure Protocol (ls : List (FlightLabel T V)) (w : CoordinationWorld T) : Prop where
  guarded : Guarded k.contexts w (System.told ls)
  sourced : ∀ t command, (w.wire t).Carries command →
    k.SourcedCommand t (System.told ls t) command
  replies : ∀ t values snapshot, (w.wire t).reply = some (.ok (.report values)) →
    readCoordinationSnapshot (.list values) maxCoordinationMarkerSize
      k.codec.maxEncodedSize = .ok snapshot → k.Described ls snapshot
  stored : k.Stored ls w.db
  seen : ∀ t snapshot, SawIn (k.contexts t) (System.told ls t) snapshot →
    k.Described ls snapshot

/-- What a flight may ask. -/
def MayAsk (t : T) (log : Log V) (q : Question) : Prop :=
  Asks (k.contexts t) log q ∧ Sources (k.contexts t) log q

variable {k}

omit [DecidableEq T] in
theorem SourcedCommand.cons
    {t : T} {log : Log V} {command : Command}
    (h : k.SourcedCommand t log command) (x : Exchange (Answer V)) :
    k.SourcedCommand t (x :: log) command := by
  cases command with
  | publishIfValue key expected resultKey encoded completion ms =>
      obtain ⟨token, value, htoken, hexpected, hloaded, hencode⟩ := h
      exact ⟨token, value, htoken, hexpected, List.mem_cons_of_mem x hloaded, hencode⟩
  | _ =>
      exact h

omit [DecidableEq T] in
/-- What a flight asks for is sourced. -/
theorem sourcedCommand_of_sources
    {t : T} {log : Log V} {q : Question} {command : Command}
    (h : Sources (k.contexts t) log q)
    (hcommand : q.command? = some command) :
    k.SourcedCommand t log command := by
  have hsource := h.2
  cases q with
  | setIfAbsent key value ttl =>
      obtain ⟨ms, -, rfl⟩ := Option.map_eq_some_iff.mp hcommand
      trivial
  | coordinationSnapshot leaseKey resultKey size =>
      obtain rfl := Option.some.inj hcommand
      simp only [k.lease t, k.result t, k.shared t] at hsource
      exact hsource
  | publishIfValue key expected resultKey encoded completion ttl =>
      obtain ⟨ms, -, rfl⟩ := Option.map_eq_some_iff.mp hcommand
      simp only [k.shared t] at hsource
      exact hsource
  | deleteIfValue key value =>
      obtain rfl := Option.some.inj hcommand
      trivial
  | clock | newToken | jitter | sleep _ | loader _ | onEvent _ =>
      cases hcommand

/-- The next state, from what is new in it. -/
theorem Protocol.next
    {ls : List (FlightLabel T V)} {l : FlightLabel T V} {w w' : CoordinationWorld T}
    (h : k.Protocol ls w)
    (hguarded : Guarded k.contexts w' (System.told (ls ++ [l])))
    (hsourced : ∀ t command, (w'.wire t).Carries command →
      k.SourcedCommand t (System.told (ls ++ [l]) t) command)
    (hreplies : ∀ t values, (w'.wire t).reply = some (.ok (.report values)) →
      (w.wire t).reply = some (.ok (.report values)) ∨
        ∀ snapshot, readCoordinationSnapshot (.list values) maxCoordinationMarkerSize
          k.codec.maxEncodedSize = .ok snapshot → k.Described ls snapshot)
    (hstored : k.Stored (ls ++ [l]) w'.db)
    (hseen : ∀ t snapshot, SawIn (k.contexts t) (System.told (ls ++ [l]) t) snapshot →
      SawIn (k.contexts t) (System.told ls t) snapshot ∨ k.Described ls snapshot) :
    k.Protocol (ls ++ [l]) w' where
  guarded := hguarded
  sourced := hsourced
  replies t values snapshot hreply hread := by
    rcases hreplies t values hreply with hold | hnew
    · exact (h.replies t values snapshot hold hread).append l
    · exact (hnew snapshot hread).append l
  stored := hstored
  seen t snapshot hsaw := by
    rcases hseen t snapshot hsaw with hold | hnew
    · exact (h.seen t snapshot hold).append l
    · exact hnew.append l

/-- A flight asks: a command may go on its wire. -/
theorem Protocol.issue
    {ls : List (FlightLabel T V)} {w w' : CoordinationWorld T} {t : T} {q : Question}
    (h : k.Protocol ls w)
    (hasks : k.MayAsk t (System.told ls t) q)
    (hissue : CoordinationWorld.issue t q w = some w') :
    k.Protocol (ls ++ [.thread t (.asked q)]) w' := by
  have hguarded := h.guarded.issue hasks.1 hissue
  unfold CoordinationWorld.issue at hissue
  cases hcommand : q.command? with
  | none =>
      simp only [hcommand] at hissue
      obtain rfl := Option.some.inj hissue
      refine h.next (by simpa using hguarded) ?_ (fun _ _ hreply => .inl hreply)
        (h.stored.append _) fun u snapshot hsaw => .inl (by simpa using hsaw)
      simpa using h.sourced
  | some command =>
      simp only [hcommand] at hissue
      obtain rfl := Option.some.inj hissue
      refine h.next (by simpa using hguarded) (fun u command' hcarries => ?_)
        (fun u values hreply => .inl ?_) (h.stored.append _)
        fun u snapshot hsaw => .inl (by simpa using hsaw)
      · rw [System.told_asked]
        by_cases hu : u = t
        · subst hu
          simp only [CoordinationWorld.setWire, Function.update_self] at hcarries
          rcases hcarries with hcurrent | hstale
          · obtain rfl := Option.some.inj hcurrent
            exact sourcedCommand_of_sources hasks.2 hcommand
          · exact h.sourced u command' (.inr hstale)
        · simp only [CoordinationWorld.setWire, Function.update_of_ne hu] at hcarries
          exact h.sourced u command' hcarries
      · by_cases hu : u = t
        · subst hu
          simp only [CoordinationWorld.setWire, Function.update_self, FlightWire.send] at hreply
          cases hreply
        · simpa only [CoordinationWorld.setWire, Function.update_of_ne hu] using hreply

omit [DecidableEq T] in
/-- A snapshot is returned as the reply of the server is read. -/
theorem reply_of_snapshot
    {w w' : FlightWire} {leaseKey resultKey : Text} {size : Nat}
    {snapshot : RedisCoordinationSnapshot}
    (hanswer : w.answer (V := V) (.coordinationSnapshot leaseKey resultKey size) (.ok snapshot) =
      some w') :
    ∃ values, w.reply = some (.ok (.report values)) ∧
      readCoordinationSnapshot (.list values) maxCoordinationMarkerSize size = .ok snapshot := by
  simp only [FlightWire.answer, FlightWire.receive] at hanswer
  split at hanswer
  · next reply hreply =>
      cases reply with
      | report values =>
          by_cases hread : readCoordinationSnapshot (.list values) maxCoordinationMarkerSize
              size = .ok snapshot
          · exact ⟨values, hreply, hread⟩
          · simp [hread] at hanswer
      | flag set =>
          cases hanswer
  · cases hanswer

omit [DecidableEq T] in
/-- No answer brings a reply. -/
theorem reply_of_answer
    {w w' : FlightWire} {q : Question} {a : Answer V q} {reply : Except CommandError Reply}
    (hanswer : w.answer q a = some w')
    (hreply : w'.reply = some reply) :
    w.reply = some reply := by
  have hsettle : w' ≠ w.settle := by
    rintro rfl
    cases hreply
  have hreceive : ∀ reads, w.receive reads ≠ some w' := by
    intro reads hsome
    unfold FlightWire.receive at hsome
    split at hsome
    · split at hsome
      · exact hsettle (Option.some.inj hsome).symm
      · cases hsome
    · cases hsome
  have hflag : ∀ b, w.receiveFlag b ≠ some w' := by
    intro b hsome
    cases b with
    | error e => exact hsettle (Option.some.inj hsome).symm
    | ok set => exact hreceive _ hsome
  cases q with
  | setIfAbsent key value ttl => exact absurd hanswer (hflag a)
  | publishIfValue key expected resultKey value completion ttl => exact absurd hanswer (hflag a)
  | deleteIfValue key value => exact absurd hanswer (hflag a)
  | coordinationSnapshot leaseKey resultKey size =>
      cases a with
      | error e => exact absurd (Option.some.inj hanswer).symm hsettle
      | ok snapshot => exact absurd hanswer (hreceive _)
  | clock | newToken | jitter | sleep _ | loader _ | onEvent _ =>
      obtain rfl := Option.some.inj hanswer
      exact hreply

/-- A flight is answered. -/
theorem Protocol.answer
    {ls : List (FlightLabel T V)} {w w' : CoordinationWorld T} {t : T} {q : Question}
    {a : Answer V q}
    (h : k.Protocol ls w)
    (hasks : k.MayAsk t (System.told ls t) q)
    (hanswer : CoordinationWorld.answer t q a w = some w') :
    k.Protocol (ls ++ [.thread t (.answered q a)]) w' := by
  have hguarded := h.guarded.answer hanswer
  unfold CoordinationWorld.answer at hanswer
  split at hanswer
  case isFalse =>
    cases hanswer
  case isTrue hfresh =>
    obtain ⟨wire, hwire, rfl⟩ := Option.map_eq_some_iff.mp hanswer
    refine h.next (by simpa using hguarded) (fun u command hcarries => ?_)
      (fun u values hreply => .inl ?_) (h.stored.append _) fun u snapshot hsaw => ?_
    · rw [System.told_answered]
      by_cases hu : u = t
      · subst hu
        simp only [CoordinationWorld.setWire, Function.update_self] at hcarries
        rw [Function.update_self]
        exact (h.sourced u command (FlightWire.carries_of_answer hwire hcarries)).cons _
      · simp only [CoordinationWorld.setWire, Function.update_of_ne hu] at hcarries
        rw [Function.update_of_ne hu]
        exact h.sourced u command hcarries
    · by_cases hu : u = t
      · subst hu
        simp only [CoordinationWorld.setWire, Function.update_self] at hreply
        exact reply_of_answer hwire hreply
      · simpa only [CoordinationWorld.setWire, Function.update_of_ne hu] using hreply
    · rw [System.told_answered] at hsaw
      by_cases hu : u = t
      · subst hu
        rw [Function.update_self] at hsaw
        rcases List.mem_cons.mp hsaw with heq | hold
        · -- the new exchange: its snapshot is read from the reply on the wire
          cases heq
          obtain ⟨values, hreply, hread⟩ := reply_of_snapshot hwire
          rw [k.shared u] at hread
          exact .inr (h.replies u values snapshot hreply hread)
        · exact .inl hold
      · rw [Function.update_of_ne hu] at hsaw
        exact .inl hsaw

omit [DecidableEq T] in
/-- Only a snapshot is answered with a report. -/
theorem snapshot_of_report
    {command : Command} {db : Keyspace Text} {values : List ReplyValue}
    (h : (command.serve.run db).1 = .ok (.report values)) :
    ∃ leaseKey resultKey size, command = .coordinationSnapshot leaseKey resultKey size := by
  have hflag : ∀ s : Script Text Bool, ((Reply.flag <$> s).run db).1 ≠ .ok (.report values) := by
    intro s heq
    rw [Script.map_eq_bind] at heq
    rcases hrun : s.run db with ⟨e | b, db'⟩
    · rw [Script.run_bind_error hrun] at heq
      cases heq
    · rw [Script.run_bind_ok hrun] at heq
      cases heq
  cases command with
  | coordinationSnapshot leaseKey resultKey size => exact ⟨leaseKey, resultKey, size, rfl⟩
  | setIfAbsent key value ms => exact absurd h (hflag _)
  | publishIfValue key expected resultKey encoded completion ms => exact absurd h (hflag _)
  | deleteIfValue key value => exact absurd h (hflag _)

/-- A sourced command is answered with what the keys show. -/
theorem Stored.replies
    {ls : List (FlightLabel T V)} {db : Keyspace Text} {t : T} {log : Log V} {command : Command}
    {values : List ReplyValue} {snapshot : RedisCoordinationSnapshot}
    (h : k.Stored ls db)
    (hsourced : k.SourcedCommand t log command)
    (hreply : (command.serve.run db).1 = .ok (.report values))
    (hread : readCoordinationSnapshot (.list values) maxCoordinationMarkerSize
      k.codec.maxEncodedSize = .ok snapshot) :
    k.Described ls snapshot := by
  obtain ⟨leaseKey, resultKey, size, rfl⟩ := snapshot_of_report hreply
  obtain ⟨rfl, rfl, rfl⟩ := hsourced
  obtain ⟨values', snapshot', hreply', hread', hdescribed⟩ := h.report
  rw [hreply'] at hreply
  obtain rfl := Reply.report.inj (Except.ok.inj hreply)
  rw [hread'] at hread
  obtain rfl := Except.ok.inj hread
  exact hdescribed

/-- Time passes, or a command is executed. -/
theorem Protocol.env
    {ls : List (FlightLabel T V)} {c : FlightPool T V} {w' : CoordinationWorld T}
    {e : CoordinationEvent T}
    (h : k.Protocol ls c.world)
    (hrun : Run (System.PoolStep (flightSystem T V)) k.start ls c)
    (henv : CoordinationWorld.env e c.world = some w') :
    k.Protocol (ls ++ [.env e]) w' := by
  have hguarded := h.guarded.env henv
  have hstored : k.Stored (ls ++ [.env e]) w'.db := by
    rcases env_db henv with ⟨ms, -, hdb⟩ | ⟨u, command, hexecuting, hdb⟩
    · rw [hdb]
      exact (h.stored.advance ms).append _
    · rw [hdb]
      have hcarries := carries_of_executing hexecuting
      exact h.stored.execute hrun hexecuting (h.guarded.own u command hcarries)
        (h.sourced u command hcarries)
  refine h.next (by simpa using hguarded) ?_ ?_ hstored fun u snapshot hsaw =>
    .inl (by simpa using hsaw)
  · rw [System.told_env]
    exact fun u command hcarries => h.sourced u command ((env_frame henv).2 u command hcarries)
  · intro u values hreply
    cases e with
    | advance ms =>
        obtain rfl := Option.some.inj henv
        exact .inl hreply
    | execute t =>
        obtain ⟨command, hcurrent, rfl⟩ := Option.map_eq_some_iff.mp henv
        by_cases hu : u = t
        · subst hu
          simp only [CoordinationWorld.setWire, Function.update_self] at hreply
          exact .inr fun snapshot hread => h.stored.replies
            (h.sourced u command (.inl hcurrent)) (Option.some.inj hreply) hread
        · exact .inl (by simpa only [CoordinationWorld.setWire, Function.update_of_ne hu]
            using hreply)
    | executeStale t i =>
        obtain ⟨command, hstale, rfl⟩ := Option.map_eq_some_iff.mp henv
        refine .inl ?_
        by_cases hu : u = t
        · subst hu
          simpa only [CoordinationWorld.setWire, Function.update_self] using hreply
        · simpa only [CoordinationWorld.setWire, Function.update_of_ne hu] using hreply

/-- Before the first step. -/
theorem Protocol.init :
    k.Protocol [] k.start.world where
  guarded := by
    refine ⟨fun t command hcarries => ?_, fun t token hmem => ?_, .nil⟩
    · rcases hcarries with h | h
      · cases h
      · cases h
    · cases hmem
  sourced t command hcarries := by
    rcases hcarries with h | h
    · cases h
    · cases h
  replies t values snapshot hreply := by
    cases hreply
  stored := .absent k.noMarker k.noResult
  seen t snapshot hsaw := by
    cases hsaw

theorem protocol_chronicled :
    Chronicled (flightSystem T V) k.MayAsk k.start k.Protocol where
  issue _ _ _ _ _ _ h hasks hissue := h.issue hasks hissue
  answer _ _ _ _ _ _ _ h hasks hanswer := h.answer hasks hanswer
  env _ _ _ _ hrun h henv := h.env hrun henv

/-- **Every run keeps the protocol**, and every flight ends as its history says. -/
theorem protocol_run
    {ls : List (FlightLabel T V)} {c : FlightPool T V}
    (hrun : Run (System.PoolStep (flightSystem T V)) k.start ls c) :
    AllFollowing k.MayAsk
        (fun t r log => FlightEnd (k.contexts t) (k.modes t) r log ∧
          FlightSources (k.contexts t) r log) c (System.told ls) ∧
      k.Protocol ls c.world :=
  chronicle protocol_chronicled hrun
    (fun t => .running _ ((distributedLoad_asks (k.contexts t) (k.modes t)).and
      (distributedLoad_sources (k.contexts t) (k.modes t)))) .init

/-! ## What the flights read -/

omit [DecidableEq T] in
/-- A completed marker is read beside the envelope of its token. -/
theorem readSnapshot_completed
    {context : FlightContext V} {token : Text} {encoded : Bytes} {value : V}
    (htoken : isOwnerToken token = true)
    (hdecode : (context.codec.decodeMatching context.frames encoded token).result =
      .ok (some ⟨value⟩)) :
    readSnapshot context ⟨some (completionMarker token), some encoded, false, false⟩ =
      .ok (.reused value) := by
  simp only [readSnapshot, raiseIf, Bool.false_eq_true, or_self, if_false,
    parseMarker_completionMarker htoken, orRaise]
  change ((context.codec.decodeMatching context.frames encoded token).result.mapError
    ofCodec >>= _) = _
  rw [hdecode]
  rfl

/-- A published envelope gives its value back to every flight. -/
theorem Publication.decoded
    {ls : List (FlightLabel T V)} {token : Text} {value : V} {encoded : Bytes}
    (h : k.Publication ls token value encoded) (t : T) :
    ((k.contexts t).codec.decodeMatching (k.contexts t).frames encoded token).result =
      .ok (some ⟨value⟩) := by
  obtain ⟨-, -, -, -, -, -, -, hencode⟩ := h
  rw [k.shared t]
  exact ResultEnvelopeCodec.decodeMatching_of_encode (k.frames t) k.payloads k.compressors hencode

/-- **Every snapshot is read**, and what is reused was published. -/
theorem Described.read
    {ls : List (FlightLabel T V)} {snapshot : RedisCoordinationSnapshot}
    (h : k.Described ls snapshot) (t : T) :
    ∃ reading, readSnapshot (k.contexts t) snapshot = .ok reading ∧
      ∀ value, reading = .reused value →
        ∃ token encoded, k.Publication ls token value encoded := by
  cases h with
  | absent =>
      refine ⟨.absent, rfl, fun value heq => ?_⟩
      cases heq
  | active htoken =>
      refine ⟨.waiting, ?_, fun value heq => ?_⟩
      · simp only [readSnapshot, raiseIf, Bool.false_eq_true, or_self, if_false,
          parseMarker_activeMarker htoken, orRaise]
        rfl
      · cases heq
  | @completed token value encoded htoken hpublication =>
      refine ⟨.reused value, ?_, fun value' heq => ?_⟩
      · exact readSnapshot_completed htoken (hpublication.decoded t)
      · obtain rfl := Reading.reused.inj heq
        exact ⟨token, encoded, hpublication⟩

/-- A completed marker in a snapshot stands beside the envelope of its token. -/
theorem Described.matching
    {ls : List (FlightLabel T V)} {snapshot : RedisCoordinationSnapshot} {token : Text}
    (h : k.Described ls snapshot)
    (htoken : isOwnerToken token = true)
    (hmarker : snapshot.marker = some (completionMarker token)) (t : T) :
    ∃ result value, snapshot.result = some result ∧
      ((k.contexts t).codec.decodeMatching (k.contexts t).frames result token).result =
        .ok (some ⟨value⟩) := by
  cases h with
  | absent =>
      cases hmarker
  | active htoken' =>
      exact absurd (Option.some.inj hmarker).symm (completionMarker_ne_activeMarker _ _)
  | @completed token' value encoded htoken' hpublication =>
      obtain rfl := completionMarker_inj htoken' htoken (Option.some.inj hmarker)
      exact ⟨encoded, value, rfl, hpublication.decoded t⟩

/-! ## The protocol is sound -/

/-- The state that a run has reached, as the coordinators may rely on it. -/
structure Sound (k : Coordinators T V) (ls : List (FlightLabel T V)) (c : FlightPool T V) :
    Prop where
  completed : ∀ token e, isOwnerToken token = true →
    c.world.db.lookup k.leaseKey = some ⟨.string (completionMarker token), e⟩ →
    ∃ value encoded, c.world.db.lookup k.resultKey = some ⟨.string encoded, e⟩ ∧
      k.Publication ls token value encoded
  owner : ∀ e u command w', c.world.executing e = some (u, command) →
    CoordinationWorld.env e c.world = some w' → w'.db ≠ c.world.db →
    (c.world.db.lookup k.leaseKey = none ∧ ∃ token ms, Holds c.world.drawn u token ∧
      command = .setIfAbsent k.leaseKey (activeMarker token) ms) ∨
    ∃ token, Holds c.world.drawn u token ∧
      shownString c.world.db k.leaseKey = some (activeMarker token) ∧
      (command = .deleteIfValue k.leaseKey (activeMarker token) ∨
        ∃ encoded ms, command = .publishIfValue k.leaseKey (activeMarker token) k.resultKey
          encoded (completionMarker token) ms)
  read : ∀ t snapshot, SawIn (k.contexts t) (System.told ls t) snapshot →
    ∃ reading, readSnapshot (k.contexts t) snapshot = .ok reading
  matching : ∀ t snapshot token, SawIn (k.contexts t) (System.told ls t) snapshot →
    isOwnerToken token = true → snapshot.marker = some (completionMarker token) →
    ∃ result value, snapshot.result = some result ∧
      ((k.contexts t).codec.decodeMatching (k.contexts t).frames result token).result =
        .ok (some ⟨value⟩)
  raised : ∀ t e code, c.thread t = .running (.ret (.error e)) → e.kind = .coordination code →
    ∃ x ∈ System.told ls t, ∃ e', raisedBy x = some e' ∧ e'.kind = .coordination code ∧
      e'.object = e.object
  returned : ∀ t value, c.thread t = .running (.ret (.ok value)) →
    LoadedIn (k.contexts t) (System.told ls t) value ∨
      Lacks isLoad (System.told ls t) ∧ ∃ token encoded, k.Publication ls token value encoded
  reused : ∀ t event, (⟨.onEvent event, ()⟩ : Exchange (Answer V)) ∈ System.told ls t →
    event.outcome = .resultReused →
    ∃ value token encoded, c.thread t = .running (.ret (.ok value)) ∧
      Lacks isLoad (System.told ls t) ∧ k.Publication ls token value encoded

/-- What a flight has reused was published. -/
theorem Protocol.published_of_reusedIn
    {ls : List (FlightLabel T V)} {w : CoordinationWorld T} {t : T} {value : V}
    (h : k.Protocol ls w)
    (hreused : ReusedIn (k.contexts t) (System.told ls t) value) :
    ∃ token encoded, k.Publication ls token value encoded := by
  obtain ⟨snapshot, hsaw, hread⟩ := hreused
  obtain ⟨reading, hread', hpublished⟩ := (h.seen t snapshot hsaw).read t
  rw [hread] at hread'
  exact hpublished value (Except.ok.inj hread').symm

/-- The exceptions of the protocol that a flight raises were raised by its calls. -/
theorem raised_of_explained
    {ls : List (FlightLabel T V)} {t : T} {log : Log V} {e : FlightException}
    {code : RedisCoordinationErrorCode}
    (hseen : ∀ snapshot, SawIn (k.contexts t) log snapshot → k.Described ls snapshot)
    (h : Explained (k.contexts t) log e)
    (hkind : e.kind = .coordination code) :
    ∃ x ∈ log, ∃ e', raisedBy x = some e' ∧ e'.kind = .coordination code ∧
      e'.object = e.object := by
  induction h with
  | raised hmem hraised =>
      exact ⟨_, hmem, _, hraised, hkind, rfl⟩
  | read hsaw hread =>
      obtain ⟨reading, hread', -⟩ := (hseen _ hsaw).read t
      rw [hread'] at hread
      cases hread
  | timeout code' =>
      cases hkind
  | codec error =>
      cases error <;> cases hkind
  | token =>
      cases hkind
  | noted _ ih =>
      exact ih hkind

omit [DecidableEq T] in
/-- An event is the last thing that a flight asks for. -/
theorem ended_of_event
    {c : FlightPool T V} {heard : T → Log V} {t : T} {event : RedisCoordinationEvent}
    {Post : T → Except FlightException V → Log V → Prop}
    (hfollowing : AllFollowing k.MayAsk Post c heard)
    (hmem : (⟨.onEvent event, ()⟩ : Exchange (Answer V)) ∈ heard t) :
    ∃ r, c.thread t = .running (.ret r) ∧ Post t r (heard t) := by
  refine (hfollowing t).ended_of_forbidden fun q hasks => ?_
  have hsilent := hasks.2.1 _ hmem
  cases hsilent

/-- The marker of a stored entry. -/
theorem marker_inj
    {db : Keyspace Text} {key : Text} {marker marker' : Bytes} {e e' : Option Nat}
    (h : db.lookup key = some ⟨.string marker, e⟩)
    (h' : db.lookup key = some ⟨.string marker', e'⟩) :
    marker = marker' ∧ e = e' := by
  rw [h] at h'
  obtain ⟨hvalue, hexpiry⟩ := Entry.mk.inj (Option.some.inj h')
  exact ⟨RedisValue.string.inj hvalue, hexpiry⟩

/-- A completed marker stands beside its result. -/
theorem Stored.completed_marker
    {ls : List (FlightLabel T V)} {db : Keyspace Text} {token : Text} {e : Option Nat}
    (h : k.Stored ls db)
    (htoken : isOwnerToken token = true)
    (hmarker : db.lookup k.leaseKey = some ⟨.string (completionMarker token), e⟩) :
    ∃ value encoded, db.lookup k.resultKey = some ⟨.string encoded, e⟩ ∧
      k.Publication ls token value encoded := by
  cases h with
  | absent hnone =>
      rw [hnone] at hmarker
      cases hmarker
  | active htoken' hactive =>
      exact absurd (marker_inj hmarker hactive).1 (completionMarker_ne_activeMarker _ _)
  | @completed token' value encoded e' htoken' hcompleted hresult hpublication =>
      obtain ⟨hequal, rfl⟩ := marker_inj hmarker hcompleted
      obtain rfl := completionMarker_inj htoken htoken' hequal
      exact ⟨value, encoded, hresult, hpublication⟩

/--
**The coordination protocol**, in every run of coordinators of one logical key.  A completed
marker stands beside the envelope that was published with its token, with one expiry; only
the owner of the active marker changes what is stored, once it is acquired; no snapshot is
invalid and none mismatches; and what is reused was loaded and published by an owner.
-/
theorem coordination_protocol
    (k : Coordinators T V)
    (ls : List (FlightLabel T V)) (c : FlightPool T V)
    (hrun : Run (System.PoolStep (flightSystem T V)) k.start ls c) :
    k.Sound ls c := by
  obtain ⟨hfollowing, hprotocol⟩ := protocol_run hrun
  refine ⟨?_, ?_, ?_, ?_, ?_, ?_, ?_⟩
  · intro token e htoken hmarker
    exact hprotocol.stored.completed_marker htoken hmarker
  · intro e u command w' hexecuting henv hchanged
    rcases env_db henv with ⟨ms, rfl, -⟩ | ⟨u', command', hexecuting', hdb⟩
    · cases hexecuting
    · rw [hexecuting] at hexecuting'
      cases hexecuting'
      have hown := hprotocol.guarded.own u command (carries_of_executing hexecuting)
      have heffect := effect_of_own hown c.world.db
      rw [k.lease u, k.result u, ← hdb] at heffect
      cases heffect with
      | none hsame => exact absurd hsame hchanged
      | acquired hholds hnone => exact .inl ⟨hnone, _, _, hholds, rfl⟩
      | published hholds hshown => exact .inr ⟨_, hholds, hshown, .inr ⟨_, _, rfl⟩⟩
      | released hholds hshown => exact .inr ⟨_, hholds, hshown, .inl rfl⟩
  · intro t snapshot hsaw
    obtain ⟨reading, hread, -⟩ := (hprotocol.seen t snapshot hsaw).read t
    exact ⟨reading, hread⟩
  · intro t snapshot token hsaw htoken hmarker
    exact (hprotocol.seen t snapshot hsaw).matching htoken hmarker t
  · intro t e code hended hkind
    have hend := hfollowing t
    rw [hended] at hend
    exact raised_of_explained (hprotocol.seen t) (hend.ended.2.exception _ rfl) hkind
  · intro t value hended
    have hend := hfollowing t
    rw [hended] at hend
    exact (hend.ended.2.value value rfl).imp id fun h =>
      ⟨h.1, hprotocol.published_of_reusedIn h.2⟩
  · intro t event hmem hreused
    obtain ⟨r, hended, -, hsources⟩ := ended_of_event hfollowing hmem
    obtain ⟨value, rfl, hunloaded, hread⟩ := hsources.event event hmem hreused
    obtain ⟨token, encoded, hpublication⟩ := hprotocol.published_of_reusedIn hread
    exact ⟨value, token, encoded, hended, hunloaded, hpublication⟩

end Coordinators

/-! ## A flight that publishes, and one that reuses -/

theorem bytesCodec_roundTrips :
    bytesCodec.RoundTrips := by
  intro value payload h
  obtain rfl := Option.some.inj (Except.ok.inj h)
  rfl

theorem plainCodec_compressors :
    ∀ compressor ∈ plainCodec.compressor, compressor.RoundTrips := by
  intro compressor hmem
  cases hmem

/-- The publication of an envelope. -/
def publication (token : Text) (encoded : Bytes) : Question :=
  .publishIfValue observedFlight.leaseKey (activeMarker token) observedFlight.resultKey encoded
    (completionMarker token) 2

/-- The publication as it reaches the server. -/
def publishing (token : Text) (encoded : Bytes) : Command :=
  .publishIfValue observedFlight.leaseKey (activeMarker token) observedFlight.resultKey encoded
    (completionMarker token) 2000

theorem publication_command
    (token : Text) (encoded : Bytes) :
    (publication token encoded).command? = some (publishing token encoded) := by
  norm_num [publication, publishing, Question.command?, ttlMilliseconds, maxInt64]
  rfl

/-- The snapshot of both keys. -/
def snapshotting : Question :=
  .coordinationSnapshot observedFlight.leaseKey observedFlight.resultKey plainCodec.maxEncodedSize

/-- What is stored after a publication. -/
def published (db : Keyspace Text) (token : Text) (encoded : Bytes) : Keyspace Text :=
  (db.write observedFlight.resultKey (some ⟨.string encoded, some (db.now + 2000)⟩)).write
    observedFlight.leaseKey (some ⟨.string (completionMarker token), some (db.now + 2000)⟩)

/-- The event of a flight that ends after its first attempt. -/
def endedEvent (mode : RedisMode) (outcome : RedisCoordinationOutcome) : RedisCoordinationEvent :=
  ⟨mode, outcome, none, 1, 0, false⟩

theorem lookup_published_marker
    (db : Keyspace Text) (token : Text) (encoded : Bytes) :
    (published db token encoded).lookup observedFlight.leaseKey =
      some ⟨.string (completionMarker token), some (db.now + 2000)⟩ :=
  Keyspace.lookup_write_of_le (Nat.le_add_right _ _)

theorem lookup_published_result
    (db : Keyspace Text) (token : Text) (encoded : Bytes) :
    (published db token encoded).lookup observedFlight.resultKey =
      some ⟨.string encoded, some (db.now + 2000)⟩ := by
  have hne : observedFlight.resultKey ≠ observedFlight.leaseKey :=
    (leaseKey_ne_resultKey (fun _ : Unit => observedFlight_coordinated) () ()).symm
  rw [published, Keyspace.lookup_write_ne _ _ hne]
  exact Keyspace.lookup_write_of_le (Nat.le_add_right _ _)

/-- The owner of the active marker publishes. -/
theorem serve_publishing
    {db : Keyspace Text} {token : Text} {encoded : Bytes} {e : Option Nat}
    (hactive : db.lookup observedFlight.leaseKey = some ⟨.string (activeMarker token), e⟩)
    (hle : db.now + 2000 ≤ maxInt64) :
    (publishing token encoded).serve.run db = (.ok (.flag true), published db token encoded) := by
  have hset : ∀ (key : Text) (value : Bytes) (db' : Keyspace Text), db'.now = db.now →
      (Script.setPX key value (decimal 2000)).run db' =
        (.ok (), db'.write key (some ⟨.string value, some (db.now + 2000)⟩)) := by
    intro key value db' hnow
    rw [Script.run_setPX_decimal key value db' (by decide) (by decide), hnow,
      if_neg (not_lt.mpr hle)]
  have hscript : (publishIfValueScript observedFlight.leaseKey observedFlight.resultKey
      (activeMarker token) encoded (decimal 2000) (completionMarker token)).run db =
      (.ok true, published db token encoded) := by
    unfold publishIfValueScript
    rw [Script.run_bind_ok (Script.run_get_string hactive), if_pos rfl,
      Script.run_bind_ok (hset _ _ db rfl),
      Script.run_bind_ok (hset _ _ (db.write observedFlight.resultKey _) rfl)]
    rfl
  rw [publishing, Command.serve]
  exact run_map_ok hscript

/-- The publication of a flight whose lease was taken over. -/
theorem serve_publishing_lost
    {db : Keyspace Text} {token : Text} {encoded marker : Bytes} {e : Option Nat}
    (hmarker : db.lookup observedFlight.leaseKey = some ⟨.string marker, e⟩)
    (hne : marker ≠ activeMarker token) :
    (publishing token encoded).serve.run db = (.ok (.flag false), db) := by
  have hscript : (publishIfValueScript observedFlight.leaseKey observedFlight.resultKey
      (activeMarker token) encoded (decimal 2000) (completionMarker token)).run db =
      (.ok false, db) := by
    unfold publishIfValueScript
    rw [Script.run_bind_ok (Script.run_get_string hmarker), if_neg (by simpa using hne)]
    rfl
  rw [publishing, Command.serve]
  exact run_map_ok hscript

/-- The acquisition of a lease that is held or has completed. -/
theorem serve_acquiring_held
    {db : Keyspace Text} {token : Text} {entry : Entry}
    (hheld : db.lookup observedFlight.leaseKey = some entry)
    (hle : db.now + 2000 ≤ maxInt64) :
    (acquiring token).serve.run db = (.ok (.flag false), db) := by
  rw [acquiring, Command.serve]
  exact run_map_ok (Script.run_setNXPX_held hheld _ (by decide) hle)

section Turn

variable {T : Type} [DecidableEq T] {others : T → FlightThread Bytes} {t : T}
  {db db' : Keyspace Text} {drawn : List (T × Text)} {mode : RedisMode} {token : Text}
  {value encoded : Bytes}

/-- The loader of a flight returns, and the flight publishes its value or has lost the lease. -/
def concluded (t : T) (mode : RedisMode) (token : Text) (value encoded : Bytes)
    (inTime : Bool) : List (FlightLabel T Bytes) :=
  .thread t (.answered (.loader (text "k")) (.ok value)) ::
    (exchanged t .clock (0 : ℚ) ++ (exchanged t .clock (0 : ℚ) ++
      (served t (publication token encoded) (.ok inTime) ++
        exchanged t (.onEvent (endedEvent mode (if inTime then .loaded else .leaseLost))) ())))

/-- **A flight returns what it has loaded**, whether its publication was in time or not. -/
theorem run_concluded
    (others : T → FlightThread Bytes) (t : T) (drawn : List (T × Text)) (mode : RedisMode)
    {inTime : Bool}
    (hencode : plainCodec.encode token value = .ok encoded)
    (hserve : (publishing token encoded).serve.run db = (.ok (.flag inTime), db')) :
    Run (System.PoolStep (flightSystem T Bytes))
      (.turn (resting db drawn) others t (waitingIn (owner mode token)))
      (concluded t mode token value encoded inTime)
      (.turn (resting db' drawn) others t (.running (.ret (.ok value)))) := by
  have hlease : ¬ 0 + observedFlight.options.leaseTtl ≤ 0 := by
    norm_num [observedFlight, twoSeconds]
  have hencode' : observedFlight.codec.encode token value = .ok encoded := hencode
  refine run_loaded (.ok value) rfl (run_clock 0 (run_else hlease ?_))
  rw [hencode']
  refine run_clock 0 (run_else hlease ?_)
  refine run_served (publication_command token encoded) hserve (receiveFlag_replied inTime) ?_
  cases inTime with
  | true => exact run_talk rfl rfl rfl (.nil _)
  | false => exact run_talk rfl rfl rfl (.nil _)

/-- A flight finds a completed marker beside its result. -/
def reusing (t : T) (mode : RedisMode) (token token' : Text) (encoded : Bytes) :
    List (FlightLabel T Bytes) :=
  attempting t token false ++ (exchanged t .clock (0 : ℚ) ++ (exchanged t .clock (0 : ℚ) ++
    (served t snapshotting (.ok ⟨some (completionMarker token'), some encoded, false, false⟩) ++
      (exchanged t .clock (0 : ℚ) ++ exchanged t (.onEvent (endedEvent mode .resultReused)) ()))))

/-- **A flight returns what another has published.** -/
theorem run_reusing
    (others : T → FlightThread Bytes) (t : T) (drawn : List (T × Text)) (mode : RedisMode)
    {token' : Text} {e e' : Option Nat}
    (htoken : isOwnerToken token = true)
    (hfresh : token ∉ drawn.map Prod.snd)
    (htoken' : isOwnerToken token' = true)
    (hencode : plainCodec.encode token' value = .ok encoded)
    (hmarker : db.lookup observedFlight.leaseKey =
      some ⟨.string (completionMarker token'), e⟩)
    (hresult : db.lookup observedFlight.resultKey = some ⟨.string encoded, e'⟩)
    (hle : db.now + 2000 ≤ maxInt64) :
    Run (System.PoolStep (flightSystem T Bytes))
      (.turn (resting db drawn) others t (ready mode)) (reusing t mode token token' encoded)
      (.turn (resting db ((t, token) :: drawn)) others t (.running (.ret (.ok value)))) := by
  obtain ⟨values, hserve, hread⟩ := Coordinators.serve_snapshot_completed htoken' hmarker hresult
    plainCodec.one_le_max plainCodec.max_le (ResultEnvelopeCodec.length_le_of_encode hencode)
  have hreading : readSnapshot observedFlight
      ⟨some (completionMarker token'), some encoded, false, false⟩ = .ok (.reused value) :=
    Coordinators.readSnapshot_completed htoken' (ResultEnvelopeCodec.decodeMatching_of_encode le_rfl
      bytesCodec_roundTrips plainCodec_compressors hencode)
  have hwire : FlightWire.answer (V := Bytes) ⟨none, some (.ok (.report values)), []⟩
      snapshotting (.ok ⟨some (completionMarker token'), some encoded, false, false⟩) =
      some .init := by
    simp [snapshotting, FlightWire.answer, FlightWire.receive, FlightWire.settle, FlightWire.init,
      hread]
  refine run_attempting htoken hfresh (serve_acquiring_held hmarker hle) ?_
  refine run_beforeDeadline not_deadline ?_
  rw [pollLoop]
  change Run _ (System.Pool.turn _ _ _ (.running
    ((Dialogue.bind (Dialogue.bind _ _) (concluding mode)).toProc))) _ _
  rw [Dialogue.bind_assoc]
  refine run_beforeDeadline not_deadline ?_
  refine run_served rfl hserve hwire ?_
  refine run_beforeDeadline not_deadline ?_
  rw [hreading]
  exact run_talk rfl rfl rfl (.nil _)

end Turn

/-! ## A takeover -/

/-- Three coordinators. -/
inductive Trio
  | first
  | second
  | third
deriving DecidableEq

/-- Their modes. -/
def Trio.mode : Trio → RedisMode
  | .first => .async
  | .second => .sync
  | .third => .async

/-- Their tokens. -/
def Trio.token : Trio → Text
  | .first => text "t1"
  | .second => text "t2"
  | .third => text "t3"

theorem accepted_token
    (t : Trio) :
    isOwnerToken t.token = true := by
  cases t <;> decide

/-- Three flights of one key around an empty server. -/
def threeCoordinators : Coordinators Trio Bytes where
  contexts _ := observedFlight
  modes := Trio.mode
  db := .empty 0
  leaseKey := observedFlight.leaseKey
  resultKey := observedFlight.resultKey
  codec := plainCodec
  coordinated := observedFlight_coordinated
  lease _ := rfl
  result _ := rfl
  shared _ := rfl
  frames _ := Nat.le_refl 2
  payloads := bytesCodec_roundTrips
  compressors := plainCodec_compressors
  noMarker := Keyspace.lookup_empty 0 _
  noResult := Keyspace.lookup_empty 0 _

/--
The first flight leases the key, and its lease expires while it loads.  The second takes the key
over and publishes; the third reuses what it finds; then the first comes too late to publish.
-/
def takeover (encoded encoded' : Bytes) : List (FlightLabel Trio Bytes) :=
  leasing Trio.first Trio.first.token ++ (.env (.advance 2001) ::
    (leasing Trio.second Trio.second.token ++
      (concluded Trio.second .sync Trio.second.token [1, 2, 3] encoded true ++
        (reusing Trio.third .async Trio.third.token Trio.second.token encoded ++
          concluded Trio.first .async Trio.first.token [4] encoded' false))))

/-- What is stored when the second flight has published. -/
def takenOver (encoded : Bytes) : Keyspace Text :=
  published (leased ((leased (.empty 0) Trio.first.token).advance 2001) Trio.second.token)
    Trio.second.token encoded

theorem run_takeover
    {encoded encoded' : Bytes}
    (hencode : plainCodec.encode Trio.second.token [1, 2, 3] = .ok encoded)
    (hencode' : plainCodec.encode Trio.first.token [4] = .ok encoded') :
    ∃ c, Run (System.PoolStep (flightSystem Trio Bytes)) threeCoordinators.start
        (takeover encoded encoded') c ∧
      c.world.db = takenOver encoded ∧
      c.thread .first = .running (.ret (.ok [4])) ∧
      c.thread .second = .running (.ret (.ok [1, 2, 3])) ∧
      c.thread .third = .running (.ret (.ok [1, 2, 3])) := by
  set db₁ := leased (.empty 0) Trio.first.token
  set db₂ := leased (db₁.advance 2001) Trio.second.token
  have hexpired : (db₁.advance 2001).lookup observedFlight.leaseKey = none :=
    Keyspace.lookup_advance_of_lt (Keyspace.lookup_write_of_le (Nat.zero_le 2000)) (by decide)
  have hactive : db₂.lookup observedFlight.leaseKey =
      some ⟨.string (activeMarker Trio.second.token), some 4001⟩ :=
    Keyspace.lookup_write_of_le (Nat.le_add_right _ _)
  have hmarker := lookup_published_marker db₂ Trio.second.token encoded
  have hresult := lookup_published_result db₂ Trio.second.token encoded
  let others₀ : Trio → FlightThread Bytes := fun t => ready t.mode
  let others₁ := Function.update others₀ .first (waitingIn (owner .async Trio.first.token))
  let others₂ := Function.update others₁ .second (.running (.ret (.ok [1, 2, 3])))
  let others₃ := Function.update others₂ .third (.running (.ret (.ok [1, 2, 3])))
  -- each flight goes on where the others have left the server
  have hstart : threeCoordinators.start =
      .turn (resting (.empty 0) []) others₀ .first (ready .async) := (turn_self Trio.first).symm
  have hfirst := run_leasing others₀ .first [] .async (accepted_token .first) (by simp)
    (Keyspace.lookup_empty 0 observedFlight.leaseKey) (by decide)
  have hexpiry : Run (System.PoolStep (flightSystem Trio Bytes))
      (.turn (resting db₁ [(.first, Trio.first.token)]) others₀ .first
        (waitingIn (owner .async Trio.first.token))) [.env (.advance 2001)]
      (.turn (resting (db₁.advance 2001) [(.first, Trio.first.token)]) others₀ .first
        (waitingIn (owner .async Trio.first.token))) :=
    turn_env (S := flightSystem Trio Bytes) rfl (.nil _)
  have hsecond := run_leasing others₁ .second [(.first, Trio.first.token)] .sync
    (accepted_token .second) (by decide) hexpired (by decide)
  have hpublished := run_concluded others₁ .second
    [(.second, Trio.second.token), (.first, Trio.first.token)] .sync hencode
    (serve_publishing hactive (by decide))
  have hthird := run_reusing others₂ .third
    [(.second, Trio.second.token), (.first, Trio.first.token)] .async (accepted_token .third)
    (by decide) (accepted_token .second) hencode hmarker hresult (show 4001 ≤ maxInt64 by decide)
  have hlost := run_concluded others₃ .first
    [(.third, Trio.third.token), (.second, Trio.second.token), (.first, Trio.first.token)] .async
    hencode' (serve_publishing_lost hmarker (completionMarker_ne_activeMarker _ _))
  have hend := hthird.append (turn_other rfl hlost)
  have hlater := hsecond.append (hpublished.append (turn_other rfl hend))
  have hrun := hfirst.append (hexpiry.append (turn_other rfl hlater))
  exact ⟨_, hstart ▸ hrun, rfl, turn_thread _, rfl, rfl⟩

set_option maxRecDepth 50000 in
/-- The protocol through a takeover, a reuse and a publication that comes too late. -/
theorem coordination_protocol_takeover :
    ∃ encoded encoded' c, Run (System.PoolStep (flightSystem Trio Bytes)) threeCoordinators.start
        (takeover encoded encoded') c ∧
      c.world.db = takenOver encoded ∧
      c.thread .first = .running (.ret (.ok [4])) ∧
      c.thread .second = .running (.ret (.ok [1, 2, 3])) ∧
      c.thread .third = .running (.ret (.ok [1, 2, 3])) ∧
      threeCoordinators.Sound (takeover encoded encoded') c := by
  have hok : (plainCodec.encode Trio.second.token [1, 2, 3]).isOk = true := by
    decide
  have hok' : (plainCodec.encode Trio.first.token [4]).isOk = true := by
    decide
  obtain ⟨encoded, hencode⟩ := exists_ok_of_isOk hok
  obtain ⟨encoded', hencode'⟩ := exists_ok_of_isOk hok'
  obtain ⟨c, hrun, hends⟩ := run_takeover hencode hencode'
  exact ⟨encoded, encoded', c, hrun, hends.1, hends.2.1, hends.2.2.1, hends.2.2.2,
    Coordinators.coordination_protocol threeCoordinators (takeover encoded encoded') c hrun⟩

end CacheRedis
end Bluetape
