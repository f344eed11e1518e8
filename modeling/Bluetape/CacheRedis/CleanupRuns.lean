import Bluetape.CacheRedis.OwnerCleanup

/-!
# Runs of coordinators with failing owners

Any number of flights around one server, every command executed at any time or never, also
after its client has given it up.

* `Guarded`: every command under way names the keys and a token of its flight;
* `Published`: a completed marker and its result stay until they expire;
* `cleanup_safe`: what a cleanup does on the server, and what its caller sees.
-/

namespace Bluetape
namespace CacheRedis

open Base Serde Dialogue

variable {T V : Type} [DecidableEq T]

/-! ## Commands under way -/

/-- The flight has drawn the token, and it is accepted. -/
def Holds (drawn : List (T × Text)) (t : T) (token : Text) : Prop :=
  isOwnerToken token = true ∧ (t, token) ∈ drawn

/-- A writing command names the keys and a token of its flight. -/
def OwnCommand (context : FlightContext V) (drawn : List (T × Text)) (t : T) : Command → Prop
  | .setIfAbsent key value _ =>
      key = context.leaseKey ∧ ∃ token, Holds drawn t token ∧ value = activeMarker token
  | .publishIfValue key expected resultKey _ completion _ =>
      key = context.leaseKey ∧ resultKey = context.resultKey ∧
        ∃ token, Holds drawn t token ∧ expected = activeMarker token ∧
          completion = completionMarker token
  | .deleteIfValue key value =>
      key = context.leaseKey ∧ ∃ token, Holds drawn t token ∧ value = activeMarker token
  | .coordinationSnapshot .. => True

omit [DecidableEq T] in
theorem OwnCommand.mono
    {context : FlightContext V} {drawn drawn' : List (T × Text)} {t : T} {command : Command}
    (h : OwnCommand context drawn t command)
    (hsub : ∀ x ∈ drawn, x ∈ drawn') :
    OwnCommand context drawn' t command := by
  cases command with
  | setIfAbsent key value ms =>
      obtain ⟨hkey, token, htoken, hvalue⟩ := h
      exact ⟨hkey, token, ⟨htoken.1, hsub _ htoken.2⟩, hvalue⟩
  | coordinationSnapshot leaseKey resultKey size =>
      trivial
  | publishIfValue key expected resultKey value completion ms =>
      obtain ⟨hkey, hresult, token, htoken, hvalue⟩ := h
      exact ⟨hkey, hresult, token, ⟨htoken.1, hsub _ htoken.2⟩, hvalue⟩
  | deleteIfValue key value =>
      obtain ⟨hkey, token, htoken, hvalue⟩ := h
      exact ⟨hkey, token, ⟨htoken.1, hsub _ htoken.2⟩, hvalue⟩

/-- The command waits on the wire, or was given up. -/
def FlightWire.Carries (w : FlightWire) (command : Command) : Prop :=
  w.current = some command ∨ command ∈ w.stale

/-- No answer puts a command on a wire. -/
theorem FlightWire.carries_of_answer
    {w w' : FlightWire} {q : Question} {a : Answer V q} {command : Command}
    (hanswer : w.answer q a = some w')
    (h : w'.Carries command) :
    w.Carries command := by
  have hsettle : w' = w.settle → w.Carries command := by
    rintro rfl
    rcases h with h | h
    · cases h
    · rcases List.mem_append.mp h with h | h
      · exact .inr h
      · exact .inl (Option.mem_toList.mp h)
  have hreceive : ∀ reads, w.receive reads = some w' → w' = w.settle := by
    intro reads hsome
    unfold FlightWire.receive at hsome
    split at hsome
    · split at hsome
      · exact (Option.some.inj hsome).symm
      · cases hsome
    · cases hsome
  have hflag : ∀ b, w.receiveFlag b = some w' → w' = w.settle := by
    intro b hsome
    cases b with
    | error e => exact (Option.some.inj hsome).symm
    | ok set => exact hreceive _ hsome
  cases q with
  | setIfAbsent key value ttl => exact hsettle (hflag a hanswer)
  | publishIfValue key expected resultKey value completion ttl => exact hsettle (hflag a hanswer)
  | deleteIfValue key value => exact hsettle (hflag a hanswer)
  | coordinationSnapshot leaseKey resultKey size =>
      cases a with
      | error e => exact hsettle (Option.some.inj hanswer).symm
      | ok snapshot => exact hsettle (hreceive _ hanswer)
  | clock | newToken | jitter | sleep _ | loader _ | onEvent _ =>
      obtain rfl := Option.some.inj hanswer
      exact h

/-- The invariant of the world and of what the flights were told. -/
structure Guarded (contexts : T → FlightContext V) (w : CoordinationWorld T)
    (heard : T → Log V) : Prop where
  own : ∀ t command, (w.wire t).Carries command → OwnCommand (contexts t) w.drawn t command
  drew : ∀ t token, ⟨.newToken, token⟩ ∈ heard t → (t, token) ∈ w.drawn
  distinct : (w.drawn.map Prod.snd).Nodup

omit [DecidableEq T] in
/-- What a flight may ask names a token that it has drawn. -/
theorem ownCommand_of_asks
    {contexts : T → FlightContext V} {w : CoordinationWorld T} {heard : T → Log V} {t : T}
    {q : Question} {command : Command}
    (h : Guarded contexts w heard)
    (hasks : Asks (contexts t) (heard t) q)
    (hcommand : q.command? = some command) :
    OwnCommand (contexts t) w.drawn t command := by
  have hholds : ∀ token, Drew token (heard t) → Holds w.drawn t token :=
    fun token hdrew => ⟨hdrew.1, h.drew t token hdrew.2⟩
  cases q with
  | setIfAbsent key value ttl =>
      obtain ⟨ms, -, rfl⟩ := Option.map_eq_some_iff.mp hcommand
      obtain ⟨hkey, token, hdrew, hvalue⟩ := hasks
      exact ⟨hkey, token, hholds token hdrew, hvalue⟩
  | coordinationSnapshot leaseKey resultKey size =>
      obtain rfl := Option.some.inj hcommand
      trivial
  | publishIfValue key expected resultKey value completion ttl =>
      obtain ⟨ms, -, rfl⟩ := Option.map_eq_some_iff.mp hcommand
      obtain ⟨hkey, hresult, token, hdrew, hvalue⟩ := hasks
      exact ⟨hkey, hresult, token, hholds token hdrew, hvalue⟩
  | deleteIfValue key value =>
      obtain rfl := Option.some.inj hcommand
      obtain ⟨hkey, token, e, hdrew, hvalue, -⟩ := hasks
      exact ⟨hkey, token, hholds token hdrew, hvalue⟩
  | clock | newToken | jitter | sleep _ | loader _ | onEvent _ =>
      cases hcommand

theorem Guarded.setWire
    {contexts : T → FlightContext V} {w : CoordinationWorld T} {heard : T → Log V}
    (h : Guarded contexts w heard)
    {t : T} {wire : FlightWire}
    (hwire : ∀ command, wire.Carries command → OwnCommand (contexts t) w.drawn t command)
    (db : Keyspace Text) :
    Guarded contexts ({ w with db := db }.setWire t wire) heard := by
  refine ⟨fun u command hcarries => ?_, h.drew, h.distinct⟩
  by_cases hu : u = t
  · subst hu
    simp only [CoordinationWorld.setWire, Function.update_self] at hcarries
    exact hwire command hcarries
  · simp only [CoordinationWorld.setWire, Function.update_of_ne hu] at hcarries
    exact h.own u command hcarries

/-- A flight asks. -/
theorem Guarded.issue
    {contexts : T → FlightContext V} {w w' : CoordinationWorld T} {heard : T → Log V} {t : T}
    {q : Question}
    (h : Guarded contexts w heard)
    (hasks : Asks (contexts t) (heard t) q)
    (hissue : CoordinationWorld.issue t q w = some w') :
    Guarded contexts w' heard := by
  unfold CoordinationWorld.issue at hissue
  cases hcommand : q.command? with
  | none =>
      simp only [hcommand] at hissue
      obtain rfl := Option.some.inj hissue
      exact h
  | some command =>
      simp only [hcommand] at hissue
      obtain rfl := Option.some.inj hissue
      refine h.setWire (fun command' hcarries => ?_) w.db
      rcases hcarries with hcurrent | hstale
      · obtain rfl := Option.some.inj hcurrent
        exact ownCommand_of_asks h hasks hcommand
      · exact h.own t command' (.inr hstale)

/-- A flight is answered. -/
theorem Guarded.answer
    {contexts : T → FlightContext V} {w w' : CoordinationWorld T} {heard : T → Log V} {t : T}
    {q : Question} {a : Answer V q}
    (h : Guarded contexts w heard)
    (hanswer : CoordinationWorld.answer t q a w = some w') :
    Guarded contexts w' (Function.update heard t (⟨q, a⟩ :: heard t)) := by
  unfold CoordinationWorld.answer at hanswer
  split at hanswer
  case isFalse =>
    cases hanswer
  case isTrue hfresh =>
    obtain ⟨wire, hwire, rfl⟩ := Option.map_eq_some_iff.mp hanswer
    have hset := h.setWire
      (fun command hcarries => h.own t command (FlightWire.carries_of_answer hwire hcarries)) w.db
    refine ⟨fun u command hcarries => ?_, fun u token hmem => ?_, ?_⟩
    · exact (hset.own u command hcarries).mono fun x hx => List.mem_append_right _ hx
    · by_cases hu : u = t
      · subst hu
        rw [Function.update_self] at hmem
        rcases List.mem_cons.mp hmem with heq | hmem
        · cases heq
          exact List.mem_append_left _ List.mem_cons_self
        · exact List.mem_append_right _ (h.drew u token hmem)
      · rw [Function.update_of_ne hu] at hmem
        exact List.mem_append_right _ (h.drew u token hmem)
    · show ((CoordinationWorld.draws t q a ++ w.drawn).map Prod.snd).Nodup
      cases q with
      | newToken =>
          have hnew := hfresh (t, a) List.mem_cons_self
          exact List.nodup_cons.mpr ⟨hnew, h.distinct⟩
      | _ =>
          exact h.distinct

/-- What happens on its own draws no token, and puts no command on a wire. -/
theorem env_frame
    {w w' : CoordinationWorld T} {e : CoordinationEvent T}
    (henv : CoordinationWorld.env e w = some w') :
    w'.drawn = w.drawn ∧
      ∀ t command, (w'.wire t).Carries command → (w.wire t).Carries command := by
  cases e with
  | advance ms =>
      obtain rfl := Option.some.inj henv
      exact ⟨rfl, fun _ _ hcarries => hcarries⟩
  | execute u =>
      obtain ⟨command', hcurrent, rfl⟩ := Option.map_eq_some_iff.mp henv
      refine ⟨rfl, fun t command hcarries => ?_⟩
      by_cases ht : t = u
      · subst ht
        simp only [CoordinationWorld.setWire, Function.update_self] at hcarries
        exact .inr (hcarries.resolve_left (by simp))
      · simpa only [CoordinationWorld.setWire, Function.update_of_ne ht] using hcarries
  | executeStale u i =>
      obtain ⟨command', hstale, rfl⟩ := Option.map_eq_some_iff.mp henv
      refine ⟨rfl, fun t command hcarries => ?_⟩
      by_cases ht : t = u
      · subst ht
        simp only [CoordinationWorld.setWire, Function.update_self] at hcarries
        exact hcarries.imp id fun hmem => List.mem_of_mem_eraseIdx hmem
      · simpa only [CoordinationWorld.setWire, Function.update_of_ne ht] using hcarries

/-- Time passes, or a command is executed. -/
theorem Guarded.env
    {contexts : T → FlightContext V} {w w' : CoordinationWorld T} {heard : T → Log V}
    {e : CoordinationEvent T}
    (h : Guarded contexts w heard)
    (henv : CoordinationWorld.env e w = some w') :
    Guarded contexts w' heard := by
  obtain ⟨hdrawn, hcarries⟩ := env_frame henv
  refine ⟨fun t command hcommand => ?_, ?_, ?_⟩
  · rw [hdrawn]
    exact h.own t command (hcarries t command hcommand)
  · rw [hdrawn]
    exact h.drew
  · rw [hdrawn]
    exact h.distinct

theorem guarded_interviewed
    (contexts : T → FlightContext V) :
    Interviewed (flightSystem T V) (fun t => Asks (contexts t)) (Guarded contexts) where
  issue _ _ _ _ _ h hasks hissue := h.issue hasks hissue
  answer _ _ _ _ _ _ h _ hanswer := h.answer hanswer
  env _ _ _ _ h henv := h.env henv

/-- **Every run is guarded**, and every flight stays in its program. -/
theorem guarded_run
    {contexts : T → FlightContext V} {modes : T → RedisMode} {db : Keyspace Text}
    {ls : List (System.PoolLabel T Empty Question (CoordinationEvent T) (Answer V))}
    {c : System.Pool T (CoordinationWorld T) Unit Empty Question (Answer V)
      (Except FlightException V)}
    (hrun : Run (System.PoolStep (flightSystem T V)) (flightPool contexts modes db) ls c) :
    AllFollowing (fun t => Asks (contexts t)) (fun t => FlightEnd (contexts t) (modes t)) c
        (System.told ls) ∧
      Guarded contexts c.world (System.told ls) := by
  refine interview_invariant (guarded_interviewed contexts) hrun (fun t => ?_) ?_
  · exact .running _ (distributedLoad_asks (contexts t) (modes t))
  · refine ⟨fun t command h => ?_, fun t token h => ?_, .nil⟩
    · rcases h with h | h
      · cases h
      · cases h
    · cases h

/-! ## On the server -/

/-- What the flights show to each other when one has published, until it expires. -/
def Published (leaseKey resultKey : Text) (completion value : Bytes) (expiry : Nat)
    (db : Keyspace Text) : Prop :=
  db.now ≤ expiry →
    db.lookup leaseKey = some ⟨.string completion, some expiry⟩ ∧
      db.lookup resultKey = some ⟨.string value, some expiry⟩

theorem shownString_of_lookup
    {db : Keyspace Text} {key : Text} {value : Bytes} {e : Option Nat}
    (h : db.lookup key = some ⟨.string value, e⟩) :
    shownString db key = some value := by
  simp [shownString, h]

section Keys

variable {contexts : T → FlightContext V}

omit [DecidableEq T] in
/-- No lease key is a result key. -/
theorem leaseKey_ne_resultKey
    (hkeys : ∀ t, (contexts t).Coordinated) (t u : T) :
    (contexts t).leaseKey ≠ (contexts u).resultKey := by
  obtain ⟨n, k, hown⟩ := hkeys t
  obtain ⟨n', k', hother⟩ := hkeys u
  have happart := coordinationKeys_apart n k n' k'
  rw [hown, hother] at happart
  exact happart

omit [DecidableEq T] in
/-- Who shares the result key shares the lease key. -/
theorem leaseKey_of_resultKey
    (hkeys : ∀ t, (contexts t).Coordinated) {t u : T}
    (heq : (contexts t).resultKey = (contexts u).resultKey) :
    (contexts t).leaseKey = (contexts u).leaseKey := by
  obtain ⟨n, k, hown⟩ := hkeys t
  obtain ⟨n', k', hother⟩ := hkeys u
  have hsame : (coordinationKeys n k).2 = (coordinationKeys n' k').2 := by
    rw [hown, hother]
    exact heq
  have hlease := coordinationKeys_result_inj hsame
  rw [hown, hother] at hlease
  exact hlease

end Keys

/-- The state that a mapped script leaves is that of the script. -/
theorem run_map_snd
    {κ α β : Type} (f : α → β) (s : Script κ α) (db : Keyspace κ) :
    ((f <$> s).run db).2 = (s.run db).2 := by
  rw [Script.map_eq_bind]
  rcases hrun : s.run db with ⟨e | a, db'⟩
  · rw [Script.run_bind_error hrun]
  · rw [Script.run_bind_ok hrun]
    rfl

/-- The flag of a reply is that of its script. -/
theorem flag_of_map
    {κ : Type} {s : Script κ Bool} {db : Keyspace κ} {set : Bool}
    (h : ((Reply.flag <$> s).run db).1 = .ok (.flag set)) :
    (s.run db).1 = .ok set := by
  rw [Script.map_eq_bind] at h
  rcases hrun : s.run db with ⟨e | a, db'⟩
  · rw [Script.run_bind_error hrun] at h
    cases h
  · rw [Script.run_bind_ok hrun] at h
    obtain rfl := Reply.flag.inj (Except.ok.inj h)
    rfl

/-- SET with NX does not touch a key that shows something. -/
theorem setNXPX_of_shown
    {db : Keyspace Text} {key : Text} {entry : Entry}
    (h : db.lookup key = some entry) (value px : Bytes) :
    ((Script.setNXPX key value px).run db).2 = db := by
  unfold Script.run Script.setNXPX
  split
  · rfl
  · split
    · rfl
    · rw [h]

/-- SET with NX writes its key at most. -/
theorem setNXPX_lookup_ne
    {db : Keyspace Text} {key key' : Text}
    (hne : key' ≠ key) (value px : Bytes) :
    ((Script.setNXPX key value px).run db).2.lookup key' = db.lookup key' := by
  unfold Script.run Script.setNXPX
  split
  · rfl
  · split
    · rfl
    · split
      · rfl
      · exact Keyspace.lookup_write_ne db _ hne

/-- The clock of the server is frozen while a command is executed. -/
theorem serve_now
    (command : Command) (db : Keyspace Text) :
    (command.serve.run db).2.now = db.now := by
  cases command with
  | setIfAbsent key value ms =>
      rw [Command.serve, run_map_snd]
      unfold Script.run Script.setNXPX
      split
      · rfl
      · split
        · rfl
        · split <;> rfl
  | coordinationSnapshot leaseKey resultKey size =>
      rfl
  | publishIfValue key expected resultKey value completion ms =>
      rw [Command.serve, run_map_snd]
      rcases publishIfValue_cases db key resultKey expected value (decimal ms) completion with
        ⟨-, e, -, hrun⟩ | ⟨hsame, -⟩
      · rw [hrun]
        rfl
      · rw [hsame]
  | deleteIfValue key value =>
      rw [Command.serve, run_map_snd]
      rcases compareAndDelete_cases db key value with ⟨-, hrun⟩ | ⟨-, hsame⟩
      · rw [hrun]
        rfl
      · rw [hsame]

omit [DecidableEq T] in
/-- **No command of a flight changes what was published.** -/
theorem Published.serve
    {contexts : T → FlightContext V} {drawn : List (T × Text)} {t u : T} {command : Command}
    {token : Text} {value : Bytes} {expiry : Nat} {db : Keyspace Text}
    (hkeys : ∀ t, (contexts t).Coordinated)
    (h : Published (contexts t).leaseKey (contexts t).resultKey (completionMarker token) value
      expiry db)
    (hown : OwnCommand (contexts u) drawn u command) :
    Published (contexts t).leaseKey (contexts t).resultKey (completionMarker token) value expiry
      (command.serve.run db).2 := by
  intro hnow
  rw [serve_now] at hnow
  obtain ⟨hmarker, hresult⟩ := h hnow
  have hshown := shownString_of_lookup hmarker
  cases command with
  | setIfAbsent key value' ms =>
      obtain ⟨rfl, -⟩ := hown
      rw [Command.serve, run_map_snd]
      refine ⟨?_, ?_⟩
      · by_cases hkey : (contexts t).leaseKey = (contexts u).leaseKey
        · rw [← hkey, setNXPX_of_shown hmarker]
          exact hmarker
        · rw [setNXPX_lookup_ne hkey]
          exact hmarker
      · rw [setNXPX_lookup_ne (leaseKey_ne_resultKey hkeys u t).symm]
        exact hresult
  | coordinationSnapshot leaseKey resultKey size =>
      exact ⟨hmarker, hresult⟩
  | publishIfValue key expected resultKey value' completion ms =>
      obtain ⟨rfl, rfl, token', -, rfl, rfl⟩ := hown
      rw [Command.serve, run_map_snd]
      rcases publishIfValue_cases db (contexts u).leaseKey (contexts u).resultKey
        (activeMarker token') value' (decimal ms) (completionMarker token') with
        ⟨hactive, e, -, hrun⟩ | ⟨hsame, -⟩
      · -- another key: here the marker is completed
        have hne : (contexts t).leaseKey ≠ (contexts u).leaseKey := by
          intro heq
          rw [← heq, hshown] at hactive
          exact completionMarker_ne_activeMarker _ _ (Option.some.inj hactive)
        have hne' : (contexts t).resultKey ≠ (contexts u).resultKey :=
          fun heq => hne (leaseKey_of_resultKey hkeys heq)
        rw [hrun]
        rw [Keyspace.lookup_write_ne _ _ hne,
          Keyspace.lookup_write_ne _ _ (leaseKey_ne_resultKey hkeys t u),
          Keyspace.lookup_write_ne _ _ (leaseKey_ne_resultKey hkeys u t).symm,
          Keyspace.lookup_write_ne _ _ hne']
        exact ⟨hmarker, hresult⟩
      · rw [hsame]
        exact ⟨hmarker, hresult⟩
  | deleteIfValue key value' =>
      obtain ⟨rfl, token', -, rfl⟩ := hown
      rw [Command.serve, run_map_snd]
      rcases compareAndDelete_cases db (contexts u).leaseKey (activeMarker token') with
        ⟨hactive, hrun⟩ | ⟨-, hsame⟩
      · have hne : (contexts t).leaseKey ≠ (contexts u).leaseKey := by
          intro heq
          rw [← heq, hshown] at hactive
          exact completionMarker_ne_activeMarker _ _ (Option.some.inj hactive)
        rw [hrun]
        rw [Keyspace.lookup_write_ne _ _ hne,
          Keyspace.lookup_write_ne _ _ (leaseKey_ne_resultKey hkeys u t).symm]
        exact ⟨hmarker, hresult⟩
      · rw [hsame]
        exact ⟨hmarker, hresult⟩

theorem Published.advance
    {leaseKey resultKey : Text} {completion value : Bytes} {expiry ms : Nat} {db : Keyspace Text}
    (h : Published leaseKey resultKey completion value expiry db) :
    Published leaseKey resultKey completion value expiry (db.advance ms) := by
  intro hnow
  have hle : db.now + ms ≤ expiry := hnow
  obtain ⟨hmarker, hresult⟩ := h (by omega)
  exact ⟨Keyspace.lookup_advance_of_le hmarker hle, Keyspace.lookup_advance_of_le hresult hle⟩

omit [DecidableEq T] in
/-- What an event executes was on a wire. -/
theorem carries_of_executing
    {w : CoordinationWorld T} {e : CoordinationEvent T} {t : T} {command : Command}
    (h : w.executing e = some (t, command)) :
    (w.wire t).Carries command := by
  cases e with
  | advance ms =>
      cases h
  | execute u =>
      obtain ⟨command', hcurrent, heq⟩ := Option.map_eq_some_iff.mp h
      cases heq
      exact .inl hcurrent
  | executeStale u i =>
      obtain ⟨command', hstale, heq⟩ := Option.map_eq_some_iff.mp h
      cases heq
      exact .inr (List.mem_of_getElem? hstale)

/-- The server's part of a published result, as an invariant of runs. -/
theorem published_interviewed
    {contexts : T → FlightContext V}
    (hkeys : ∀ t, (contexts t).Coordinated)
    (t : T) (token : Text) (value : Bytes) (expiry : Nat) :
    Interviewed (flightSystem T V) (fun t => Asks (contexts t)) fun w heard =>
      Guarded contexts w heard ∧ Published (contexts t).leaseKey (contexts t).resultKey
        (completionMarker token) value expiry w.db where
  issue u q w w' heard h hasks hissue := by
    refine ⟨h.1.issue hasks hissue, ?_⟩
    have hdb : w'.db = w.db := by
      change CoordinationWorld.issue u q w = some w' at hissue
      unfold CoordinationWorld.issue at hissue
      split at hissue
      · obtain rfl := Option.some.inj hissue
        rfl
      · obtain rfl := Option.some.inj hissue
        rfl
    rw [hdb]
    exact h.2
  answer u q a w w' heard h hasks hanswer := by
    refine ⟨h.1.answer hanswer, ?_⟩
    have hdb : w'.db = w.db := by
      change CoordinationWorld.answer u q a w = some w' at hanswer
      unfold CoordinationWorld.answer at hanswer
      split at hanswer
      · obtain ⟨wire, -, rfl⟩ := Option.map_eq_some_iff.mp hanswer
        rfl
      · cases hanswer
    rw [hdb]
    exact h.2
  env e w w' heard h henv := by
    refine ⟨h.1.env henv, ?_⟩
    rcases env_db henv with ⟨ms, -, hdb⟩ | ⟨u, command, hexecuting, hdb⟩
    · rw [hdb]
      exact h.2.advance
    · rw [hdb]
      exact h.2.serve hkeys (h.1.own u command (carries_of_executing hexecuting))

/-! ## The safety of the cleanup -/

/-- A state of the flights. -/
abbrev FlightPool (T V : Type) :=
  System.Pool T (CoordinationWorld T) Unit Empty Question (Answer V) (Except FlightException V)

/-- A label of a run of the flights. -/
abbrev FlightLabel (T V : Type) :=
  System.PoolLabel T Empty Question (CoordinationEvent T) (Answer V)

/-- A compare-delete of a flight, and what it leaves. -/
structure SafeDelete (contexts : T → FlightContext V) (w : CoordinationWorld T) (t : T)
    (key : Text) (value : Bytes) (after : Keyspace Text) : Prop where
  own : key = (contexts t).leaseKey ∧ ∃ token, Holds w.drawn t token ∧
    value = activeMarker token ∧
    ∀ u token', (u, token') ≠ (t, token) → Holds w.drawn u token' →
      shownString w.db key = some (activeMarker token') → after = w.db
  exact : (shownString w.db key = some value ∧ after = w.db.write key none) ∨
    (shownString w.db key ≠ some value ∧ after = w.db)
  completed : ∀ token, shownString w.db key = some (completionMarker token) → after = w.db
  result : ∀ u, after.lookup (contexts u).resultKey = w.db.lookup (contexts u).resultKey

/-- A publication that was executed, seen from every later state. -/
structure SafePublication (contexts : T → FlightContext V) (t : T) (value completion : Bytes)
    (c : FlightPool T V) : Prop where
  token : ∃ token, Holds c.world.drawn t token ∧ completion = completionMarker token
  kept : ∃ expiry, c.world.db.now < expiry ∧ ∀ ls c',
    Run (System.PoolStep (flightSystem T V)) c ls c' → c'.world.db.now ≤ expiry →
      shownString c'.world.db (contexts t).leaseKey = some completion ∧
      shownString c'.world.db (contexts t).resultKey = some value

/-- A call has raised. -/
def raised {β : Type} : Except FlightException β → Bool
  | .error _ => true
  | .ok _ => false

/-- The exception of the owner after its cleanup: the same object, with a note if that failed. -/
def afterCleanup (e : FlightException) : Except FlightException Bool → FlightException
  | .ok _ => e
  | .error _ => e.addNote cleanupNote

/-- Every failure of the owner is the result, after a cleanup that is reported. -/
def OriginalFailure (context : FlightContext V) (mode : RedisMode) (log : Log V)
    (r : Except FlightException V) : Prop :=
  ∀ token e earlier, earlier <:+ log → Failed context token e earlier →
    ∃ deleted reports, r = .error (afterCleanup e deleted) ∧
      Reported context mode (raised deleted) reports ∧
      log = reports ++
        ⟨.deleteIfValue context.leaseKey (activeMarker token), deleted⟩ :: earlier

/-- The cleanup of failed owners is safe, in the state that a run has reached. -/
structure CleanupSafe (contexts : T → FlightContext V) (modes : T → RedisMode)
    (ls : List (FlightLabel T V)) (c : FlightPool T V) : Prop where
  deletes : ∀ e t key value w', c.world.executing e = some (t, .deleteIfValue key value) →
    CoordinationWorld.env e c.world = some w' → SafeDelete contexts c.world t key value w'.db
  publications : ∀ e t key expected resultKey value completion ms w',
    c.world.executing e =
      some (t, .publishIfValue key expected resultKey value completion ms) →
    ((Command.publishIfValue key expected resultKey value completion ms).serve.run
      c.world.db).1 = .ok (.flag true) →
    CoordinationWorld.env e c.world = some w' →
    SafePublication contexts t value completion ⟨w', c.thread⟩
  failures : ∀ t r, c.thread t = .running (.ret r) →
    OriginalFailure (contexts t) (modes t) (System.told ls t) r

/-- Short of a fatal exception the caller sees the failure, and a failed cleanup is noted. -/
theorem seen_of_mild
    {mode : RedisMode} {deleted : Except FlightException Bool}
    (hmild : ∀ error, deleted = .error error → ¬ (mode = .async ∧ error.kind = .fatal))
    (e : FlightException) :
    seen mode e deleted = afterCleanup e deleted ∧ noted mode deleted = raised deleted := by
  cases deleted with
  | ok found =>
      exact ⟨rfl, rfl⟩
  | error error =>
      have hnot := hmild error rfl
      simp [seen, noted, afterCleanup, raised, hnot]

/-- The compare-delete of an asynchronous flight ends with a fatal exception. -/
def FatalCleanup (modes : T → RedisMode) : FlightLabel T V → Prop
  | .thread t (.answered (.deleteIfValue _ _) (.error e)) => modes t = .async ∧ e.kind = .fatal
  | _ => False

omit [DecidableEq T] in
/-- A compare-delete on the wire is safe. -/
theorem safeDelete_of_guarded
    {contexts : T → FlightContext V} {w : CoordinationWorld T} {heard : T → Log V} {t : T}
    {key : Text} {value : Bytes}
    (hkeys : ∀ t, (contexts t).Coordinated)
    (h : Guarded contexts w heard)
    (hcarries : (w.wire t).Carries (.deleteIfValue key value)) :
    SafeDelete contexts w t key value ((Command.deleteIfValue key value).serve.run w.db).2 := by
  obtain ⟨rfl, token, hholds, rfl⟩ := h.own t _ hcarries
  rw [Command.serve, run_map_snd]
  have hcases := compareAndDelete_cases w.db (contexts t).leaseKey (activeMarker token)
  have hother : ∀ marker, marker ≠ activeMarker token →
      shownString w.db (contexts t).leaseKey = some marker →
      ((compareAndDeleteScript (contexts t).leaseKey (activeMarker token)).run w.db).2 = w.db := by
    intro marker hne hshown
    rcases hcases with ⟨hactive, -⟩ | ⟨-, hsame⟩
    · rw [hshown] at hactive
      exact absurd (Option.some.inj hactive) hne
    · exact hsame
  refine ⟨⟨rfl, token, hholds, rfl, fun u token' hne hholds' hshown => ?_⟩, ?_,
    fun token' hshown => hother _ (completionMarker_ne_activeMarker token' token) hshown,
    fun u => ?_⟩
  · refine hother _ (fun heq => hne ?_) hshown
    -- no token is drawn twice
    obtain rfl := activeMarker_inj hholds'.1 hholds.1 heq
    exact List.inj_on_of_nodup_map h.distinct hholds'.2 hholds.2 rfl
  · rcases hcases with ⟨hactive, hrun⟩ | ⟨hnot, hsame⟩
    · rw [hrun]
      exact .inl ⟨hactive, rfl⟩
    · exact .inr ⟨hnot, hsame⟩
  · rcases hcases with ⟨hactive, hrun⟩ | ⟨hnot, hsame⟩
    · rw [hrun]
      exact Keyspace.lookup_write_ne _ _ (leaseKey_ne_resultKey hkeys t u).symm
    · rw [hsame]

/-- An executed publication is safe. -/
theorem safePublication_of_guarded
    {contexts : T → FlightContext V} {modes : T → RedisMode} {c : FlightPool T V}
    {heard : T → Log V} {e : CoordinationEvent T} {t : T} {key resultKey : Text}
    {expected value completion : Bytes} {ms : Nat} {w' : CoordinationWorld T}
    (hkeys : ∀ t, (contexts t).Coordinated)
    (hfollowing : AllFollowing (fun t => Asks (contexts t))
      (fun t => FlightEnd (contexts t) (modes t)) c heard)
    (h : Guarded contexts c.world heard)
    (hexecuting : c.world.executing e =
      some (t, .publishIfValue key expected resultKey value completion ms))
    (hreply : ((Command.publishIfValue key expected resultKey value completion ms).serve.run
      c.world.db).1 = .ok (.flag true))
    (henv : CoordinationWorld.env e c.world = some w') :
    SafePublication contexts t value completion ⟨w', c.thread⟩ := by
  obtain ⟨rfl, rfl, token, hholds, rfl, rfl⟩ := h.own t _ (carries_of_executing hexecuting)
  have hguarded := h.env henv
  have hdrawn := (env_frame henv).1
  refine ⟨⟨token, by rw [hdrawn]; exact hholds, rfl⟩, ?_⟩
  rcases env_db henv with ⟨ms', rfl, -⟩ | ⟨u, command, hexecuting', hdb⟩
  · cases hexecuting
  · rw [hexecuting] at hexecuting'
    cases hexecuting'
    rw [Command.serve, run_map_snd] at hdb
    rcases publishIfValue_cases c.world.db (contexts t).leaseKey (contexts t).resultKey
      (activeMarker token) value (decimal ms) (completionMarker token) with
      ⟨-, expiry, hlater, hrun⟩ | ⟨-, hnot⟩
    · rw [hrun] at hdb
      have hpublished : Published (contexts t).leaseKey (contexts t).resultKey
          (completionMarker token) value expiry w'.db := by
        intro _
        rw [hdb, Keyspace.lookup_write_ne _ _ (leaseKey_ne_resultKey hkeys t t).symm]
        exact ⟨Keyspace.lookup_write_of_le hlater.le, Keyspace.lookup_write_of_le hlater.le⟩
      have hnow : w'.db.now = c.world.db.now := by
        rw [hdb]
        rfl
      refine ⟨expiry, by rw [hnow]; exact hlater, fun ls c' hrun' hle => ?_⟩
      obtain ⟨-, -, hkept⟩ := interview_invariant (published_interviewed hkeys t token value expiry)
        hrun' hfollowing ⟨hguarded, hpublished⟩
      obtain ⟨hmarker, hresult⟩ := hkept hle
      exact ⟨shownString_of_lookup hmarker, shownString_of_lookup hresult⟩
    · exact absurd (flag_of_map hreply) hnot

/--
**The cleanup of failed owners is safe** in every run in which no compare-delete of an
asynchronous flight ends with a fatal exception.
-/
theorem cleanup_safe
    (contexts : T → FlightContext V) (modes : T → RedisMode)
    (hkeys : ∀ t, (contexts t).Coordinated)
    (db : Keyspace Text)
    (ls : List (FlightLabel T V)) (c : FlightPool T V)
    (hrun : Run (System.PoolStep (flightSystem T V)) (flightPool contexts modes db) ls c)
    (hfatal : ∀ l ∈ ls, ¬ FatalCleanup modes l) :
    CleanupSafe contexts modes ls c := by
  obtain ⟨hfollowing, hguarded⟩ := guarded_run hrun
  refine ⟨?_, ?_, ?_⟩
  · intro e t key value w' hexecuting henv
    rcases env_db henv with ⟨ms, rfl, -⟩ | ⟨u, command, hexecuting', hdb⟩
    · cases hexecuting
    · rw [hexecuting] at hexecuting'
      cases hexecuting'
      rw [hdb]
      exact safeDelete_of_guarded hkeys hguarded (carries_of_executing hexecuting)
  · intro e t key expected resultKey value completion ms w' hexecuting hreply henv
    exact safePublication_of_guarded hkeys hfollowing hguarded hexecuting hreply henv
  · intro t r hended token e earlier hsuffix hfailed
    have hend := hfollowing t
    rw [hended] at hend
    obtain ⟨deleted, ⟨reports, hreported, hlog⟩, hresult⟩ :=
      hend.ended token e earlier hsuffix hfailed
    have hmem : (⟨.deleteIfValue (contexts t).leaseKey (activeMarker token), deleted⟩ :
        Exchange (Answer V)) ∈ System.told ls t := by
      rw [hlog]
      exact List.mem_append_right _ List.mem_cons_self
    have hmild : ∀ error, deleted = .error error →
        ¬ (modes t = .async ∧ error.kind = .fatal) := by
      rintro error rfl hboth
      exact hfatal _ (System.mem_told hmem) hboth
    obtain ⟨hseen, hnoted⟩ := seen_of_mild hmild e
    rw [hseen] at hresult
    rw [hnoted] at hreported
    exact ⟨deleted, reports, hresult, hreported, hlog⟩

/-! ## A flight on its turn -/

/-- Two attempts within two seconds, for a lease of two seconds. -/
def twoSeconds : RedisLoadOptions :=
  ⟨2, 2, 2, 2, 2, 2, 2, two_pos, two_pos, two_pos, le_rfl, le_rfl, one_le_two, one_le_two⟩

theorem noReaders_built :
    buildReaderRegistry none [] = .ok .empty := by
  rfl

/-- A codec of bytes without compression. -/
def plainCodec : ResultEnvelopeCodec Bytes :=
  ⟨bytesCodec, .json smallJsonFormat, none, [], 1024, .empty, smallJsonFormat.one_le_max,
    smallJsonFormat.max_le, le_rfl, noReaders_built⟩

/-- A flight with an observer. -/
def observedFlight : FlightContext Bytes where
  options := twoSeconds
  codec := plainCodec
  frames := 2
  key := text "k"
  leaseKey := (coordinationKeys (text "n") (text "k")).1
  resultKey := (coordinationKeys (text "n") (text "k")).2
  observed := true

theorem observedFlight_coordinated :
    observedFlight.Coordinated :=
  ⟨text "n", text "k", rfl⟩

/-- The state of a flight. -/
abbrev FlightThread (V : Type) :=
  Thread Unit Empty Question (Answer V) (Except FlightException V)

/-- A flight at its beginning. -/
def ready (mode : RedisMode) : FlightThread Bytes :=
  .running (distributedLoad observedFlight mode).toProc

/-- A flight whose next question is open. -/
def waitingIn (flight : Flight Bytes (Except FlightException Bytes)) : FlightThread Bytes :=
  match flight.toProc with
  | .ask q next => .waiting q next
  | proc => .running proc

/-- What a flight does with its result. -/
def concluding (mode : RedisMode) (ended : Ended FlightState (Bytes × RedisCoordinationOutcome)) :
    Flight Bytes (Except FlightException Bytes) := do
  emit observedFlight mode ended.1 ended.2
  return ended.1.map Prod.fst

/-- A flight that has acquired the lease. -/
def owner (mode : RedisMode) (token : Text) : Flight Bytes (Except FlightException Bytes) :=
  runOwner observedFlight mode token (0 + observedFlight.options.leaseTtl) ⟨1, 0, false⟩ >>=
    concluding mode

/-- The acquisition of the lease. -/
def acquisition (token : Text) : Question :=
  .setIfAbsent observedFlight.leaseKey (activeMarker token) 2

/-- The acquisition as it reaches the server. -/
def acquiring (token : Text) : Command :=
  .setIfAbsent observedFlight.leaseKey (activeMarker token) 2000

theorem acquisition_command
    (token : Text) :
    (acquisition token).command? = some (acquiring token) := by
  norm_num [acquisition, acquiring, Question.command?, ttlMilliseconds, maxInt64]
  rfl

section Turn

variable {T : Type} [DecidableEq T]

/-- A question of a flight with its answer. -/
def exchanged (t : T) (q : Question) (a : Answer Bytes q) : List (FlightLabel T Bytes) :=
  [.thread t (.asked q), .thread t (.answered q a)]

/-- A call of the provider whose command is executed at once. -/
def served (t : T) (q : Question) (a : Answer Bytes q) : List (FlightLabel T Bytes) :=
  [.thread t (.asked q), .env (.execute t), .thread t (.answered q a)]

/-- A server with no command under way. -/
def resting (db : Keyspace Text) (drawn : List (T × Text)) : CoordinationWorld T :=
  ⟨db, fun _ => .init, drawn⟩

theorem setWire_resting
    (db : Keyspace Text) (drawn : List (T × Text)) (t : T) (wire : FlightWire) :
    ((resting db drawn).setWire t wire).setWire t .init = resting db drawn := by
  simp only [CoordinationWorld.setWire, resting, Function.update_idem]
  rw [Function.update_eq_self]

/-- An answer that draws no token changes the wire. -/
theorem answer_undrawn
    {t : T} {q : Question} {a : Answer V q}
    (h : CoordinationWorld.draws t q a = []) (w : CoordinationWorld T) :
    CoordinationWorld.answer t q a w = ((w.wire t).answer q a).map (w.setWire t) := by
  simp only [CoordinationWorld.answer, h, List.not_mem_nil, false_implies, implies_true, if_true,
    List.nil_append]
  rfl

/-- An answer that comes from no server changes nothing. -/
theorem answer_resting
    {t : T} {q : Question} {a : Answer V q} {db : Keyspace Text} {drawn : List (T × Text)}
    (hdraws : CoordinationWorld.draws t q a = [])
    (hwire : FlightWire.init.answer q a = some .init) :
    CoordinationWorld.answer t q a (resting db drawn) = some (resting db drawn) := by
  rw [answer_undrawn hdraws]
  change (FlightWire.init.answer q a).map _ = _
  rw [hwire]
  exact congrArg some (by simp [CoordinationWorld.setWire, resting])

omit [DecidableEq T] in
/-- The flag of a reply is received. -/
theorem receiveFlag_replied
    (set : Bool) :
    FlightWire.receiveFlag ⟨none, some (.ok (.flag set)), []⟩ (.ok set) = some .init := by
  simp [FlightWire.receiveFlag, FlightWire.receive, FlightWire.settle, FlightWire.init]

variable {others : T → FlightThread Bytes} {t : T} {db db' : Keyspace Text}
  {drawn : List (T × Text)} {ls : List (FlightLabel T Bytes)} {c : FlightPool T Bytes}
  {β S : Type}

/-- A question that reaches no server, and its answer. -/
theorem run_talk
    {q : Question} {a : Answer Bytes q}
    {next : Answer Bytes q → Flight Bytes (Except FlightException Bytes)}
    (hcommand : q.command? = none)
    (hdraws : CoordinationWorld.draws t q a = [])
    (hwire : FlightWire.init.answer q a = some .init)
    (hrest : Run (System.PoolStep (flightSystem T Bytes))
      (.turn (resting db drawn) others t (.running (next a).toProc)) ls c) :
    Run (System.PoolStep (flightSystem T Bytes))
      (.turn (resting db drawn) others t (.running (Dialogue.ask q next).toProc))
      (exchanged t q a ++ ls) c := by
  have hissue : CoordinationWorld.issue t q (resting db drawn) = some (resting db drawn) := by
    unfold CoordinationWorld.issue
    rw [hcommand]
  exact turn_talk (S := flightSystem T Bytes) hissue (answer_resting hdraws hwire) hrest

/-- A token is drawn. -/
theorem run_newToken
    {token : Text} {next : Text → Flight Bytes (Except FlightException Bytes)}
    (hfresh : token ∉ drawn.map Prod.snd)
    (hrest : Run (System.PoolStep (flightSystem T Bytes))
      (.turn (resting db ((t, token) :: drawn)) others t (.running (next token).toProc)) ls c) :
    Run (System.PoolStep (flightSystem T Bytes))
      (.turn (resting db drawn) others t (.running (Dialogue.ask .newToken next).toProc))
      (exchanged t .newToken token ++ ls) c := by
  have hanswer : CoordinationWorld.answer (V := Bytes) t .newToken token (resting db drawn) =
      some (resting db ((t, token) :: drawn)) := by
    unfold CoordinationWorld.answer
    rw [if_pos (by simpa [CoordinationWorld.draws, resting] using hfresh)]
    simp [CoordinationWorld.draws, CoordinationWorld.setWire, resting, FlightWire.answer]
  exact turn_talk (S := flightSystem T Bytes) rfl hanswer hrest

/-- A command is executed at once, and answered as the server replies. -/
theorem run_served
    {q : Question} {a : Answer Bytes q} {command : Command} {reply : Reply}
    {next : Answer Bytes q → Flight Bytes (Except FlightException Bytes)}
    (hcommand : q.command? = some command)
    (hserve : command.serve.run db = (.ok reply, db'))
    (hwire : FlightWire.answer ⟨none, some (.ok reply), []⟩ q a = some .init)
    (hrest : Run (System.PoolStep (flightSystem T Bytes))
      (.turn (resting db' drawn) others t (.running (next a).toProc)) ls c) :
    Run (System.PoolStep (flightSystem T Bytes))
      (.turn (resting db drawn) others t (.running (Dialogue.ask q next).toProc))
      (served t q a ++ ls) c := by
  have hdraws : CoordinationWorld.draws t q a = [] := by
    cases q with
    | newToken => cases hcommand
    | _ => rfl
  have hissue : CoordinationWorld.issue t q (resting db drawn) =
      some ((resting db drawn).setWire t (FlightWire.init.send command)) := by
    unfold CoordinationWorld.issue
    rw [hcommand]
    rfl
  have henv : CoordinationWorld.env (.execute t)
      ((resting db drawn).setWire t (FlightWire.init.send command)) =
      some ((resting db' drawn).setWire t ⟨none, some (.ok reply), []⟩) := by
    simp [CoordinationWorld.env, CoordinationWorld.setWire, resting, FlightWire.send, hserve,
      FlightWire.init]
  have hanswer : CoordinationWorld.answer t q a
      ((resting db' drawn).setWire t ⟨none, some (.ok reply), []⟩) = some (resting db' drawn) := by
    rw [answer_undrawn hdraws]
    simp only [CoordinationWorld.setWire, Function.update_self, hwire, Option.map_some]
    exact congrArg some (setWire_resting db' drawn t _)
  refine turn_ask (S := flightSystem T Bytes) hissue ?_
  refine turn_env (S := flightSystem T Bytes) henv ?_
  exact turn_answer (S := flightSystem T Bytes) hanswer hrest

/-- The clock is asked; nothing else happens. -/
theorem run_clock
    (now : ℚ) {next : ℚ → Flight Bytes (Except FlightException Bytes)}
    (hrest : Run (System.PoolStep (flightSystem T Bytes))
      (.turn (resting db drawn) others t (.running (next now).toProc)) ls c) :
    Run (System.PoolStep (flightSystem T Bytes))
      (.turn (resting db drawn) others t (.running (Dialogue.ask .clock next).toProc))
      (exchanged t .clock now ++ ls) c :=
  run_talk rfl rfl rfl hrest

/-- A branch that is not taken. -/
theorem run_else
    {p : Prop} [Decidable p] {first second : Flight Bytes (Ended S β)}
    {rest : Ended S β → Flight Bytes (Except FlightException Bytes)}
    (hnot : ¬ p)
    (hrest : Run (System.PoolStep (flightSystem T Bytes))
      (.turn (resting db drawn) others t (.running (second >>= rest).toProc)) ls c) :
    Run (System.PoolStep (flightSystem T Bytes))
      (.turn (resting db drawn) others t (.running ((if p then first else second) >>= rest).toProc))
      ls c := by
  rw [if_neg hnot]
  exact hrest

/-- The clock is asked, and the deadline has not come. -/
theorem run_beforeDeadline
    {deadline now : ℚ} {state : S} {next : Flight Bytes (Ended S β)}
    {rest : Ended S β → Flight Bytes (Except FlightException Bytes)}
    (hbefore : ¬ deadline ≤ now)
    (hrest : Run (System.PoolStep (flightSystem T Bytes))
      (.turn (resting db drawn) others t (.running (next >>= rest).toProc)) ls c) :
    Run (System.PoolStep (flightSystem T Bytes))
      (.turn (resting db drawn) others t
        (.running (beforeDeadline deadline state next >>= rest).toProc))
      (exchanged t .clock now ++ ls) c :=
  run_clock now (run_else hbefore hrest)

/-! ## The acquisition of a lease -/

/-- A flight asks for the lease. -/
def attempting (t : T) (token : Text) (acquired : Bool) : List (FlightLabel T Bytes) :=
  exchanged t .clock (0 : ℚ) ++ exchanged t .clock (0 : ℚ) ++ exchanged t .newToken token ++
    exchanged t .clock (0 : ℚ) ++ served t (acquisition token) (.ok acquired)

/-- What a flight does once its acquisition is answered. -/
def attempted (mode : RedisMode) (token : Text) (acquired : Bool) :
    Flight Bytes (Except FlightException Bytes) :=
  let deadline := 0 + observedFlight.options.waitTimeout
  (if acquired then acquiredLease observedFlight mode deadline token ⟨1, 0, false⟩
    else
      beforeDeadline deadline ⟨1, 0, false⟩ do
        let (found, polls) ← pollLoop observedFlight deadline 0
        answered found ⟨1, polls, false⟩ fun found =>
          match found with
          | some found => .done (.ok found, ⟨1, polls, false⟩)
          | none => runFlight observedFlight mode deadline ⟨1, polls, false⟩) >>= concluding mode

theorem not_deadline :
    ¬ 0 + observedFlight.options.waitTimeout ≤ 0 := by
  norm_num [observedFlight, twoSeconds]

/-- The flight from its start to the answer of its acquisition. -/
theorem run_attempting
    {mode : RedisMode} {token : Text} {acquired : Bool}
    (htoken : isOwnerToken token = true)
    (hfresh : token ∉ drawn.map Prod.snd)
    (hserve : (acquiring token).serve.run db = (.ok (.flag acquired), db'))
    (hrest : Run (System.PoolStep (flightSystem T Bytes))
      (.turn (resting db' ((t, token) :: drawn)) others t
        (.running (attempted mode token acquired).toProc)) ls c) :
    Run (System.PoolStep (flightSystem T Bytes))
      (.turn (resting db drawn) others t (ready mode)) (attempting t token acquired ++ ls) c := by
  simp only [attempting, List.append_assoc]
  refine run_clock 0 ?_
  change Run _ (System.Pool.turn _ _ _ (.running
    ((runFlight observedFlight mode (0 + observedFlight.options.waitTimeout) ⟨0, 0, false⟩ >>=
      concluding mode).toProc))) _ _
  rw [runFlight]
  refine run_beforeDeadline not_deadline ?_
  rw [dif_neg (by decide)]
  refine run_newToken hfresh (run_else (by simp [htoken]) ?_)
  refine run_beforeDeadline not_deadline ?_
  refine run_served (acquisition_command token) hserve (receiveFlag_replied acquired) ?_
  cases acquired with
  | true =>
      exact hrest
  | false =>
      -- the rest of the flight is compared outcome by outcome of its polls
      refine Eq.subst (motive := fun d => Run (System.PoolStep (flightSystem T Bytes))
        (.turn _ others t (.running (Dialogue.toProc d))) ls c) ?_ hrest
      refine congrArg (· >>= concluding mode) (congrArg (beforeDeadline _ _) ?_)
      refine congrArg (pollLoop observedFlight _ 0 >>= ·) (funext fun ended => ?_)
      rcases ended with ⟨e | _ | found, polls⟩ <;> rfl

/-- A flight acquires the lease, and asks its loader. -/
def leasing (t : T) (token : Text) : List (FlightLabel T Bytes) :=
  attempting t token true ++ exchanged t .clock (0 : ℚ) ++ exchanged t .clock (0 : ℚ) ++
    [.thread t (.asked (.loader (text "k")))]

/-- The lease as the server stores it. -/
def leased (db : Keyspace Text) (token : Text) : Keyspace Text :=
  db.write observedFlight.leaseKey
    (some ⟨.string (activeMarker token), some (db.now + 2000)⟩)

theorem serve_acquiring
    {token : Text}
    (hnone : db.lookup observedFlight.leaseKey = none)
    (hle : db.now + 2000 ≤ maxInt64) :
    (acquiring token).serve.run db = (.ok (.flag true), leased db token) := by
  have hset : (Script.setNXPX observedFlight.leaseKey (activeMarker token) (decimal 2000)).run
      db = (.ok true, leased db token) :=
    Script.run_setNXPX_missing hnone _ (by decide) hle
  rw [acquiring, Command.serve, Script.map_eq_bind, Script.run_bind_ok hset]
  rfl

/-- **A flight leases the key** when nothing is stored there. -/
theorem run_leasing
    (others : T → FlightThread Bytes) (t : T) (drawn : List (T × Text)) (mode : RedisMode)
    {token : Text}
    (htoken : isOwnerToken token = true)
    (hfresh : token ∉ drawn.map Prod.snd)
    (hnone : db.lookup observedFlight.leaseKey = none)
    (hle : db.now + 2000 ≤ maxInt64) :
    Run (System.PoolStep (flightSystem T Bytes)) (.turn (resting db drawn) others t (ready mode))
      (leasing t token)
      (.turn (resting (leased db token) ((t, token) :: drawn)) others t
        (waitingIn (owner mode token))) := by
  simp only [leasing, List.append_assoc]
  refine run_attempting htoken hfresh (serve_acquiring hnone hle) ?_
  refine run_clock 0 (run_else not_deadline (run_clock 0 ?_))
  exact turn_ask (S := flightSystem T Bytes) rfl (.nil _)

/-- The loader of a flight has returned. -/
theorem run_loaded
    {mode : RedisMode} {token : Text} (loaded : Except FlightException Bytes)
    {next : Except FlightException Bytes → Flight Bytes (Except FlightException Bytes)}
    (howner : owner mode token = Dialogue.ask (.loader (text "k")) next)
    (hrest : Run (System.PoolStep (flightSystem T Bytes))
      (.turn (resting db drawn) others t (.running (next loaded).toProc)) ls c) :
    Run (System.PoolStep (flightSystem T Bytes))
      (.turn (resting db drawn) others t (waitingIn (owner mode token)))
      (.thread t (.answered (.loader (text "k")) loaded) :: ls) c := by
  have hanswer : CoordinationWorld.answer t (.loader (text "k")) loaded (resting db drawn) =
      some (resting db drawn) := answer_resting rfl rfl
  rw [howner]
  exact turn_answer (S := flightSystem T Bytes) hanswer hrest

end Turn

/-! ## Two runs -/

/-- One flight with this mode, and an empty server. -/
abbrev onePool (mode : RedisMode) : FlightPool Unit Bytes :=
  flightPool (fun _ => observedFlight) (fun _ => mode) (.empty 0)

/-- The token of the flight. -/
def theToken : Text := text "t"

/-- The compare-delete of the flight. -/
def theCleanup : Question :=
  .deleteIfValue observedFlight.leaseKey (activeMarker theToken)

/-- The exception of the loader. -/
def loaderError : FlightException :=
  ⟨.other, .raised 0, []⟩

/-- An exception of the cleanup. -/
def cleanupError (kind : ExceptionKind) : FlightException :=
  ⟨kind, .raised 1, []⟩

/-- A flight acquires the lease, and its loader fails. -/
def failedLoad : List (FlightLabel Unit Bytes) :=
  leasing () theToken ++ [.thread () (.answered (.loader (text "k")) (.error loaderError))]

/-- The event of a flight whose loader and whose cleanup have failed. -/
def theEvent (mode : RedisMode) (kind : ExceptionKind) : RedisCoordinationEvent :=
  let failed := .error (cleanupError kind)
  let (outcome, code) := terminal (V := Bytes) mode (.error (seen mode loaderError failed))
  ⟨mode, outcome, code, 1, 0, noted mode failed⟩

/-- A flight acquires the lease, its loader fails, and its cleanup fails. -/
def failedCleanup (mode : RedisMode) (kind : ExceptionKind) : List (FlightLabel Unit Bytes) :=
  failedLoad ++ (exchanged () theCleanup (.error (cleanupError kind)) ++
    exchanged () (.onEvent (theEvent mode kind)) ())

/-- The compare-delete reaches the wire only. -/
theorem theCleanup_wires
    (error : FlightException) (g : CoordinationWorld Unit) :
    ∃ g₁ g₂, CoordinationWorld.issue () theCleanup g = some g₁ ∧
      CoordinationWorld.answer (V := Bytes) () theCleanup (.error error) g₁ = some g₂ := by
  exact ⟨_, _, rfl, answer_undrawn rfl _⟩

/-- The event changes nothing. -/
theorem answer_onEvent
    (event : RedisCoordinationEvent) (g : CoordinationWorld Unit) :
    ∃ g', CoordinationWorld.answer (V := Bytes) () (.onEvent event) () g = some g' := by
  exact ⟨_, answer_undrawn rfl _⟩

/-- What the caller sees when the cleanup has failed too. -/
theorem run_failedCleanup
    (mode : RedisMode) (kind : ExceptionKind) :
    ∃ c, Run (System.PoolStep (flightSystem Unit Bytes)) (onePool mode)
        (failedCleanup mode kind) c ∧
      c.thread () = .running (.ret (.error (seen mode loaderError
        (.error (cleanupError kind))))) := by
  obtain ⟨g₁, g₂, hissue, hanswer⟩ := theCleanup_wires (cleanupError kind)
    (resting (leased (.empty 0) theToken) [((), theToken)])
  obtain ⟨g₃, hevent⟩ := answer_onEvent (theEvent mode kind) g₂
  have hstart : onePool mode =
      .turn (resting (.empty 0) []) (fun _ => ready mode) () (ready mode) := (turn_self ()).symm
  have hlease := run_leasing (fun _ => ready mode) () [] mode
    (show isOwnerToken theToken = true by decide) (by simp)
    (Keyspace.lookup_empty 0 observedFlight.leaseKey) (by decide)
  refine ⟨.turn g₃ (fun _ => ready mode) () _, ?_, turn_thread _⟩
  rw [hstart, failedCleanup, failedLoad, List.append_assoc]
  refine hlease.append (run_loaded _ rfl ?_)
  refine turn_talk (S := flightSystem Unit Bytes) hissue hanswer ?_
  have hlast : ∀ e : FlightException, Run (System.PoolStep (flightSystem Unit Bytes))
      (.turn g₂ (fun _ => ready mode) () (.running (Dialogue.ask (.onEvent (theEvent mode kind))
        fun _ => .done (Except.error (α := Bytes) e)).toProc))
      (exchanged () (.onEvent (theEvent mode kind)) ())
      (.turn g₃ (fun _ => ready mode) () (.running (.ret (.error e)))) :=
    fun e => turn_talk (S := flightSystem Unit Bytes) rfl hevent (.nil _)
  cases mode <;> cases kind <;> exact hlast _

/--
The loader of an asynchronous flight fails, and its compare-delete ends with a fatal exception:
the caller sees that exception, the one of the loader has no note, and the failed cleanup is not
reported.
-/
theorem cleanup_unsafe_fatal :
    ∃ c, Run (System.PoolStep (flightSystem Unit Bytes)) (onePool .async)
        (failedCleanup .async .fatal) c ∧
      c.thread () = .running (.ret (.error (cleanupError .fatal))) ∧
      ¬ CleanupSafe (fun _ => observedFlight) (fun _ => .async) (failedCleanup .async .fatal)
        c := by
  obtain ⟨c, hrun, hended⟩ := run_failedCleanup .async .fatal
  refine ⟨c, hrun, hended, fun hsafe => ?_⟩
  have hfailure := hsafe.failures () _ hended theToken loaderError
  have hlog : System.told (failedCleanup .async .fatal) () =
      ⟨.onEvent (theEvent .async .fatal), ()⟩ :: ⟨theCleanup, .error (cleanupError .fatal)⟩ ::
        System.told failedLoad () := by
    rfl
  have hfailed : Failed observedFlight theToken loaderError (System.told failedLoad ()) :=
    .loader ⟨by decide, _, _, rfl⟩
  have hsuffix : System.told failedLoad () <:+ System.told (failedCleanup .async .fatal) () := by
    rw [hlog]
    exact (List.suffix_cons _ _).trans (List.suffix_cons _ _)
  obtain ⟨deleted, -, heq, -⟩ := hfailure _ hsuffix hfailed
  cases deleted <;> cases heq

/--
The same flight with a failing provider: its caller sees the exception of the loader, with the
note of the failed cleanup.
-/
theorem cleanup_safe_failedCleanup :
    ∃ c, Run (System.PoolStep (flightSystem Unit Bytes)) (onePool .async)
        (failedCleanup .async .provider) c ∧
      c.thread () = .running (.ret (.error ⟨.other, .raised 0, [cleanupNote]⟩)) ∧
      CleanupSafe (fun _ => observedFlight) (fun _ => .async) (failedCleanup .async .provider)
        c := by
  obtain ⟨c, hrun, hended⟩ := run_failedCleanup .async .provider
  refine ⟨c, hrun, hended, cleanup_safe (fun _ => observedFlight) (fun _ => .async)
    (fun _ => observedFlight_coordinated) (.empty 0) _ _ hrun ?_⟩
  simp [failedCleanup, failedLoad, leasing, attempting, exchanged, served, FatalCleanup,
    cleanupError, theCleanup, acquisition]

end CacheRedis
end Bluetape
