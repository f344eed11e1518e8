import Bluetape.Base.Run
import Bluetape.Cache.FlightInvariant

/-!
# The statistics of a cache add up

A tally of what the callers of a cache see: the lookups, the misses among them, the failures
to create a loader task, the stores, and the entries that stores overwrite and `clear` drops.
The counters of the cache agree with it after every step of every run.

* `Changes`: what an operation adds to the counters, and how many entries it writes and drops;
* `statistics_conserved`: the laws in every run.
-/

namespace Bluetape
namespace Cache

open Base

universe u v

/-! ## The pure state -/

/-- The entries that a state has, and those that it has counted as removed. -/
def CacheState.held {κ : Type u} {ν : Type v} (s : CacheState κ ν) : Nat :=
  s.entries.size + s.counters.evictions + s.counters.expirations + s.counters.invalidations

/-- What an operation adds to the counters, and the entries that it writes and drops. -/
structure Activity where
  hits : Nat
  misses : Nat
  loads : Nat
  rejections : Nat
  waiters : Nat
  written : Nat
  dropped : Nat

/-- Nothing that is counted. -/
def Activity.none : Activity :=
  ⟨0, 0, 0, 0, 0, 0, 0⟩

/-- Two activities in a row. -/
def Activity.add (a b : Activity) : Activity where
  hits := a.hits + b.hits
  misses := a.misses + b.misses
  loads := a.loads + b.loads
  rejections := a.rejections + b.rejections
  waiters := a.waiters + b.waiters
  written := a.written + b.written
  dropped := a.dropped + b.dropped

/-- An operation leads from one state to the other by an activity. -/
structure Changes {κ : Type u} {ν : Type v} (a : Activity) (s t : CacheState κ ν) : Prop where
  hits : t.counters.hits = s.counters.hits + a.hits
  misses : t.counters.misses = s.counters.misses + a.misses
  loads : t.counters.loads = s.counters.loads + a.loads
  rejections : t.counters.loadRejections = s.counters.loadRejections + a.rejections
  waiters : t.counters.coalescedWaiters = s.counters.coalescedWaiters + a.waiters
  held : t.held + a.dropped = s.held + a.written

section State

variable {κ : Type u} {ν : Type v} {s t t' : CacheState κ ν} {a b : Activity}

theorem Changes.trans
    (h : Changes a s t)
    (h' : Changes b t t') :
    Changes (a.add b) s t' where
  hits := by
    rw [h'.hits, h.hits, Nat.add_assoc]
    rfl
  misses := by
    rw [h'.misses, h.misses, Nat.add_assoc]
    rfl
  loads := by
    rw [h'.loads, h.loads, Nat.add_assoc]
    rfl
  rejections := by
    rw [h'.rejections, h.rejections, Nat.add_assoc]
    rfl
  waiters := by
    rw [h'.waiters, h.waiters, Nat.add_assoc]
    rfl
  held := by
    have hfirst := h.held
    have hsecond := h'.held
    unfold Activity.add
    dsimp only
    omega

/-- The entries and the counters are the same. -/
theorem changes_of_eq
    (hentries : t.entries = s.entries)
    (hcounters : t.counters = s.counters) :
    Changes .none s t := by
  refine ⟨?_, ?_, ?_, ?_, ?_, ?_⟩
  all_goals simp [hentries, hcounters, Activity.none, CacheState.held]

theorem Changes.refl
    (s : CacheState κ ν) :
    Changes .none s s :=
  changes_of_eq rfl rfl

/-- An activity before one that counts nothing. -/
theorem Changes.then_none
    (h : Changes a s t)
    (h' : Changes .none t t') :
    Changes a s t' :=
  h.trans h'

/-- An activity after one that counts nothing. -/
theorem Changes.none_then
    (h : Changes .none s t)
    (h' : Changes a t t') :
    Changes a s t' := by
  have hboth := h.trans h'
  have hsame : Activity.none.add a = a := by
    simp [Activity.add, Activity.none]
  rwa [hsame] at hboth

theorem changes_clampTick
    (s : CacheState κ ν) (tick : Int) :
    Changes .none s (s.clampTick tick).2 :=
  changes_of_eq rfl rfl

variable [DecidableEq κ]

/-- A popped record moves an entry to the expirations, or does nothing. -/
theorem changes_purgeRecord
    (s : CacheState κ ν) (r : HeapRecord κ) (owned : Finset κ) :
    Changes .none s (s.purgeRecord r owned) := by
  rcases s.purgeRecord_cases r owned with ⟨entry, hlookup, -, hentries, hcounters⟩ | ⟨-, hsame⟩
  · have hsize := OrderedDict.size_erase hlookup
    refine ⟨?_, ?_, ?_, ?_, ?_, ?_⟩
    case refine_6 =>
      simp only [CacheState.held, hentries, hcounters, Counters.addExpirations, Activity.none]
      omega
    all_goals simp [hcounters, Counters.addExpirations, Activity.none]
  · rw [hsame]
    exact .refl s

theorem changes_purgeLoop
    (now : Nat) (owned : Finset κ) (heap : List (HeapRecord κ)) (s : CacheState κ ν) :
    Changes .none s (CacheState.purgeLoop now owned heap s) := by
  induction heap generalizing s with
  | nil =>
      exact changes_of_eq rfl rfl
  | cons r rest ih =>
      unfold CacheState.purgeLoop
      split
      · exact (changes_purgeRecord s r owned).none_then (ih _)
      · exact changes_of_eq rfl rfl

theorem changes_purgeExpired
    (s : CacheState κ ν) (now : Nat) (owned : Finset κ) :
    Changes .none s (s.purgeExpired now owned) :=
  changes_purgeLoop now owned s.expiryHeap s

/-- What a lookup counts. -/
def lookupActivity (found : Bool) : Activity :=
  if found then { Activity.none with hits := 1 } else { Activity.none with misses := 1 }

/-- What a store counts. -/
def storeActivity (overwrites : Bool) : Activity :=
  { Activity.none with
    written := 1
    dropped := if overwrites then 1 else 0 }

/-- A lookup is a hit or a miss. -/
theorem changes_get
    (s : CacheState κ ν) (key : κ) (now : Nat) (owned : Finset κ) :
    Changes (lookupActivity (s.get key now owned).1.isSome) s (s.get key now owned).2 := by
  refine (changes_purgeExpired s now owned).none_then ?_
  unfold CacheState.get
  cases hlookup : (s.purgeExpired now owned).entries.lookup key with
  | none =>
      simp only [hlookup]
      exact ⟨rfl, rfl, rfl, rfl, rfl, rfl⟩
  | some entry =>
      simp only [hlookup]
      have hsize := OrderedDict.size_setLast (s.purgeExpired now owned).entries key entry
      simp only [hlookup, Option.isSome_some, if_true, Nat.add_zero] at hsize
      refine ⟨rfl, rfl, rfl, rfl, rfl, ?_⟩
      simp only [CacheState.held, hsize]
      rfl

/-- A store writes an entry, and drops the one that the key has. -/
theorem changes_store
    (s : CacheState κ ν) (key : κ) (value : ν) (ttlNs now : Nat) (owned : Finset κ) :
    Changes (storeActivity ((s.purgeExpired now owned).entries.lookup key).isSome) s
      (s.store key value ttlNs now owned) := by
  refine (changes_purgeExpired s now owned).none_then ?_
  obtain ⟨hentries, hcounters, -, -⟩ := CacheState.store_spec s key value ttlNs now owned
  have hsize : (CacheState.withNewEntry s key value ttlNs now owned).size = _ :=
    OrderedDict.size_setLast (s.purgeExpired now owned).entries key _
  have hexcess : CacheState.excess s key value ttlNs now owned ≤
      (CacheState.withNewEntry s key value ttlNs now owned).size :=
    Nat.sub_le _ _
  refine ⟨?_, ?_, ?_, ?_, ?_, ?_⟩
  case refine_6 =>
    simp only [CacheState.held, hentries, hcounters, Counters.addEvictions,
      OrderedDict.size_drop, storeActivity, Activity.none]
    split at hsize
    case isTrue hpresent =>
      rw [if_pos hpresent]
      omega
    case isFalse habsent =>
      rw [if_neg habsent]
      omega
  all_goals simp [hcounters, Counters.addEvictions, storeActivity, Activity.none]

/-- An invalidation moves an entry to the invalidations, or does nothing. -/
theorem changes_invalidate
    (s : CacheState κ ν) (key : κ) (now : Nat) (owned : Finset κ) :
    Changes .none s (s.invalidate key now owned).2 := by
  refine (changes_purgeExpired s now owned).none_then ?_
  obtain ⟨-, hentries, -, -, hcounters⟩ := CacheState.invalidate_spec s key now owned
  cases hlookup : (s.purgeExpired now owned).entries.lookup key with
  | none =>
      simp only [hlookup, Option.isSome_none, Bool.false_eq_true, if_false] at hcounters
      refine changes_of_eq (hentries.trans ?_) hcounters
      exact OrderedDict.erase_of_lookup_none hlookup
  | some entry =>
      simp only [hlookup, Option.isSome_some, if_true] at hcounters
      have hsize := OrderedDict.size_erase hlookup
      refine ⟨?_, ?_, ?_, ?_, ?_, ?_⟩
      case refine_6 =>
        simp only [CacheState.held, hentries, hcounters, Activity.none]
        omega
      all_goals simp [hcounters, Activity.none]

/-- `clear` drops every entry. -/
theorem changes_clear
    (s : CacheState κ ν) (owned : Finset κ) :
    Changes { Activity.none with dropped := s.entries.size } s (s.clear owned) := by
  refine ⟨rfl, rfl, rfl, rfl, rfl, ?_⟩
  simp only [CacheState.held, CacheState.clear, OrderedDict.size, OrderedDict.empty, Activity.none,
    List.length_nil]
  omega

end State

/-! ## The tally -/

/-- What the callers of a cache have seen it do. -/
structure Tally where
  lookups : Nat
  getMisses : Nat
  loadMisses : Nat
  creationFailures : Nat
  stores : Nat
  overwritten : Nat
  cleared : Nat
deriving DecidableEq, Repr

/-- Nothing yet. -/
def Tally.zero : Tally :=
  ⟨0, 0, 0, 0, 0, 0, 0⟩

/-- A store of a value, over an entry that is still there or not. -/
def Tally.storing (t : Tally) (overwrites : Bool) : Tally :=
  { t with
    stores := t.stores + 1
    overwritten := t.overwritten + if overwrites then 1 else 0 }

namespace FlightCache

variable {κ ν ε : Type} [DecidableEq κ]

/-- A store of the key would take the place of an entry that has not expired. -/
def overwrites (s : FlightCache κ ν ε) (key : κ) (tick : Int) : Bool :=
  let (now, state) := s.state.clampTick tick
  ((state.purgeExpired now s.ownedKeys).entries.lookup key).isSome

/-- `get_or_load` starts a flight, and the task of the flight cannot be created. -/
def failsToCreate (mode : Mode) (s : FlightCache κ ν ε) (key : κ) (tick : Int)
    (taskFailure : Option ε) : Bool :=
  decide (mode = .async) && taskFailure.isSome && (s.get key tick).1.isNone &&
    (s.active key).isNone && decide (s.owned.length < s.maxInflight)

/-- What a step adds to the tally, from the state before it. -/
def observe (mode : Mode) (t : Tally) (s : FlightCache κ ν ε) : Event κ ν ε → Tally
  | .get key (.ok tick) =>
      { t with
        lookups := t.lookups + 1
        getMisses := t.getMisses + if (s.get key tick).1.isNone then 1 else 0 }
  | .getOrLoad key _ (.ok tick) taskFailure =>
      { t with
        lookups := t.lookups + 1
        loadMisses := t.loadMisses + if (s.get key tick).1.isNone then 1 else 0
        creationFailures := t.creationFailures +
          if s.failsToCreate mode key tick taskFailure then 1 else 0 }
  | .set key _ _ (.ok tick) => t.storing ((s.supersede key).overwrites key tick)
  | .complete f (.ok tick) =>
      match s.flights[f]? with
      | some fl =>
          match fl.phase with
          | .loaded (.ok _) =>
              if s.canPublish mode f fl then t.storing (s.overwrites fl.key tick) else t
          | _ => t
      | none => t
  | .clear (.ok _) => { t with cleared := t.cleared + s.state.entries.size }
  | _ => t

/-- The tally of a run. -/
def tally (mode : Mode) (t : Tally) (s : FlightCache κ ν ε) : List (Event κ ν ε) → Tally
  | [] => t
  | e :: es =>
      match s.step mode e with
      | some u => tally mode (observe mode t s e) u es
      | none => t

/-- The counters agree with the tally. -/
structure Conserved (mode : Mode) (t : Tally) (s : FlightCache κ ν ε) : Prop where
  lookups : s.state.counters.hits + s.state.counters.misses = t.lookups
  misses : s.state.counters.misses = t.getMisses + t.loadMisses
  loads : t.loadMisses = s.state.counters.loads + s.state.counters.coalescedWaiters +
    s.state.counters.loadRejections + t.creationFailures
  creations : mode = .sync → t.creationFailures = 0
  started : s.flights.length = s.state.counters.loads + t.creationFailures
  stores : t.stores = s.state.entries.size + t.overwritten + s.state.counters.evictions +
    s.state.counters.expirations + s.state.counters.invalidations + t.cleared

/-! ## Steps -/

/-- The tally grows by what an activity counts, and by the flights that are new. -/
structure Accounts (mode : Mode) (a : Activity) (t t' : Tally) (flights flights' : Nat) :
    Prop where
  lookups : t'.lookups = t.lookups + (a.hits + a.misses)
  misses : t'.getMisses + t'.loadMisses = t.getMisses + t.loadMisses + a.misses
  loads : t'.loadMisses + t.creationFailures =
    t.loadMisses + t'.creationFailures + (a.loads + a.waiters + a.rejections)
  creations : mode = .sync → t'.creationFailures = t.creationFailures
  started : flights' + t.creationFailures = flights + t'.creationFailures + a.loads
  stores : t'.stores = t.stores + a.written
  dropped : t'.overwritten + t'.cleared = t.overwritten + t.cleared + a.dropped

/-- From one state and tally to the next, by one activity. -/
def Accounted (mode : Mode) (t t' : Tally) (s u : FlightCache κ ν ε) : Prop :=
  ∃ a, Changes a s.state u.state ∧ Accounts mode a t t' s.flights.length u.flights.length

section Steps

variable {mode : Mode} {t t' : Tally} {s u : FlightCache κ ν ε}

omit [DecidableEq κ] in
theorem Conserved.accounted
    (h : Conserved mode t s)
    (hstep : Accounted mode t t' s u) :
    Conserved mode t' u := by
  obtain ⟨a, hchanges, haccounts⟩ := hstep
  have hheld := hchanges.held
  have hstores := h.stores
  simp only [CacheState.held] at hheld
  refine ⟨?_, ?_, ?_, ?_, ?_, ?_⟩
  · rw [hchanges.hits, hchanges.misses, haccounts.lookups, ← h.lookups]
    omega
  · rw [hchanges.misses, haccounts.misses, h.misses]
  · have hloads := haccounts.loads
    rw [h.loads] at hloads
    rw [hchanges.loads, hchanges.waiters, hchanges.rejections]
    omega
  · intro hsync
    rw [haccounts.creations hsync, h.creations hsync]
  · have hstarted := haccounts.started
    rw [h.started] at hstarted
    rw [hchanges.loads]
    omega
  · have hdropped := haccounts.dropped
    rw [haccounts.stores]
    omega

omit [DecidableEq κ] in
/-- A step that nobody counts. -/
theorem accounted_quiet
    (t : Tally)
    (hchanges : Changes .none s.state u.state)
    (hflights : u.flights.length = s.flights.length) :
    Accounted mode t t s u := by
  refine ⟨.none, hchanges, rfl, rfl, rfl, fun _ => rfl, ?_, rfl, rfl⟩
  rw [hflights]
  rfl

/-! ### The cache -/

theorem changes_lookup
    (s : FlightCache κ ν ε) (key : κ) (tick : Int) :
    Changes (lookupActivity (s.get key tick).1.isSome) s.state (s.get key tick).2.state :=
  (changes_clampTick s.state tick).none_then
    (changes_get (s.state.clampTick tick).2 key (s.state.clampTick tick).1 s.ownedKeys)

theorem changes_storing
    (s : FlightCache κ ν ε) (key : κ) (value : ν) (ttlNs : Nat) (tick : Int) :
    Changes (storeActivity (s.overwrites key tick)) s.state
      (s.store key value ttlNs tick).state :=
  (changes_clampTick s.state tick).none_then
    (changes_store (s.state.clampTick tick).2 key value ttlNs (s.state.clampTick tick).1
      s.ownedKeys)

theorem accounted_storing
    (t : Tally) (key : κ) (tick : Int)
    (hchanges : Changes (storeActivity (s.overwrites key tick)) s.state u.state)
    (hflights : u.flights.length = s.flights.length) :
    Accounted mode t (t.storing (s.overwrites key tick)) s u := by
  refine ⟨_, hchanges, rfl, rfl, rfl, fun _ => rfl, ?_, rfl, ?_⟩
  · rw [hflights]
    rfl
  · change t.overwritten + (if s.overwrites key tick then 1 else 0) + t.cleared =
      t.overwritten + t.cleared + if s.overwrites key tick then 1 else 0
    omega

theorem length_supersede
    (s : FlightCache κ ν ε) (key : κ) :
    (s.supersede key).flights.length = s.flights.length := by
  unfold supersede
  split
  · rfl
  · exact List.length_modify _ _ _

/-- The end of a flight is not counted. -/
theorem changes_finish
    (s : FlightCache κ ν ε) (f : Nat) (fl : Flight κ ν ε) (outcome : Except ε ν) :
    Changes .none s.state (s.finish f fl outcome).state := by
  have hstate : (s.finish f fl outcome).state = (s.retire f fl).state := rfl
  rw [hstate, retire_state]
  exact changes_of_eq (CacheState.dropUnusedVersion_entries _ _ _)
    (CacheState.dropUnusedVersion_counters _ _ _)

theorem length_finish
    (s : FlightCache κ ν ε) (f : Nat) (fl : Flight κ ν ε) (outcome : Except ε ν) :
    (s.finish f fl outcome).flights.length = s.flights.length := by
  refine (List.length_modify _ _ _).trans ?_
  rw [(retire_rest s f fl).2.1]

/-! ### The operations -/

theorem accounted_get
    (t : Tally) (s : FlightCache κ ν ε) (key : κ) (reading : Except ε Int) :
    Accounted mode t (observe mode t s (.get key reading)) s
      (s.withTick reading fun tick => (s.get key tick).2) := by
  cases reading with
  | error error =>
      exact accounted_quiet t (.refl _) rfl
  | ok tick =>
      refine ⟨_, changes_lookup s key tick, ?_⟩
      cases hfound : (s.get key tick).1 with
      | none =>
          refine ⟨rfl, ?_, rfl, fun _ => rfl, rfl, rfl, rfl⟩
          simp only [observe, hfound]
          exact Nat.add_right_comm _ _ _
      | some value =>
          refine ⟨rfl, ?_, rfl, fun _ => rfl, rfl, rfl, rfl⟩
          simp only [observe, hfound]
          rfl

theorem accounted_set
    (t : Tally) (s : FlightCache κ ν ε) (key : κ) (value : ν) (ttlNs : Nat)
    (reading : Except ε Int) :
    Accounted mode t (observe mode t s (.set key value ttlNs reading)) s
      (s.set key value ttlNs reading) := by
  have hsuperseded : Changes .none s.state (s.supersede key).state := by
    rw [supersede_state]
    exact .refl _
  cases reading with
  | error error =>
      exact accounted_quiet t hsuperseded (length_supersede s key)
  | ok tick =>
      have hstored := changes_storing (s.supersede key) key value ttlNs tick
      obtain ⟨a, hchanges, haccounts⟩ :=
        accounted_storing t key tick hstored rfl
      refine ⟨a, hsuperseded.none_then hchanges, ?_⟩
      rw [← length_supersede s key]
      exact haccounts

theorem accounted_complete
    (t : Tally) {f : Nat} {fl : Flight κ ν ε} {outcome : Except ε ν}
    (hfl : s.flights[f]? = some fl)
    (hphase : fl.phase = .loaded outcome)
    (reading : Except ε Int) :
    Accounted mode t (observe mode t s (.complete f reading)) s
      (s.complete mode f fl outcome reading) := by
  cases outcome with
  | error error =>
      have hobserve : observe mode t s (.complete f reading) = t := by
        cases reading <;> simp [observe, hfl, hphase]
      rw [hobserve]
      have hcounted : Changes .none s.state
          (s.count fun c => { c with loadFailures := c.loadFailures + 1 }).state :=
        ⟨rfl, rfl, rfl, rfl, rfl, rfl⟩
      exact accounted_quiet t (hcounted.none_then (changes_finish _ f fl _))
        (length_finish _ f fl _)
  | ok value =>
      unfold complete
      by_cases hpublish : s.canPublish mode f fl = true
      · cases reading with
        | error error =>
            simp only [hpublish, if_true]
            exact accounted_quiet t (changes_finish s f fl _) (length_finish s f fl _)
        | ok tick =>
            have hobserve : observe mode t s (.complete f (.ok tick)) =
                t.storing (s.overwrites fl.key tick) := by
              simp [observe, hfl, hphase, hpublish]
            rw [hobserve]
            simp only [hpublish, if_true]
            exact accounted_storing t fl.key tick
              ((changes_storing s fl.key value fl.ttlNs tick).then_none
                (changes_finish _ f fl _))
              (length_finish _ f fl _)
      · have hobserve : observe mode t s (.complete f reading) = t := by
          cases reading <;> simp [observe, hfl, hphase, hpublish]
        rw [hobserve]
        simp only [hpublish, Bool.false_eq_true, if_false]
        exact accounted_quiet t (changes_finish s f fl _) (length_finish s f fl _)

theorem accounted_invalidate
    (t : Tally) (s : FlightCache κ ν ε) (key : κ) (tick : Int) :
    Accounted mode t t s (s.invalidate key tick).2 := by
  have hstate : (({ s with state := (s.state.clampTick tick).2 } :
      FlightCache κ ν ε).supersede key).state = (s.state.clampTick tick).2 :=
    supersede_state _ key
  refine accounted_quiet t ?_ (length_supersede _ key)
  refine (changes_clampTick s.state tick).none_then ?_
  rw [← hstate]
  exact changes_invalidate _ key _ _

theorem accounted_clear
    (t : Tally) (s : FlightCache κ ν ε) (tick : Int) :
    Accounted mode t { t with cleared := t.cleared + s.state.entries.size } s
      (s.clear tick) := by
  refine ⟨_, (changes_clampTick s.state tick).none_then (changes_clear _ _),
    rfl, rfl, rfl, fun _ => rfl, ?_, rfl, ?_⟩
  · have hlength : (s.clear tick).flights.length = s.flights.length :=
      List.length_mapIdx
    rw [hlength]
    rfl
  · exact (Nat.add_assoc _ _ _).symm

theorem accounted_purge
    (t : Tally) (s : FlightCache κ ν ε) (tick : Int) :
    Accounted mode t t s
      { s with
        state := (s.state.clampTick tick).2.purgeExpired (s.state.clampTick tick).1
          s.ownedKeys } :=
  accounted_quiet t
    ((changes_clampTick s.state tick).none_then (changes_purgeExpired _ _ _)) rfl

omit [DecidableEq κ] in
/-- A miss of `get_or_load`: a load, a join, a rejection or a failed creation. -/
theorem accounted_miss
    {v : FlightCache κ ν ε} {failures : Nat} (t : Tally) (loads rejections waiters : Nat)
    (hlookup : Changes (lookupActivity false) s.state v.state)
    (hcount : Changes { Activity.none with loads, rejections, waiters } v.state u.state)
    (hkind : loads + waiters + rejections + failures = 1)
    (hsync : mode = .sync → failures = 0)
    (hstarted : u.flights.length = s.flights.length + failures + loads) :
    Accounted mode t
      { t with
        lookups := t.lookups + 1
        loadMisses := t.loadMisses + 1
        creationFailures := t.creationFailures + failures }
      s u := by
  refine ⟨_, hlookup.trans hcount, rfl, rfl, ?_, ?_, ?_, rfl, rfl⟩
  all_goals simp only [Activity.add, lookupActivity, Activity.none, Bool.false_eq_true, if_false]
  · omega
  · intro hmode
    rw [hsync hmode]
    rfl
  · omega

/-- `get_or_load` when the key has no entry. -/
theorem accounted_getOrLoad_miss
    (t : Tally) (s : FlightCache κ ν ε) (key : κ) (ttlNs : Nat) (tick : Int)
    (taskFailure : Option ε)
    (hfound : (s.get key tick).1 = none) :
    Accounted mode t (observe mode t s (.getOrLoad key ttlNs (.ok tick) taskFailure)) s
      (s.getOrLoad mode key ttlNs (.ok tick) taskFailure) := by
  have hlookup := changes_lookup s key tick
  have hactive : (s.get key tick).2.active = s.active := rfl
  have howned : (s.get key tick).2.owned = s.owned := rfl
  have hinflight : (s.get key tick).2.maxInflight = s.maxInflight := rfl
  unfold getOrLoad
  simp only [hfound, hactive, howned, hinflight] at hlookup ⊢
  have hobserve : observe mode t s (.getOrLoad key ttlNs (.ok tick) taskFailure) =
      { t with
        lookups := t.lookups + 1
        loadMisses := t.loadMisses + 1
        creationFailures := t.creationFailures +
          if s.failsToCreate mode key tick taskFailure then 1 else 0 } := by
    simp [observe, hfound]
  cases hkey : s.active key with
  | some f =>
      have hcreates : s.failsToCreate mode key tick taskFailure = false := by
        simp [failsToCreate, hkey]
      rw [hobserve, hcreates]
      dsimp only
      refine accounted_miss t 0 0 1 hlookup ?_ rfl
        (fun _ => rfl) ?_
      · split <;> exact ⟨rfl, rfl, rfl, rfl, rfl, rfl⟩
      · split
        · exact List.length_modify _ _ _
        · rfl
  | none =>
      by_cases hfull : s.maxInflight ≤ s.owned.length
      · have hcreates : s.failsToCreate mode key tick taskFailure = false := by
          simp [failsToCreate, hfull]
        rw [hobserve, hcreates]
        simp only [hfull, if_true]
        exact accounted_miss t 0 1 0 hlookup
          ⟨rfl, rfl, rfl, rfl, rfl, rfl⟩ rfl (fun _ => rfl) rfl
      · simp only [hfull, if_false]
        split
        case h_1 error =>
          have hcreates : s.failsToCreate .async key tick (some error) = true := by
            simp [failsToCreate, hfound, hkey, Nat.lt_of_not_le hfull]
          rw [hobserve, hcreates]
          refine accounted_miss t 0 0 0 hlookup
            (changes_finish ((s.get key tick).2.launch .async key ttlNs) _
              ((s.get key tick).2.newFlight .async key ttlNs) (.error error))
            rfl (fun hsync => ?_) ?_
          · cases hsync
          · refine (length_finish _ _ _ _).trans ?_
            exact List.length_append
        case h_2 hcreated =>
          have hcreates : s.failsToCreate mode key tick taskFailure = false := by
            cases mode with
            | sync =>
                rfl
            | async =>
                cases taskFailure with
                | none =>
                    simp [failsToCreate]
                | some error =>
                    exact absurd rfl (hcreated error rfl)
          rw [hobserve, hcreates]
          refine accounted_miss t 1 0 0 hlookup
            ⟨rfl, rfl, rfl, rfl, rfl, rfl⟩ rfl (fun _ => rfl) ?_
          exact List.length_append

theorem accounted_getOrLoad
    (t : Tally) (s : FlightCache κ ν ε) (key : κ) (ttlNs : Nat) (reading : Except ε Int)
    (taskFailure : Option ε) :
    Accounted mode t (observe mode t s (.getOrLoad key ttlNs reading taskFailure)) s
      (s.getOrLoad mode key ttlNs reading taskFailure) := by
  cases reading with
  | error error =>
      exact accounted_quiet t (.refl _) rfl
  | ok tick =>
      cases hfound : (s.get key tick).1 with
      | some value =>
          have hlookup := changes_lookup s key tick
          have hcreates : s.failsToCreate mode key tick taskFailure = false := by
            simp [failsToCreate, hfound]
          unfold getOrLoad observe
          simp only [hfound, hcreates] at hlookup ⊢
          exact ⟨_, hlookup, rfl, rfl, rfl, fun _ => rfl, rfl, rfl, rfl⟩
      | none =>
          exact accounted_getOrLoad_miss t s key ttlNs tick taskFailure hfound

/-- The release of a waiter changes versions at most. -/
theorem accounted_releaseWaiter
    (t : Tally) (s : FlightCache κ ν ε) (f : Nat) (fl : Flight κ ν ε) :
    Accounted mode t t s (s.releaseWaiter f fl) := by
  rw [releaseWaiter_eq]
  split
  · exact accounted_quiet t (changes_of_eq rfl rfl) (List.length_modify _ _ _)
  · exact accounted_quiet t (changes_of_eq rfl rfl) (List.length_modify _ _ _)

/-- **Every step is accounted for.** -/
theorem Step.accounted
    {e : Event κ ν ε}
    (hstep : Step mode s e u)
    (t : Tally) :
    Accounted mode t (observe mode t s e) s u := by
  unfold Step at hstep
  cases e with
  | get key reading =>
      obtain rfl := Option.some.inj hstep
      exact accounted_get t s key reading
  | set key value ttlNs reading =>
      obtain rfl := Option.some.inj hstep
      exact accounted_set t s key value ttlNs reading
  | invalidate key reading =>
      obtain rfl := Option.some.inj hstep
      cases reading with
      | error error => exact accounted_quiet t (.refl _) rfl
      | ok tick => exact accounted_invalidate t s key tick
  | clear reading =>
      obtain rfl := Option.some.inj hstep
      cases reading with
      | error error => exact accounted_quiet t (.refl _) rfl
      | ok tick => exact accounted_clear t s tick
  | size reading =>
      obtain rfl := Option.some.inj hstep
      cases reading with
      | error error => exact accounted_quiet t (.refl _) rfl
      | ok tick => exact accounted_purge t s tick
  | stats reading =>
      obtain rfl := Option.some.inj hstep
      cases reading with
      | error error => exact accounted_quiet t (.refl _) rfl
      | ok tick => exact accounted_purge t s tick
  | getOrLoad key ttlNs reading taskFailure =>
      obtain rfl := Option.some.inj hstep
      exact accounted_getOrLoad t s key ttlNs reading taskFailure
  | startLoader f =>
      simp only [step] at hstep
      split at hstep
      · obtain rfl := Option.some.inj hstep
        exact accounted_quiet t (.refl _) (List.length_modify _ _ _)
      · cases hstep
  | loaderEnds f outcome =>
      simp only [step] at hstep
      split at hstep
      · obtain rfl := Option.some.inj hstep
        exact accounted_quiet t (.refl _) (List.length_modify _ _ _)
      · cases hstep
  | complete f reading =>
      simp only [step] at hstep
      split at hstep
      case h_1 fl hfl =>
        split at hstep
        case h_1 outcome hphase =>
          obtain rfl := Option.some.inj hstep
          exact accounted_complete t hfl hphase reading
        case h_2 =>
          cases hstep
      case h_2 =>
        cases hstep
  | loseTask f =>
      simp only [step] at hstep
      split at hstep
      · split at hstep
        · obtain rfl := Option.some.inj hstep
          exact accounted_quiet t (.refl _) (List.length_modify _ _ _)
        · obtain rfl := Option.some.inj hstep
          exact accounted_quiet t (.refl _) (List.length_modify _ _ _)
        · cases hstep
      · cases hstep
  | wake c =>
      obtain ⟨calls, rfl⟩ := calls_of_wakeCall hstep
      exact accounted_quiet t (.refl _) rfl
  | cancel c =>
      simp only [step] at hstep
      split at hstep
      · obtain ⟨calls, rfl⟩ := calls_of_cancelCall hstep
        exact accounted_quiet t (.refl _) rfl
      · cases hstep
  | release c =>
      simp only [step] at hstep
      split at hstep
      · obtain ⟨f, fl, hfl, calls, rfl⟩ := calls_of_releaseCall hstep
        exact accounted_releaseWaiter t s f fl
      · cases hstep

end Steps

/-! ## Runs -/

theorem tally_cons
    {mode : Mode} {t : Tally} {s u : FlightCache κ ν ε} {e : Event κ ν ε}
    (hstep : Step mode s e u)
    (es : List (Event κ ν ε)) :
    tally mode t s (e :: es) = tally mode (observe mode t s e) u es := by
  have hsome : s.step mode e = some u := hstep
  simp only [tally, hsome]

/-- The counters and the tally of a run, from any state in which they agree. -/
theorem Conserved.run
    {mode : Mode} {t : Tally} {s u : FlightCache κ ν ε} {es : List (Event κ ν ε)}
    (hrun : Run (Step mode) s es u)
    (h : Conserved mode t s) :
    Conserved mode (tally mode t s es) u := by
  induction hrun generalizing t with
  | nil s =>
      exact h
  | cons hstep hrest ih =>
      rw [tally_cons hstep]
      exact ih (h.accounted (hstep.accounted t))

/--
**The statistics add up after every step of every run**: lookups are hits and misses; a miss of
`get_or_load` is a load, a coalesced waiter, a rejection or a failed creation; and every stored
entry is still there, or was overwritten, evicted, expired, invalidated or cleared.
-/
theorem statistics_conserved
    (mode : Mode) (maxSize : Nat) (hpos : 0 < maxSize) (maxInflight : Nat)
    (es : List (Event κ ν ε)) (s : FlightCache κ ν ε)
    (hrun : Run (Step mode) (init maxSize hpos maxInflight) es s) :
    Conserved mode (tally mode .zero (init maxSize hpos maxInflight) es) s :=
  Conserved.run hrun ⟨rfl, rfl, rfl, fun _ => rfl, rfl, rfl⟩

/--
A join, a waiter that leaves, a failed creation, an overwritten entry, an eviction,
a `clear`.
-/
def busyCache : List (Event Nat Nat String) :=
  [.getOrLoad 7 5 (.ok 0) none, .getOrLoad 7 5 (.ok 0) none, .startLoader 0, .cancel 0,
    .release 0, .loaderEnds 0 (.ok 1), .complete 0 (.ok 1), .getOrLoad 8 5 (.ok 2) (some ""),
    .set 7 2 5 (.ok 3), .set 8 3 5 (.ok 3), .get 7 (.ok 4), .clear (.ok 5)]

theorem statistics_conserved_busyCache :
    ∃ s, Run (Step .async) (init 1 Nat.one_pos 2) busyCache s ∧
      Conserved .async (tally .async .zero (init 1 Nat.one_pos 2) busyCache) s :=
  let hrun : Run (Step .async) (init 1 Nat.one_pos 2) busyCache _ :=
    .cons rfl (.cons rfl (.cons rfl (.cons rfl (.cons rfl (.cons rfl (.cons rfl
      (.cons rfl (.cons rfl (.cons rfl (.cons rfl (.cons rfl (.nil _))))))))))))
  ⟨_, hrun, statistics_conserved .async 1 Nat.one_pos 2 busyCache _ hrun⟩

/-- What the tally of that run says. -/
example : tally .async .zero (init 1 Nat.one_pos 2) busyCache = ⟨4, 1, 3, 1, 3, 1, 1⟩ := by
  decide

end FlightCache
end Cache
end Bluetape
