import Bluetape.Cache.Flights
import Bluetape.Cache.Metadata

/-!
# The invariant of the flights

An active flight is owned, running, and neither superseded nor abandoned; its
key has no entry, its epoch is the cache's, and its version is at most the
key's.  A running flight that is neither superseded nor abandoned is the
active one of its key.  The tables of the cache are bounded.

* `Inv.step`: every step keeps the invariant.
-/

namespace Bluetape
namespace Cache

open Base

/-! ## What the operations leave alone -/

namespace CacheState

variable {κ ν : Type} [DecidableEq κ]

/-- No key but the excepted ones gets an entry, or, when owned, a version. -/
structure Quiet (owned : Finset κ) (but : κ → Prop) (s t : CacheState κ ν) : Prop where
  epoch : t.clearEpoch = s.clearEpoch
  absent : ∀ key, ¬ but key → s.entries.lookup key = none → t.entries.lookup key = none
  version : ∀ key ∈ owned, ¬ but key → t.version key = s.version key

section

variable {s t : CacheState κ ν} {owned : Finset κ} {but : κ → Prop}

theorem Quiet.refl
    (owned : Finset κ) (but : κ → Prop) (s : CacheState κ ν) :
    Quiet owned but s s :=
  ⟨rfl, fun _ _ h => h, fun _ _ _ => rfl⟩

/-- A change of none of the three. -/
theorem Quiet.of_eq
    (hepoch : t.clearEpoch = s.clearEpoch)
    (hentries : t.entries = s.entries)
    (hversions : t.keyVersions = s.keyVersions) :
    Quiet owned (fun _ => False) s t where
  epoch := hepoch
  absent := fun key _ hnone => by rw [hentries]; exact hnone
  version := fun key _ _ => congrArg (fun versions => (versions key).getD 0) hversions

theorem Quiet.trans
    {u : CacheState κ ν}
    (h : Quiet owned but s t)
    (h' : Quiet owned but t u) :
    Quiet owned but s u where
  epoch := h'.epoch.trans h.epoch
  absent := fun key hbut hnone => h'.absent key hbut (h.absent key hbut hnone)
  version := fun key howned hbut =>
    (h'.version key howned hbut).trans (h.version key howned hbut)

@[simp] theorem dropUnusedVersion_clearEpoch
    (s : CacheState κ ν) (key : κ) (owned : Finset κ) :
    (s.dropUnusedVersion key owned).clearEpoch = s.clearEpoch := by
  unfold dropUnusedVersion
  split <;> rfl

/-- The version of an owned key is never dropped. -/
theorem dropUnusedVersion_version
    {key k : κ}
    (h : k ∈ owned) :
    (s.dropUnusedVersion key owned).version k = s.version k := by
  unfold version
  rw [dropUnusedVersion_keyVersions, if_neg]
  rintro ⟨rfl, -, hnot⟩
  exact hnot h

theorem bumpVersion_version
    (s : CacheState κ ν) (key k : κ) :
    (s.bumpVersion key).version k = if k = key then s.version key + 1 else s.version k := by
  unfold version bumpVersion
  by_cases hk : k = key
  · simp [hk, version]
  · simp [hk]

theorem quiet_purgeRecord
    (s : CacheState κ ν) (r : HeapRecord κ) (owned : Finset κ) :
    Quiet owned (fun _ => False) s (s.purgeRecord r owned) := by
  refine ⟨?_, fun key _ hnone => ?_, fun key howned _ => ?_⟩
  · unfold purgeRecord
    split
    · rfl
    · split
      · rfl
      · simp
  · by_contra hsome
    obtain ⟨entry, hentry⟩ := Option.ne_none_iff_exists'.mp hsome
    rw [lookup_of_purgeRecord hentry] at hnone
    cases hnone
  · unfold purgeRecord
    split
    · rfl
    · split
      · rfl
      · rw [dropUnusedVersion_version howned]
        rfl

theorem quiet_purgeExpired
    (s : CacheState κ ν) (now : Nat) (owned : Finset κ) :
    Quiet owned (fun _ => False) s (s.purgeExpired now owned) := by
  have hloop : ∀ (heap : List (HeapRecord κ)) (s : CacheState κ ν),
      Quiet owned (fun _ => False) s (purgeLoop now owned heap s) := by
    intro heap
    induction heap with
    | nil =>
        exact fun s => ⟨rfl, fun _ _ h => h, fun _ _ _ => rfl⟩
    | cons r rest ih =>
        intro s
        unfold purgeLoop
        split
        · exact (quiet_purgeRecord s r owned).trans (ih _)
        · exact ⟨rfl, fun _ _ h => h, fun _ _ _ => rfl⟩
  exact hloop s.expiryHeap s

theorem quiet_get
    (s : CacheState κ ν) (key : κ) (now : Nat) (owned : Finset κ) :
    Quiet owned (fun _ => False) s (s.get key now owned).2 := by
  have hpurge := quiet_purgeExpired s now owned
  unfold get
  cases hlookup : (s.purgeExpired now owned).entries.lookup key with
  | none =>
      simp only [hlookup]
      exact ⟨hpurge.epoch, hpurge.absent, hpurge.version⟩
  | some entry =>
      simp only [hlookup]
      refine ⟨hpurge.epoch, fun k hbut hnone => ?_, hpurge.version⟩
      have hk := hpurge.absent k hbut hnone
      by_cases hkey : k = key
      · rw [hkey, hlookup] at hk
        cases hk
      · simpa [hkey] using hk

@[simp] theorem get_maxSize
    (s : CacheState κ ν) (key : κ) (now : Nat) (owned : Finset κ) :
    (s.get key now owned).2.maxSize = s.maxSize := by
  unfold get
  dsimp only
  split <;> exact purgeExpired_maxSize s now owned

/-- After a miss the key has no entry. -/
theorem get_absent
    {key : κ} {now : Nat}
    (hmiss : (s.get key now owned).1 = none) :
    (s.get key now owned).2.entries.lookup key = none := by
  unfold get at hmiss ⊢
  cases hlookup : (s.purgeExpired now owned).entries.lookup key with
  | none =>
      simp only [hlookup]
  | some entry =>
      simp [hlookup] at hmiss

theorem evictLoop_epoch
    (owned : Finset κ) (rounds : Nat) (s : CacheState κ ν) :
    (evictLoop owned rounds s).clearEpoch = s.clearEpoch ∧
      ∀ key ∈ owned, (evictLoop owned rounds s).version key = s.version key := by
  induction rounds generalizing s with
  | zero =>
      exact ⟨rfl, fun _ _ => rfl⟩
  | succ rounds ih =>
      unfold evictLoop
      split
      case isTrue =>
          split
          case h_1 =>
              exact ⟨rfl, fun _ _ => rfl⟩
          case h_2 evictedKey entry rest _ =>
              obtain ⟨hepoch, hversion⟩ := ih
                ({ s with
                  entries := s.entries.drop 1
                  counters := { s.counters with
                    evictions := s.counters.evictions + 1 } }.dropUnusedVersion
                  evictedKey owned)
              refine ⟨by rw [hepoch]; simp, fun key howned => ?_⟩
              rw [hversion key howned, dropUnusedVersion_version howned]
              rfl
      case isFalse =>
          exact ⟨rfl, fun _ _ => rfl⟩

/-- A store gives an entry, and a new version, to its own key only. -/
theorem quiet_store
    (s : CacheState κ ν) (key : κ) (value : ν) (ttlNs now : Nat) (owned : Finset κ) :
    Quiet owned (fun k => k = key) s (s.store key value ttlNs now owned) := by
  have hpurge := quiet_purgeExpired s now owned
  have hevict := evictLoop_epoch owned
    ((s.purgeExpired now owned).insertEntry key value (now + ttlNs)).entries.size
    ((s.purgeExpired now owned).insertEntry key value (now + ttlNs))
  refine ⟨?_, fun k hkey hnone => ?_, fun k howned hkey => ?_⟩
  · have hstore : (s.store key value ttlNs now owned).clearEpoch =
        (evictLoop owned
          ((s.purgeExpired now owned).insertEntry key value (now + ttlNs)).entries.size
          ((s.purgeExpired now owned).insertEntry key value (now + ttlNs))).clearEpoch := by
      unfold store
      dsimp only
      split <;> rfl
    rw [hstore, hevict.1]
    exact hpurge.epoch
  · by_contra hsome
    obtain ⟨entry, hentry⟩ := Option.ne_none_iff_exists'.mp hsome
    rw [(store_spec s key value ttlNs now owned).1, OrderedDict.lookup_eq_some] at hentry
    have hset := OrderedDict.lookup_eq_some.mpr (OrderedDict.mem_of_mem_drop hentry)
    simp only [withNewEntry, OrderedDict.lookup_setLast, if_neg hkey] at hset
    rw [hpurge.absent k id hnone] at hset
    cases hset
  · have hstore : (s.store key value ttlNs now owned).version k =
        (evictLoop owned
          ((s.purgeExpired now owned).insertEntry key value (now + ttlNs)).entries.size
          ((s.purgeExpired now owned).insertEntry key value (now + ttlNs))).version k := by
      unfold store
      dsimp only
      split <;> rfl
    rw [hstore, hevict.2 k howned]
    have hinsert : ((s.purgeExpired now owned).insertEntry key value (now + ttlNs)).version k =
        ((s.purgeExpired now owned).bumpVersion key).version k := rfl
    rw [hinsert, bumpVersion_version, if_neg hkey]
    exact hpurge.version k howned id

theorem quiet_invalidate
    (s : CacheState κ ν) (key : κ) (now : Nat) (owned : Finset κ) :
    Quiet owned (fun k => k = key) s (s.invalidate key now owned).2 := by
  have hpurge := quiet_purgeExpired s now owned
  refine ⟨?_, fun k hkey hnone => ?_, fun k howned hkey => ?_⟩
  · refine Eq.trans ?_ hpurge.epoch
    unfold invalidate
    rw [dropUnusedVersion_clearEpoch]
    split <;> rfl
  · rw [(invalidate_spec s key now owned).2.1, OrderedDict.lookup_erase, if_neg hkey]
    exact hpurge.absent k id hnone
  · refine Eq.trans ?_ (hpurge.version k howned id)
    unfold invalidate
    rw [dropUnusedVersion_version howned]
    have hbump := bumpVersion_version
      { s.purgeExpired now owned with
        entries := (s.purgeExpired now owned).entries.erase key } key k
    rw [if_neg hkey] at hbump
    split
    · exact hbump
    · exact hbump

end

end CacheState

/-! ## The invariant -/

namespace FlightCache

variable {κ ν ε : Type} [DecidableEq κ]

/-- What holds of the active flight of a key. -/
structure IsActive (state : CacheState κ ν) (key : κ) (fl : Flight κ ν ε) : Prop where
  key_eq : fl.key = key
  superseded : fl.superseded = false
  abandoned : fl.abandoned = false
  running : fl.done = false
  epoch : fl.epoch = state.clearEpoch
  version : fl.version ≤ state.version key
  absent : state.entries.lookup key = none

/-- The invariant of the flights. -/
structure Inv (s : FlightCache κ ν ε) : Prop where
  nodup : s.owned.Nodup
  known : ∀ f ∈ s.owned, ∃ fl, s.flights[f]? = some fl
  running : ∀ f fl, s.flights[f]? = some fl → fl.done = false → f ∈ s.owned
  active : ∀ key f, s.active key = some f →
    ∃ fl, s.flights[f]? = some fl ∧ IsActive s.state key fl
  current : ∀ f fl, s.flights[f]? = some fl → fl.done = false → fl.superseded = false →
    fl.abandoned = false → s.active fl.key = some f
  bounded : s.state.Bounded s.ownedKeys
  inflight : s.owned.length ≤ s.maxInflight

theorem mem_ownedKeys
    {s : FlightCache κ ν ε} {key : κ} :
    key ∈ s.ownedKeys ↔
      ∃ f ∈ s.owned, ∃ fl : Flight κ ν ε, s.flights[f]? = some fl ∧ fl.key = key := by
  simp [ownedKeys]

/-- Flights that keep their keys leave the owned keys as they are. -/
theorem ownedKeys_congr
    {s t : FlightCache κ ν ε}
    (howned : t.owned = s.owned)
    (hkeys : ∀ f : Nat, t.flights[f]?.map Flight.key = s.flights[f]?.map Flight.key) :
    t.ownedKeys = s.ownedKeys := by
  unfold ownedKeys
  rw [howned]
  simp only [hkeys]

omit [DecidableEq κ] in
theorem getElem?_modifyFlight
    (s : FlightCache κ ν ε) (f : Nat) (g : Flight κ ν ε → Flight κ ν ε) (f' : Nat) :
    (s.modifyFlight f g).flights[f']? =
      if f = f' then (s.flights[f']?).map g else s.flights[f']? := by
  simp only [modifyFlight, List.getElem?_modify]
  split
  · rfl
  · simp

theorem ownedKeys_modifyFlight
    (s : FlightCache κ ν ε) (f : Nat) {g : Flight κ ν ε → Flight κ ν ε}
    (hg : ∀ fl, (g fl).key = fl.key) :
    (s.modifyFlight f g).ownedKeys = s.ownedKeys := by
  refine ownedKeys_congr rfl fun f' => ?_
  rw [getElem?_modifyFlight]
  split
  · cases s.flights[f']? with
    | none => rfl
    | some fl => simp [hg]
  · rfl

/-- What a change of one flight leaves alone. -/
structure KeepsStanding (g : Flight κ ν ε → Flight κ ν ε) : Prop where
  key : ∀ fl, (g fl).key = fl.key
  epoch : ∀ fl, (g fl).epoch = fl.epoch
  version : ∀ fl, (g fl).version = fl.version
  superseded : ∀ fl, (g fl).superseded = fl.superseded
  abandoned : ∀ fl, (g fl).abandoned = fl.abandoned

section Primitives

variable {s : FlightCache κ ν ε}

theorem Inv.mem_ownedKeys_of_active
    (h : s.Inv) {key : κ} {f : Nat}
    (hactive : s.active key = some f) :
    key ∈ s.ownedKeys := by
  obtain ⟨fl, hfl, hspec⟩ := h.active key f hactive
  exact mem_ownedKeys.mpr ⟨f, h.running f fl hfl hspec.running, fl, hfl, hspec.key_eq⟩

/-- A change of the pure state that is quiet for the active keys. -/
theorem Inv.withState
    (h : s.Inv) {state : CacheState κ ν} {but : κ → Prop}
    (hquiet : CacheState.Quiet s.ownedKeys but s.state state)
    (hbounded : state.Bounded s.ownedKeys)
    (hbut : ∀ key, but key → s.active key = none) :
    Inv { s with state := state } where
  nodup := h.nodup
  known := h.known
  running := h.running
  active := by
    intro key f hactive
    have hkey : ¬ but key := by
      intro hkey
      cases (hbut key hkey).symm.trans hactive
    obtain ⟨fl, hfl, hspec⟩ := h.active key f hactive
    refine ⟨fl, hfl, hspec.key_eq, hspec.superseded, hspec.abandoned, hspec.running,
      hspec.epoch.trans hquiet.epoch.symm, ?_, hquiet.absent key hkey hspec.absent⟩
    exact hspec.version.trans_eq
      (hquiet.version key (h.mem_ownedKeys_of_active hactive) hkey).symm
  current := h.current
  bounded := hbounded
  inflight := h.inflight

/-- A change of one flight that leaves its identity and standing alone. -/
theorem Inv.modifyFlight
    (h : s.Inv) {f : Nat} {g : Flight κ ν ε → Flight κ ν ε}
    (hg : KeepsStanding g)
    (hdone : ∀ fl, s.flights[f]? = some fl → fl.done = true → (g fl).done = true)
    (hrunning : ∀ fl, s.flights[f]? = some fl → s.active fl.key = some f →
      (g fl).done = false) :
    (s.modifyFlight f g).Inv where
  nodup := h.nodup
  known := by
    intro f' hf'
    obtain ⟨fl, hfl⟩ := h.known f' hf'
    rw [getElem?_modifyFlight]
    split
    · exact ⟨g fl, by rw [hfl]; rfl⟩
    · exact ⟨fl, hfl⟩
  running := by
    intro f' fl hfl hnot
    rw [getElem?_modifyFlight] at hfl
    split at hfl
    case isTrue heq =>
      subst heq
      obtain ⟨fl₀, hfl₀, rfl⟩ := Option.map_eq_some_iff.mp hfl
      refine h.running f fl₀ hfl₀ ?_
      by_contra hdone₀
      rw [hdone fl₀ hfl₀ (Bool.eq_true_of_not_eq_false hdone₀)] at hnot
      cases hnot
    case isFalse =>
      exact h.running f' fl hfl hnot
  active := by
    intro key f' hactive
    obtain ⟨fl, hfl, hspec⟩ := h.active key f' hactive
    rw [getElem?_modifyFlight]
    split
    case isTrue heq =>
      subst heq
      refine ⟨g fl, by rw [hfl]; rfl, (hg.key fl).trans hspec.key_eq,
        (hg.superseded fl).trans hspec.superseded, (hg.abandoned fl).trans hspec.abandoned,
        hrunning fl hfl (hspec.key_eq ▸ hactive), (hg.epoch fl).trans hspec.epoch,
        (hg.version fl).trans_le hspec.version, hspec.absent⟩
    case isFalse =>
      exact ⟨fl, hfl, hspec⟩
  current := by
    intro f' fl hfl hnot hsuperseded habandoned
    rw [getElem?_modifyFlight] at hfl
    split at hfl
    case isTrue heq =>
      subst heq
      obtain ⟨fl₀, hfl₀, rfl⟩ := Option.map_eq_some_iff.mp hfl
      rw [hg.key]
      refine h.current f fl₀ hfl₀ ?_ ((hg.superseded fl₀).symm.trans hsuperseded)
        ((hg.abandoned fl₀).symm.trans habandoned)
      by_contra hdone₀
      rw [hdone fl₀ hfl₀ (Bool.eq_true_of_not_eq_false hdone₀)] at hnot
      cases hnot
    case isFalse =>
      exact h.current f' fl hfl hnot hsuperseded habandoned
  bounded := by
    rw [ownedKeys_modifyFlight s f hg.key]
    exact h.bounded
  inflight := h.inflight

/-- Calls are not part of the invariant. -/
theorem Inv.withCalls
    (h : s.Inv) (calls : List (Call ν ε)) :
    Inv { s with calls := calls } :=
  ⟨h.nodup, h.known, h.running, h.active, h.current, h.bounded, h.inflight⟩

/-- Neither are counters. -/
theorem Inv.count
    (h : s.Inv) (g : Counters → Counters) :
    (s.count g).Inv :=
  h.withState (.of_eq rfl rfl rfl)
    ⟨h.bounded.entries, h.bounded.heap, h.bounded.versions, h.bounded.sequences⟩
    (fun _ hfalse => hfalse.elim)

/-- A superseded or abandoned flight is not active any more. -/
theorem Inv.standDown
    (h : s.Inv) {active : κ → Option Nat} {f : Nat} {g : Flight κ ν ε → Flight κ ν ε}
    (hactive : ∀ key, active key = if s.active key = some f then none else s.active key)
    (hkey : ∀ fl, (g fl).key = fl.key)
    (hdone : ∀ fl, (g fl).done = fl.done)
    (hout : ∀ fl, (g fl).superseded = true ∨ (g fl).abandoned = true) :
    ({ s with active := active }.modifyFlight f g).Inv where
  nodup := h.nodup
  known := by
    intro f' hf'
    obtain ⟨fl, hfl⟩ := h.known f' hf'
    rw [getElem?_modifyFlight]
    split
    · exact ⟨g fl, by rw [hfl]; rfl⟩
    · exact ⟨fl, hfl⟩
  running := by
    intro f' fl hfl hnot
    rw [getElem?_modifyFlight] at hfl
    split at hfl
    case isTrue heq =>
      subst heq
      obtain ⟨fl₀, hfl₀, rfl⟩ := Option.map_eq_some_iff.mp hfl
      exact h.running f fl₀ hfl₀ ((hdone fl₀).symm.trans hnot)
    case isFalse =>
      exact h.running f' fl hfl hnot
  active := by
    intro key f' hactive'
    have hold := (hactive key).symm.trans hactive'
    split at hold
    case isTrue =>
      cases hold
    case isFalse hne =>
      obtain ⟨fl, hfl, hspec⟩ := h.active key f' hold
      refine ⟨fl, ?_, hspec⟩
      rw [getElem?_modifyFlight, if_neg]
      · exact hfl
      · rintro rfl
        exact hne hold
  current := by
    intro f' fl hfl hnot hsuperseded habandoned
    rw [getElem?_modifyFlight] at hfl
    split at hfl
    case isTrue heq =>
      subst heq
      obtain ⟨fl₀, hfl₀, rfl⟩ := Option.map_eq_some_iff.mp hfl
      rcases hout fl₀ with hout | hout
      · cases hout.symm.trans hsuperseded
      · cases hout.symm.trans habandoned
    case isFalse hne =>
      have hold := h.current f' fl hfl hnot hsuperseded habandoned
      refine (hactive fl.key).trans ?_
      rw [if_neg, hold]
      rw [hold]
      exact fun heq => hne (Option.some.inj heq).symm
  bounded := by
    rw [ownedKeys_modifyFlight _ f hkey]
    exact h.bounded
  inflight := h.inflight

/-- Two keys do not share their active flight. -/
theorem Inv.active_inj
    (h : s.Inv) {key key' : κ} {f : Nat}
    (hkey : s.active key = some f)
    (hkey' : s.active key' = some f) :
    key = key' := by
  obtain ⟨fl, hfl, hspec⟩ := h.active key f hkey
  obtain ⟨fl', hfl', hspec'⟩ := h.active key' f hkey'
  obtain rfl := Option.some.inj (hfl.symm.trans hfl')
  exact hspec.key_eq.symm.trans hspec'.key_eq

/-- Emptying the slot of a flight's key removes exactly this flight. -/
theorem Inv.update_active
    (h : s.Inv) {key : κ} {f : Nat}
    (hactive : s.active key = some f) (k : κ) :
    Function.update s.active key none k =
      if s.active k = some f then none else s.active k := by
  by_cases hk : k = key
  · subst hk
    simp [hactive]
  · rw [Function.update_of_ne hk, if_neg]
    exact fun heq => hk (h.active_inj heq hactive)

theorem supersede_active
    (s : FlightCache κ ν ε) (key k : κ) :
    (s.supersede key).active k = if k = key then none else s.active k := by
  unfold supersede
  cases hactive : s.active key with
  | none =>
      by_cases hk : k = key
      · simp [hk, hactive]
      · simp [hk]
  | some f =>
      by_cases hk : k = key
      · simp [hk, FlightCache.modifyFlight]
      · simp [hk, FlightCache.modifyFlight]

@[simp] theorem supersede_state
    (s : FlightCache κ ν ε) (key : κ) :
    (s.supersede key).state = s.state := by
  unfold supersede
  split <;> rfl

theorem Inv.supersede
    (h : s.Inv) (key : κ) :
    (s.supersede key).Inv := by
  unfold FlightCache.supersede
  cases hactive : s.active key with
  | none =>
      exact h
  | some f =>
      exact h.standDown (h.update_active hactive) (fun _ => rfl) (fun _ => rfl)
        (fun _ => Or.inl rfl)

theorem ownedKeys_supersedeAll
    (s : FlightCache κ ν ε) :
    s.supersedeAll.ownedKeys = s.ownedKeys := by
  refine ownedKeys_congr rfl fun f => ?_
  simp only [FlightCache.supersedeAll, List.getElem?_mapIdx, Option.map_map]
  congr 1
  funext fl
  dsimp only [Function.comp_apply]
  split <;> rfl

/-- After `clear` no flight is active. -/
theorem Inv.supersedeAll
    (h : s.Inv) {state : CacheState κ ν}
    (hbounded : state.Bounded s.ownedKeys) :
    Inv { s.supersedeAll with state := state } where
  nodup := h.nodup
  known := by
    intro f hf
    obtain ⟨fl, hfl⟩ := h.known f hf
    simp [FlightCache.supersedeAll, hfl]
  running := by
    intro f fl hfl hnot
    simp only [FlightCache.supersedeAll, List.getElem?_mapIdx] at hfl
    obtain ⟨fl₀, hfl₀, rfl⟩ := Option.map_eq_some_iff.mp hfl
    refine h.running f fl₀ hfl₀ ?_
    split at hnot
    · exact hnot
    · exact hnot
  active := by
    intro key f hactive
    cases hactive
  current := by
    intro f fl hfl hnot hsuperseded habandoned
    simp only [FlightCache.supersedeAll, List.getElem?_mapIdx] at hfl
    obtain ⟨fl₀, hfl₀, rfl⟩ := Option.map_eq_some_iff.mp hfl
    split at hsuperseded
    case isTrue =>
      cases hsuperseded
    case isFalse hne =>
      rw [if_neg hne] at hnot habandoned
      exact absurd (h.current f fl₀ hfl₀ hnot hsuperseded habandoned) hne
  bounded := by
    have hkeys : ({ s.supersedeAll with state := state } : FlightCache κ ν ε).ownedKeys =
        s.ownedKeys := ownedKeys_supersedeAll s
    rw [hkeys]
    exact hbounded
  inflight := h.inflight

/-- The owned keys after a flight has left them. -/
theorem mem_ownedKeys_erase
    {f : Nat} {fl : Flight κ ν ε}
    (hfl : s.flights[f]? = some fl) {key : κ}
    (hkey : key ∈ s.ownedKeys) :
    key = fl.key ∨ key ∈ ({ s with owned := s.owned.erase f } : FlightCache κ ν ε).ownedKeys := by
  obtain ⟨f', hf', fl', hfl', rfl⟩ := mem_ownedKeys.mp hkey
  by_cases heq : f' = f
  · subst heq
    obtain rfl := Option.some.inj (hfl.symm.trans hfl')
    exact Or.inl rfl
  · exact Or.inr (mem_ownedKeys.mpr ⟨f', (List.mem_erase_of_ne heq).mpr hf', fl', hfl', rfl⟩)

theorem retire_active
    (s : FlightCache κ ν ε) (f : Nat) (fl : Flight κ ν ε) :
    (s.retire f fl).active =
      if s.active fl.key = some f then Function.update s.active fl.key none else s.active := by
  unfold retire
  split <;> rfl

theorem retire_state
    (s : FlightCache κ ν ε) (f : Nat) (fl : Flight κ ν ε) :
    (s.retire f fl).state = s.state.dropUnusedVersion fl.key
      ({ s with owned := s.owned.erase f } : FlightCache κ ν ε).ownedKeys := by
  unfold retire
  split <;> rfl

theorem retire_rest
    (s : FlightCache κ ν ε) (f : Nat) (fl : Flight κ ν ε) :
    (s.retire f fl).owned = s.owned.erase f ∧ (s.retire f fl).flights = s.flights ∧
      (s.retire f fl).maxInflight = s.maxInflight ∧ (s.retire f fl).calls = s.calls := by
  unfold retire
  split <;> exact ⟨rfl, rfl, rfl, rfl⟩

/-- Only the flight that ends leaves the active flights. -/
theorem Inv.retire_active_eq_some
    (h : s.Inv) {f : Nat} {fl : Flight κ ν ε}
    (hfl : s.flights[f]? = some fl) {key : κ} {f' : Nat} :
    (s.retire f fl).active key = some f' ↔ s.active key = some f' ∧ f' ≠ f := by
  have hkey : s.active key = some f → key = fl.key := by
    intro hactive
    obtain ⟨fl', hfl', hspec⟩ := h.active key f hactive
    obtain rfl := Option.some.inj (hfl.symm.trans hfl')
    exact hspec.key_eq.symm
  rw [retire_active]
  split
  case isTrue hactive =>
    rw [h.update_active hactive]
    grind
  case isFalse hnot =>
    constructor
    · intro hactive
      refine ⟨hactive, ?_⟩
      rintro rfl
      exact hnot (hkey hactive ▸ hactive)
    · exact And.left

/-- A flight ends; just before, it may store a value for its key. -/
theorem Inv.finish
    (h : s.Inv) {f : Nat} {fl : Flight κ ν ε} {state : CacheState κ ν} {but : κ → Prop}
    (hfl : s.flights[f]? = some fl)
    (hquiet : CacheState.Quiet s.ownedKeys but s.state state)
    (hbounded : state.Bounded s.ownedKeys)
    (hbut : ∀ key, but key → ∀ f', s.active key = some f' → f' = f)
    (outcome : Except ε ν) :
    (({ s with state := state } : FlightCache κ ν ε).finish f fl outcome).Inv := by
  let s₁ : FlightCache κ ν ε := { s with state := state }
  obtain ⟨howned, hflights, hmax, -⟩ := retire_rest s₁ f fl
  have hactive : ∀ key f', (s₁.retire f fl).active key = some f' ↔
      s.active key = some f' ∧ f' ≠ f := by
    intro key f'
    rw [← h.retire_active_eq_some hfl, retire_active, retire_active]
  have hother : ∀ f', f' ≠ f →
      (s₁.finish f fl outcome).flights[f']? = s.flights[f']? := by
    intro f' hne
    rw [FlightCache.finish, getElem?_modifyFlight, if_neg hne.symm, hflights]
  have hself : (s₁.finish f fl outcome).flights[f]? =
      some { fl with phase := .finished outcome } := by
    rw [FlightCache.finish, getElem?_modifyFlight, if_pos rfl, hflights]
    change Option.map _ s.flights[f]? = _
    rw [hfl]
    rfl
  have hkeys : (s₁.finish f fl outcome).ownedKeys =
      ({ s₁ with owned := s₁.owned.erase f } : FlightCache κ ν ε).ownedKeys := by
    rw [FlightCache.finish, ownedKeys_modifyFlight]
    · refine ownedKeys_congr howned fun f' => ?_
      rw [hflights]
    · exact fun _ => rfl
  have hmem : ∀ f', f' ∈ (s₁.finish f fl outcome).owned ↔ f' ∈ s.owned ∧ f' ≠ f := by
    intro f'
    change f' ∈ (s₁.retire f fl).owned ↔ _
    rw [howned, h.nodup.mem_erase_iff]
    exact and_comm
  refine ⟨?_, ?_, ?_, ?_, ?_, ?_, ?_⟩
  · change (s₁.retire f fl).owned.Nodup
    rw [howned]
    exact h.nodup.erase f
  · intro f' hf'
    obtain ⟨hold, hne⟩ := (hmem f').mp hf'
    rw [hother f' hne]
    exact h.known f' hold
  · intro f' fl' hfl' hnot
    by_cases hne : f' = f
    · subst hne
      obtain rfl := Option.some.inj (hself.symm.trans hfl')
      cases hnot
    · rw [hother f' hne] at hfl'
      exact (hmem f').mpr ⟨h.running f' fl' hfl' hnot, hne⟩
  · intro key f' hnew
    obtain ⟨hold, hne⟩ := (hactive key f').mp hnew
    obtain ⟨fl', hfl', hspec⟩ := h.active key f' hold
    have hkey : ¬ but key := fun hkey => hne (hbut key hkey f' hold)
    have howned' : key ∈ ({ s₁ with owned := s₁.owned.erase f } :
        FlightCache κ ν ε).ownedKeys :=
      mem_ownedKeys.mpr ⟨f', (List.mem_erase_of_ne hne).mpr
        (h.running f' fl' hfl' hspec.running), fl', hfl', hspec.key_eq⟩
    have hstate : (s₁.finish f fl outcome).state = _ := retire_state s₁ f fl
    refine ⟨fl', (hother f' hne).trans hfl', hspec.key_eq, hspec.superseded, hspec.abandoned,
      hspec.running, ?_, ?_, ?_⟩
    · rw [hstate, CacheState.dropUnusedVersion_clearEpoch]
      exact hspec.epoch.trans hquiet.epoch.symm
    · rw [hstate, CacheState.dropUnusedVersion_version howned']
      exact hspec.version.trans_eq
        (hquiet.version key (h.mem_ownedKeys_of_active hold) hkey).symm
    · rw [hstate, CacheState.dropUnusedVersion_entries]
      exact hquiet.absent key hkey hspec.absent
  · intro f' fl' hfl' hnot hsuperseded habandoned
    by_cases hne : f' = f
    · subst hne
      obtain rfl := Option.some.inj (hself.symm.trans hfl')
      cases hnot
    · rw [hother f' hne] at hfl'
      exact (hactive _ f').mpr
        ⟨h.current f' fl' hfl' hnot hsuperseded habandoned, hne⟩
  · rw [hkeys]
    have hstate : (s₁.finish f fl outcome).state = _ := retire_state s₁ f fl
    rw [hstate]
    exact hbounded.release fun key hkey => mem_ownedKeys_erase (s := s₁) hfl hkey
  · change (s₁.retire f fl).owned.length ≤ (s₁.retire f fl).maxInflight
    rw [howned, hmax]
    exact (List.erase_sublist).length_le.trans h.inflight

/-- A bumped version is no obstacle to the bound on the versions of flights. -/
theorem Inv.bump
    (h : s.Inv) {key : κ}
    (howned : key ∈ s.ownedKeys) :
    Inv { s with state := s.state.bumpVersion key } where
  nodup := h.nodup
  known := h.known
  running := h.running
  active := by
    intro k f hactive
    obtain ⟨fl, hfl, hspec⟩ := h.active k f hactive
    refine ⟨fl, hfl, hspec.key_eq, hspec.superseded, hspec.abandoned, hspec.running,
      hspec.epoch, ?_, hspec.absent⟩
    refine hspec.version.trans ?_
    rw [CacheState.bumpVersion_version]
    split
    case isTrue hk =>
      rw [hk]
      exact Nat.le_succ _
    case isFalse =>
      exact le_refl _
  current := h.current
  bounded := h.bounded.bump howned
  inflight := h.inflight

theorem getElem?_launch
    (mode : Mode) (s : FlightCache κ ν ε) (key : κ) (ttlNs : Nat) (f : Nat) :
    (s.launch mode key ttlNs).flights[f]? =
      if f = s.flights.length then some (s.newFlight mode key ttlNs) else s.flights[f]? := by
  simp only [FlightCache.launch]
  split
  case isTrue heq =>
    rw [heq]
    exact List.getElem?_concat_length
  case isFalse hne =>
    rcases Nat.lt_or_gt_of_ne hne with hlt | hgt
    · exact List.getElem?_append_left hlt
    · rw [List.getElem?_eq_none hgt.le]
      refine List.getElem?_eq_none ?_
      rw [List.length_append, List.length_singleton]
      exact hgt

theorem Inv.lt_length
    (h : s.Inv) {f : Nat}
    (howned : f ∈ s.owned) :
    f < s.flights.length := by
  obtain ⟨fl, hfl⟩ := h.known f howned
  exact (List.getElem?_eq_some_iff.mp hfl).1

/-- A new flight becomes the active one of its key. -/
theorem Inv.launch
    (h : s.Inv) (mode : Mode) {key : κ} (ttlNs : Nat)
    (hidle : s.active key = none)
    (habsent : s.state.entries.lookup key = none)
    (hroom : s.owned.length < s.maxInflight) :
    (s.launch mode key ttlNs).Inv where
  nodup := by
    refine h.nodup.append (List.nodup_singleton _) ?_
    intro f hf hnew
    rw [List.mem_singleton.mp hnew] at hf
    exact lt_irrefl _ (h.lt_length hf)
  known := by
    intro f hf
    rw [getElem?_launch]
    split
    · exact ⟨_, rfl⟩
    · next hne =>
        rcases List.mem_append.mp hf with hf | hf
        · exact h.known f hf
        · exact absurd (List.mem_singleton.mp hf) hne
  running := by
    intro f fl hfl hnot
    rw [getElem?_launch] at hfl
    split at hfl
    · next heq =>
        exact List.mem_append_right _ (List.mem_singleton.mpr heq)
    · exact List.mem_append_left _ (h.running f fl hfl hnot)
  active := by
    intro k f hactive
    rw [getElem?_launch]
    by_cases hk : k = key
    · subst hk
      obtain rfl : s.flights.length = f := by
        simpa [FlightCache.launch] using hactive
      exact ⟨_, if_pos rfl, rfl, rfl, rfl, rfl, rfl, le_refl _, habsent⟩
    · have hold : s.active k = some f := by
        simpa [FlightCache.launch, hk] using hactive
      obtain ⟨fl, hfl, hspec⟩ := h.active k f hold
      have hlt := h.lt_length (h.running f fl hfl hspec.running)
      exact ⟨fl, (if_neg hlt.ne).trans hfl, hspec⟩
  current := by
    intro f fl hfl hnot hsuperseded habandoned
    rw [getElem?_launch] at hfl
    split at hfl
    · next heq =>
        obtain rfl := Option.some.inj hfl
        simp [FlightCache.launch, newFlight, heq]
    · have hold := h.current f fl hfl hnot hsuperseded habandoned
      have hk : fl.key ≠ key := by
        intro hk
        rw [hk, hidle] at hold
        cases hold
      simpa [FlightCache.launch, hk] using hold
  bounded := by
    refine CacheState.Bounded.mono h.bounded fun k hk => ?_
    obtain ⟨f, hf, fl, hfl, rfl⟩ := mem_ownedKeys.mp hk
    refine mem_ownedKeys.mpr ⟨f, List.mem_append_left _ hf, fl, ?_, rfl⟩
    rw [getElem?_launch, if_neg (h.lt_length hf).ne]
    exact hfl
  inflight := by
    change (s.owned ++ [_]).length ≤ s.maxInflight
    rw [List.length_append, List.length_singleton]
    exact hroom

/-- The slot that an abandoned flight may still hold. -/
def vacate (s : FlightCache κ ν ε) (f : Nat) (fl : Flight κ ν ε) : κ → Option Nat :=
  if s.active fl.key = some f then Function.update s.active fl.key none else s.active

theorem Inv.vacate_eq
    (h : s.Inv) {f : Nat} {fl : Flight κ ν ε}
    (hfl : s.flights[f]? = some fl) (key : κ) :
    s.vacate f fl key = if s.active key = some f then none else s.active key := by
  unfold vacate
  split
  case isTrue hactive =>
    exact h.update_active hactive key
  case isFalse hnot =>
    rw [if_neg]
    intro hactive
    obtain ⟨fl', hfl', hspec⟩ := h.active key f hactive
    obtain rfl := Option.some.inj (hfl.symm.trans hfl')
    exact hnot (hspec.key_eq ▸ hactive)

/-- A release, with the abandoning branch written out. -/
theorem releaseWaiter_eq
    (s : FlightCache κ ν ε) (f : Nat) (fl : Flight κ ν ε) :
    s.releaseWaiter f fl =
      if fl.waiters - 1 ≠ 0 ∨ fl.done = true then
        s.modifyFlight f fun fl => { fl with waiters := fl.waiters - 1 }
      else
        let t := { s with active := s.vacate f fl }.modifyFlight f fun fl =>
          { fl with waiters := fl.waiters - 1, abandoned := true }
        { t with state := t.state.bumpVersion fl.key } := by
  unfold releaseWaiter vacate
  dsimp only
  split
  case isTrue =>
    rfl
  case isFalse =>
    have hmodify : (s.flights.modify f
          fun fl => { fl with waiters := fl.waiters - 1 }).modify f
            (fun fl => { fl with abandoned := true }) =
        s.flights.modify f
          fun fl => { fl with waiters := fl.waiters - 1, abandoned := true } := by
      rw [List.modify_modify_eq]
      rfl
    split <;> simp only [modifyFlight, hmodify] <;> simp_all [modifyFlight]

/-- A release keeps the invariant; the last waiter of a running flight abandons it. -/
theorem Inv.releaseWaiter
    (h : s.Inv) {f : Nat} {fl : Flight κ ν ε}
    (hfl : s.flights[f]? = some fl) :
    (s.releaseWaiter f fl).Inv := by
  rw [releaseWaiter_eq]
  split
  case isTrue =>
    refine h.modifyFlight ⟨fun _ => rfl, fun _ => rfl, fun _ => rfl, fun _ => rfl, fun _ => rfl⟩
      (fun _ _ hdone => hdone) fun fl' hfl' hactive => ?_
    obtain ⟨fl'', hfl'', hspec⟩ := h.active _ f hactive
    obtain rfl := Option.some.inj (hfl'.symm.trans hfl'')
    exact hspec.running
  case isFalse hlast =>
    have hnot : fl.done = false := by
      cases hdone : fl.done with
      | false => rfl
      | true => exact absurd (Or.inr hdone) hlast
    have hout := h.standDown (g := fun fl =>
        { fl with waiters := fl.waiters - 1, abandoned := true })
      (h.vacate_eq hfl) (fun _ => rfl) (fun _ => rfl) (fun _ => Or.inr rfl)
    refine hout.bump (mem_ownedKeys.mpr ⟨f, h.running f fl hfl hnot,
      { fl with waiters := fl.waiters - 1, abandoned := true }, ?_, rfl⟩)
    rw [getElem?_modifyFlight, if_pos rfl]
    change Option.map _ s.flights[f]? = _
    rw [hfl]
    rfl

/-- A reading of the clock alone. -/
theorem Inv.clampTick
    (h : s.Inv) (tick : Int) :
    Inv { s with state := (s.state.clampTick tick).2 } :=
  h.withState (.of_eq rfl rfl rfl)
    ⟨h.bounded.entries, h.bounded.heap, h.bounded.versions, h.bounded.sequences⟩
    (fun _ hfalse => hfalse.elim)

theorem Inv.get
    (h : s.Inv) (key : κ) (tick : Int) :
    (s.get key tick).2.Inv :=
  (h.clampTick tick).withState (CacheState.quiet_get _ key _ _)
    (CacheState.get_bounded (h.clampTick tick).bounded key _)
    (fun _ hfalse => hfalse.elim)

theorem Inv.size
    (h : s.Inv) (tick : Int) :
    (s.size tick).2.Inv :=
  (h.clampTick tick).withState (CacheState.quiet_purgeExpired _ _ _)
    (CacheState.purgeExpired_bounded (h.clampTick tick).bounded _)
    (fun _ hfalse => hfalse.elim)

theorem Inv.stats
    (h : s.Inv) (tick : Int) :
    (s.stats tick).2.Inv :=
  h.size tick

/-- A store for a key without an active flight. -/
theorem Inv.store
    (h : s.Inv) {key : κ} (value : ν) (ttlNs : Nat) (tick : Int)
    (hidle : s.active key = none) :
    (s.store key value ttlNs tick).Inv :=
  (h.clampTick tick).withState (CacheState.quiet_store _ key value ttlNs _ _)
    (CacheState.store_bounded (h.clampTick tick).bounded key value ttlNs _)
    (fun k hk => by rw [hk]; exact hidle)

theorem Inv.set
    (h : s.Inv) (key : κ) (value : ν) (ttlNs : Nat) (reading : Except ε Int) :
    (s.set key value ttlNs reading).Inv := by
  have hsuperseded := h.supersede key
  cases reading with
  | error error =>
      exact hsuperseded
  | ok tick =>
      refine hsuperseded.store value ttlNs tick ?_
      rw [supersede_active, if_pos rfl]

theorem Inv.invalidate
    (h : s.Inv) (key : κ) (tick : Int) :
    (s.invalidate key tick).2.Inv := by
  have hsuperseded := (h.clampTick tick).supersede key
  refine hsuperseded.withState (CacheState.quiet_invalidate _ key _ _)
    (CacheState.invalidate_bounded hsuperseded.bounded key _) fun k hk => ?_
  rw [hk, supersede_active, if_pos rfl]

theorem Inv.clear
    (h : s.Inv) (tick : Int) :
    (s.clear tick).Inv := by
  refine (h.clampTick tick).supersedeAll ?_
  rw [ownedKeys_supersedeAll]
  exact CacheState.clear_bounded _ _

omit [DecidableEq κ] in
/-- Only the active flight of a key publishes. -/
theorem active_of_canPublish
    {mode : Mode} {f : Nat} {fl : Flight κ ν ε}
    (hpublish : s.canPublish mode f fl = true) :
    s.active fl.key = some f := by
  cases mode with
  | sync =>
      simp_all [canPublish, isCurrent]
  | async =>
      simp_all [canPublish, isCurrent]

/-- A completion keeps the invariant: a flight that publishes is the active one. -/
theorem Inv.complete
    (h : s.Inv) (mode : Mode) {f : Nat} {fl : Flight κ ν ε}
    (hfl : s.flights[f]? = some fl) (outcome : Except ε ν) (reading : Except ε Int) :
    (s.complete mode f fl outcome reading).Inv := by
  have hfinish : ∀ outcome, (s.finish f fl outcome).Inv :=
    h.finish hfl (CacheState.Quiet.refl s.ownedKeys (fun _ => False) s.state) h.bounded
      (fun _ hfalse => hfalse.elim)
  unfold FlightCache.complete
  cases outcome with
  | error error =>
      have hcount := h.count fun c => { c with loadFailures := c.loadFailures + 1 }
      exact hcount.finish hfl
        (CacheState.Quiet.refl _ (fun _ => False) _) hcount.bounded
        (fun _ hfalse => hfalse.elim) (.error error)
  | ok value =>
      dsimp only
      split
      case isFalse =>
          exact hfinish (.ok value)
      case isTrue hpublish =>
          cases reading with
          | error error =>
              exact hfinish (.error error)
          | ok tick =>
              have hactive := active_of_canPublish hpublish
              have hclamp := h.clampTick tick
              have hquiet := CacheState.quiet_store (s.state.clampTick tick).2 fl.key value
                fl.ttlNs (s.state.clampTick tick).1 s.ownedKeys
              have hquiet' : CacheState.Quiet s.ownedKeys (fun key => key = fl.key) s.state _ :=
                ⟨hquiet.epoch, hquiet.absent, hquiet.version⟩
              refine h.finish hfl hquiet'
                (CacheState.store_bounded hclamp.bounded fl.key value fl.ttlNs _) ?_ _
              rintro key rfl f' hf'
              exact Option.some.inj (hf'.symm.trans hactive)

theorem Inv.withTick
    (h : s.Inv) (reading : Except ε Int) {op : Int → FlightCache κ ν ε}
    (hop : ∀ tick, (op tick).Inv) :
    (s.withTick reading op).Inv := by
  cases reading with
  | error error => exact h
  | ok tick => exact hop tick

/-- A join of the active flight. -/
theorem Inv.join
    (h : s.Inv) (key : κ) {f : Nat}
    (hactive : s.active key = some f) :
    (s.modifyFlight f fun fl => { fl with waiters := fl.waiters + 1 }).Inv := by
  refine h.modifyFlight ⟨fun _ => rfl, fun _ => rfl, fun _ => rfl, fun _ => rfl, fun _ => rfl⟩
    (fun _ _ hdone => hdone) fun fl hfl _ => ?_
  obtain ⟨fl', hfl', hspec⟩ := h.active key f hactive
  obtain rfl := Option.some.inj (hfl.symm.trans hfl')
  exact hspec.running

/-- The lock section of `get_or_load` keeps the invariant. -/
theorem Inv.getOrLoad
    (h : s.Inv) (mode : Mode) (key : κ) (ttlNs : Nat) (reading : Except ε Int)
    (taskFailure : Option ε) :
    (s.getOrLoad mode key ttlNs reading taskFailure).Inv := by
  unfold FlightCache.getOrLoad
  cases reading with
  | error error =>
      exact h.withCalls _
  | ok tick =>
      have hget := h.get key tick
      cases hfound : (s.get key tick).1 with
      | some value =>
          simp only [hfound]
          exact hget.withCalls _
      | none =>
          have habsent : (s.get key tick).2.state.entries.lookup key = none :=
            CacheState.get_absent hfound
          simp only [hfound]
          generalize (s.get key tick).2 = t at hget habsent
          cases hactive : t.active key with
          | some f =>
              simp only
              have hcount := hget.count fun c =>
                { c with coalescedWaiters := c.coalescedWaiters + 1 }
              split
              · exact (hcount.join key hactive).withCalls _
              · exact hcount.withCalls _
          | none =>
              simp only
              split
              case isTrue =>
                  exact (hget.count _).withCalls _
              case isFalse hroom =>
                  have hlaunch := hget.launch mode ttlNs hactive habsent (not_le.mp hroom)
                  split
                  case h_1 error =>
                      have hfl := getElem?_launch .async t key ttlNs t.flights.length
                      rw [if_pos rfl] at hfl
                      exact (hlaunch.finish hfl (CacheState.Quiet.refl _ (fun _ => False) _)
                        hlaunch.bounded (fun _ hfalse => hfalse.elim) _).withCalls _
                  case h_2 =>
                      exact (hlaunch.count _).withCalls _

/-- The moves of a flight that is still running. -/
theorem Inv.advance
    (h : s.Inv) {f : Nat} {phase : Phase ν ε}
    (hrunning : ∀ fl, s.flights[f]? = some fl → fl.done = false)
    (hphase : ∀ fl, s.flights[f]? = some fl → fl.abandoned = false →
      ∀ fl' : Flight κ ν ε, fl'.phase = phase → fl'.done = false) :
    (s.advance f phase).Inv := by
  refine h.modifyFlight ⟨fun _ => rfl, fun _ => rfl, fun _ => rfl, fun _ => rfl, fun _ => rfl⟩
    (fun fl hfl hdone => ?_) (fun fl hfl hactive => ?_)
  · rw [hrunning fl hfl] at hdone
    cases hdone
  · obtain ⟨fl', hfl', hspec⟩ := h.active _ f hactive
    obtain rfl := Option.some.inj (hfl.symm.trans hfl')
    exact hphase fl hfl hspec.abandoned _ rfl

omit [DecidableEq κ] in
/-- A wake-up changes calls only. -/
theorem calls_of_wakeCall
    {mode : Mode} {c : Nat} {t : FlightCache κ ν ε}
    (hstep : s.wakeCall mode c = some t) :
    ∃ calls, t = { s with calls := calls } := by
  unfold wakeCall at hstep
  split at hstep
  · split at hstep
    · cases mode with
      | sync => exact ⟨_, (Option.some.inj hstep).symm⟩
      | async => exact ⟨_, (Option.some.inj hstep).symm⟩
    · exact ⟨_, (Option.some.inj hstep).symm⟩
    · cases hstep
  · cases hstep

omit [DecidableEq κ] in
/-- So does a cancellation. -/
theorem calls_of_cancelCall
    {c : Nat} {t : FlightCache κ ν ε}
    (hstep : s.cancelCall c = some t) :
    ∃ calls, t = { s with calls := calls } := by
  unfold cancelCall at hstep
  split at hstep
  · exact ⟨_, (Option.some.inj hstep).symm⟩
  · exact ⟨_, (Option.some.inj hstep).symm⟩
  · cases hstep

/-- A release changes calls and, before that, its flight. -/
theorem calls_of_releaseCall
    {c : Nat} {t : FlightCache κ ν ε}
    (hstep : s.releaseCall c = some t) :
    ∃ f fl, s.flights[f]? = some fl ∧
      ∃ calls, t = { s.releaseWaiter f fl with calls := calls } := by
  unfold releaseCall at hstep
  split at hstep
  · obtain ⟨fl, hfl, rfl⟩ := Option.map_eq_some_iff.mp hstep
    exact ⟨_, fl, hfl, _, rfl⟩
  · cases hstep

/-- **Every step keeps the invariant.** -/
theorem Inv.step
    {mode : Mode} {e : Event κ ν ε} {t : FlightCache κ ν ε}
    (h : s.Inv)
    (hstep : Step mode s e t) :
    t.Inv := by
  unfold Step at hstep
  cases e with
  | get key reading =>
      obtain rfl := Option.some.inj hstep
      exact h.withTick reading (h.get key)
  | set key value ttlNs reading =>
      obtain rfl := Option.some.inj hstep
      exact h.set key value ttlNs reading
  | invalidate key reading =>
      obtain rfl := Option.some.inj hstep
      exact h.withTick reading (h.invalidate key)
  | clear reading =>
      obtain rfl := Option.some.inj hstep
      exact h.withTick reading (h.clear)
  | size reading =>
      obtain rfl := Option.some.inj hstep
      exact h.withTick reading (h.size)
  | stats reading =>
      obtain rfl := Option.some.inj hstep
      exact h.withTick reading (h.stats)
  | getOrLoad key ttlNs reading taskFailure =>
      obtain rfl := Option.some.inj hstep
      exact h.getOrLoad mode key ttlNs reading taskFailure
  | startLoader f =>
      simp only [FlightCache.step] at hstep
      split at hstep
      case h_1 hphase =>
          obtain rfl := Option.some.inj hstep
          obtain ⟨fl, hfl, hcreated⟩ := Option.map_eq_some_iff.mp hphase
          refine h.advance (fun fl' hfl' => ?_) (fun _ _ _ fl' hfl' => by simp [Flight.done, hfl'])
          obtain rfl := Option.some.inj (hfl.symm.trans hfl')
          simp [Flight.done, hcreated]
      case h_2 =>
          cases hstep
  | loaderEnds f outcome =>
      simp only [FlightCache.step] at hstep
      split at hstep
      case h_1 hphase =>
          obtain rfl := Option.some.inj hstep
          obtain ⟨fl, hfl, hloading⟩ := Option.map_eq_some_iff.mp hphase
          refine h.advance (fun fl' hfl' => ?_) (fun _ _ _ fl' hfl' => by simp [Flight.done, hfl'])
          obtain rfl := Option.some.inj (hfl.symm.trans hfl')
          simp [Flight.done, hloading]
      case h_2 =>
          cases hstep
  | complete f reading =>
      simp only [FlightCache.step] at hstep
      split at hstep
      case h_1 fl hfl =>
          split at hstep
          case h_1 outcome hloaded =>
              obtain rfl := Option.some.inj hstep
              exact h.complete mode hfl outcome reading
          case h_2 =>
              cases hstep
      case h_2 =>
          cases hstep
  | loseTask f =>
      simp only [FlightCache.step] at hstep
      split at hstep
      case h_1 fl hfl =>
          have hlost : fl.abandoned = true → fl.done = false → (s.advance f .lost).Inv := by
            intro habandoned hnot
            refine h.advance (fun fl' hfl' => ?_) (fun fl' hfl' hkept => ?_)
            · obtain rfl := Option.some.inj (hfl.symm.trans hfl')
              exact hnot
            · obtain rfl := Option.some.inj (hfl.symm.trans hfl')
              rw [habandoned] at hkept
              cases hkept
          split at hstep
          case h_1 hphase habandoned =>
              obtain rfl := Option.some.inj hstep
              exact hlost habandoned (by simp [Flight.done, hphase])
          case h_2 hphase habandoned =>
              obtain rfl := Option.some.inj hstep
              exact hlost habandoned (by simp [Flight.done, hphase])
          case h_3 =>
              cases hstep
      case h_2 =>
          cases hstep
  | wake c =>
      obtain ⟨calls, rfl⟩ := calls_of_wakeCall hstep
      exact h.withCalls calls
  | cancel c =>
      simp only [FlightCache.step] at hstep
      split at hstep
      · obtain ⟨calls, rfl⟩ := calls_of_cancelCall hstep
        exact h.withCalls calls
      · cases hstep
  | release c =>
      simp only [FlightCache.step] at hstep
      split at hstep
      · obtain ⟨f, fl, hfl, calls, rfl⟩ := calls_of_releaseCall hstep
        exact (h.releaseWaiter hfl).withCalls calls
      · cases hstep

end Primitives

theorem inv_init
    (maxSize : Nat) (hpos : 0 < maxSize) (maxInflight : Nat) :
    (init maxSize hpos maxInflight : FlightCache κ ν ε).Inv where
  nodup := List.nodup_nil
  known := by
    intro f hf
    cases hf
  running := by
    intro f fl hfl
    cases hfl
  active := by
    intro key f hactive
    cases hactive
  current := by
    intro f fl hfl
    cases hfl
  bounded :=
    ⟨Nat.zero_le _, Nat.zero_le _, fun _ hkey => absurd rfl hkey, List.nodup_nil, by simp [init,
      CacheState.init]⟩
  inflight := Nat.zero_le _

end FlightCache
end Cache
end Bluetape
