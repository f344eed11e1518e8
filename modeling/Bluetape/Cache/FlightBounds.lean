import Bluetape.Base.Run
import Bluetape.Cache.FlightInvariant

/-!
# Bounds of a cache with flights

The limits given to the constructor never change, and the invariant bounds
every table by them.

* `bounded_metadata`: the bounds, after every step of every run.
-/

namespace Bluetape
namespace Cache

open Base

namespace FlightCache

variable {κ ν ε : Type} [DecidableEq κ]

/-! ## The limits -/

section Limits

variable {s : FlightCache κ ν ε}

/-- No operation changes the limits given to the constructor. -/
structure SameLimits (s t : FlightCache κ ν ε) : Prop where
  maxSize : t.state.maxSize = s.state.maxSize
  maxInflight : t.maxInflight = s.maxInflight

omit [DecidableEq κ] in
theorem SameLimits.trans
    {t u : FlightCache κ ν ε}
    (h : SameLimits s t)
    (h' : SameLimits t u) :
    SameLimits s u :=
  ⟨h'.maxSize.trans h.maxSize, h'.maxInflight.trans h.maxInflight⟩

theorem sameLimits_get
    (s : FlightCache κ ν ε) (key : κ) (tick : Int) :
    SameLimits s (s.get key tick).2 := by
  refine ⟨?_, rfl⟩
  change (CacheState.get _ _ _ _).2.maxSize = _
  rw [CacheState.get_maxSize]

theorem sameLimits_store
    (s : FlightCache κ ν ε) (key : κ) (value : ν) (ttlNs : Nat) (tick : Int) :
    SameLimits s (s.store key value ttlNs tick) :=
  ⟨(CacheState.store_spec _ key value ttlNs _ s.ownedKeys).2.2.1, rfl⟩

theorem sameLimits_supersede
    (s : FlightCache κ ν ε) (key : κ) :
    SameLimits s (s.supersede key) := by
  unfold supersede
  split <;> exact ⟨rfl, rfl⟩

theorem sameLimits_finish
    (s : FlightCache κ ν ε) (f : Nat) (fl : Flight κ ν ε) (outcome : Except ε ν) :
    SameLimits s (s.finish f fl outcome) where
  maxSize := by
    change (s.retire f fl).state.maxSize = _
    rw [retire_state, CacheState.dropUnusedVersion_maxSize]
  maxInflight := (retire_rest s f fl).2.2.1

theorem sameLimits_complete
    (mode : Mode) (s : FlightCache κ ν ε) (f : Nat) (fl : Flight κ ν ε)
    (outcome : Except ε ν) (reading : Except ε Int) :
    SameLimits s (s.complete mode f fl outcome reading) := by
  unfold complete
  split
  · exact .trans (t := s.count _) ⟨rfl, rfl⟩ (sameLimits_finish _ f fl _)
  · split
    · split
      · exact sameLimits_finish s f fl _
      · exact (sameLimits_store s _ _ _ _).trans (sameLimits_finish _ f fl _)
    · exact sameLimits_finish s f fl _

theorem sameLimits_getOrLoad
    (mode : Mode) (s : FlightCache κ ν ε) (key : κ) (ttlNs : Nat) (reading : Except ε Int)
    (taskFailure : Option ε) :
    SameLimits s (s.getOrLoad mode key ttlNs reading taskFailure) := by
  unfold getOrLoad
  cases reading with
  | error error =>
      exact ⟨rfl, rfl⟩
  | ok tick =>
      refine (sameLimits_get s key tick).trans ?_
      cases hfound : (s.get key tick).1 with
      | some value =>
          simp only [hfound]
          exact ⟨rfl, rfl⟩
      | none =>
          simp only [hfound]
          split
          · split <;> exact ⟨rfl, rfl⟩
          · split
            · exact ⟨rfl, rfl⟩
            · split
              · next error =>
                  have hfinish := sameLimits_finish
                    ((s.get key tick).2.launch .async key ttlNs)
                    (s.get key tick).2.flights.length
                    ((s.get key tick).2.newFlight .async key ttlNs) (.error error)
                  exact ⟨hfinish.maxSize, hfinish.maxInflight⟩
              · exact ⟨rfl, rfl⟩

theorem sameLimits_releaseWaiter
    (s : FlightCache κ ν ε) (f : Nat) (fl : Flight κ ν ε) :
    SameLimits s (s.releaseWaiter f fl) := by
  rw [releaseWaiter_eq]
  split <;> exact ⟨rfl, rfl⟩

omit [DecidableEq κ] in
theorem sameLimits_withTick
    (reading : Except ε Int) {op : Int → FlightCache κ ν ε}
    (hop : ∀ tick, SameLimits s (op tick)) :
    SameLimits s (s.withTick reading op) := by
  cases reading with
  | error error => exact ⟨rfl, rfl⟩
  | ok tick => exact hop tick

omit [DecidableEq κ] in
theorem sameLimits_calls
    {t : FlightCache κ ν ε}
    (h : ∃ calls, t = { s with calls := calls }) :
    SameLimits s t := by
  obtain ⟨calls, rfl⟩ := h
  exact ⟨rfl, rfl⟩

theorem Step.sameLimits
    {mode : Mode} {e : Event κ ν ε} {t : FlightCache κ ν ε}
    (hstep : Step mode s e t) :
    SameLimits s t := by
  unfold Step at hstep
  cases e with
  | get key reading =>
      obtain rfl := Option.some.inj hstep
      exact sameLimits_withTick reading (sameLimits_get s key)
  | set key value ttlNs reading =>
      obtain rfl := Option.some.inj hstep
      have hsuperseded := sameLimits_supersede s key
      cases reading with
      | error error =>
          exact hsuperseded
      | ok tick =>
          exact hsuperseded.trans (sameLimits_store _ key value ttlNs tick)
  | invalidate key reading =>
      obtain rfl := Option.some.inj hstep
      refine sameLimits_withTick reading fun tick => ?_
      have hsuperseded :=
        sameLimits_supersede { s with state := (s.state.clampTick tick).2 } key
      refine ⟨?_, hsuperseded.maxInflight⟩
      exact ((CacheState.invalidate_spec _ key _ _).2.2.2.1).trans
        ((CacheState.purgeExpired_maxSize _ _ _).trans hsuperseded.maxSize)
  | clear reading =>
      obtain rfl := Option.some.inj hstep
      exact sameLimits_withTick reading fun tick => ⟨rfl, rfl⟩
  | size reading =>
      obtain rfl := Option.some.inj hstep
      refine sameLimits_withTick reading fun tick => ⟨?_, rfl⟩
      exact CacheState.purgeExpired_maxSize _ _ _
  | stats reading =>
      obtain rfl := Option.some.inj hstep
      refine sameLimits_withTick reading fun tick => ⟨?_, rfl⟩
      exact CacheState.purgeExpired_maxSize _ _ _
  | getOrLoad key ttlNs reading taskFailure =>
      obtain rfl := Option.some.inj hstep
      exact sameLimits_getOrLoad mode s key ttlNs reading taskFailure
  | startLoader f =>
      simp only [step] at hstep
      split at hstep
      · obtain rfl := Option.some.inj hstep
        exact ⟨rfl, rfl⟩
      · cases hstep
  | loaderEnds f outcome =>
      simp only [step] at hstep
      split at hstep
      · obtain rfl := Option.some.inj hstep
        exact ⟨rfl, rfl⟩
      · cases hstep
  | complete f reading =>
      simp only [step] at hstep
      split at hstep
      · split at hstep
        · obtain rfl := Option.some.inj hstep
          exact sameLimits_complete mode s f _ _ reading
        · cases hstep
      · cases hstep
  | loseTask f =>
      simp only [step] at hstep
      split at hstep
      · split at hstep
        · obtain rfl := Option.some.inj hstep
          exact ⟨rfl, rfl⟩
        · obtain rfl := Option.some.inj hstep
          exact ⟨rfl, rfl⟩
        · cases hstep
      · cases hstep
  | wake c =>
      exact sameLimits_calls (calls_of_wakeCall hstep)
  | cancel c =>
      simp only [step] at hstep
      split at hstep
      · exact sameLimits_calls (calls_of_cancelCall hstep)
      · cases hstep
  | release c =>
      simp only [step] at hstep
      split at hstep
      · obtain ⟨f, fl, hfl, calls, rfl⟩ := calls_of_releaseCall hstep
        exact (sameLimits_releaseWaiter s f fl).trans ⟨rfl, rfl⟩
      · cases hstep

end Limits

/-! ## Bounds -/

/-- The bounds of every table of a cache. -/
structure MetadataBounds (maxSize maxInflight : Nat) (s : FlightCache κ ν ε) : Prop where
  entries : s.state.entries.size ≤ maxSize
  heap : s.state.expiryHeap.length ≤ 2 * maxSize
  versions : ∀ key, s.state.keyVersions key ≠ none →
    s.state.entries.lookup key ≠ none ∨ key ∈ s.ownedKeys
  active : ∀ key f, s.active key = some f →
    f ∈ s.owned ∧ ∃ fl, s.flights[f]? = some fl ∧ fl.key = key
  unique : ∀ (f f' : Nat) (fl fl' : Flight κ ν ε), s.flights[f]? = some fl →
    s.flights[f']? = some fl' → fl.key = fl'.key →
    fl.done = false ∧ fl.superseded = false ∧ fl.abandoned = false →
    fl'.done = false ∧ fl'.superseded = false ∧ fl'.abandoned = false →
    f = f'
  owned : s.owned.Nodup
  inflight : s.owned.length ≤ maxInflight
  sequences : (s.state.expiryHeap.map HeapRecord.sequence).Nodup

theorem Inv.metadataBounds
    {s : FlightCache κ ν ε}
    (h : s.Inv) :
    s.MetadataBounds s.state.maxSize s.maxInflight where
  entries := h.bounded.entries
  heap := h.bounded.heap
  versions := by
    intro key hkey
    exact (h.bounded.versions key hkey).resolve_left id
  active := by
    intro key f hactive
    obtain ⟨fl, hfl, hspec⟩ := h.active key f hactive
    exact ⟨h.running f fl hfl hspec.running, fl, hfl, hspec.key_eq⟩
  unique := by
    intro f f' fl fl' hfl hfl' hkey hrunning hrunning'
    have hcurrent := h.current f fl hfl hrunning.1 hrunning.2.1 hrunning.2.2
    have hcurrent' := h.current f' fl' hfl' hrunning'.1 hrunning'.2.1 hrunning'.2.2
    rw [hkey, hcurrent'] at hcurrent
    exact (Option.some.inj hcurrent).symm
  owned := h.nodup
  inflight := h.inflight
  sequences := h.bounded.sequences.distinct

/-- The invariant and the limits, after every step of a run. -/
theorem run_inv
    {mode : Mode} {maxSize maxInflight : Nat} {hpos : 0 < maxSize}
    {es : List (Event κ ν ε)} {s : FlightCache κ ν ε}
    (hrun : Run (Step mode) (init maxSize hpos maxInflight) es s) :
    s.Inv ∧ SameLimits (init maxSize hpos maxInflight) s :=
  hrun.invariant (I := fun s => s.Inv ∧ SameLimits (init maxSize hpos maxInflight) s)
    (fun _ _ _ h hstep => ⟨h.1.step hstep, h.2.trans hstep.sameLimits⟩)
    ⟨inv_init maxSize hpos maxInflight, rfl, rfl⟩

/-- **The tables stay bounded, whatever interleaving the run takes.** -/
theorem bounded_metadata
    (mode : Mode) (maxSize : Nat) (hpos : 0 < maxSize) (maxInflight : Nat)
    (es : List (Event κ ν ε)) (s : FlightCache κ ν ε)
    (hrun : Run (Step mode) (init maxSize hpos maxInflight) es s) :
    s.MetadataBounds maxSize maxInflight := by
  obtain ⟨hinv, hlimits⟩ := run_inv hrun
  have hbounds := hinv.metadataBounds
  rw [hlimits.maxSize, hlimits.maxInflight] at hbounds
  exact hbounds

/-- A load is superseded, abandoned beside its successor, and ends. -/
def supersededAbandoned : List (Event Nat Nat String) :=
  [.getOrLoad 7 5 (.ok 0) none, .startLoader 0, .invalidate 7 (.ok 1),
    .getOrLoad 7 5 (.ok 2) none, .cancel 0, .release 0,
    .loaderEnds 0 (.error ""), .complete 0 (.ok 3)]

theorem bounded_metadata_supersededAbandoned :
    ∃ s, Run (Step .async) (init 1 Nat.one_pos 2) supersededAbandoned s ∧
      s.MetadataBounds 1 2 :=
  let hrun : Run (Step .async) (init 1 Nat.one_pos 2) supersededAbandoned _ :=
    .cons rfl (.cons rfl (.cons rfl (.cons rfl (.cons rfl (.cons rfl (.cons rfl
      (.cons rfl (.nil _))))))))
  ⟨_, hrun, bounded_metadata .async 1 Nat.one_pos 2 supersededAbandoned _ hrun⟩

end FlightCache
end Cache
end Bluetape
