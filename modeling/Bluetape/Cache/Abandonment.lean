import Bluetape.Cache.Publication

/-!
# Abandonment

A flight that is abandoned beside its successor raises the version of the key that they share.

* `abandonments`: the flights of a key that a run abandons;
* `Holds.step`: how far the version of a key is ahead of its active flight;
* `published_iff`: a flight that nothing overtook publishes exactly when no other flight of its
  key was abandoned since it was created.
-/

namespace Bluetape
namespace Cache

open Base

namespace FlightCache

variable {κ ν ε : Type} [DecidableEq κ]

/-- A release that abandons a flight of a key. -/
def abandons (key : κ) (s : FlightCache κ ν ε) (e : Event κ ν ε) : Bool :=
  match s.taskToCancel e with
  | some f => decide (s.flights[f]?.map Flight.key = some key)
  | none => false

/-- The flights of a key that a run abandons. -/
def abandonments (mode : Mode) (key : κ) (s : FlightCache κ ν ε) : List (Event κ ν ε) → Nat
  | [] => 0
  | e :: es =>
      match s.step mode e with
      | some t => (s.abandons key e).toNat + abandonments mode key t es
      | none => 0

/-- A flight that is done or abandoned. -/
def Settled (s : FlightCache κ ν ε) (f : Nat) : Prop :=
  ∃ fl, s.flights[f]? = some fl ∧ (fl.done = true ∨ fl.abandoned = true)

/-- The active flight of a key, and how far the version of the key is ahead of it. -/
structure Holds (s : FlightCache κ ν ε) (key : κ) (f n : Nat) : Prop where
  active : s.active key = some f
  version : ∃ fl, s.flights[f]? = some fl ∧ s.state.version key = fl.version + n

/-- A step after which the same flight is active, with the version so much higher. -/
structure Keeps (s t : FlightCache κ ν ε) (key : κ) (n : Nat) : Prop where
  active : t.active key = s.active key
  version : t.state.version key = s.state.version key + n

/-! ## Operations -/

section Operations

variable {s t u : FlightCache κ ν ε} {key key' : κ} {f : Nat}

omit [DecidableEq κ] in
theorem Keeps.refl
    (s : FlightCache κ ν ε) (key : κ) :
    Keeps s s key 0 :=
  ⟨rfl, rfl⟩

omit [DecidableEq κ] in
theorem Keeps.trans
    {n : Nat}
    (h : Keeps s t key 0)
    (h' : Keeps t u key n) :
    Keeps s u key n where
  active := h'.active.trans h.active
  version := by rw [h'.version, h.version, Nat.add_zero]

/-- A change of the pure state, after a reading of the clock, that is quiet for the key. -/
theorem Inv.keeps_state
    (h : s.Inv) {tick : Int} {state : CacheState κ ν} {but : κ → Prop}
    (hactive : s.active key = some f)
    (hquiet : CacheState.Quiet s.ownedKeys but (s.state.clampTick tick).2 state)
    (hbut : ¬ but key) :
    Keeps s { s with state := state } key 0 where
  active := rfl
  version := hquiet.version key (h.mem_ownedKeys_of_active hactive) hbut

theorem Inv.keeps_get
    (h : s.Inv)
    (hactive : s.active key = some f) (key' : κ) (tick : Int) :
    Keeps s (s.get key' tick).2 key 0 :=
  h.keeps_state hactive (CacheState.quiet_get _ key' _ _) id

theorem Inv.keeps_size
    (h : s.Inv)
    (hactive : s.active key = some f) (tick : Int) :
    Keeps s (s.size tick).2 key 0 :=
  h.keeps_state hactive (CacheState.quiet_purgeExpired _ _ _) id

theorem Inv.keeps_store
    (h : s.Inv)
    (hactive : s.active key = some f)
    (hne : key ≠ key') (value : ν) (ttlNs : Nat) (tick : Int) :
    Keeps s (s.store key' value ttlNs tick) key 0 :=
  h.keeps_state hactive (CacheState.quiet_store _ key' value ttlNs _ _) hne

theorem keeps_supersede
    (hne : key ≠ key') :
    Keeps s (s.supersede key') key 0 where
  active := by rw [supersede_active, if_neg hne]
  version := by
    unfold supersede
    split <;> rfl

theorem Inv.keeps_set
    (h : s.Inv)
    (hactive : s.active key = some f)
    (hne : key ≠ key') (value : ν) (ttlNs : Nat) (reading : Except ε Int) :
    Keeps s (s.set key' value ttlNs reading) key 0 := by
  have hsupersede : Keeps s (s.supersede key') key 0 := keeps_supersede hne
  cases reading with
  | error error =>
      exact hsupersede
  | ok tick =>
      exact hsupersede.trans
        ((h.supersede key').keeps_store (hsupersede.active.trans hactive) hne value ttlNs tick)

theorem Inv.keeps_invalidate
    (h : s.Inv)
    (hactive : s.active key = some f)
    (hne : key ≠ key') (tick : Int) :
    Keeps s (s.invalidate key' tick).2 key 0 := by
  have hclamp : Keeps s { s with state := (s.state.clampTick tick).2 } key 0 := ⟨rfl, rfl⟩
  have hsupersede := hclamp.trans (keeps_supersede hne)
  refine hsupersede.trans ⟨rfl, ?_⟩
  exact (CacheState.quiet_invalidate _ key' _ _).version key
    (((h.clampTick tick).supersede key').mem_ownedKeys_of_active
      (hsupersede.active.trans hactive)) hne

/-- The end of another flight, perhaps with a store before it. -/
theorem Inv.keeps_finish
    (h : s.Inv)
    (hactive : s.active key = some f) {f' : Nat} {fl : Flight κ ν ε}
    (hfl : s.flights[f']? = some fl)
    (hne : f ≠ f') {state : CacheState κ ν}
    (hversion : state.version key = s.state.version key) (outcome : Except ε ν) :
    Keeps s (({ s with state := state } : FlightCache κ ν ε).finish f' fl outcome) key 0 where
  active := by
    have hretire := (h.retire_active_eq_some hfl).mpr ⟨hactive, hne⟩
    rw [retire_active] at hretire
    change (FlightCache.retire _ f' fl).active key = _
    rw [retire_active, hactive]
    exact hretire
  version := by
    obtain ⟨fl', hfl', hspec⟩ := h.active key f hactive
    change (FlightCache.retire _ f' fl).state.version key = _
    rw [retire_state, CacheState.dropUnusedVersion_version]
    · exact hversion
    · refine mem_ownedKeys.mpr ⟨f, ?_, fl', hfl', hspec.key_eq⟩
      exact (List.mem_erase_of_ne hne).mpr (h.running f fl' hfl' hspec.running)

theorem Inv.keeps_complete
    (h : s.Inv)
    (hactive : s.active key = some f) {f' : Nat} {fl : Flight κ ν ε}
    (hfl : s.flights[f']? = some fl)
    (hne : f ≠ f') (mode : Mode) (outcome : Except ε ν) (reading : Except ε Int) :
    Keeps s (s.complete mode f' fl outcome reading) key 0 := by
  unfold FlightCache.complete
  cases outcome with
  | error error =>
      have hcount : (s.count fun c => { c with loadFailures := c.loadFailures + 1 }).state.version
          key = s.state.version key := rfl
      exact h.keeps_finish hactive hfl hne hcount _
  | ok value =>
      dsimp only
      split
      case isFalse =>
          exact h.keeps_finish hactive hfl hne rfl _
      case isTrue hpublish =>
          cases reading with
          | error error =>
              exact h.keeps_finish hactive hfl hne rfl _
          | ok tick =>
              -- only the active flight of a key publishes
              have hkey : key ≠ fl.key := by
                rintro rfl
                exact hne (Option.some.inj (hactive.symm.trans (active_of_canPublish hpublish)))
              exact h.keeps_finish hactive hfl hne
                (h.keeps_store hactive hkey value fl.ttlNs tick).version _

theorem Inv.keeps_getOrLoad
    (h : s.Inv)
    (hactive : s.active key = some f) (mode : Mode) (key' : κ) (ttlNs : Nat)
    (reading : Except ε Int) (taskFailure : Option ε) :
    Keeps s (s.getOrLoad mode key' ttlNs reading taskFailure) key 0 := by
  unfold FlightCache.getOrLoad
  cases reading with
  | error error =>
      exact ⟨rfl, rfl⟩
  | ok tick =>
      have hget := h.keeps_get hactive key' tick
      have hinv := h.get key' tick
      cases hfound : (s.get key' tick).1 with
      | some value =>
          simp only [hfound]
          exact hget.trans ⟨rfl, rfl⟩
      | none =>
          simp only [hfound]
          replace hactive := hget.active.trans hactive
          refine hget.trans ?_
          have habsent : (s.get key' tick).2.state.entries.lookup key' = none :=
            CacheState.get_absent hfound
          generalize (s.get key' tick).2 = t at hactive hinv habsent
          cases hidle : t.active key' with
          | some f' =>
              simp only
              split <;> exact ⟨rfl, rfl⟩
          | none =>
              simp only
              -- the flight of the key keeps its place, so that the new one is for another key
              have hne : key ≠ key' := by
                rintro rfl
                cases hidle.symm.trans hactive
              have hlaunch : Keeps t (t.launch mode key' ttlNs) key 0 :=
                ⟨Function.update_of_ne hne _ _, rfl⟩
              split
              case isTrue =>
                  exact ⟨rfl, rfl⟩
              case isFalse hroom =>
                  split
                  case h_1 error =>
                      have hfl := getElem?_launch .async t key' ttlNs t.flights.length
                      rw [if_pos rfl] at hfl
                      obtain ⟨fl, hflight, hspec⟩ := hinv.active key f hactive
                      have hother := hinv.lt_length (hinv.running f fl hflight hspec.running)
                      have hfinish := (hinv.launch .async ttlNs hidle habsent
                        (not_le.mp hroom)).keeps_finish (hlaunch.active.trans hactive) hfl
                          hother.ne rfl (.error error)
                      exact hlaunch.trans ⟨hfinish.active, hfinish.version⟩
                  case h_2 =>
                      exact hlaunch.trans ⟨rfl, rfl⟩

end Operations

/-! ## Steps -/

section Steps

variable {mode : Mode} {s t u v : FlightCache κ ν ε} {e : Event κ ν ε} {es : List (Event κ ν ε)}
  {key : κ} {f n : Nat}

theorem Settled.step
    (h : s.Settled f)
    (hstep : Step mode s e t) :
    t.Settled f := by
  obtain ⟨fl, hfl, hsettled⟩ := h
  obtain ⟨fl', hfl', hevolves⟩ := hstep.persists hfl
  exact ⟨fl', hfl', hsettled.imp hevolves.done hevolves.abandoned⟩

/-- The release of a waiter. -/
theorem Inv.keeps_releaseWaiter
    (h : s.Inv)
    (hactive : s.active key = some f) {f' : Nat} {fl : Flight κ ν ε}
    (hfl : s.flights[f']? = some fl) :
    Keeps s (s.releaseWaiter f' fl) key
        (if fl.waiters - 1 = 0 ∧ fl.done = false ∧ fl.key = key then 1 else 0) ∨
      (s.releaseWaiter f' fl).Settled f := by
  rw [releaseWaiter_eq]
  split
  case isTrue hkept =>
    refine .inl ⟨rfl, ?_⟩
    rw [if_neg]
    · rfl
    · rintro ⟨hlast, hrunning, -⟩
      rw [hrunning] at hkept
      simp [hlast] at hkept
  case isFalse hlast =>
    rw [not_or, not_not, Bool.not_eq_true] at hlast
    by_cases hsame : f = f'
    · subst hsame
      refine .inr ⟨{ fl with waiters := fl.waiters - 1, abandoned := true }, ?_, .inr rfl⟩
      change (s.flights.modify f _)[f]? = _
      rw [List.getElem?_modify_eq, hfl]
      rfl
    · refine .inl ⟨?_, ?_⟩
      · change s.vacate f' fl key = _
        rw [h.vacate_eq hfl, hactive, if_neg]
        exact fun heq => hsame (Option.some.inj heq)
      · change (s.state.bumpVersion fl.key).version key = _
        rw [CacheState.bumpVersion_version]
        by_cases hkey : fl.key = key
        · rw [if_pos hkey.symm, if_pos ⟨hlast.1, hlast.2, hkey⟩, hkey]
        · rw [if_neg (Ne.symm hkey), if_neg fun hall => hkey hall.2.2]
          rfl

/-- Which releases abandon a flight of a key. -/
theorem abandons_release
    {c f' : Nat} {result : CallResult ν ε} {fl : Flight κ ν ε}
    (hcall : s.calls[c]? = some (.leaving f' result))
    (hfl : s.flights[f']? = some fl) :
    (s.abandons key (.release c)).toNat =
      if fl.waiters - 1 = 0 ∧ fl.done = false ∧ fl.key = key then 1 else 0 := by
  simp only [abandons, taskToCancel, hcall, hfl]
  by_cases hlast : fl.waiters - 1 ≠ 0 ∨ fl.done = true
  · rw [if_pos hlast, if_neg]
    · rfl
    · rintro ⟨hzero, hrunning, -⟩
      simp [hzero, hrunning] at hlast
  · rw [if_neg hlast]
    rw [not_or, not_not, Bool.not_eq_true] at hlast
    by_cases hkey : fl.key = key
    · simp [hfl, hlast, hkey]
    · simp [hfl, hkey]

/-- **What a step does to the active flight of a key, if it does not mutate the key.** -/
theorem Inv.keeps_step
    (h : s.Inv)
    (hactive : s.active key = some f)
    (hkept : ¬ e.mutates key)
    (hstep : Step mode s e t) :
    Keeps s t key (s.abandons key e).toNat ∨ t.Settled f := by
  have hfinished := hstep
  unfold Step at hstep
  cases e with
  | get key' reading =>
      obtain rfl := Option.some.inj hstep
      cases reading with
      | error error =>
          exact .inl (.refl s key)
      | ok tick =>
          exact .inl (h.keeps_get hactive key' tick)
  | set key' value ttlNs reading =>
      obtain rfl := Option.some.inj hstep
      exact .inl (h.keeps_set hactive (Ne.symm hkept) value ttlNs reading)
  | invalidate key' reading =>
      obtain rfl := Option.some.inj hstep
      cases reading with
      | error error =>
          exact .inl (.refl s key)
      | ok tick =>
          exact .inl (h.keeps_invalidate hactive (Ne.symm hkept) tick)
  | clear reading =>
      obtain rfl := Option.some.inj hstep
      cases reading with
      | error error =>
          exact .inl (.refl s key)
      | ok tick =>
          exact absurd trivial hkept
  | size reading =>
      obtain rfl := Option.some.inj hstep
      cases reading with
      | error error =>
          exact .inl (.refl s key)
      | ok tick =>
          exact .inl (h.keeps_size hactive tick)
  | stats reading =>
      obtain rfl := Option.some.inj hstep
      cases reading with
      | error error =>
          exact .inl (.refl s key)
      | ok tick =>
          exact .inl (h.keeps_size hactive tick)
  | getOrLoad key' ttlNs reading taskFailure =>
      obtain rfl := Option.some.inj hstep
      exact .inl (h.keeps_getOrLoad hactive mode key' ttlNs reading taskFailure)
  | startLoader f' =>
      simp only [FlightCache.step] at hstep
      split at hstep
      · obtain rfl := Option.some.inj hstep
        exact .inl ⟨rfl, rfl⟩
      · cases hstep
  | loaderEnds f' outcome =>
      simp only [FlightCache.step] at hstep
      split at hstep
      · obtain rfl := Option.some.inj hstep
        exact .inl ⟨rfl, rfl⟩
      · cases hstep
  | complete f' reading =>
      simp only [FlightCache.step] at hstep
      split at hstep
      case h_1 fl hfl =>
          split at hstep
          case h_1 outcome hloaded =>
              obtain rfl := Option.some.inj hstep
              by_cases hsame : f = f'
              · subst hsame
                obtain ⟨fl', hfl', -⟩ := hfinished.persists hfl
                refine .inr ⟨fl', hfl', .inl ?_⟩
                cases h.flightMove hfinished hfl' with
                | kept _ _ _ htask =>
                    exact absurd rfl htask
                | ended _ _ hphase _ _ =>
                    rw [Flight.done, hphase]
              · exact .inl (h.keeps_complete hactive hfl hsame mode outcome reading)
          case h_2 =>
              cases hstep
      case h_2 =>
          cases hstep
  | loseTask f' =>
      simp only [FlightCache.step] at hstep
      split at hstep
      · split at hstep
        · obtain rfl := Option.some.inj hstep
          exact .inl ⟨rfl, rfl⟩
        · obtain rfl := Option.some.inj hstep
          exact .inl ⟨rfl, rfl⟩
        · cases hstep
      · cases hstep
  | wake c =>
      obtain ⟨calls, rfl⟩ := calls_of_wakeCall hstep
      exact .inl ⟨rfl, rfl⟩
  | cancel c =>
      simp only [FlightCache.step] at hstep
      split at hstep
      · obtain ⟨calls, rfl⟩ := calls_of_cancelCall hstep
        exact .inl ⟨rfl, rfl⟩
      · cases hstep
  | release c =>
      simp only [FlightCache.step] at hstep
      split at hstep
      case isFalse =>
          cases hstep
      case isTrue =>
          unfold releaseCall at hstep
          split at hstep
          case h_2 =>
              cases hstep
          case h_1 f' result hcall =>
              obtain ⟨fl, hfl, rfl⟩ := Option.map_eq_some_iff.mp hstep
              rw [abandons_release hcall hfl]
              rcases h.keeps_releaseWaiter hactive hfl with hkeeps | ⟨fl', hfl', hsettled⟩
              · exact .inl ⟨hkeeps.active, hkeeps.version⟩
              · exact .inr ⟨fl', hfl', hsettled⟩

/-- The lead of the version after one more step. -/
theorem Holds.step
    (h : s.Holds key f n)
    (hinv : s.Inv)
    (hkept : ¬ e.mutates key)
    (hstep : Step mode s e t) :
    t.Holds key f (n + (s.abandons key e).toNat) ∨ t.Settled f := by
  obtain ⟨fl, hfl, hversion⟩ := h.version
  obtain ⟨fl', hfl', hevolves⟩ := hstep.persists hfl
  refine (hinv.keeps_step h.active hkept hstep).imp (fun hkeeps => ⟨?_, fl', hfl', ?_⟩) id
  · exact hkeeps.active.trans h.active
  · rw [hkeeps.version, hversion, hevolves.version, Nat.add_assoc]

/-- The lead of the version after a run. -/
theorem Holds.run
    (h : s.Holds key f n)
    (hinv : s.Inv)
    (hkept : ∀ e ∈ es, ¬ e.mutates key)
    (hrun : Run (Step mode) s es t) :
    t.Holds key f (n + abandonments mode key s es) ∨ t.Settled f := by
  induction hrun generalizing n with
  | nil =>
      exact .inl h
  | @cons s m t e es hstep hrest ih =>
      have hlater : ∀ e ∈ es, ¬ e.mutates key := fun e he => hkept e (List.mem_cons_of_mem _ he)
      rw [abandonments, show s.step mode e = some m from hstep]
      dsimp only
      rcases h.step hinv (hkept e List.mem_cons_self) hstep with hholds | hsettled
      · rw [← Nat.add_assoc]
        exact ih hholds (hinv.step hstep) hlater
      · exact .inr (hrest.invariant (I := fun s => s.Settled f)
          (fun _ _ _ hs hst => hs.step hst) hsettled)

/-- A new flight holds its key, at the version of the key. -/
theorem holds_new
    {ttlNs : Nat} {reading : Except ε Int} {taskFailure : Option ε}
    (hstep : Step mode s (.getOrLoad key ttlNs reading taskFailure) t)
    (hgrows : s.flights.length < t.flights.length) :
    t.Holds key s.flights.length 0 ∨ t.Settled s.flights.length := by
  obtain rfl := Option.some.inj hstep
  obtain ⟨state, result, heq⟩ | ⟨tick, -, ⟨f, -, heq⟩ | ⟨-, -, -, ⟨error, -, -, heq⟩ | heq⟩⟩ :=
    getOrLoad_cases mode s key ttlNs reading taskFailure
  · rw [heq] at hgrows
    exact absurd hgrows (lt_irrefl _)
  · rw [heq] at hgrows
    refine absurd hgrows (not_lt.mpr (le_of_eq ?_))
    dsimp only
    split
    · exact List.length_modify _ _ _
    · rfl
  · -- the task could not be created, and the flight is over
    have hfl := getElem?_launch mode (s.get key tick).2 key ttlNs s.flights.length
    rw [if_pos (show s.flights.length = (s.get key tick).2.flights.length from rfl)] at hfl
    rw [heq]
    refine .inr ⟨{ (s.get key tick).2.newFlight mode key ttlNs with
      phase := .finished (.error error) }, ?_, .inl rfl⟩
    change (FlightCache.modifyFlight _ _ _).flights[_]? = _
    rw [getElem?_modifyFlight, if_pos rfl, (retire_rest _ _ _).2.1, hfl]
    rfl
  · have hfl := getElem?_launch mode (s.get key tick).2 key ttlNs s.flights.length
    rw [if_pos (show s.flights.length = (s.get key tick).2.flights.length from rfl)] at hfl
    rw [heq]
    exact .inl ⟨Function.update_self _ _ _, _, hfl, rfl⟩

end Steps

/-! ## Publication -/

section Publication

variable {mode : Mode} {s t : FlightCache κ ν ε} {key : κ} {f n : Nat} {fl : Flight κ ν ε}
  {value : ν}

/-- The active flight of a key may publish when the version is the one it was created with. -/
theorem Holds.canPublish_iff
    (h : s.Holds key f n)
    (hinv : s.Inv)
    (hfl : s.flights[f]? = some fl) :
    s.canPublish mode f fl = true ↔ n = 0 := by
  obtain ⟨fl', hfl', hspec⟩ := hinv.active key f h.active
  obtain rfl := Option.some.inj (hfl.symm.trans hfl')
  obtain ⟨fl', hfl', hversion⟩ := h.version
  obtain rfl := Option.some.inj (hfl.symm.trans hfl')
  have hcurrent : s.isCurrent f fl = true ↔ n = 0 := by
    simp [isCurrent, hspec.superseded, hspec.epoch, hspec.key_eq, h.active, hversion]
  cases mode with
  | sync =>
      exact hcurrent
  | async =>
      rw [canPublish, hspec.abandoned]
      exact hcurrent

/-- The completion of the active flight of a key writes the value, or leaves the key absent. -/
theorem Holds.stored_iff
    {tick : Int}
    (h : s.Holds key f n)
    (hinv : s.Inv)
    (hfl : s.flights[f]? = some fl)
    (hloaded : fl.phase = .loaded (.ok value))
    (hstep : Step mode s (.complete f (.ok tick)) t) :
    (∃ entry, t.state.entries.lookup key = some entry ∧ entry.value = value) ↔ n = 0 := by
  obtain ⟨fl', hfl', hspec⟩ := hinv.active key f h.active
  obtain rfl := Option.some.inj (hfl.symm.trans hfl')
  obtain rfl : fl.key = key := hspec.key_eq
  have hfinish : ∀ u : FlightCache κ ν ε,
      (u.finish f fl (.ok value)).state.entries = u.state.entries := by
    intro u
    change (u.retire f fl).state.entries = _
    rw [retire_state, CacheState.dropUnusedVersion_entries]
  simp only [Step, FlightCache.step, hfl, hloaded] at hstep
  obtain rfl := Option.some.inj hstep
  have hpublishes : s.canPublish mode f fl = true ↔ n = 0 := h.canPublish_iff hinv hfl
  rw [← hpublishes]
  unfold complete
  dsimp only
  by_cases hpublish : s.canPublish mode f fl = true
  · rw [if_pos hpublish, hfinish]
    have hstored := CacheState.newEntry_mem_store (s.state.clampTick tick).2 fl.key value fl.ttlNs
      (s.state.clampTick tick).1 s.ownedKeys
    exact iff_of_true ⟨_, OrderedDict.lookup_eq_some.mpr hstored, rfl⟩ hpublish
  · rw [if_neg hpublish, hfinish, hspec.absent]
    refine iff_of_false ?_ hpublish
    rintro ⟨entry, hentry, -⟩
    cases hentry

end Publication

/--
**A flight that nothing overtook publishes when no other flight of its key was abandoned since it
was created, and only then.**
-/
theorem published_iff
    (mode : Mode) (maxSize : Nat) (hpos : 0 < maxSize) (maxInflight : Nat)
    (before es : List (Event κ ν ε)) (key : κ) (ttlNs : Nat) (reading : Except ε Int)
    (taskFailure : Option ε) (s t u v : FlightCache κ ν ε) (fl : Flight κ ν ε) (value : ν)
    (tick : Int)
    (hbefore : Run (Step mode) (init maxSize hpos maxInflight) before s)
    (hcreate : Step mode s (.getOrLoad key ttlNs reading taskFailure) t)
    (hgrows : s.flights.length < t.flights.length)
    (hrun : Run (Step mode) t es u)
    (hkept : ∀ e ∈ es, ¬ e.mutates key)
    (hfl : u.flights[s.flights.length]? = some fl)
    (hloaded : fl.phase = .loaded (.ok value))
    (habandoned : fl.abandoned = false)
    (hcomplete : Step mode u (.complete s.flights.length (.ok tick)) v) :
    (∃ entry, v.state.entries.lookup key = some entry ∧ entry.value = value) ↔
      abandonments mode key t es = 0 := by
  have hinv : s.Inv := (run_inv hbefore).1
  have hrunning : ¬ u.Settled s.flights.length := by
    rintro ⟨fl', hfl', hsettled⟩
    obtain rfl := Option.some.inj (hfl.symm.trans hfl')
    rw [Flight.done, hloaded, habandoned] at hsettled
    simp at hsettled
  have hnew : t.Holds key s.flights.length 0 := by
    refine (holds_new hcreate hgrows).resolve_right fun hsettled => hrunning ?_
    exact hrun.invariant (I := fun s' => s'.Settled s.flights.length)
      (fun _ _ _ h hst => h.step hst) hsettled
  have hholds := (hnew.run (hinv.step hcreate) hkept hrun).resolve_right hrunning
  rw [Nat.zero_add] at hholds
  have hinv' : u.Inv := hrun.invariant (fun _ _ _ h hst => h.step hst) (hinv.step hcreate)
  exact hholds.stored_iff hinv' hfl hloaded hcomplete

/-- A load that is superseded, in a cache that has a successor for it. -/
def superseded : List (Event Nat Nat String) :=
  [.getOrLoad 7 5 (.ok 0) none, .startLoader 0, .invalidate 7 (.ok 1)]

/-- Without an abandonment the successor publishes. -/
theorem published_iff_successor :
    ∃ s t u v : FlightCache Nat Nat String,
      Run (Step .async) (init 1 Nat.one_pos 2) superseded s ∧
        Step .async s (.getOrLoad 7 5 (.ok 2) none) t ∧
        Run (Step .async) t [.startLoader 1, .loaderEnds 1 (.ok 9)] u ∧
        Step .async u (.complete 1 (.ok 3)) v ∧
        ((∃ entry, v.state.entries.lookup 7 = some entry ∧ entry.value = 9) ↔
          abandonments .async 7 t [.startLoader 1, .loaderEnds 1 (.ok 9)] = 0) :=
  let before : { s // Run (Step .async) (init 1 Nat.one_pos 2) superseded s } :=
    ⟨_, .cons rfl (.cons rfl (.cons rfl (.nil _)))⟩
  let created : { t // Step .async before.1 (.getOrLoad 7 5 (.ok 2) none) t } := ⟨_, rfl⟩
  let after : { u // Run (Step .async) created.1 [.startLoader 1, .loaderEnds 1 (.ok 9)] u } :=
    ⟨_, .cons rfl (.cons rfl (.nil _))⟩
  let completed : { v // Step .async after.1 (.complete 1 (.ok 3)) v } := ⟨_, rfl⟩
  ⟨_, _, _, _, before.2, created.2, after.2, completed.2,
    published_iff .async 1 Nat.one_pos 2 superseded _ 7 5 (.ok 2) none _ _ _ _ _ 9 3
      before.2 created.2 Nat.one_lt_two after.2 (by simp [Event.mutates]) rfl rfl rfl completed.2⟩

/-- The only caller of the superseded load is cancelled, and the successor does not publish. -/
theorem published_iff_abandoned :
    ∃ s t u v : FlightCache Nat Nat String, ∃ fl : Flight Nat Nat String,
      Run (Step .async) (init 1 Nat.one_pos 2) superseded s ∧
        Step .async s (.getOrLoad 7 5 (.ok 2) none) t ∧
        Run (Step .async) t [.cancel 0, .release 0, .startLoader 1, .loaderEnds 1 (.ok 9)] u ∧
        (∀ e ∈ [.cancel 0, .release 0, .startLoader 1, .loaderEnds 1 (.ok 9)],
          ¬ Event.mutates 7 (e : Event Nat Nat String)) ∧
        u.flights[1]? = some fl ∧ fl.phase = .loaded (.ok 9) ∧ fl.abandoned = false ∧
        Step .async u (.complete 1 (.ok 3)) v ∧
        v.state.entries.lookup 7 = none :=
  ⟨_, _, _, _, _, .cons rfl (.cons rfl (.cons rfl (.nil _))), rfl,
    .cons rfl (.cons rfl (.cons rfl (.cons rfl (.nil _)))), by simp [Event.mutates],
    rfl, rfl, rfl, rfl, rfl⟩

end FlightCache
end Cache
end Bluetape
