import Bluetape.Cache.FlightProgress

/-!
# Waiters

Who has joined a flight and not yet released it.

* `Shape`: what a step does to the calls, to the waiter counts and to the owned flights;
* `Counted`: the count of a flight is the number of its joined calls;
* `Counted.step`: every step of the asyncio cache keeps it.
-/

namespace Bluetape
namespace Cache

open Base

namespace FlightCache

variable {κ ν ε : Type}

/-- Every flight keeps its waiters and its phase, and none is abandoned. -/
def Retains (s t : FlightCache κ ν ε) : Prop :=
  ∀ f : Nat, t.flights[f]?.map (fun fl => (fl.waiters, fl.abandoned, fl.phase)) =
    s.flights[f]?.map fun fl => (fl.waiters, fl.abandoned, fl.phase)

/-- The flight whose task takes the step. -/
def task? : Event κ ν ε → Option Nat
  | .startLoader f | .loaderEnds f _ | .complete f _ | .loseTask f => some f
  | _ => none

/-- What a step does to the calls, to the waiters and phases, and to the owned flights. -/
inductive Shape (mode : Mode) (s t : FlightCache κ ν ε) : Event κ ν ε → Prop
  | silent {e : Event κ ν ε} (htask : task? e = none)
      (hcalls : t.calls = s.calls) (howned : t.owned = s.owned) (hretains : Retains s t) :
      Shape mode s t e
  | started {f : Nat} {fl : Flight κ ν ε}
      (hfl : s.flights[f]? = some fl) (hphase : fl.phase = .created)
      (hcalls : t.calls = s.calls) (howned : t.owned = s.owned)
      (hflights : t.flights = s.flights.modify f fun fl => { fl with phase := .loading }) :
      Shape mode s t (.startLoader f)
  | loaded {f : Nat} {fl : Flight κ ν ε} {outcome : Except ε ν}
      (hfl : s.flights[f]? = some fl) (hphase : fl.phase = .loading)
      (hcalls : t.calls = s.calls) (howned : t.owned = s.owned)
      (hflights : t.flights = s.flights.modify f fun fl =>
        { fl with phase := .loaded outcome }) :
      Shape mode s t (.loaderEnds f outcome)
  | completed {f : Nat} {fl : Flight κ ν ε} {reading : Except ε Int}
      {outcome outcome' : Except ε ν}
      (hfl : s.flights[f]? = some fl) (hphase : fl.phase = .loaded outcome)
      (hcalls : t.calls = s.calls) (howned : t.owned = s.owned.erase f)
      (hflights : t.flights = s.flights.modify f fun fl =>
        { fl with phase := .finished outcome' })
      (hsame : outcome' = outcome ∨ s.active fl.key = some f) :
      Shape mode s t (.complete f reading)
  | lost {f : Nat} {fl : Flight κ ν ε}
      (hfl : s.flights[f]? = some fl) (hrunning : fl.done = false)
      (habandoned : fl.abandoned = true)
      (hcalls : t.calls = s.calls) (howned : t.owned = s.owned)
      (hflights : t.flights = s.flights.modify f fun fl => { fl with phase := .lost }) :
      Shape mode s t (.loseTask f)
  | answered {key : κ} {ttlNs : Nat} {reading : Except ε Int} {taskFailure : Option ε}
      {result : CallResult ν ε}
      (hcalls : t.calls = s.calls ++ [.ended result]) (howned : t.owned = s.owned)
      (hflights : t.flights = s.flights) :
      Shape mode s t (.getOrLoad key ttlNs reading taskFailure)
  | joins {key : κ} {ttlNs : Nat} {reading : Except ε Int} {taskFailure : Option ε} {f : Nat}
      (hactive : s.active key = some f)
      (hcalls : t.calls = s.calls ++ [.waiting f]) (howned : t.owned = s.owned)
      (hflights : t.flights = s.flights.modify f fun fl =>
        { fl with waiters := fl.waiters + if mode = .async then 1 else 0 }) :
      Shape mode s t (.getOrLoad key ttlNs reading taskFailure)
  | opens {key : κ} {ttlNs : Nat} {reading : Except ε Int} {taskFailure : Option ε}
      {fl : Flight κ ν ε}
      (hwaiters : fl.waiters = if mode = .async then 1 else 0) (hphase : fl.phase = .created)
      (hkept : fl.abandoned = false)
      (hcalls : t.calls = s.calls ++ [.waiting s.flights.length])
      (howned : t.owned = s.owned ++ [s.flights.length])
      (hflights : t.flights = s.flights ++ [fl]) :
      Shape mode s t (.getOrLoad key ttlNs reading taskFailure)
  | fails {key : κ} {ttlNs : Nat} {reading : Except ε Int} {error : ε} {fl : Flight κ ν ε}
      (hwaiters : fl.waiters = 1) (hphase : fl.phase = .finished (.error error))
      (hkept : fl.abandoned = false)
      (hcalls : t.calls = s.calls ++ [.ended (.raised error)])
      (howned : t.owned = s.owned) (hflights : t.flights = s.flights ++ [fl]) :
      Shape mode s t (.getOrLoad key ttlNs reading (some error))
  | moved {e : Event κ ν ε} {c : Nat} {call call' : Call ν ε} (htask : task? e = none)
      (hcall : s.calls[c]? = some call) (hcalls : t.calls = s.calls.set c call')
      (hkept : call'.flight? = call.flight? ∨ mode = .sync ∧ call'.flight? = none)
      (howned : t.owned = s.owned) (hflights : t.flights = s.flights) :
      Shape mode s t e
  | released {c f : Nat} {fl : Flight κ ν ε} {result : CallResult ν ε}
      (hasync : mode = .async)
      (hcall : s.calls[c]? = some (.leaving f result)) (hfl : s.flights[f]? = some fl)
      (hcalls : t.calls = s.calls.set c (.ended result)) (howned : t.owned = s.owned)
      (hflights : t.flights = s.flights.modify f fun fl' =>
        { fl' with
          waiters := fl'.waiters - 1
          abandoned := fl'.abandoned || decide (fl.waiters - 1 = 0 ∧ fl.done = false) }) :
      Shape mode s t (.release c)

section Retains

variable {s t u : FlightCache κ ν ε}

theorem retains_of_eq
    (hflights : t.flights = s.flights) :
    Retains s t := by
  intro f
  rw [hflights]

theorem retains_modifyFlight
    {f : Nat} {g : Flight κ ν ε → Flight κ ν ε}
    (hg : ∀ fl, s.flights[f]? = some fl →
      ((g fl).waiters, (g fl).abandoned, (g fl).phase) = (fl.waiters, fl.abandoned, fl.phase)) :
    Retains s (s.modifyFlight f g) := by
  intro f'
  rw [getElem?_modifyFlight]
  split
  case isTrue heq =>
    subst heq
    cases hfl : s.flights[f]? with
    | none =>
        rfl
    | some fl =>
        exact congrArg some (hg fl hfl)
  case isFalse =>
    rfl

theorem retains_supersedeAll
    (s : FlightCache κ ν ε) :
    Retains s s.supersedeAll := by
  intro f
  simp only [supersedeAll, List.getElem?_mapIdx, Option.map_map]
  congr 1
  funext fl
  dsimp only [Function.comp_apply]
  split <;> rfl

variable [DecidableEq κ]

theorem retains_supersede
    (s : FlightCache κ ν ε) (key : κ) :
    Retains s (s.supersede key) := by
  unfold supersede
  split
  · exact retains_of_eq rfl
  · rename_i f _
    have hmodify : Retains ({ s with active := Function.update s.active key none } :
        FlightCache κ ν ε) _ :=
      retains_modifyFlight (f := f) (g := fun fl => { fl with superseded := true })
        fun _ _ => rfl
    exact hmodify

theorem owned_supersede
    (s : FlightCache κ ν ε) (key : κ) :
    (s.supersede key).owned = s.owned := by
  unfold supersede
  split <;> rfl

end Retains

section Shape

variable [DecidableEq κ] {s t : FlightCache κ ν ε}

omit [DecidableEq κ] in
/-- The end of the last flight. -/
theorem modify_concat
    (flights : List (Flight κ ν ε)) (fl : Flight κ ν ε) (g : Flight κ ν ε → Flight κ ν ε) :
    (flights ++ [fl]).modify flights.length g = flights ++ [g fl] := by
  induction flights with
  | nil =>
      rfl
  | cons first flights ih =>
      exact congrArg (first :: ·) ih

theorem Inv.shape_getOrLoad
    (h : s.Inv) (mode : Mode) (key : κ) (ttlNs : Nat) (reading : Except ε Int)
    (taskFailure : Option ε) :
    Shape mode s (s.getOrLoad mode key ttlNs reading taskFailure)
      (.getOrLoad key ttlNs reading taskFailure) := by
  obtain ⟨state, result, heq⟩ |
      ⟨tick, -, ⟨f, hactive, heq⟩ | ⟨-, -, -, ⟨error, rfl, rfl, heq⟩ | heq⟩⟩ :=
    getOrLoad_cases mode s key ttlNs reading taskFailure
  · rw [heq]
    exact .answered rfl rfl rfl
  · rw [heq]
    dsimp only
    cases mode with
    | sync =>
        refine .joins hactive rfl rfl ?_
        exact (List.modify_id _ _).symm
    | async =>
        exact .joins hactive rfl rfl rfl
  · rw [heq]
    have hcalls : (((s.get key tick).2.launch .async key ttlNs).finish s.flights.length
        ((s.get key tick).2.newFlight .async key ttlNs) (.error error)).calls = s.calls :=
      (retire_rest _ _ _).2.2.2
    have hphase : ({ (s.get key tick).2.newFlight .async key ttlNs with
        phase := .finished (.error error) } : Flight κ ν ε).phase = .finished (.error error) :=
      rfl
    refine .fails rfl hphase rfl (congrArg (· ++ [Call.ended (.raised error)]) hcalls) ?_ ?_
    · have hnew : s.flights.length ∉ s.owned := fun hmem =>
        lt_irrefl _ (h.lt_length hmem)
      refine (retire_rest _ _ _).1.trans ?_
      change (s.owned ++ [s.flights.length]).erase s.flights.length = s.owned
      rw [List.erase_append_right _ hnew]
      simp
    · change (List.modify _ _ _) = _
      rw [(retire_rest _ _ _).2.1]
      exact modify_concat s.flights _ _
  · rw [heq]
    exact .opens rfl rfl rfl rfl rfl rfl

theorem shape_complete
    (mode : Mode) {f : Nat} {fl : Flight κ ν ε} {outcome : Except ε ν}
    (hfl : s.flights[f]? = some fl)
    (hphase : fl.phase = .loaded outcome) (reading : Except ε Int) :
    Shape mode s (s.complete mode f fl outcome reading) (.complete f reading) := by
  have hfinish : ∀ (u : FlightCache κ ν ε) (outcome' : Except ε ν), u.flights = s.flights →
      u.calls = s.calls → u.owned = s.owned →
      (outcome' = outcome ∨ s.active fl.key = some f) →
      Shape mode s (u.finish f fl outcome') (.complete f reading) := by
    intro u outcome' hflights hcalls howned hsame
    obtain ⟨howned', hflights', -, hcalls'⟩ := retire_rest u f fl
    have hends : (u.finish f fl outcome').flights = s.flights.modify f fun fl =>
        { fl with phase := .finished outcome' } :=
      congrArg (List.modify · f _) (hflights'.trans hflights)
    exact .completed hfl hphase (hcalls'.trans hcalls)
      (howned'.trans (congrArg (·.erase f) howned)) hends hsame
  unfold complete
  cases outcome with
  | error error =>
      exact hfinish (s.count fun c => { c with loadFailures := c.loadFailures + 1 }) _ rfl rfl rfl
        (.inl rfl)
  | ok value =>
      dsimp only
      split
      case isTrue hpublish =>
        cases reading with
        | error error =>
            exact hfinish s _ rfl rfl rfl (.inr (active_of_canPublish hpublish))
        | ok tick =>
            exact hfinish (s.store fl.key value fl.ttlNs tick) _ rfl rfl rfl (.inl rfl)
      case isFalse =>
        exact hfinish s _ rfl rfl rfl (.inl rfl)

/-- The waiters after a release, and whether it abandons the flight. -/
theorem flights_releaseWaiter
    (s : FlightCache κ ν ε) (f : Nat) (fl : Flight κ ν ε) :
    (s.releaseWaiter f fl).flights = s.flights.modify f fun fl' =>
      { fl' with
        waiters := fl'.waiters - 1
        abandoned := fl'.abandoned || decide (fl.waiters - 1 = 0 ∧ fl.done = false) } := by
  rw [releaseWaiter_eq]
  split
  case isTrue hstays =>
    have hnot : ¬(fl.waiters - 1 = 0 ∧ fl.done = false) := by
      rintro ⟨hzero, hrunning⟩
      rcases hstays with hne | hdone
      · exact hne hzero
      · rw [hdone] at hrunning
        cases hrunning
    simp only [hnot, decide_false, Bool.or_false]
    rfl
  case isFalse hlast =>
    have hyes : fl.waiters - 1 = 0 ∧ fl.done = false := by
      simpa using hlast
    simp only [hyes, and_self, decide_true, Bool.or_true]
    rfl

/-- **What a step does.** -/
theorem Inv.shape
    {mode : Mode} {e : Event κ ν ε}
    (h : s.Inv)
    (hstep : Step mode s e t) :
    Shape mode s t e := by
  unfold Step at hstep
  cases e with
  | get key reading =>
      obtain rfl := Option.some.inj hstep
      cases reading <;> exact .silent rfl rfl rfl (retains_of_eq rfl)
  | set key value ttlNs reading =>
      obtain rfl := Option.some.inj hstep
      cases reading <;>
        exact .silent rfl (calls_supersede s key) (owned_supersede s key) (retains_supersede s key)
  | invalidate key reading =>
      obtain rfl := Option.some.inj hstep
      cases reading with
      | error error =>
          exact .silent rfl rfl rfl (retains_of_eq rfl)
      | ok tick =>
          exact .silent rfl (calls_supersede { s with state := (s.state.clampTick tick).2 } key)
            (owned_supersede { s with state := (s.state.clampTick tick).2 } key)
            (retains_supersede { s with state := (s.state.clampTick tick).2 } key)
  | clear reading =>
      obtain rfl := Option.some.inj hstep
      cases reading with
      | error error =>
          exact .silent rfl rfl rfl (retains_of_eq rfl)
      | ok tick =>
          exact .silent rfl rfl rfl
            (retains_supersedeAll { s with state := (s.state.clampTick tick).2 })
  | size reading =>
      obtain rfl := Option.some.inj hstep
      cases reading <;> exact .silent rfl rfl rfl (retains_of_eq rfl)
  | stats reading =>
      obtain rfl := Option.some.inj hstep
      cases reading <;> exact .silent rfl rfl rfl (retains_of_eq rfl)
  | getOrLoad key ttlNs reading taskFailure =>
      obtain rfl := Option.some.inj hstep
      exact h.shape_getOrLoad mode key ttlNs reading taskFailure
  | startLoader f =>
      simp only [FlightCache.step] at hstep
      split at hstep
      case h_1 hphase =>
          obtain rfl := Option.some.inj hstep
          obtain ⟨fl, hfl, hcreated⟩ := Option.map_eq_some_iff.mp hphase
          exact .started hfl hcreated rfl rfl rfl
      case h_2 =>
          cases hstep
  | loaderEnds f outcome =>
      simp only [FlightCache.step] at hstep
      split at hstep
      case h_1 hphase =>
          obtain rfl := Option.some.inj hstep
          obtain ⟨fl, hfl, hloading⟩ := Option.map_eq_some_iff.mp hphase
          exact .loaded hfl hloading rfl rfl rfl
      case h_2 =>
          cases hstep
  | complete f reading =>
      simp only [FlightCache.step] at hstep
      split at hstep
      case h_1 fl hfl =>
          split at hstep
          case h_1 outcome hloaded =>
              obtain rfl := Option.some.inj hstep
              exact shape_complete mode hfl hloaded reading
          case h_2 =>
              cases hstep
      case h_2 =>
          cases hstep
  | loseTask f =>
      simp only [FlightCache.step] at hstep
      split at hstep
      case h_1 fl hfl =>
          split at hstep
          case h_1 hphase habandoned =>
              obtain rfl := Option.some.inj hstep
              exact .lost hfl (by simp [Flight.done, hphase]) habandoned rfl rfl rfl
          case h_2 hphase habandoned =>
              obtain rfl := Option.some.inj hstep
              exact .lost hfl (by simp [Flight.done, hphase]) habandoned rfl rfl rfl
          case h_3 =>
              cases hstep
      case h_2 =>
          cases hstep
  | wake c =>
      simp only [FlightCache.step, wakeCall] at hstep
      split at hstep
      case h_1 f hwaiting =>
          split at hstep
          case h_1 outcome _ =>
              cases mode with
              | sync =>
                  obtain rfl := Option.some.inj hstep
                  exact .moved rfl hwaiting rfl (.inr ⟨rfl, rfl⟩) rfl rfl
              | async =>
                  obtain rfl := Option.some.inj hstep
                  exact .moved rfl hwaiting rfl (.inl rfl) rfl rfl
          case h_2 =>
              obtain rfl := Option.some.inj hstep
              exact .moved rfl hwaiting rfl (.inl rfl) rfl rfl
          case h_3 =>
              cases hstep
      case h_2 =>
          cases hstep
  | cancel c =>
      simp only [FlightCache.step, cancelCall] at hstep
      split at hstep
      case isTrue =>
          split at hstep
          case h_1 f hwaiting =>
              obtain rfl := Option.some.inj hstep
              exact .moved rfl hwaiting rfl (.inl rfl) rfl rfl
          case h_2 f result hleaving =>
              obtain rfl := Option.some.inj hstep
              exact .moved rfl hleaving rfl (.inl rfl) rfl rfl
          case h_3 =>
              cases hstep
      case isFalse =>
          cases hstep
  | release c =>
      simp only [FlightCache.step, releaseCall] at hstep
      split at hstep
      case isTrue =>
          split at hstep
          case h_1 f result hleaving =>
              obtain ⟨fl, hfl, rfl⟩ := Option.map_eq_some_iff.mp hstep
              refine .released ‹_› hleaving hfl ?_ ?_ (flights_releaseWaiter s f fl)
              · exact congrArg (fun calls => calls.set c (.ended result))
                  (calls_releaseWaiter s f fl)
              · change (s.releaseWaiter f fl).owned = s.owned
                rw [releaseWaiter_eq]
                split <;> rfl
          case h_2 =>
              cases hstep
      case isFalse =>
          cases hstep

end Shape

/-! ## Accounting -/

section Flights

variable {s t : FlightCache κ ν ε}

/-- A flight after one flight was changed. -/
theorem flight_of_modify
    {f f' : Nat} {g : Flight κ ν ε → Flight κ ν ε} {fl' : Flight κ ν ε}
    (hflights : t.flights = s.flights.modify f g)
    (hfl' : t.flights[f']? = some fl') :
    (f = f' ∧ ∃ fl, s.flights[f]? = some fl ∧ fl' = g fl) ∨
      f ≠ f' ∧ s.flights[f']? = some fl' := by
  rw [hflights, List.getElem?_modify] at hfl'
  split at hfl'
  case isTrue heq =>
    subst heq
    obtain ⟨fl, hfl, rfl⟩ := Option.map_eq_some_iff.mp hfl'
    exact .inl ⟨rfl, fl, hfl, rfl⟩
  case isFalse hne =>
    obtain ⟨fl, hfl, rfl⟩ := Option.map_eq_some_iff.mp hfl'
    exact .inr ⟨hne, hfl⟩

/-- A flight after one flight was added. -/
theorem flight_of_append
    {f : Nat} {fl new : Flight κ ν ε}
    (hflights : t.flights = s.flights ++ [new])
    (hfl : t.flights[f]? = some fl) :
    (f = s.flights.length ∧ fl = new) ∨ f < s.flights.length ∧ s.flights[f]? = some fl := by
  have hlt := (List.getElem?_eq_some_iff.mp hfl).1
  rw [hflights] at hfl hlt
  rw [List.length_append, List.length_singleton] at hlt
  rcases Nat.lt_or_ge f s.flights.length with hold | hge
  · rw [List.getElem?_append_left hold] at hfl
    exact .inr ⟨hold, hfl⟩
  · obtain rfl : f = s.flights.length := by omega
    rw [List.getElem?_concat_length] at hfl
    exact .inl ⟨rfl, (Option.some.inj hfl).symm⟩

/-- A flight whose waiters and phase were kept. -/
theorem flight_of_retains
    {f : Nat} {fl : Flight κ ν ε}
    (hretains : Retains s t)
    (hfl : t.flights[f]? = some fl) :
    ∃ fl', s.flights[f]? = some fl' ∧ fl.waiters = fl'.waiters ∧
      fl.abandoned = fl'.abandoned ∧ fl.phase = fl'.phase := by
  have hsame := hretains f
  rw [hfl] at hsame
  obtain ⟨fl', hfl', heq⟩ := Option.map_eq_some_iff.mp hsame.symm
  obtain ⟨hwaiters, heq⟩ := Prod.mk.inj heq
  obtain ⟨habandoned, hphase⟩ := Prod.mk.inj heq
  exact ⟨fl', hfl', hwaiters.symm, habandoned.symm, hphase.symm⟩

/-- No flight comes or goes. -/
theorem length_of_retains
    (hretains : Retains s t) :
    t.flights.length = s.flights.length := by
  refine Nat.le_antisymm ?_ ?_
  · refine List.getElem?_eq_none_iff.mp ?_
    have hsame := hretains s.flights.length
    rw [List.getElem?_eq_none le_rfl] at hsame
    simpa using hsame
  · refine List.getElem?_eq_none_iff.mp ?_
    have hsame := hretains t.flights.length
    rw [List.getElem?_eq_none le_rfl] at hsame
    simpa using hsame.symm

end Flights

/-- The calls that have joined a flight and not yet released it. -/
def joined (s : FlightCache κ ν ε) (f : Nat) : Nat :=
  s.calls.countP fun call => decide (call.flight? = some f)

section Joined

variable {s t : FlightCache κ ν ε}

theorem joined_of_eq
    (hcalls : t.calls = s.calls) (f : Nat) :
    t.joined f = s.joined f := by
  rw [joined, joined, hcalls]

theorem joined_append
    {call : Call ν ε}
    (hcalls : t.calls = s.calls ++ [call]) (f : Nat) :
    t.joined f = s.joined f + if call.flight? = some f then 1 else 0 := by
  rw [joined, joined, hcalls, List.countP_append, List.countP_singleton]
  simp

/-- A call that moves is counted where it is now. -/
theorem joined_set
    {c : Nat} {call call' : Call ν ε}
    (hcall : s.calls[c]? = some call)
    (hcalls : t.calls = s.calls.set c call') (f : Nat) :
    t.joined f + (if call.flight? = some f then 1 else 0) =
      s.joined f + if call'.flight? = some f then 1 else 0 := by
  obtain ⟨hlt, hget⟩ := List.getElem?_eq_some_iff.mp hcall
  have hpositive : call.flight? = some f → 0 < s.joined f := by
    intro hflight
    exact List.countP_pos_iff.mpr ⟨call, List.mem_of_getElem? hcall, decide_eq_true hflight⟩
  rw [joined, hcalls, List.countP_set hlt, hget]
  simp only [decide_eq_true_eq]
  change s.joined f - _ + _ + _ = _
  by_cases hflight : call.flight? = some f
  · have := hpositive hflight
    simp only [hflight, if_true]
    omega
  · simp [hflight]

theorem joined_wait
    {f : Nat}
    (hcalls : t.calls = s.calls ++ [.waiting f]) (f' : Nat) :
    t.joined f' = s.joined f' + if f = f' then 1 else 0 := by
  rw [joined_append hcalls]
  simp only [Call.flight?, Option.some.injEq]

theorem joined_release
    {c f : Nat} {result : CallResult ν ε}
    (hcall : s.calls[c]? = some (.leaving f result))
    (hcalls : t.calls = s.calls.set c (.ended result)) (f' : Nat) :
    t.joined f' + (if f = f' then 1 else 0) = s.joined f' := by
  have hset := joined_set hcall hcalls f'
  simpa only [Call.flight?, Option.some.injEq, reduceCtorEq, if_false, Nat.add_zero] using hset

end Joined

/-- The waiters of a flight are its joined calls; a flight without a task has none. -/
structure Counted (taskless : Nat → Prop) (s : FlightCache κ ν ε) : Prop where
  known : ∀ call ∈ s.calls, ∀ f, call.flight? = some f → f < s.flights.length
  waiters : ∀ f fl, s.flights[f]? = some fl →
    fl.waiters = s.joined f ∨
      taskless f ∧ fl.done = true ∧ fl.waiters = 1 ∧ s.joined f = 0

namespace Counted

variable {taskless : Nat → Prop} {s t : FlightCache κ ν ε}

theorem mono
    {taskless' : Nat → Prop}
    (h : Counted taskless s)
    (himp : ∀ f fl, s.flights[f]? = some fl → fl.done = true → taskless f → taskless' f) :
    Counted taskless' s where
  known := h.known
  waiters := fun f fl hfl =>
    (h.waiters f fl hfl).imp id fun hnone => ⟨himp f fl hfl hnone.2.1 hnone.1, hnone.2⟩

/-- The waiters of a running flight. -/
theorem waiters_of_running
    (h : Counted taskless s) {f : Nat} {fl : Flight κ ν ε}
    (hfl : s.flights[f]? = some fl)
    (hrunning : fl.done = false) :
    fl.waiters = s.joined f := by
  refine (h.waiters f fl hfl).resolve_right fun hnone => ?_
  rw [hrunning] at hnone
  cases hnone.2.1

/-- Nobody has joined a flight that is not there. -/
theorem joined_eq_zero
    (h : Counted taskless s) {f : Nat}
    (hf : s.flights.length ≤ f) :
    s.joined f = 0 := by
  refine List.countP_eq_zero.mpr fun call hcall hflight => ?_
  exact absurd (h.known call hcall f (of_decide_eq_true hflight)) (not_lt.mpr hf)

/-- A step that changes neither the calls' flights nor the waiters. -/
theorem retained
    (h : Counted taskless s)
    (hknown : ∀ call ∈ t.calls, ∀ f, call.flight? = some f →
      ∃ call' ∈ s.calls, call'.flight? = some f)
    (hjoined : ∀ f, t.joined f = s.joined f)
    (hlength : t.flights.length = s.flights.length)
    (hwaiters : ∀ (f : Nat) (fl : Flight κ ν ε), t.flights[f]? = some fl →
      ∃ fl', s.flights[f]? = some fl' ∧ fl.waiters = fl'.waiters ∧
        (fl'.done = true → fl.done = true)) :
    Counted taskless t := by
  constructor
  · intro call hcall f hflight
    obtain ⟨call', hcall', hflight'⟩ := hknown call hcall f hflight
    rw [hlength]
    exact h.known call' hcall' f hflight'
  · intro f fl hfl
    obtain ⟨fl', hfl', hwaiters', hdone⟩ := hwaiters f fl hfl
    rw [hwaiters', hjoined]
    exact (h.waiters f fl' hfl').imp id (And.imp id (And.imp hdone id))

/-- A running flight goes on to another phase. -/
theorem advances
    (h : Counted taskless s) {f : Nat} {fl : Flight κ ν ε} {phase : Phase ν ε}
    (hfl : s.flights[f]? = some fl)
    (hrunning : fl.done = false)
    (hcalls : t.calls = s.calls)
    (hflights : t.flights = s.flights.modify f fun fl => { fl with phase := phase }) :
    Counted taskless t := by
  refine h.retained (fun call hcall f hflight => ⟨call, hcalls ▸ hcall, hflight⟩)
    (joined_of_eq hcalls) ?_ ?_
  · rw [hflights, List.length_modify]
  · intro f' fl' hfl'
    rcases flight_of_modify hflights hfl' with ⟨rfl, fl'', hfl'', rfl⟩ | ⟨-, hold⟩
    · obtain rfl := Option.some.inj (hfl.symm.trans hfl'')
      refine ⟨fl, hfl, rfl, fun hdone => ?_⟩
      rw [hrunning] at hdone
      cases hdone
    · exact ⟨fl', hold, rfl, id⟩

/-- A call is added to flights that do not change. -/
theorem answered
    (h : Counted taskless s) {result : CallResult ν ε}
    (hcalls : t.calls = s.calls ++ [.ended result])
    (hflights : t.flights = s.flights) :
    Counted taskless t := by
  refine h.retained ?_ ?_ (congrArg List.length hflights) ?_
  · intro call hcall f hflight
    rw [hcalls] at hcall
    rcases List.mem_append.mp hcall with hcall | hcall
    · exact ⟨call, hcall, hflight⟩
    · rw [List.mem_singleton.mp hcall] at hflight
      cases hflight
  · intro f
    rw [joined_append hcalls]
    rfl
  · intro f fl hfl
    exact ⟨fl, hflights ▸ hfl, rfl, id⟩

/-- A call moves, and its flight stays the same. -/
theorem moved
    (h : Counted taskless s) {c : Nat} {call call' : Call ν ε}
    (hcall : s.calls[c]? = some call)
    (hcalls : t.calls = s.calls.set c call')
    (hkept : call'.flight? = call.flight?)
    (hflights : t.flights = s.flights) :
    Counted taskless t := by
  refine h.retained ?_ ?_ (congrArg List.length hflights) ?_
  · intro called hcalled f hflight
    rw [hcalls] at hcalled
    rcases List.mem_or_eq_of_mem_set hcalled with hold | rfl
    · exact ⟨called, hold, hflight⟩
    · exact ⟨call, List.mem_of_getElem? hcall, hkept.symm.trans hflight⟩
  · intro f
    have hset := joined_set hcall hcalls f
    rw [hkept] at hset
    omega
  · intro f fl hfl
    exact ⟨fl, hflights ▸ hfl, rfl, id⟩

/-- One more waiter joins a running flight. -/
theorem joins
    (h : Counted taskless s) {f : Nat} {fl : Flight κ ν ε}
    (hfl : s.flights[f]? = some fl)
    (hrunning : fl.done = false)
    (hcalls : t.calls = s.calls ++ [.waiting f])
    (hflights : t.flights = s.flights.modify f fun fl => { fl with waiters := fl.waiters + 1 }) :
    Counted taskless t := by
  have hlength : t.flights.length = s.flights.length := by
    rw [hflights, List.length_modify]
  constructor
  · intro call hcall f' hflight
    rw [hcalls] at hcall
    rw [hlength]
    rcases List.mem_append.mp hcall with hcall | hcall
    · exact h.known call hcall f' hflight
    · rw [List.mem_singleton.mp hcall] at hflight
      obtain rfl := Option.some.inj hflight
      exact (List.getElem?_eq_some_iff.mp hfl).1
  · intro f' fl' hfl'
    rw [joined_wait hcalls]
    rcases flight_of_modify hflights hfl' with ⟨rfl, fl'', hfl'', rfl⟩ | ⟨hne, hold⟩
    · obtain rfl := Option.some.inj (hfl.symm.trans hfl'')
      have hwaiters := h.waiters_of_running hfl hrunning
      rw [if_pos rfl]
      exact .inl (congrArg (· + 1) hwaiters)
    · rw [if_neg hne]
      exact h.waiters f' fl' hold

/-- A new flight with the calls that wait for it: one, or none when it has no task. -/
theorem opens
    (h : Counted taskless s) {fl : Flight κ ν ε} {call : Call ν ε}
    (hcalls : t.calls = s.calls ++ [call])
    (hflights : t.flights = s.flights ++ [fl])
    (hflight : call.flight? = some s.flights.length ∧ fl.waiters = 1 ∨
      call.flight? = none ∧ fl.waiters = 1 ∧ fl.done = true ∧ taskless s.flights.length) :
    Counted taskless t := by
  have hlength : t.flights.length = s.flights.length + 1 := by
    rw [hflights, List.length_append]
    rfl
  have hnew := h.joined_eq_zero (le_refl s.flights.length)
  constructor
  · intro called hcalled f hf
    rw [hcalls] at hcalled
    rw [hlength]
    rcases List.mem_append.mp hcalled with hcalled | hcalled
    · exact (h.known called hcalled f hf).trans (Nat.lt_succ_self _)
    · rw [List.mem_singleton.mp hcalled] at hf
      rcases hflight with ⟨hflight, -⟩ | ⟨hflight, -⟩
      · obtain rfl := Option.some.inj (hflight.symm.trans hf)
        exact Nat.lt_succ_self _
      · rw [hflight] at hf
        cases hf
  · intro f fl' hfl'
    rw [joined_append hcalls]
    rcases flight_of_append hflights hfl' with ⟨rfl, rfl⟩ | ⟨hlt, hold⟩
    · rw [hnew]
      rcases hflight with ⟨hflight, hwaiters⟩ | ⟨hflight, hwaiters, hdone, htaskless⟩
      · rw [if_pos hflight]
        exact .inl hwaiters
      · rw [hflight]
        exact .inr ⟨htaskless, hdone, hwaiters, rfl⟩
    · have hother : call.flight? ≠ some f := by
        intro heq
        rcases hflight with ⟨hflight, -⟩ | ⟨hflight, -⟩
        · exact hlt.ne (Option.some.inj (heq.symm.trans hflight))
        · cases heq.symm.trans hflight
      rw [if_neg hother]
      exact h.waiters f fl' hold

/-- A waiter releases its flight. -/
theorem released
    (h : Counted taskless s) {c f : Nat} {fl : Flight κ ν ε} {result : CallResult ν ε}
    {g : Flight κ ν ε → Flight κ ν ε}
    (hcall : s.calls[c]? = some (.leaving f result))
    (hfl : s.flights[f]? = some fl)
    (hcalls : t.calls = s.calls.set c (.ended result))
    (hg : ∀ fl, (g fl).waiters = fl.waiters - 1)
    (hflights : t.flights = s.flights.modify f g) :
    Counted taskless t := by
  constructor
  · intro called hcalled f' hflight
    rw [hcalls] at hcalled
    rw [hflights, List.length_modify]
    rcases List.mem_or_eq_of_mem_set hcalled with hold | rfl
    · exact h.known called hold f' hflight
    · cases hflight
  · intro f' fl' hfl'
    have hrelease := joined_release hcall hcalls f'
    rcases flight_of_modify hflights hfl' with ⟨rfl, fl'', hfl'', rfl⟩ | ⟨hne, hold⟩
    · obtain rfl := Option.some.inj (hfl.symm.trans hfl'')
      rw [if_pos rfl] at hrelease
      have hwaiters := (h.waiters f fl hfl).resolve_right fun hnone => by
        have hzero := hnone.2.2.2
        omega
      refine .inl ?_
      rw [hg, hwaiters]
      omega
    · rw [if_neg hne, Nat.add_zero] at hrelease
      rw [hrelease]
      exact h.waiters f' fl' hold

/-- **Every step of the asyncio cache keeps the accounts.** -/
theorem step
    [DecidableEq κ] {e : Event κ ν ε}
    (h : Counted taskless s)
    (hinv : s.Inv)
    (hfails : ∀ key ttlNs reading error, e = .getOrLoad key ttlNs reading (some error) →
      taskless s.flights.length)
    (hstep : Step .async s e t) :
    Counted taskless t := by
  cases hinv.shape hstep with
  | silent _ hcalls _ hretains =>
      exact h.retained (fun call hcall f hflight => ⟨call, hcalls ▸ hcall, hflight⟩)
        (joined_of_eq hcalls) (length_of_retains hretains)
        fun f fl hfl => by
          obtain ⟨fl', hfl', hwaiters, -, hphase⟩ := flight_of_retains hretains hfl
          exact ⟨fl', hfl', hwaiters, fun hdone => by rwa [Flight.done, hphase]⟩
  | started hfl hphase hcalls _ hflights =>
      exact h.advances hfl (by simp [Flight.done, hphase]) hcalls hflights
  | loaded hfl hphase hcalls _ hflights =>
      exact h.advances hfl (by simp [Flight.done, hphase]) hcalls hflights
  | completed hfl hphase hcalls _ hflights _ =>
      exact h.advances hfl (by simp [Flight.done, hphase]) hcalls hflights
  | lost hfl hrunning _ hcalls _ hflights =>
      exact h.advances hfl hrunning hcalls hflights
  | answered hcalls _ hflights =>
      exact h.answered hcalls hflights
  | joins hactive hcalls _ hflights =>
      obtain ⟨fl, hfl, hspec⟩ := hinv.active _ _ hactive
      exact h.joins hfl hspec.running hcalls hflights
  | opens hwaiters _ _ hcalls _ hflights =>
      exact h.opens hcalls hflights (.inl ⟨rfl, hwaiters⟩)
  | fails hwaiters hphase _ hcalls _ hflights =>
      exact h.opens hcalls hflights (.inr
        ⟨rfl, hwaiters, by simp [Flight.done, hphase], hfails _ _ _ _ rfl⟩)
  | moved _ hcall hcalls hkept _ hflights =>
      refine h.moved hcall hcalls (hkept.resolve_right ?_) hflights
      rintro ⟨hsync, -⟩
      cases hsync
  | released _ hcall hfl hcalls _ hflights =>
      exact h.released hcall hfl hcalls (fun _ => rfl) hflights

end Counted

end FlightCache
end Cache
end Bluetape
