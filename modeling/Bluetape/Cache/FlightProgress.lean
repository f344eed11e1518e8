import Bluetape.Cache.FlightInvariant

/-!
# The course of a flight

What a step can do to a flight and to a call that are already there.

* `Flight.Evolves`: marks are never taken back, and phases only move on;
* `getOrLoad_cases`: what the lock section of `get_or_load` can do;
* `Step.persists`, `Step.moves`: every flight evolves and every call moves on, in every step.
-/

namespace Bluetape
namespace Cache

open Base

variable {κ ν ε : Type}

/-- How far a phase is. -/
def Phase.rank : Phase ν ε → Nat
  | created => 0
  | loading => 1
  | loaded _ => 2
  | finished _ | lost => 3

/-- A later stage of the same flight. -/
structure Flight.Evolves (fl fl' : Flight κ ν ε) : Prop where
  key : fl'.key = fl.key
  epoch : fl'.epoch = fl.epoch
  version : fl'.version = fl.version
  ttlNs : fl'.ttlNs = fl.ttlNs
  superseded : fl.superseded = true → fl'.superseded = true
  abandoned : fl.abandoned = true → fl'.abandoned = true
  phase : fl'.phase = fl.phase ∨ fl.phase.rank < fl'.phase.rank

namespace Flight

variable {fl fl' fl'' : Flight κ ν ε}

theorem done_iff
    (fl : Flight κ ν ε) :
    fl.done = true ↔ fl.phase.rank = 3 := by
  unfold done
  cases fl.phase <;> simp [Phase.rank]

theorem Evolves.refl
    (fl : Flight κ ν ε) :
    fl.Evolves fl :=
  ⟨rfl, rfl, rfl, rfl, id, id, .inl rfl⟩

theorem Evolves.trans
    (h : fl.Evolves fl')
    (h' : fl'.Evolves fl'') :
    fl.Evolves fl'' where
  key := h'.key.trans h.key
  epoch := h'.epoch.trans h.epoch
  version := h'.version.trans h.version
  ttlNs := h'.ttlNs.trans h.ttlNs
  superseded := h'.superseded ∘ h.superseded
  abandoned := h'.abandoned ∘ h.abandoned
  phase := by
    rcases h'.phase with heq | hlt
    · rw [heq]
      exact h.phase
    · rcases h.phase with heq' | hlt'
      · rw [← heq']
        exact .inr hlt
      · exact .inr (hlt'.trans hlt)

theorem rank_le_three
    (phase : Phase ν ε) :
    phase.rank ≤ 3 := by
  cases phase <;> simp [Phase.rank]

/-- A flight that is done stays as it ended. -/
theorem Evolves.phase_of_done
    (h : fl.Evolves fl')
    (hdone : fl.done = true) :
    fl'.phase = fl.phase := by
  have hrank := (done_iff fl).mp hdone
  have hle := rank_le_three fl'.phase
  exact h.phase.resolve_right (by omega)

theorem Evolves.done
    (h : fl.Evolves fl')
    (hdone : fl.done = true) :
    fl'.done = true := by
  rw [done_iff, h.phase_of_done hdone]
  exact (done_iff fl).mp hdone

end Flight

namespace FlightCache

/-- Every flight is still there, at a later stage. -/
def Persists (s t : FlightCache κ ν ε) : Prop :=
  ∀ ⦃f : Nat⦄ ⦃fl : Flight κ ν ε⦄, s.flights[f]? = some fl →
    ∃ fl', t.flights[f]? = some fl' ∧ fl.Evolves fl'

variable {s t u : FlightCache κ ν ε}

theorem Persists.trans
    (h : Persists s t)
    (h' : Persists t u) :
    Persists s u := by
  intro f fl hfl
  obtain ⟨fl', hfl', hevolves⟩ := h hfl
  obtain ⟨fl'', hfl'', hevolves'⟩ := h' hfl'
  exact ⟨fl'', hfl'', hevolves.trans hevolves'⟩

theorem persists_of_eq
    (hflights : t.flights = s.flights) :
    Persists s t := by
  intro f fl hfl
  exact ⟨fl, hflights ▸ hfl, .refl fl⟩

theorem persists_modifyFlight
    {f : Nat} {g : Flight κ ν ε → Flight κ ν ε}
    (hg : ∀ fl, s.flights[f]? = some fl → fl.Evolves (g fl)) :
    Persists s (s.modifyFlight f g) := by
  intro f' fl hfl
  rw [getElem?_modifyFlight]
  split
  case isTrue heq =>
    subst heq
    exact ⟨g fl, by rw [hfl]; rfl, hg fl hfl⟩
  case isFalse =>
    exact ⟨fl, hfl, .refl fl⟩

theorem persists_supersedeAll
    (s : FlightCache κ ν ε) :
    Persists s s.supersedeAll := by
  intro f fl hfl
  refine ⟨if s.active fl.key = some f then { fl with superseded := true } else fl, ?_, ?_⟩
  · simp [supersedeAll, hfl]
  · split
    · exact ⟨rfl, rfl, rfl, rfl, fun _ => rfl, id, .inl rfl⟩
    · exact .refl fl

variable [DecidableEq κ]

theorem persists_supersede
    (s : FlightCache κ ν ε) (key : κ) :
    Persists s (s.supersede key) := by
  unfold supersede
  split
  · exact persists_of_eq rfl
  · rename_i f _
    have hmodify : Persists ({ s with active := Function.update s.active key none } :
        FlightCache κ ν ε) _ :=
      persists_modifyFlight (f := f) (g := fun fl => { fl with superseded := true })
        fun _ _ => ⟨rfl, rfl, rfl, rfl, fun _ => rfl, id, .inl rfl⟩
    exact hmodify

theorem persists_launch
    (mode : Mode) (s : FlightCache κ ν ε) (key : κ) (ttlNs : Nat) :
    Persists s (s.launch mode key ttlNs) := by
  intro f fl hfl
  refine ⟨fl, ?_, .refl fl⟩
  rw [getElem?_launch, if_neg (List.getElem?_eq_some_iff.mp hfl).1.ne]
  exact hfl

/-- The end of a flight that was still running. -/
theorem persists_finish
    {f : Nat} {fl : Flight κ ν ε}
    (hrunning : ∀ fl, s.flights[f]? = some fl → fl.done = false) (outcome : Except ε ν) :
    Persists s (s.finish f fl outcome) := by
  refine (persists_of_eq (retire_rest s f fl).2.1).trans (persists_modifyFlight ?_)
  intro fl' hfl'
  rw [(retire_rest s f fl).2.1] at hfl'
  have hrank := mt (Flight.done_iff fl').mpr (Bool.eq_false_iff.mp (hrunning fl' hfl'))
  have hle := Flight.rank_le_three fl'.phase
  refine ⟨rfl, rfl, rfl, rfl, id, id, .inr ?_⟩
  change fl'.phase.rank < 3
  omega

theorem persists_releaseWaiter
    (s : FlightCache κ ν ε) (f : Nat) (fl : Flight κ ν ε) :
    Persists s (s.releaseWaiter f fl) := by
  rw [releaseWaiter_eq]
  split
  · exact persists_modifyFlight fun _ _ => ⟨rfl, rfl, rfl, rfl, id, id, .inl rfl⟩
  · have hmodify : Persists ({ s with active := s.vacate f fl } : FlightCache κ ν ε) _ :=
      persists_modifyFlight (f := f) (g := fun fl =>
        { fl with waiters := fl.waiters - 1, abandoned := true })
        fun _ _ => ⟨rfl, rfl, rfl, rfl, id, fun _ => rfl, .inl rfl⟩
    exact hmodify

/-- The lock section of `get_or_load`: an answer at once, a join, or a new flight. -/
theorem getOrLoad_cases
    (mode : Mode) (s : FlightCache κ ν ε) (key : κ) (ttlNs : Nat)
    (reading : Except ε Int) (taskFailure : Option ε) :
    (∃ state result, s.getOrLoad mode key ttlNs reading taskFailure =
      ({ s with state := state } : FlightCache κ ν ε).addCall (.ended result)) ∨
    ∃ tick, reading = .ok tick ∧
      ((∃ f, s.active key = some f ∧ s.getOrLoad mode key ttlNs reading taskFailure =
          (let joined := (s.get key tick).2.count fun c =>
              { c with coalescedWaiters := c.coalescedWaiters + 1 }
            if mode = .async then
              joined.modifyFlight f fun fl => { fl with waiters := fl.waiters + 1 }
            else joined).addCall (.waiting f)) ∨
        s.active key = none ∧ (s.get key tick).1 = none ∧
          s.owned.length < s.maxInflight ∧
          ((∃ error, mode = .async ∧ taskFailure = some error ∧
              s.getOrLoad mode key ttlNs reading taskFailure =
              (((s.get key tick).2.launch mode key ttlNs).finish s.flights.length
                ((s.get key tick).2.newFlight mode key ttlNs) (.error error)).addCall
                  (.ended (.raised error))) ∨
            s.getOrLoad mode key ttlNs reading taskFailure =
              (((s.get key tick).2.launch mode key ttlNs).count fun c =>
                { c with loads := c.loads + 1 }).addCall (.waiting s.flights.length))) := by
  unfold getOrLoad
  cases reading with
  | error error =>
      exact .inl ⟨s.state, .raised error, rfl⟩
  | ok tick =>
      cases hfound : (s.get key tick).1 with
      | some value =>
          refine .inl ⟨(s.get key tick).2.state, .returned value, ?_⟩
          simp only [hfound]
          rfl
      | none =>
          simp only [hfound]
          have hactive : (s.get key tick).2.active = s.active := rfl
          cases hkey : s.active key with
          | some f =>
              refine .inr ⟨tick, rfl, .inl ⟨f, rfl, ?_⟩⟩
              rw [hactive, hkey]
          | none =>
              rw [hactive, hkey]
              dsimp only
              by_cases hroom : s.maxInflight ≤ s.owned.length
              · refine .inl ⟨((s.get key tick).2.count fun c =>
                  { c with loadRejections := c.loadRejections + 1 }).state, .rejected, ?_⟩
                rw [if_pos]
                · rfl
                · exact hroom
              · refine .inr ⟨tick, rfl, .inr ⟨rfl, hfound, not_le.mp hroom, ?_⟩⟩
                rw [if_neg]
                · cases mode with
                  | sync =>
                      exact .inr rfl
                  | async =>
                      cases taskFailure with
                      | some error =>
                          exact .inl ⟨error, rfl, rfl, rfl⟩
                      | none =>
                          exact .inr rfl
                · exact hroom

theorem persists_complete
    (mode : Mode) {f : Nat} {fl : Flight κ ν ε}
    (hfl : s.flights[f]? = some fl)
    (hrunning : fl.done = false) (outcome : Except ε ν) (reading : Except ε Int) :
    Persists s (s.complete mode f fl outcome reading) := by
  have hfinish : ∀ u : FlightCache κ ν ε, u.flights = s.flights → ∀ outcome,
      Persists s (u.finish f fl outcome) := by
    intro u hflights outcome
    refine (persists_of_eq hflights).trans (persists_finish ?_ outcome)
    intro fl' hfl'
    rw [hflights] at hfl'
    obtain rfl := Option.some.inj (hfl.symm.trans hfl')
    exact hrunning
  unfold complete
  cases outcome with
  | error error =>
      exact hfinish (s.count fun c => { c with loadFailures := c.loadFailures + 1 }) rfl _
  | ok value =>
      dsimp only
      split
      case isTrue =>
        cases reading with
        | error error =>
            exact hfinish s rfl _
        | ok tick =>
            exact hfinish (s.store fl.key value fl.ttlNs tick) rfl _
      case isFalse =>
        exact hfinish s rfl _

theorem persists_getOrLoad
    (mode : Mode) (s : FlightCache κ ν ε) (key : κ) (ttlNs : Nat)
    (reading : Except ε Int) (taskFailure : Option ε) :
    Persists s (s.getOrLoad mode key ttlNs reading taskFailure) := by
  obtain ⟨state, result, heq⟩ | ⟨tick, -, ⟨f, -, heq⟩ | ⟨-, -, -, ⟨error, -, -, heq⟩ | heq⟩⟩ :=
    getOrLoad_cases mode s key ttlNs reading taskFailure
  · rw [heq]
    exact persists_of_eq rfl
  · rw [heq]
    dsimp only
    split
    · have hmodify : Persists s _ :=
        persists_modifyFlight (f := f) (g := fun fl => { fl with waiters := fl.waiters + 1 })
          fun _ _ => ⟨rfl, rfl, rfl, rfl, id, id, .inl rfl⟩
      exact hmodify
    · exact persists_of_eq rfl
  · rw [heq]
    refine (persists_of_eq (t := (s.get key tick).2) rfl).trans
      ((persists_launch mode _ key ttlNs).trans (Persists.trans (persists_finish ?_ _)
        (persists_of_eq rfl)))
    intro fl hfl
    rw [getElem?_launch,
      if_pos (show s.flights.length = (s.get key tick).2.flights.length from rfl)] at hfl
    obtain rfl := Option.some.inj hfl
    rfl
  · rw [heq]
    exact (persists_of_eq (t := (s.get key tick).2) rfl).trans
      ((persists_launch mode _ key ttlNs).trans (persists_of_eq rfl))

omit [DecidableEq κ] in
/-- A phase moves on. -/
theorem persists_advance
    {f : Nat} {phase : Phase ν ε}
    (hlater : ∀ fl, s.flights[f]? = some fl → fl.phase.rank < phase.rank) :
    Persists s (s.advance f phase) :=
  persists_modifyFlight fun fl hfl => ⟨rfl, rfl, rfl, rfl, id, id, .inr (hlater fl hfl)⟩

/-- **Every flight evolves.** -/
theorem Step.persists
    {mode : Mode} {e : Event κ ν ε}
    (hstep : Step mode s e t) :
    Persists s t := by
  unfold Step at hstep
  cases e with
  | get key reading =>
      obtain rfl := Option.some.inj hstep
      cases reading <;> exact persists_of_eq rfl
  | set key value ttlNs reading =>
      obtain rfl := Option.some.inj hstep
      cases reading with
      | error error =>
          exact persists_supersede s key
      | ok tick =>
          exact (persists_supersede s key).trans (persists_of_eq rfl)
  | invalidate key reading =>
      obtain rfl := Option.some.inj hstep
      cases reading with
      | error error =>
          exact persists_of_eq rfl
      | ok tick =>
          exact (persists_of_eq (s := s) rfl).trans
            ((persists_supersede { s with state := (s.state.clampTick tick).2 } key).trans
              (persists_of_eq rfl))
  | clear reading =>
      obtain rfl := Option.some.inj hstep
      cases reading with
      | error error =>
          exact persists_of_eq rfl
      | ok tick =>
          exact (persists_of_eq (s := s) rfl).trans
            ((persists_supersedeAll { s with state := (s.state.clampTick tick).2 }).trans
              (persists_of_eq rfl))
  | size reading =>
      obtain rfl := Option.some.inj hstep
      cases reading <;> exact persists_of_eq rfl
  | stats reading =>
      obtain rfl := Option.some.inj hstep
      cases reading <;> exact persists_of_eq rfl
  | getOrLoad key ttlNs reading taskFailure =>
      obtain rfl := Option.some.inj hstep
      exact persists_getOrLoad mode s key ttlNs reading taskFailure
  | startLoader f =>
      simp only [FlightCache.step] at hstep
      split at hstep
      case h_1 hphase =>
          obtain rfl := Option.some.inj hstep
          obtain ⟨fl, hfl, hcreated⟩ := Option.map_eq_some_iff.mp hphase
          refine persists_advance fun fl' hfl' => ?_
          obtain rfl := Option.some.inj (hfl.symm.trans hfl')
          rw [hcreated]
          exact Nat.zero_lt_one
      case h_2 =>
          cases hstep
  | loaderEnds f outcome =>
      simp only [FlightCache.step] at hstep
      split at hstep
      case h_1 hphase =>
          obtain rfl := Option.some.inj hstep
          obtain ⟨fl, hfl, hloading⟩ := Option.map_eq_some_iff.mp hphase
          refine persists_advance fun fl' hfl' => ?_
          obtain rfl := Option.some.inj (hfl.symm.trans hfl')
          rw [hloading]
          exact Nat.one_lt_two
      case h_2 =>
          cases hstep
  | complete f reading =>
      simp only [FlightCache.step] at hstep
      split at hstep
      case h_1 fl hfl =>
          split at hstep
          case h_1 outcome hloaded =>
              obtain rfl := Option.some.inj hstep
              exact persists_complete mode hfl (by simp [Flight.done, hloaded]) outcome reading
          case h_2 =>
              cases hstep
      case h_2 =>
          cases hstep
  | loseTask f =>
      simp only [FlightCache.step] at hstep
      split at hstep
      case h_1 fl hfl =>
          split at hstep
          case h_1 hphase _ =>
              obtain rfl := Option.some.inj hstep
              refine persists_advance fun fl' hfl' => ?_
              obtain rfl := Option.some.inj (hfl.symm.trans hfl')
              rw [hphase]
              exact Nat.succ_pos 2
          case h_2 hphase _ =>
              obtain rfl := Option.some.inj hstep
              refine persists_advance fun fl' hfl' => ?_
              obtain rfl := Option.some.inj (hfl.symm.trans hfl')
              rw [hphase]
              exact Nat.lt_succ_self 2
          case h_3 =>
              cases hstep
      case h_2 =>
          cases hstep
  | wake c =>
      obtain ⟨calls, rfl⟩ := calls_of_wakeCall hstep
      exact persists_of_eq rfl
  | cancel c =>
      simp only [FlightCache.step] at hstep
      split at hstep
      · obtain ⟨calls, rfl⟩ := calls_of_cancelCall hstep
        exact persists_of_eq rfl
      · cases hstep
  | release c =>
      simp only [FlightCache.step] at hstep
      split at hstep
      · obtain ⟨f, fl, -, calls, rfl⟩ := calls_of_releaseCall hstep
        exact (persists_releaseWaiter s f fl).trans (persists_of_eq rfl)
      · cases hstep

/-! ## Calls -/

/-- What a step does to a call that is already there. -/
inductive CallMove (mode : Mode) (s : FlightCache κ ν ε) (c : Nat) :
    Event κ ν ε → Call ν ε → Call ν ε → Prop
  | stays (e : Event κ ν ε) (call : Call ν ε) :
      CallMove mode s c e call call
  | woken {f : Nat} {outcome : Except ε ν}
      (hfinished : s.flights[f]?.map Flight.phase = some (.finished outcome))
      (hasync : mode = .async) :
      CallMove mode s c (.wake c) (.waiting f) (.leaving f (.ofOutcome outcome))
  | answered {f : Nat} {outcome : Except ε ν}
      (hfinished : s.flights[f]?.map Flight.phase = some (.finished outcome))
      (hsync : mode = .sync) :
      CallMove mode s c (.wake c) (.waiting f) (.ended (.ofOutcome outcome))
  | lost {f : Nat}
      (hlost : s.flights[f]?.map Flight.phase = some .lost) :
      CallMove mode s c (.wake c) (.waiting f) (.leaving f .cancelled)
  | cancelled (f : Nat) :
      CallMove mode s c (.cancel c) (.waiting f) (.leaving f .cancelled)
  | cancelledAgain (f : Nat) (result : CallResult ν ε) :
      CallMove mode s c (.cancel c) (.leaving f result) (.leaving f .cancelled)
  | released (f : Nat) (result : CallResult ν ε) :
      CallMove mode s c (.release c) (.leaving f result) (.ended result)

@[simp] theorem calls_supersede
    (s : FlightCache κ ν ε) (key : κ) :
    (s.supersede key).calls = s.calls := by
  unfold supersede
  split <;> rfl

@[simp] theorem calls_complete
    (mode : Mode) (s : FlightCache κ ν ε) (f : Nat) (fl : Flight κ ν ε) (outcome : Except ε ν)
    (reading : Except ε Int) :
    (s.complete mode f fl outcome reading).calls = s.calls := by
  unfold complete
  cases outcome with
  | error error =>
      exact (retire_rest _ f fl).2.2.2
  | ok value =>
      dsimp only
      split
      · cases reading with
        | error error =>
            exact (retire_rest _ f fl).2.2.2
        | ok tick =>
            exact (retire_rest _ f fl).2.2.2
      · exact (retire_rest _ f fl).2.2.2

@[simp] theorem calls_releaseWaiter
    (s : FlightCache κ ν ε) (f : Nat) (fl : Flight κ ν ε) :
    (s.releaseWaiter f fl).calls = s.calls := by
  rw [releaseWaiter_eq]
  split <;> rfl

/-- A call of `get_or_load` is added; the others stay. -/
theorem calls_getOrLoad
    (mode : Mode) (s : FlightCache κ ν ε) (key : κ) (ttlNs : Nat)
    (reading : Except ε Int) (taskFailure : Option ε) :
    ∃ call, (s.getOrLoad mode key ttlNs reading taskFailure).calls = s.calls ++ [call] ∧
      ∀ f, call = .waiting f → s.active key = some f ∨ f = s.flights.length := by
  obtain ⟨state, result, heq⟩ | ⟨tick, -, ⟨f, hactive, heq⟩ | ⟨-, -, -, ⟨error, -, -, heq⟩ | heq⟩⟩
    := getOrLoad_cases mode s key ttlNs reading taskFailure
  · rw [heq]
    exact ⟨_, rfl, nofun⟩
  · rw [heq]
    refine ⟨.waiting f, ?_, ?_⟩
    · dsimp only
      split <;> rfl
    · rintro _ ⟨⟩
      exact .inl hactive
  · rw [heq]
    refine ⟨.ended (.raised error), ?_, nofun⟩
    exact congrArg (· ++ _) (retire_rest _ _ _).2.2.2
  · rw [heq]
    refine ⟨.waiting s.flights.length, rfl, ?_⟩
    rintro _ ⟨⟩
    exact .inr rfl

omit [DecidableEq κ] in
/-- A step that leaves the calls alone. -/
theorem moves_of_eq
    {mode : Mode} {e : Event κ ν ε} {c : Nat} {call : Call ν ε}
    (hcalls : t.calls = s.calls)
    (hcall : s.calls[c]? = some call) :
    ∃ call', t.calls[c]? = some call' ∧ CallMove mode s c e call call' :=
  ⟨call, hcalls ▸ hcall, .stays e call⟩

omit [DecidableEq κ] in
/-- One call moves; the others stay. -/
theorem moves_setCall
    {mode : Mode} {e : Event κ ν ε} {c c' : Nat} {call call' moved : Call ν ε}
    (hcall : s.calls[c]? = some call)
    (hcall' : s.calls[c']? = some call')
    (hcalls : t.calls = s.calls.set c moved)
    (hmove : CallMove mode s c e call moved) :
    ∃ call'', t.calls[c']? = some call'' ∧ CallMove mode s c' e call' call'' := by
  by_cases hc : c = c'
  · subst hc
    obtain rfl := Option.some.inj (hcall.symm.trans hcall')
    refine ⟨moved, ?_, hmove⟩
    rw [hcalls, List.getElem?_set_self (List.getElem?_eq_some_iff.mp hcall).1]
  · refine ⟨call', ?_, .stays e call'⟩
    rw [hcalls, List.getElem?_set_ne hc]
    exact hcall'

/-- **Every call moves on.** -/
theorem Step.moves
    {mode : Mode} {e : Event κ ν ε} {c : Nat} {call : Call ν ε}
    (hstep : Step mode s e t)
    (hcall : s.calls[c]? = some call) :
    ∃ call', t.calls[c]? = some call' ∧ CallMove mode s c e call call' := by
  unfold Step at hstep
  cases e with
  | get key reading =>
      obtain rfl := Option.some.inj hstep
      cases reading <;> exact moves_of_eq rfl hcall
  | set key value ttlNs reading =>
      obtain rfl := Option.some.inj hstep
      cases reading with
      | error error =>
          exact moves_of_eq (calls_supersede s key) hcall
      | ok tick =>
          exact moves_of_eq (calls_supersede s key) hcall
  | invalidate key reading =>
      obtain rfl := Option.some.inj hstep
      cases reading with
      | error error =>
          exact moves_of_eq rfl hcall
      | ok tick =>
          exact moves_of_eq
            (calls_supersede { s with state := (s.state.clampTick tick).2 } key) hcall
  | clear reading =>
      obtain rfl := Option.some.inj hstep
      cases reading <;> exact moves_of_eq rfl hcall
  | size reading =>
      obtain rfl := Option.some.inj hstep
      cases reading <;> exact moves_of_eq rfl hcall
  | stats reading =>
      obtain rfl := Option.some.inj hstep
      cases reading <;> exact moves_of_eq rfl hcall
  | getOrLoad key ttlNs reading taskFailure =>
      obtain rfl := Option.some.inj hstep
      obtain ⟨new, hcalls, -⟩ := calls_getOrLoad mode s key ttlNs reading taskFailure
      refine ⟨call, ?_, .stays _ call⟩
      rw [hcalls, List.getElem?_append_left (List.getElem?_eq_some_iff.mp hcall).1]
      exact hcall
  | startLoader f =>
      simp only [FlightCache.step] at hstep
      split at hstep
      case h_1 =>
          obtain rfl := Option.some.inj hstep
          exact moves_of_eq rfl hcall
      case h_2 =>
          cases hstep
  | loaderEnds f outcome =>
      simp only [FlightCache.step] at hstep
      split at hstep
      case h_1 =>
          obtain rfl := Option.some.inj hstep
          exact moves_of_eq rfl hcall
      case h_2 =>
          cases hstep
  | complete f reading =>
      simp only [FlightCache.step] at hstep
      split at hstep
      case h_1 fl _ =>
          split at hstep
          case h_1 outcome _ =>
              obtain rfl := Option.some.inj hstep
              exact moves_of_eq (calls_complete mode s f fl outcome reading) hcall
          case h_2 =>
              cases hstep
      case h_2 =>
          cases hstep
  | loseTask f =>
      simp only [FlightCache.step] at hstep
      split at hstep
      case h_1 =>
          split at hstep
          case h_1 =>
              obtain rfl := Option.some.inj hstep
              exact moves_of_eq rfl hcall
          case h_2 =>
              obtain rfl := Option.some.inj hstep
              exact moves_of_eq rfl hcall
          case h_3 =>
              cases hstep
      case h_2 =>
          cases hstep
  | wake c' =>
      simp only [FlightCache.step, wakeCall] at hstep
      split at hstep
      case h_1 f hwaiting =>
          split at hstep
          case h_1 outcome hfinished =>
              cases mode with
              | sync =>
                  obtain rfl := Option.some.inj hstep
                  exact moves_setCall hwaiting hcall rfl (.answered hfinished rfl)
              | async =>
                  obtain rfl := Option.some.inj hstep
                  exact moves_setCall hwaiting hcall rfl (.woken hfinished rfl)
          case h_2 hlost =>
              obtain rfl := Option.some.inj hstep
              exact moves_setCall hwaiting hcall rfl (.lost hlost)
          case h_3 =>
              cases hstep
      case h_2 =>
          cases hstep
  | cancel c' =>
      simp only [FlightCache.step, cancelCall] at hstep
      split at hstep
      case isTrue =>
          split at hstep
          case h_1 f hwaiting =>
              obtain rfl := Option.some.inj hstep
              exact moves_setCall hwaiting hcall rfl (.cancelled f)
          case h_2 f result hleaving =>
              obtain rfl := Option.some.inj hstep
              exact moves_setCall hleaving hcall rfl (.cancelledAgain f result)
          case h_3 =>
              cases hstep
      case isFalse =>
          cases hstep
  | release c' =>
      simp only [FlightCache.step, releaseCall] at hstep
      split at hstep
      case isTrue =>
          split at hstep
          case h_1 f result hleaving =>
              obtain ⟨fl, -, rfl⟩ := Option.map_eq_some_iff.mp hstep
              exact moves_setCall hleaving hcall
                (congrArg (fun calls => calls.set c' (.ended result)) (calls_releaseWaiter s f fl))
                (.released f result)
          case h_2 =>
              cases hstep
      case isFalse =>
          cases hstep

end FlightCache
end Cache
end Bluetape
