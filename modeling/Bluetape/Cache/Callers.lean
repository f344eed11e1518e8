import Bluetape.Base.Run
import Bluetape.Cache.Waiters

/-!
# Callers

What a flight owes to the calls that have joined it.

* `Inv.flightMove`: what a step does to the task of a flight;
* `Deserted`: nobody has joined an abandoned flight, and only the task of such a flight is lost;
* `Served.run`: a call that is not cancelled gets the outcome of its flight;
* `Sound`: what every step of both caches keeps.
-/

namespace Bluetape
namespace Cache

open Base

namespace FlightCache

variable {κ ν ε : Type} {s t : FlightCache κ ν ε}

/-- What a step does to the task of a flight. -/
inductive FlightMove (s t : FlightCache κ ν ε) (f : Nat) (fl' : Flight κ ν ε) :
    Event κ ν ε → Prop
  | kept {e : Event κ ν ε} {fl : Flight κ ν ε}
      (hfl : s.flights[f]? = some fl) (hphase : fl'.phase = fl.phase)
      (howned : f ∈ t.owned ↔ f ∈ s.owned) (htask : task? e ≠ some f) :
      FlightMove s t f fl' e
  | started {fl : Flight κ ν ε}
      (hfl : s.flights[f]? = some fl) (hcreated : fl.phase = .created)
      (hphase : fl'.phase = .loading) (howned : f ∈ t.owned ↔ f ∈ s.owned) :
      FlightMove s t f fl' (.startLoader f)
  | loaded {fl : Flight κ ν ε} {outcome : Except ε ν}
      (hfl : s.flights[f]? = some fl) (hloading : fl.phase = .loading)
      (hphase : fl'.phase = .loaded outcome) (howned : f ∈ t.owned ↔ f ∈ s.owned) :
      FlightMove s t f fl' (.loaderEnds f outcome)
  | ended {fl : Flight κ ν ε} {reading : Except ε Int} {outcome outcome' : Except ε ν}
      (hfl : s.flights[f]? = some fl) (hloaded : fl.phase = .loaded outcome)
      (hphase : fl'.phase = .finished outcome')
      (hsame : outcome' = outcome ∨ s.active fl.key = some f) (howned : f ∉ t.owned) :
      FlightMove s t f fl' (.complete f reading)
  | lost {fl : Flight κ ν ε}
      (hfl : s.flights[f]? = some fl) (hrunning : fl.done = false) (hphase : fl'.phase = .lost) :
      FlightMove s t f fl' (.loseTask f)
  | opened {key : κ} {ttlNs : Nat} {reading : Except ε Int} {taskFailure : Option ε}
      (hnew : f = s.flights.length) (hphase : fl'.phase = .created) (howned : f ∈ t.owned) :
      FlightMove s t f fl' (.getOrLoad key ttlNs reading taskFailure)
  | failed {key : κ} {ttlNs : Nat} {reading : Except ε Int} {error : ε}
      (hnew : f = s.flights.length) (hphase : fl'.phase = .finished (.error error))
      (howned : f ∉ t.owned) :
      FlightMove s t f fl' (.getOrLoad key ttlNs reading (some error))

/-- **What a step does to a flight.** -/
theorem Inv.flightMove
    [DecidableEq κ] {mode : Mode} {e : Event κ ν ε} {f : Nat} {fl' : Flight κ ν ε}
    (h : s.Inv)
    (hstep : Step mode s e t)
    (hfl' : t.flights[f]? = some fl') :
    FlightMove s t f fl' e := by
  cases h.shape hstep with
  | silent htask _ howned hretains =>
      obtain ⟨fl, hfl, -, -, hphase⟩ := flight_of_retains hretains hfl'
      exact .kept hfl hphase (by rw [howned]) (by simp [htask])
  | @started f' _ hfl hcreated _ howned hflights =>
      rcases flight_of_modify hflights hfl' with ⟨rfl, fl, hsame, rfl⟩ | ⟨hne, hold⟩
      · obtain rfl := Option.some.inj (hfl.symm.trans hsame)
        exact .started hfl hcreated rfl (by rw [howned])
      · exact .kept hold rfl (by rw [howned]) fun htask => hne (Option.some.inj htask)
  | loaded hfl hloading _ howned hflights =>
      rcases flight_of_modify hflights hfl' with ⟨rfl, fl, hsame, rfl⟩ | ⟨hne, hold⟩
      · obtain rfl := Option.some.inj (hfl.symm.trans hsame)
        exact .loaded hfl hloading rfl (by rw [howned])
      · exact .kept hold rfl (by rw [howned]) fun htask => hne (Option.some.inj htask)
  | completed hfl hloaded _ howned hflights hkept =>
      rcases flight_of_modify hflights hfl' with ⟨rfl, fl, hsame, rfl⟩ | ⟨hne, hold⟩
      · obtain rfl := Option.some.inj (hfl.symm.trans hsame)
        exact .ended hfl hloaded rfl hkept (by rw [howned]; exact h.nodup.not_mem_erase)
      · exact .kept hold rfl (by rw [howned, List.mem_erase_of_ne (Ne.symm hne)])
          fun htask => hne (Option.some.inj htask)
  | lost hfl hrunning _ _ howned hflights =>
      rcases flight_of_modify hflights hfl' with ⟨rfl, fl, hsame, rfl⟩ | ⟨hne, hold⟩
      · obtain rfl := Option.some.inj (hfl.symm.trans hsame)
        exact .lost hfl hrunning rfl
      · exact .kept hold rfl (by rw [howned]) fun htask => hne (Option.some.inj htask)
  | answered _ howned hflights =>
      exact .kept (hflights ▸ hfl') rfl (by rw [howned]) nofun
  | joins _ _ howned hflights =>
      rcases flight_of_modify hflights hfl' with ⟨rfl, fl, hfl, rfl⟩ | ⟨-, hold⟩
      · exact .kept hfl rfl (by rw [howned]) nofun
      · exact .kept hold rfl (by rw [howned]) nofun
  | opens _ hphase _ _ howned hflights =>
      rcases flight_of_append hflights hfl' with ⟨rfl, rfl⟩ | ⟨hlt, hold⟩
      · exact .opened rfl hphase (by simp [howned])
      · exact .kept hold rfl (by simp [howned, hlt.ne]) nofun
  | fails _ hphase _ _ howned hflights =>
      rcases flight_of_append hflights hfl' with ⟨rfl, rfl⟩ | ⟨-, hold⟩
      · refine .failed rfl hphase ?_
        rw [howned]
        exact fun hmem => lt_irrefl _ (h.lt_length hmem)
      · exact .kept hold rfl (by rw [howned]) nofun
  | moved htask _ _ _ howned hflights =>
      exact .kept (hflights ▸ hfl') rfl (by rw [howned]) (by simp [htask])
  | released _ _ _ _ howned hflights =>
      rcases flight_of_modify hflights hfl' with ⟨rfl, fl, hsame, rfl⟩ | ⟨-, hold⟩
      · exact .kept hsame rfl (by rw [howned]) nofun
      · exact .kept hold rfl (by rw [howned]) nofun

/-- Nobody has joined an abandoned flight, and only the task of such a flight is lost. -/
structure Deserted (s : FlightCache κ ν ε) : Prop where
  abandoned : ∀ (f : Nat) (fl : Flight κ ν ε), s.flights[f]? = some fl →
    fl.abandoned = true → s.joined f = 0
  lost : ∀ (f : Nat) (fl : Flight κ ν ε), s.flights[f]? = some fl →
    fl.phase = .lost → fl.abandoned = true

namespace Deserted

/-- A running flight goes on, and is not lost. -/
theorem advances
    (h : s.Deserted) {f : Nat} {phase : Phase ν ε}
    (hcalls : t.calls = s.calls)
    (hflights : t.flights = s.flights.modify f fun fl => { fl with phase := phase })
    (hlost : ∀ fl, s.flights[f]? = some fl → phase = .lost → fl.abandoned = true) :
    t.Deserted := by
  constructor
  · intro f' fl' hfl' habandoned
    rw [joined_of_eq hcalls]
    rcases flight_of_modify hflights hfl' with ⟨rfl, fl, hfl, rfl⟩ | ⟨-, hfl⟩
    · exact h.abandoned f fl hfl habandoned
    · exact h.abandoned f' fl' hfl habandoned
  · intro f' fl' hfl' hphase
    rcases flight_of_modify hflights hfl' with ⟨rfl, fl, hfl, rfl⟩ | ⟨-, hfl⟩
    · exact hlost fl hfl hphase
    · exact h.lost f' fl' hfl hphase

theorem step
    [DecidableEq κ] {mode : Mode} {e : Event κ ν ε}
    (h : s.Deserted)
    (haccounted : mode = .async → ∃ taskless, Counted taskless s)
    (hinv : s.Inv)
    (hstep : Step mode s e t) :
    t.Deserted := by
  cases hinv.shape hstep with
  | silent _ hcalls _ hretains =>
      constructor
      · intro f fl hfl habandoned
        obtain ⟨fl', hfl', -, hsame, -⟩ := flight_of_retains hretains hfl
        rw [joined_of_eq hcalls]
        exact h.abandoned f fl' hfl' (hsame.symm.trans habandoned)
      · intro f fl hfl hphase
        obtain ⟨fl', hfl', -, hsame, hphase'⟩ := flight_of_retains hretains hfl
        rw [hsame]
        exact h.lost f fl' hfl' (hphase'.symm.trans hphase)
  | started _ _ hcalls _ hflights =>
      exact h.advances hcalls hflights nofun
  | loaded _ _ hcalls _ hflights =>
      exact h.advances hcalls hflights nofun
  | completed _ _ hcalls _ hflights _ =>
      exact h.advances hcalls hflights nofun
  | lost hfl _ habandoned hcalls _ hflights =>
      refine h.advances hcalls hflights fun fl hfl' _ => ?_
      obtain rfl := Option.some.inj (hfl.symm.trans hfl')
      exact habandoned
  | answered hcalls _ hflights =>
      refine ⟨fun f fl hfl habandoned => ?_, fun f fl hfl => h.lost f fl (hflights ▸ hfl)⟩
      rw [joined_append hcalls]
      exact h.abandoned f fl (hflights ▸ hfl) habandoned
  | @joins key _ _ _ f hactive hcalls _ hflights =>
      obtain ⟨fl, hfl, hspec⟩ := hinv.active key f hactive
      constructor
      · intro f' fl' hfl' habandoned
        rcases flight_of_modify hflights hfl' with ⟨rfl, fl'', hfl'', rfl⟩ | ⟨hne, hold⟩
        · obtain rfl := Option.some.inj (hfl.symm.trans hfl'')
          exact absurd (hspec.abandoned.symm.trans habandoned) Bool.false_ne_true
        · rw [joined_wait hcalls, if_neg hne]
          exact h.abandoned f' fl' hold habandoned
      · intro f' fl' hfl' hphase
        rcases flight_of_modify hflights hfl' with ⟨rfl, fl'', hfl'', rfl⟩ | ⟨-, hold⟩
        · exact h.lost f fl'' hfl'' hphase
        · exact h.lost f' fl' hold hphase
  | opens _ hphase hkept hcalls _ hflights =>
      constructor
      · intro f fl hfl habandoned
        rcases flight_of_append hflights hfl with ⟨-, rfl⟩ | ⟨hlt, hold⟩
        · exact absurd (hkept.symm.trans habandoned) Bool.false_ne_true
        · rw [joined_wait hcalls, if_neg hlt.ne']
          exact h.abandoned f fl hold habandoned
      · intro f fl hfl hlost
        rcases flight_of_append hflights hfl with ⟨-, rfl⟩ | ⟨-, hold⟩
        · cases hphase.symm.trans hlost
        · exact h.lost f fl hold hlost
  | fails _ hphase hkept hcalls _ hflights =>
      constructor
      · intro f fl hfl habandoned
        rcases flight_of_append hflights hfl with ⟨-, rfl⟩ | ⟨-, hold⟩
        · exact absurd (hkept.symm.trans habandoned) Bool.false_ne_true
        · rw [joined_append hcalls]
          exact h.abandoned f fl hold habandoned
      · intro f fl hfl hlost
        rcases flight_of_append hflights hfl with ⟨-, rfl⟩ | ⟨-, hold⟩
        · cases hphase.symm.trans hlost
        · exact h.lost f fl hold hlost
  | @moved _ c call call' _ hcall hcalls hkept _ hflights =>
      refine ⟨fun f fl hfl habandoned => ?_, fun f fl hfl => h.lost f fl (hflights ▸ hfl)⟩
      have hset := joined_set hcall hcalls f
      have hzero := h.abandoned f fl (hflights ▸ hfl) habandoned
      rcases hkept with hkept | ⟨-, hkept⟩
      · rw [hkept] at hset
        omega
      · simp only [hkept, reduceCtorEq, if_false] at hset
        omega
  | @released c f fl result hasync hcall hfl hcalls _ hflights =>
      have hone : 1 ≤ s.joined f := by
        have hrelease := joined_release hcall hcalls f
        rw [if_pos rfl] at hrelease
        omega
      constructor
      · intro f' fl' hfl' habandoned
        have hrelease := joined_release hcall hcalls f'
        rcases flight_of_modify hflights hfl' with ⟨rfl, fl'', hfl'', rfl⟩ | ⟨hne, hold⟩
        · obtain rfl := Option.some.inj (hfl.symm.trans hfl'')
          rw [if_pos rfl] at hrelease
          simp only [Bool.or_eq_true, decide_eq_true_eq] at habandoned
          rcases habandoned with hbefore | ⟨hlast, hrunning⟩
          · have hzero := h.abandoned f fl hfl hbefore
            omega
          · obtain ⟨taskless, haccounted⟩ := haccounted hasync
            have hwaiters := haccounted.waiters_of_running hfl hrunning
            omega
        · rw [if_neg hne, Nat.add_zero] at hrelease
          rw [hrelease]
          exact h.abandoned f' fl' hold habandoned
      · intro f' fl' hfl' hphase
        rcases flight_of_modify hflights hfl' with ⟨rfl, fl'', hfl'', rfl⟩ | ⟨-, hold⟩
        · simp [h.lost f fl'' hfl'' hphase]
        · exact h.lost f' fl' hold hphase

end Deserted

/-! ## What a caller gets -/

/-- A call that waits for a flight, or has its outcome. -/
def Served (s : FlightCache κ ν ε) (c f : Nat) : Prop :=
  s.calls[c]? = some (.waiting f) ∨
    ∃ outcome, s.flights[f]?.map Flight.phase = some (.finished outcome) ∧
      (s.calls[c]? = some (.leaving f (.ofOutcome outcome)) ∨
        s.calls[c]? = some (.ended (.ofOutcome outcome)))

section Served

variable [DecidableEq κ]

/-- The outcome of a flight is kept. -/
theorem Step.finished
    {mode : Mode} {e : Event κ ν ε} {f : Nat} {outcome : Except ε ν}
    (hstep : Step mode s e t)
    (hfinished : s.flights[f]?.map Flight.phase = some (.finished outcome)) :
    t.flights[f]?.map Flight.phase = some (.finished outcome) := by
  obtain ⟨fl, hfl, hphase⟩ := Option.map_eq_some_iff.mp hfinished
  obtain ⟨fl', hfl', hevolves⟩ := hstep.persists hfl
  rw [hfl', Option.map_some, hevolves.phase_of_done (by simp [Flight.done, hphase]), hphase]

/-- A call that is not cancelled gets the outcome of its flight. -/
theorem Served.step
    {mode : Mode} {e : Event κ ν ε} {c f : Nat}
    (h : s.Served c f)
    (hdeserted : s.Deserted)
    (hcancel : e ≠ .cancel c)
    (hstep : Step mode s e t) :
    t.Served c f := by
  rcases h with hwaiting | ⟨outcome, hfinished, hleaving | hended⟩
  · obtain ⟨call, hcall, hmove⟩ := hstep.moves hwaiting
    cases hmove with
    | stays =>
        exact .inl hcall
    | woken hfinished _ =>
        exact .inr ⟨_, hstep.finished hfinished, .inl hcall⟩
    | answered hfinished _ =>
        exact .inr ⟨_, hstep.finished hfinished, .inr hcall⟩
    | lost hlost =>
        -- a lost flight is abandoned, but this call has joined it
        obtain ⟨fl, hfl, hphase⟩ := Option.map_eq_some_iff.mp hlost
        have hzero := hdeserted.abandoned f fl hfl (hdeserted.lost f fl hfl hphase)
        refine absurd (decide_eq_true rfl) (List.countP_eq_zero.mp hzero (.waiting f) ?_)
        exact List.mem_of_getElem? hwaiting
    | cancelled =>
        exact absurd rfl hcancel
  · obtain ⟨call, hcall, hmove⟩ := hstep.moves hleaving
    cases hmove with
    | stays =>
        exact .inr ⟨outcome, hstep.finished hfinished, .inl hcall⟩
    | cancelledAgain =>
        exact absurd rfl hcancel
    | released =>
        exact .inr ⟨outcome, hstep.finished hfinished, .inr hcall⟩
  · obtain ⟨call, hcall, hmove⟩ := hstep.moves hended
    cases hmove with
    | stays =>
        exact .inr ⟨outcome, hstep.finished hfinished, .inr hcall⟩

end Served

/-! ## Runs -/

/-- What holds after every step of every run of both caches. -/
structure Sound (mode : Mode) (s : FlightCache κ ν ε) [DecidableEq κ] : Prop where
  inv : s.Inv
  deserted : s.Deserted
  counted : mode = .async → ∃ taskless, Counted taskless s

section Sound

variable [DecidableEq κ] {mode : Mode}

theorem Sound.step
    {e : Event κ ν ε}
    (h : Sound mode s)
    (hstep : Step mode s e t) :
    Sound mode t where
  inv := h.inv.step hstep
  deserted := h.deserted.step h.counted h.inv hstep
  counted := by
    rintro rfl
    obtain ⟨taskless, hcounted⟩ := h.counted rfl
    have hall : Counted (fun _ => True) s := hcounted.mono fun _ _ _ _ _ => trivial
    exact ⟨_, hall.step h.inv (fun _ _ _ _ _ => trivial) hstep⟩

/-- A call that is never cancelled is served. -/
theorem Served.run
    {es : List (Event κ ν ε)} {c f : Nat}
    (h : s.Served c f)
    (hsound : Sound mode s)
    (hrun : Run (Step mode) s es t)
    (hcancel : .cancel c ∉ es) :
    t.Served c f := by
  induction hrun with
  | nil =>
      exact h
  | cons hstep _ ih =>
      rw [List.mem_cons, not_or] at hcancel
      exact ih (h.step hsound.deserted (Ne.symm hcancel.1) hstep) (hsound.step hstep) hcancel.2

theorem sound_init
    (mode : Mode) (maxSize : Nat) (hpos : 0 < maxSize) (maxInflight : Nat) :
    Sound mode (init maxSize hpos maxInflight : FlightCache κ ν ε) := by
  refine ⟨inv_init maxSize hpos maxInflight, ⟨?_, ?_⟩, fun _ => ⟨fun _ => True, ⟨?_, ?_⟩⟩⟩
  · intro f fl hfl
    cases hfl
  · intro f fl hfl
    cases hfl
  · intro call hcall
    cases hcall
  · intro f fl hfl
    cases hfl

end Sound

end FlightCache
end Cache
end Bluetape
