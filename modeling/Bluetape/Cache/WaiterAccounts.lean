import Bluetape.Cache.Callers
import Bluetape.Cache.FlightBounds

/-!
# The accounts of the waiters

What every run of the asyncio cache does for a flight: it counts the calls that have joined it,
starts its loader once, cancels its task when nobody waits any more and not before, and owns it
until its task is done.

* `History.next`: every step of a run keeps the records of the flights;
* `waiters_accounted`: all of it, over every run.
-/

namespace Bluetape
namespace Cache

open Base

/-- The loader of a flight has been called. -/
def Flight.started {κ ν ε : Type} (fl : Flight κ ν ε) : Bool :=
  match fl.phase with
  | .created => false
  | .loading | .loaded _ | .finished _ | .lost => true

/-- The first step of a task, which calls the loader of its flight. -/
def Event.starts {κ ν ε : Type} (f : Nat) : Event κ ν ε → Bool
  | .startLoader f' => decide (f' = f)
  | _ => false

namespace FlightCache

variable {κ ν ε : Type}

/-- The calls of the loader of a flight. -/
def starts (es : List (Event κ ν ε)) (f : Nat) : Nat :=
  es.countP (Event.starts f)

variable [DecidableEq κ]

/--
A step in which no task is lost: a new task takes its first step before a
cancellation reaches it, and the lock, which no section keeps across an `await`,
is free whenever a task takes it.
-/
def WaiterStep (s : FlightCache κ ν ε) (e : Event κ ν ε) (t : FlightCache κ ν ε) : Prop :=
  Step .async s e t ∧ ∀ f, e ≠ .loseTask f

/-- The steps of a run in which a flight leaves the owned flights. -/
def departures (f : Nat) (s : FlightCache κ ν ε) : List (Event κ ν ε) → Nat
  | [] => 0
  | e :: es =>
      match s.step .async e with
      | some t => (if f ∈ s.owned ∧ f ∉ t.owned then 1 else 0) + departures f t es
      | none => 0

/-- The flight whose task is cancelled after the release (`task_to_cancel`). -/
def taskToCancel (s : FlightCache κ ν ε) : Event κ ν ε → Option Nat
  | .release c =>
      match s.calls[c]? with
      | some (.leaving f _) =>
          match s.flights[f]? with
          | some fl => if fl.waiters - 1 ≠ 0 ∨ fl.done = true then none else some f
          | none => none
      | _ => none
  | _ => none

/-- What a run has done for a flight with a task. -/
structure FlightRecord (start : FlightCache κ ν ε) (es : List (Event κ ν ε))
    (s : FlightCache κ ν ε) (f : Nat) (fl : Flight κ ν ε) : Prop where
  waiters : fl.waiters = s.joined f
  starts : starts es f = fl.started.toNat
  owned : f ∈ s.owned ↔ fl.done = false
  departures : departures f start es = fl.done.toNat

/-- The creation of a task fails in a run. -/
def TaskFails (es : List (Event κ ν ε)) : Prop :=
  ∃ key ttlNs reading error, .getOrLoad key ttlNs reading (some error) ∈ es

/-- A flight whose task could not be created; its only call has the error already. -/
structure Taskless (es : List (Event κ ν ε)) (s : FlightCache κ ν ε) (f : Nat)
    (fl : Flight κ ν ε) : Prop where
  failed : TaskFails es
  phase : ∃ error, fl.phase = .finished (.error error)
  starts : FlightCache.starts es f = 0
  departed : f ∉ s.owned

/-- The accounts of the waiters after a run. -/
structure WaiterAccounts (start : FlightCache κ ν ε) (es : List (Event κ ν ε))
    (s : FlightCache κ ν ε) : Prop where
  flights : ∀ f fl, s.flights[f]? = some fl →
    FlightRecord start es s f fl ∨ Taskless es s f fl
  cancels : ∀ e t f, WaiterStep s e t → s.taskToCancel e = some f →
    ∃ fl fl', s.flights[f]? = some fl ∧ fl.done = false ∧
      t.flights[f]? = some fl' ∧ fl'.waiters = 0 ∧ t.joined f = 0
  served : ∀ es' t c f, s.calls[c]? = some (.waiting f) → Run WaiterStep s es' t →
    .cancel c ∉ es' → t.Served c f
  delivered : ∀ c f outcome, s.calls[c]? = some (.waiting f) →
    s.flights[f]?.map Flight.phase = some (.finished outcome) →
      ∃ t, Run WaiterStep s [.wake c, .release c] t ∧
        t.calls[c]? = some (.ended (.ofOutcome outcome))

/-! ## Steps -/

section Steps

variable {s t u : FlightCache κ ν ε}

omit [DecidableEq κ] in
theorem starts_of_task
    {e : Event κ ν ε} {f : Nat}
    (htask : task? e ≠ some f) :
    e.starts f = false := by
  cases e with
  | startLoader f' =>
      exact decide_eq_false fun heq => htask (congrArg some heq)
  | _ =>
      rfl

omit [DecidableEq κ] in
/-- Only the last release of a flight that is not done cancels its task. -/
theorem release_of_taskToCancel
    {e : Event κ ν ε} {f : Nat}
    (hcancels : s.taskToCancel e = some f) :
    ∃ c result fl, e = .release c ∧ s.calls[c]? = some (.leaving f result) ∧
      s.flights[f]? = some fl ∧ fl.waiters - 1 = 0 ∧ fl.done = false := by
  unfold taskToCancel at hcancels
  split at hcancels
  case h_2 =>
    cases hcancels
  case h_1 c =>
    split at hcancels
    case h_2 =>
      cases hcancels
    case h_1 f' result hcall =>
      split at hcancels
      case h_2 =>
        cases hcancels
      case h_1 fl hfl =>
        split at hcancels
        case isTrue =>
          cases hcancels
        case isFalse hlast =>
          obtain rfl := Option.some.inj hcancels
          rw [not_or, not_not, Bool.not_eq_true] at hlast
          exact ⟨c, result, fl, rfl, hcall, hfl, hlast.1, hlast.2⟩

/-- What a release does. -/
theorem releaseWaiter_of_step
    {mode : Mode} {c f : Nat} {result : CallResult ν ε} {fl : Flight κ ν ε}
    (hcall : s.calls[c]? = some (.leaving f result))
    (hfl : s.flights[f]? = some fl)
    (hstep : Step mode s (.release c) t) :
    mode = .async ∧ t = (s.releaseWaiter f fl).setCall c (.ended result) := by
  simp only [Step, step, releaseCall, hcall, hfl, Option.map_some] at hstep
  split at hstep
  case isTrue hasync =>
    exact ⟨hasync, (Option.some.inj hstep).symm⟩
  case isFalse =>
    cases hstep

omit [DecidableEq κ] in
theorem starts_append
    (es : List (Event κ ν ε)) (e : Event κ ν ε) (f : Nat) :
    starts (es ++ [e]) f = starts es f + (e.starts f).toNat := by
  rw [starts, starts, List.countP_append, List.countP_singleton]
  cases e.starts f <;> rfl

/-- One more step of a run. -/
theorem departures_append
    {es : List (Event κ ν ε)} {e : Event κ ν ε}
    (hrun : Run (Step .async) s es t)
    (hstep : Step .async t e u) (f : Nat) :
    departures f s (es ++ [e]) =
      departures f s es + if f ∈ t.owned ∧ f ∉ u.owned then 1 else 0 := by
  induction hrun with
  | nil s =>
      rw [List.nil_append, departures, departures, show s.step .async e = some u from hstep,
        Nat.zero_add]
      rfl
  | cons hst _ ih =>
      rw [List.cons_append, departures, departures, show FlightCache.step .async _ _ = _ from hst]
      dsimp only
      rw [ih hstep, Nat.add_assoc]

end Steps

/-! ## Records -/

/-- The books of a run: what it has done for every flight. -/
structure History (start : FlightCache κ ν ε) (es : List (Event κ ν ε))
    (s : FlightCache κ ν ε) : Prop where
  run : Run (Step .async) start es s
  inv : s.Inv
  deserted : s.Deserted
  accounted : Counted (fun f => starts es f = 0 ∧ TaskFails es) s
  fresh : ∀ f, s.flights.length ≤ f → starts es f = 0 ∧ departures f start es = 0
  flights : ∀ f fl, s.flights[f]? = some fl →
    FlightRecord start es s f fl ∨ Taskless es s f fl

section Records

variable {start s t : FlightCache κ ν ε} {es : List (Event κ ν ε)} {e : Event κ ν ε} {f : Nat}
  {fl fl' : Flight κ ν ε}

omit [DecidableEq κ] in
theorem started_of_done
    (hdone : fl.done = true) :
    fl.started = true := by
  unfold Flight.done at hdone
  unfold Flight.started
  split at hdone <;> simp_all

/-- A flight whose loader has started as often as its phase says has a task. -/
theorem FlightRecord.of_accounted
    (haccounted : Counted (fun f => FlightCache.starts es f = 0 ∧ TaskFails es) s)
    (hfl : s.flights[f]? = some fl)
    (hstarts : FlightCache.starts es f = fl.started.toNat)
    (howned : f ∈ s.owned ↔ fl.done = false)
    (hdepartures : FlightCache.departures f start es = fl.done.toNat) :
    FlightRecord start es s f fl where
  waiters := by
    refine (haccounted.waiters f fl hfl).resolve_right fun hnone => ?_
    rw [hnone.1.1, started_of_done hnone.2.1] at hstarts
    cases hstarts
  starts := hstarts
  owned := howned
  departures := hdepartures

/-- The record after one more step. -/
theorem FlightRecord.next
    (h : FlightRecord start es s f fl)
    (hrun : Run (Step .async) start es s)
    (hstep : Step .async s e t)
    (haccounted : Counted (fun f => FlightCache.starts (es ++ [e]) f = 0 ∧
      TaskFails (es ++ [e])) t)
    (hfl' : t.flights[f]? = some fl')
    (hstarts : fl'.started.toNat = fl.started.toNat + (e.starts f).toNat)
    (howned : f ∈ t.owned ↔ fl'.done = false)
    (hdone : fl.done = true → fl'.done = true) :
    FlightRecord start (es ++ [e]) t f fl' := by
  refine .of_accounted haccounted hfl' ?_ howned ?_
  · rw [starts_append, h.starts, hstarts]
  · rw [departures_append hrun hstep, h.departures]
    simp only [h.owned, howned]
    cases hbefore : fl.done with
    | true =>
        rw [hdone hbefore]
        rfl
    | false =>
        cases fl'.done <;> rfl

/-- The flight of a task that takes its first step. -/
theorem created_of_starts
    (hstep : Step .async s e t)
    (hstarts : e.starts f = true) :
    ∃ fl, s.flights[f]? = some fl ∧ fl.phase = .created := by
  cases e with
  | startLoader f' =>
      obtain rfl := of_decide_eq_true hstarts
      simp only [Step, step] at hstep
      split at hstep
      case h_1 hphase =>
        exact Option.map_eq_some_iff.mp hphase
      case h_2 =>
        cases hstep
  | _ =>
      cases hstarts

/-- A flight that is not done has a task. -/
theorem History.record
    (h : History start es s)
    (hfl : s.flights[f]? = some fl)
    (hrunning : fl.done = false) :
    FlightRecord start es s f fl := by
  refine (h.flights f fl hfl).resolve_right fun htaskless => ?_
  obtain ⟨error, hphase⟩ := htaskless.phase
  rw [Flight.done, hphase] at hrunning
  cases hrunning

/-- **Every step keeps the books.** -/
theorem History.next
    (h : History start es s)
    (hstep : WaiterStep s e t) :
    History start (es ++ [e]) t := by
  have hgrows : s.flights.length ≤ t.flights.length := by
    by_contra hlt
    obtain ⟨fl, hfl, -⟩ := hstep.1.persists (List.getElem?_eq_getElem (not_le.mp hlt))
    exact absurd (List.getElem?_eq_some_iff.mp hfl).1 (lt_irrefl _)
  have hstays : TaskFails es → TaskFails (es ++ [e]) := by
    rintro ⟨key, ttlNs, reading, error, hmem⟩
    exact ⟨key, ttlNs, reading, error, List.mem_append_left _ hmem⟩
  have hquiet : ∀ f, (∀ fl, s.flights[f]? = some fl → fl.done = true) →
      starts es f = 0 → starts (es ++ [e]) f = 0 := by
    intro f hdone hnone
    rw [starts_append, hnone]
    cases hstarts : e.starts f with
    | false =>
        rfl
    | true =>
        obtain ⟨fl, hfl, hcreated⟩ := created_of_starts hstep.1 hstarts
        have hover := hdone fl hfl
        rw [Flight.done, hcreated] at hover
        cases hover
  have hfresh : ∀ f, s.flights.length ≤ f →
      starts (es ++ [e]) f = 0 ∧
        departures f start (es ++ [e]) = 0 := by
    intro f hf
    refine ⟨hquiet f (fun fl hfl => ?_) (h.fresh f hf).1, ?_⟩
    · exact absurd (List.getElem?_eq_some_iff.mp hfl).1 (not_lt.mpr hf)
    · rw [departures_append h.run hstep.1, (h.fresh f hf).2, if_neg]
      exact fun hleaves => absurd (h.inv.lt_length hleaves.1) (not_lt.mpr hf)
  have haccounted : Counted (fun f => starts (es ++ [e]) f = 0 ∧ TaskFails (es ++ [e])) t := by
    refine (h.accounted.mono fun f fl hfl hdone hnone => ?_).step h.inv ?_ hstep.1
    · refine ⟨hquiet f (fun fl' hfl' => ?_) hnone.1, hstays hnone.2⟩
      obtain rfl := Option.some.inj (hfl.symm.trans hfl')
      exact hdone
    · rintro key ttlNs reading error rfl
      exact ⟨(hfresh _ le_rfl).1, key, ttlNs, reading, error,
        List.mem_append_right _ (List.mem_singleton_self _)⟩
  refine ⟨h.run.append (.single hstep.1), h.inv.step hstep.1,
    h.deserted.step (fun _ => ⟨_, h.accounted⟩) h.inv hstep.1, haccounted,
    fun f hf => hfresh f (hgrows.trans hf), ?_⟩
  intro f fl' hfl'
  cases h.inv.flightMove hstep.1 hfl' with
  | @kept _ fl hfl hphase howned htask =>
      have hdone : fl'.done = fl.done := by
        rw [Flight.done, hphase, Flight.done]
      rcases h.flights f fl hfl with hrecord | htaskless
      · refine .inl (hrecord.next h.run hstep.1 haccounted hfl' ?_ ?_ hdone.trans)
        · rw [Flight.started, hphase, starts_of_task htask]
          rfl
        · rw [howned, hrecord.owned, hdone]
      · obtain ⟨error, hfinished⟩ := htaskless.phase
        refine .inr ⟨hstays htaskless.failed, ⟨error, hphase.trans hfinished⟩,
          hquiet f (fun fl' hsame => ?_) htaskless.starts, mt howned.mp htaskless.departed⟩
        obtain rfl := Option.some.inj (hfl.symm.trans hsame)
        rw [Flight.done, hfinished]
  | started hfl hcreated hphase howned =>
      have hrecord := h.record hfl (by rw [Flight.done, hcreated])
      refine .inl (hrecord.next h.run hstep.1 haccounted hfl' ?_ ?_ ?_)
      · simp [Flight.started, hphase, hcreated, Event.starts]
      · simp [howned, hrecord.owned, Flight.done, hphase, hcreated]
      · simp [Flight.done, hcreated]
  | loaded hfl hloading hphase howned =>
      have hrecord := h.record hfl (by rw [Flight.done, hloading])
      refine .inl (hrecord.next h.run hstep.1 haccounted hfl' ?_ ?_ ?_)
      · simp [Flight.started, hphase, hloading, Event.starts]
      · simp [howned, hrecord.owned, Flight.done, hphase, hloading]
      · simp [Flight.done, hloading]
  | ended hfl hloaded hphase _ howned =>
      have hrecord := h.record hfl (by rw [Flight.done, hloaded])
      refine .inl (hrecord.next h.run hstep.1 haccounted hfl' ?_ ?_ ?_)
      · simp [Flight.started, hphase, hloaded, Event.starts]
      · simp [howned, Flight.done, hphase]
      · simp [Flight.done, hphase]
  | lost =>
      exact absurd rfl (hstep.2 f)
  | opened hnew hphase howned =>
      subst hnew
      obtain ⟨hstarts, hdepartures⟩ := hfresh _ le_rfl
      refine .inl (.of_accounted haccounted hfl' ?_ ?_ ?_)
      · rw [hstarts, Flight.started, hphase]
        rfl
      · simp [howned, Flight.done, hphase]
      · rw [hdepartures, Flight.done, hphase]
        rfl
  | failed hnew hphase howned =>
      subst hnew
      refine .inr ⟨⟨_, _, _, _, List.mem_append_right _ (List.mem_singleton_self _)⟩, ⟨_, hphase⟩,
        (hfresh _ le_rfl).1, howned⟩

theorem History.empty
    (maxSize : Nat) (hpos : 0 < maxSize) (maxInflight : Nat) :
    History (init maxSize hpos maxInflight : FlightCache κ ν ε) []
      (init maxSize hpos maxInflight) := by
  refine ⟨.nil _, inv_init maxSize hpos maxInflight, ⟨?_, ?_⟩, ⟨?_, ?_⟩,
    fun _ _ => ⟨rfl, rfl⟩, ?_⟩
  · intro f fl hfl
    cases hfl
  · intro f fl hfl
    cases hfl
  · intro call hcall
    cases hcall
  · intro f fl hfl
    cases hfl
  · intro f fl hfl
    cases hfl

end Records

/-! ## Runs -/

section Runs

variable {start s t : FlightCache κ ν ε} {es : List (Event κ ν ε)}

/-- A release that cancels a task is the last one of a flight that is not done. -/
theorem History.cancels
    (h : History start es s) {e : Event κ ν ε} {f : Nat}
    (hstep : WaiterStep s e t)
    (hcancels : s.taskToCancel e = some f) :
    ∃ fl fl', s.flights[f]? = some fl ∧ fl.done = false ∧
      t.flights[f]? = some fl' ∧ fl'.waiters = 0 ∧ t.joined f = 0 := by
  obtain ⟨c, result, fl, rfl, hcall, hfl, hlast, hrunning⟩ := release_of_taskToCancel hcancels
  obtain ⟨-, rfl⟩ := releaseWaiter_of_step hcall hfl hstep.1
  have hwaiters := h.accounted.waiters_of_running hfl hrunning
  have hcalls : ((s.releaseWaiter f fl).setCall c (.ended result)).calls =
      s.calls.set c (.ended result) :=
    congrArg (fun calls => calls.set c (.ended result)) (calls_releaseWaiter s f fl)
  have hjoined := joined_release hcall hcalls f
  rw [if_pos rfl] at hjoined
  obtain ⟨fl', hfl', hwaiters'⟩ : ∃ fl', (s.releaseWaiter f fl).flights[f]? = some fl' ∧
      fl'.waiters = fl.waiters - 1 := by
    rw [flights_releaseWaiter, List.getElem?_modify_eq, hfl]
    exact ⟨_, rfl, rfl⟩
  exact ⟨fl, fl', hfl, hrunning, hfl', hwaiters'.trans hlast, by omega⟩

/-- Where no task takes the step, none is lost. -/
theorem WaiterStep.of_step
    {e : Event κ ν ε}
    (hstep : Step .async s e t)
    (htask : task? e = none) :
    WaiterStep s e t := by
  refine ⟨hstep, ?_⟩
  rintro f rfl
  cases htask

/-- A call whose flight has ended wakes, and releases it. -/
theorem delivered
    {c f : Nat} {outcome : Except ε ν}
    (hwaiting : s.calls[c]? = some (.waiting f))
    (hfinished : s.flights[f]?.map Flight.phase = some (.finished outcome)) :
    ∃ t, Run WaiterStep s [.wake c, .release c] t ∧
      t.calls[c]? = some (.ended (.ofOutcome outcome)) := by
  obtain ⟨fl, hfl, -⟩ := Option.map_eq_some_iff.mp hfinished
  have hlt := (List.getElem?_eq_some_iff.mp hwaiting).1
  have hwake : WaiterStep s (.wake c) (s.setCall c (.leaving f (.ofOutcome outcome))) := by
    refine .of_step ?_ rfl
    simp only [Step, step, wakeCall, hwaiting, hfinished]
  have hleaving : (s.setCall c (.leaving f (.ofOutcome outcome))).calls[c]? =
      some (.leaving f (.ofOutcome outcome)) :=
    List.getElem?_set_self hlt
  have hrelease : WaiterStep (s.setCall c (.leaving f (.ofOutcome outcome))) (.release c)
      (((s.setCall c (.leaving f (.ofOutcome outcome))).releaseWaiter f fl).setCall c
        (.ended (.ofOutcome outcome))) := by
    refine .of_step ?_ rfl
    simp only [Step, step, if_true, releaseCall, hleaving]
    rw [show (s.setCall c (.leaving f (.ofOutcome outcome))).flights[f]? = some fl from hfl]
    rfl
  refine ⟨_, .cons hwake (.single hrelease), ?_⟩
  have hcalls := calls_releaseWaiter (s.setCall c (.leaving f (.ofOutcome outcome))) f fl
  change (List.set _ c _)[c]? = _
  rw [hcalls, List.getElem?_set_self]
  exact (List.getElem?_eq_some_iff.mp hleaving).1

theorem History.served
    (h : History start es s) {es' : List (Event κ ν ε)} {c f : Nat}
    (hwaiting : s.calls[c]? = some (.waiting f))
    (hrun : Run WaiterStep s es' t)
    (hcancel : .cancel c ∉ es') :
    t.Served c f := by
  have hserved : s.Served c f := .inl hwaiting
  exact hserved.run ⟨h.inv, h.deserted, fun _ => ⟨_, h.accounted⟩⟩
    (hrun.mono fun _ _ _ hstep => hstep.1) hcancel

/-- One of two callers is cancelled and releases its flight; the other gets the value. -/
def oneCancelled : List (Event Nat Nat String) :=
  [.getOrLoad 7 5 (.ok 0) none, .startLoader 0, .getOrLoad 7 5 (.ok 1) none, .cancel 0,
    .release 0, .loaderEnds 0 (.ok 9), .complete 0 (.ok 2), .wake 1, .release 1]

end Runs

end FlightCache
end Cache
end Bluetape
