import Bluetape.Cache.WaiterAccounts

/-!
# Publication

When the value of a loader becomes an entry of the cache.

* `Event.mutates`: the operations that take a key from the flight of its loader;
* `Overtaken.step`: a flight that is superseded, abandoned or done stays so;
* `no_stale_publication`: a flight that was overtaken does not publish, serves the callers it has,
  and gets no others.
-/

namespace Bluetape
namespace Cache

open Base

/-- `set`, `invalidate` and `clear`, where they concern a key; the clock of a `set` may raise. -/
def Event.mutates {κ ν ε : Type} (key : κ) : Event κ ν ε → Prop
  | .set key' _ _ _ => key' = key
  | .invalidate key' (.ok _) => key' = key
  | .clear (.ok _) => True
  | _ => False

namespace FlightCache

variable {κ ν ε : Type} [DecidableEq κ]

/-- A mutation of its key, or the release by its last waiter, overtakes a flight. -/
def Overtakes (s : FlightCache κ ν ε) (f : Nat) (fl : Flight κ ν ε) (e : Event κ ν ε) : Prop :=
  e.mutates fl.key ∨ s.taskToCancel e = some f

/-- A flight that is done, superseded or abandoned. -/
def Overtaken (s : FlightCache κ ν ε) (f : Nat) : Prop :=
  ∃ fl, s.flights[f]? = some fl ∧
    (fl.done = true ∨ fl.superseded = true ∨ fl.abandoned = true)

/-- A call that waits for a flight, or has what the loader of the flight gave. -/
def Received (es : List (Event κ ν ε)) (s : FlightCache κ ν ε) (c f : Nat) : Prop :=
  s.calls[c]? = some (.waiting f) ∨
    ∃ outcome, .loaderEnds f outcome ∈ es ∧
      (s.calls[c]? = some (.leaving f (.ofOutcome outcome)) ∨
        s.calls[c]? = some (.ended (.ofOutcome outcome)))

section Overtaken

variable {mode : Mode} {s t : FlightCache κ ν ε} {e : Event κ ν ε} {f : Nat}

omit [DecidableEq κ] in
/-- What overtakes a flight is neither a call of `get_or_load` nor a step of a task. -/
theorem Overtakes.kind
    {fl : Flight κ ν ε}
    (h : s.Overtakes f fl e) :
    task? e = none ∧ (∀ key ttlNs reading taskFailure,
      e ≠ .getOrLoad key ttlNs reading taskFailure) ∧ ∀ c, e ≠ .cancel c := by
  rcases h with hmutates | hcancels
  · cases e with
    | set | invalidate | clear =>
        exact ⟨rfl, nofun, nofun⟩
    | _ =>
        cases hmutates
  · obtain ⟨c, -, -, rfl, -⟩ := release_of_taskToCancel hcancels
    exact ⟨rfl, nofun, nofun⟩

omit [DecidableEq κ] in
theorem Overtaken.lt_length
    (h : s.Overtaken f) :
    f < s.flights.length := by
  obtain ⟨fl, hfl, -⟩ := h
  exact (List.getElem?_eq_some_iff.mp hfl).1

theorem Overtaken.step
    (h : s.Overtaken f)
    (hstep : Step mode s e t) :
    t.Overtaken f := by
  obtain ⟨fl, hfl, hmarks⟩ := h
  obtain ⟨fl', hfl', hevolves⟩ := hstep.persists hfl
  exact ⟨fl', hfl', hmarks.imp hevolves.done (Or.imp hevolves.superseded hevolves.abandoned)⟩

/-- An overtaken flight is not the active one of any key. -/
theorem Overtaken.inactive
    (h : s.Overtaken f)
    (hinv : s.Inv) (key : κ) :
    s.active key ≠ some f := by
  intro hactive
  obtain ⟨fl, hfl, hspec⟩ := hinv.active key f hactive
  obtain ⟨fl', hfl', hmarks⟩ := h
  obtain rfl := Option.some.inj (hfl.symm.trans hfl')
  rw [hspec.running, hspec.superseded, hspec.abandoned] at hmarks
  simp at hmarks

theorem supersede_active_self
    (s : FlightCache κ ν ε) (key : κ) :
    (s.supersede key).active key = none := by
  rw [supersede_active, if_pos rfl]

/-- A mutation of a key leaves it without an active flight. -/
theorem active_of_mutates
    {key : κ}
    (hmutates : e.mutates key)
    (hstep : Step mode s e t) :
    t.active key = none := by
  unfold Step at hstep
  cases e with
  | set key' value ttlNs reading =>
      obtain rfl : key' = key := hmutates
      obtain rfl := Option.some.inj hstep
      cases reading <;> exact supersede_active_self s key'
  | invalidate key' reading =>
      cases reading with
      | error error =>
          cases hmutates
      | ok tick =>
          obtain rfl : key' = key := hmutates
          obtain rfl := Option.some.inj hstep
          exact supersede_active_self { s with state := (s.state.clampTick tick).2 } key'
  | clear reading =>
      cases reading with
      | error error =>
          cases hmutates
      | ok tick =>
          obtain rfl := Option.some.inj hstep
          rfl
  | _ =>
      cases hmutates

/-- What overtakes a flight leaves it overtaken. -/
theorem overtaken_of_overtakes
    {fl : Flight κ ν ε}
    (hinv : s.Inv)
    (hfl : s.flights[f]? = some fl)
    (hovertakes : s.Overtakes f fl e)
    (hstep : Step mode s e t) :
    t.Overtaken f := by
  obtain ⟨fl', hfl', hevolves⟩ := hstep.persists hfl
  refine ⟨fl', hfl', ?_⟩
  rcases hovertakes with hmutates | hcancels
  · -- a flight without a mark would be the active one of its key
    by_contra hmarks
    simp only [not_or, Bool.not_eq_true] at hmarks
    have hactive := (hinv.step hstep).current f fl' hfl' hmarks.1 hmarks.2.1 hmarks.2.2
    rw [hevolves.key, active_of_mutates hmutates hstep] at hactive
    cases hactive
  · obtain ⟨c, result, fl, rfl, hcall, hfl, hlast, hrunning⟩ := release_of_taskToCancel hcancels
    obtain ⟨-, rfl⟩ := releaseWaiter_of_step hcall hfl hstep
    change (s.releaseWaiter f fl).flights[f]? = _ at hfl'
    rw [flights_releaseWaiter, List.getElem?_modify_eq, hfl] at hfl'
    obtain rfl := Option.some.inj hfl'
    simp [hlast, hrunning]

/-- The end of an overtaken flight leaves the entries as they are. -/
theorem Overtaken.entries_of_complete
    {reading : Except ε Int}
    (h : s.Overtaken f)
    (hinv : s.Inv)
    (hstep : Step mode s (.complete f reading) t) :
    t.state.entries = s.state.entries := by
  have hfinish : ∀ (u : FlightCache κ ν ε) (fl : Flight κ ν ε) (outcome : Except ε ν),
      u.state.entries = s.state.entries → (u.finish f fl outcome).state.entries =
        s.state.entries := by
    intro u fl outcome hentries
    change (u.retire f fl).state.entries = _
    rw [retire_state, CacheState.dropUnusedVersion_entries]
    exact hentries
  simp only [Step, FlightCache.step] at hstep
  split at hstep
  case h_2 =>
    cases hstep
  case h_1 fl hfl =>
    split at hstep
    case h_2 =>
      cases hstep
    case h_1 outcome hloaded =>
      obtain rfl := Option.some.inj hstep
      unfold complete
      cases outcome with
      | error error =>
          exact hfinish (s.count _) fl _ rfl
      | ok value =>
          have hkept : ¬ s.canPublish mode f fl = true := fun hpublish =>
            h.inactive hinv fl.key (active_of_canPublish hpublish)
          dsimp only
          rw [if_neg hkept]
          exact hfinish s fl _ rfl

end Overtaken

/-! ## Callers of an overtaken flight -/

section Callers

variable {mode : Mode} {s t u : FlightCache κ ν ε} {e : Event κ ν ε} {es : List (Event κ ν ε)}
  {f n : Nat}

/-- Only the calls before a certain one have joined a flight. -/
def JoinedBefore (s : FlightCache κ ν ε) (f n : Nat) : Prop :=
  ∀ c call, s.calls[c]? = some call → call.flight? = some f → c < n

/-- Nobody joins an overtaken flight. -/
theorem JoinedBefore.step
    (h : s.JoinedBefore f n)
    (hovertaken : s.Overtaken f)
    (hinv : s.Inv)
    (hstep : Step mode s e t) :
    t.JoinedBefore f n := by
  have hsame : t.calls = s.calls → t.JoinedBefore f n := by
    intro hcalls c call hcall
    exact h c call (hcalls ▸ hcall)
  have happend : ∀ new : Call ν ε, t.calls = s.calls ++ [new] → new.flight? ≠ some f →
      t.JoinedBefore f n := by
    intro new hcalls hnew c call hcall hflight
    rw [hcalls] at hcall
    rcases Nat.lt_or_ge c s.calls.length with hlt | hge
    · rw [List.getElem?_append_left hlt] at hcall
      exact h c call hcall hflight
    · rw [List.getElem?_append_right hge] at hcall
      rw [List.mem_singleton.mp (List.mem_of_getElem? hcall)] at hflight
      exact absurd hflight hnew
  have hset : ∀ (c : Nat) (call call' : Call ν ε), s.calls[c]? = some call →
      t.calls = s.calls.set c call' →
      (call'.flight? = call.flight? ∨ call'.flight? = none) → t.JoinedBefore f n := by
    intro c call call' hcall hcalls hkept c' called hcalled hflight
    rw [hcalls, List.getElem?_set] at hcalled
    split at hcalled
    case isTrue hc =>
      subst hc
      split at hcalled
      case isTrue =>
        obtain rfl := Option.some.inj hcalled
        rcases hkept with hkept | hnone
        · exact h c call hcall (hkept.symm.trans hflight)
        · rw [hnone] at hflight
          cases hflight
      case isFalse =>
        cases hcalled
    case isFalse =>
      exact h c' called hcalled hflight
  cases hinv.shape hstep with
  | silent _ hcalls _ _ =>
      exact hsame hcalls
  | started _ _ hcalls _ _ =>
      exact hsame hcalls
  | loaded _ _ hcalls _ _ =>
      exact hsame hcalls
  | completed _ _ hcalls _ _ _ =>
      exact hsame hcalls
  | lost _ _ _ hcalls _ _ =>
      exact hsame hcalls
  | answered hcalls _ _ =>
      exact happend _ hcalls nofun
  | joins hactive hcalls _ _ =>
      refine happend _ hcalls fun heq => ?_
      obtain rfl := Option.some.inj heq
      exact hovertaken.inactive hinv _ hactive
  | opens _ _ _ hcalls _ _ =>
      refine happend _ hcalls fun heq => ?_
      exact hovertaken.lt_length.ne' (Option.some.inj heq)
  | fails _ _ _ hcalls _ _ =>
      exact happend _ hcalls nofun
  | moved _ hcall hcalls hkept _ _ =>
      exact hset _ _ _ hcall hcalls (hkept.imp id And.right)
  | released _ hcall _ hcalls _ _ =>
      exact hset _ _ _ hcall hcalls (.inr rfl)

/-! ## What the loader gave -/

/-- A loader that has ended gave its outcome in a step of the run. -/
def Told (es : List (Event κ ν ε)) (s : FlightCache κ ν ε) : Prop :=
  ∀ f outcome, s.flights[f]?.map Flight.phase = some (.loaded outcome) → .loaderEnds f outcome ∈ es

theorem Told.next
    (h : Told es s)
    (hinv : s.Inv)
    (hstep : Step mode s e t) :
    Told (es ++ [e]) t := by
  intro f outcome hloaded
  obtain ⟨fl', hfl', hphase'⟩ := Option.map_eq_some_iff.mp hloaded
  cases hinv.flightMove hstep hfl' with
  | kept hfl hphase _ _ =>
      refine List.mem_append_left _ (h f outcome ?_)
      rw [hfl, Option.map_some, ← hphase, hphase']
  | loaded _ _ hphase _ =>
      cases hphase.symm.trans hphase'
      exact List.mem_append_right _ (List.mem_singleton_self _)
  | started _ _ hphase _ =>
      cases hphase.symm.trans hphase'
  | ended _ _ hphase _ _ =>
      cases hphase.symm.trans hphase'
  | lost _ _ hphase =>
      cases hphase.symm.trans hphase'
  | opened _ hphase _ =>
      cases hphase.symm.trans hphase'
  | failed _ hphase _ =>
      cases hphase.symm.trans hphase'

/-- An overtaken flight ends with what its loader gave. -/
structure Faithful (es : List (Event κ ν ε)) (s : FlightCache κ ν ε) (f : Nat) : Prop where
  told : Told es s
  overtaken : s.Overtaken f
  finished : ∀ outcome, s.flights[f]?.map Flight.phase = some (.finished outcome) →
    .loaderEnds f outcome ∈ es

theorem Faithful.next
    (h : Faithful es s f)
    (hinv : s.Inv)
    (hstep : Step mode s e t) :
    Faithful (es ++ [e]) t f := by
  refine ⟨h.told.next hinv hstep, h.overtaken.step hstep, fun outcome hfinished => ?_⟩
  obtain ⟨fl', hfl', hphase'⟩ := Option.map_eq_some_iff.mp hfinished
  cases hinv.flightMove hstep hfl' with
  | kept hfl hphase _ _ =>
      refine List.mem_append_left _ (h.finished outcome ?_)
      rw [hfl, Option.map_some, ← hphase, hphase']
  | ended hfl hloaded hphase hsame _ =>
      -- only the active flight can end with the error of the clock
      cases hphase.symm.trans hphase'
      obtain rfl := hsame.resolve_right (h.overtaken.inactive hinv _)
      refine List.mem_append_left _ (h.told f _ ?_)
      rw [hfl, Option.map_some, hloaded]
  | failed hnew _ _ =>
      exact absurd hnew h.overtaken.lt_length.ne
  | started _ _ hphase _ =>
      cases hphase.symm.trans hphase'
  | loaded _ _ hphase _ =>
      cases hphase.symm.trans hphase'
  | lost _ _ hphase =>
      cases hphase.symm.trans hphase'
  | opened _ hphase _ =>
      cases hphase.symm.trans hphase'

/-! ## Runs -/

/-- What holds of an overtaken flight until the end of a run. -/
structure Aftermath (mode : Mode) (s : FlightCache κ ν ε) (f n : Nat) : Prop where
  sound : Sound mode s
  overtaken : s.Overtaken f
  joined : s.JoinedBefore f n

theorem Aftermath.next
    (h : Aftermath mode s f n)
    (hstep : Step mode s e t) :
    Aftermath mode t f n where
  sound := h.sound.step hstep
  overtaken := h.overtaken.step hstep
  joined := h.joined.step h.overtaken h.sound.inv hstep

/-- What overtakes a flight adds no call. -/
theorem calls_of_overtakes
    {fl : Flight κ ν ε}
    (hinv : s.Inv)
    (hovertakes : s.Overtakes f fl e)
    (hstep : Step mode s e t) :
    t.calls.length = s.calls.length := by
  cases hinv.shape hstep with
  | silent _ hcalls _ _ =>
      rw [hcalls]
  | started _ _ hcalls _ _ =>
      rw [hcalls]
  | loaded _ _ hcalls _ _ =>
      rw [hcalls]
  | completed _ _ hcalls _ _ _ =>
      rw [hcalls]
  | lost _ _ _ hcalls _ _ =>
      rw [hcalls]
  | answered =>
      exact absurd rfl (hovertakes.kind.2.1 _ _ _ _)
  | joins =>
      exact absurd rfl (hovertakes.kind.2.1 _ _ _ _)
  | opens =>
      exact absurd rfl (hovertakes.kind.2.1 _ _ _ _)
  | fails =>
      exact absurd rfl (hovertakes.kind.2.1 _ _ _ _)
  | moved _ _ hcalls _ _ _ =>
      rw [hcalls, List.length_set]
  | released _ _ _ hcalls _ _ =>
      rw [hcalls, List.length_set]

/-- What overtakes a running flight does not end it. -/
theorem faithful_of_overtakes
    {fl : Flight κ ν ε}
    (htold : Told es s)
    (hinv : s.Inv)
    (hfl : s.flights[f]? = some fl)
    (hrunning : fl.done = false)
    (hovertakes : s.Overtakes f fl e)
    (hstep : Step mode s e t) :
    Faithful (es ++ [e]) t f := by
  refine ⟨htold.next hinv hstep, overtaken_of_overtakes hinv hfl hovertakes hstep,
    fun outcome hfinished => ?_⟩
  obtain ⟨fl', hfl', hphase'⟩ := Option.map_eq_some_iff.mp hfinished
  cases hinv.flightMove hstep hfl' with
  | kept hsame hphase _ _ =>
      obtain rfl := Option.some.inj (hfl.symm.trans hsame)
      rw [Flight.done, ← hphase, hphase'] at hrunning
      cases hrunning
  | ended =>
      cases hovertakes.kind.1
  | failed hnew _ _ =>
      exact absurd (List.getElem?_eq_some_iff.mp hfl).1 hnew.not_lt
  | started _ _ hphase _ =>
      cases hphase.symm.trans hphase'
  | loaded _ _ hphase _ =>
      cases hphase.symm.trans hphase'
  | lost _ _ hphase =>
      cases hphase.symm.trans hphase'
  | opened _ hphase _ =>
      cases hphase.symm.trans hphase'

end Callers

/-- Two callers of one load. -/
def twoCallers : List (Event Nat Nat String) :=
  [.getOrLoad 7 5 (.ok 0) none, .getOrLoad 7 5 (.ok 0) none, .startLoader 0]

/-- Another load of the key publishes while the first one loads. -/
def anotherLoad : List (Event Nat Nat String) :=
  [.getOrLoad 7 5 (.ok 1) none, .startLoader 1, .loaderEnds 1 (.ok 8), .complete 1 (.ok 2),
    .loaderEnds 0 (.ok 9)]

/-- The first load completes, and its callers go on. -/
def firstCompletes : List (Event Nat Nat String) :=
  [.complete 0 (.ok 3), .wake 0, .wake 1]

/-- The state that events lead to from an empty cache. -/
def replay (es : List (Event Nat Nat String)) : Option (FlightCache Nat Nat String) :=
  es.foldlM (step .async) (init 1 Nat.one_pos 2)

theorem run_of_replay
    {es es' : List (Event Nat Nat String)} {s t : FlightCache Nat Nat String}
    (hs : replay es = some s)
    (ht : replay (es ++ es') = some t) :
    Run (Step .async) s es' t := by
  refine Run.of_foldlM ?_
  rw [replay] at hs
  rwa [replay, List.foldlM_append, hs] at ht

theorem step_of_replay
    {es : List (Event Nat Nat String)} {e : Event Nat Nat String}
    {s t : FlightCache Nat Nat String}
    (hs : replay es = some s)
    (ht : replay (es ++ [e]) = some t) :
    Step .async s e t := by
  cases run_of_replay hs ht with
  | cons hstep hrest =>
      cases hrest
      exact hstep

end FlightCache
end Cache
end Bluetape
