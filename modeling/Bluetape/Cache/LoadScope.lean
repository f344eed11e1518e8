import Bluetape.Cache.Callers

/-!
# Load scopes

`_LOAD_SCOPE`, the context variable by which `AsyncTTLCache.get_or_load` recognises a recursive
load.  A task has the context that its creator had when it was created; the task of a loader adds
its cache and key before it calls the loader, and takes them out again when it ends.

* `Scoped.step`: what the scope of a task says about the loads it descends from;
* `raises_iff_lineage`: a call raises when the caller descends from a load of the same cache and
  key, whether that load is still running or not;
* `recursion_exact_iff`: when this is the recursion that the error is named after.
-/

namespace Bluetape
namespace Cache

open Base

/--
A task: the task that created it, the flight whose loader it runs, the value of `_LOAD_SCOPE` in
its context, and the token of its own `_LOAD_SCOPE.set`.
-/
structure TaskRecord (ι κ : Type) where
  parent : Option Nat
  load : Option (ι × Nat)
  scope : Finset (Nat × κ)
  token : Option (Finset (Nat × κ))

namespace TaskRecord

variable {ι κ : Type} [DecidableEq κ]

/-- `_LOAD_SCOPE.set(_LOAD_SCOPE.get() | {(id(self), flight.key)})` -/
def enter (entry : Nat × κ) (task : TaskRecord ι κ) : TaskRecord ι κ :=
  { task with scope := insert entry task.scope, token := some task.scope }

/-- `_LOAD_SCOPE.reset(token)`; a task that was lost before its first step has no token. -/
def leave (task : TaskRecord ι κ) : TaskRecord ι κ :=
  match task.token with
  | some scope => { task with scope := scope, token := none }
  | none => task

/-- The steps of the task of a flight. -/
def advance {ν ε : Type} (entry : Nat × κ) (f : Nat) (e : Event κ ν ε) (task : TaskRecord ι κ) :
    TaskRecord ι κ :=
  match e with
  | .startLoader f' => if f' = f then task.enter entry else task
  | .complete f' _ => if f' = f then task.leave else task
  | .loseTask f' => if f' = f then task.leave else task
  | _ => task

end TaskRecord

/-- The caches and the tasks of an event loop. -/
structure World (ι κ ν ε : Type) where
  caches : ι → FlightCache κ ν ε
  tasks : List (TaskRecord ι κ)

/-- A task creates a task or calls `get_or_load`, or a cache takes another step. -/
inductive WorldEvent (ι κ ν ε : Type)
  | create (task : Nat)
  | getOrLoad (task : Nat) (cache : ι) (key : κ) (ttlNs : Nat) (reading : Except ε Int)
      (taskFailure : Option ε)
  | cache (cache : ι) (e : Event κ ν ε)

namespace World

variable {ι κ ν ε : Type}

/-- Empty caches, and tasks that nobody has created. -/
def init (maxSize : ι → Nat) (hpos : ∀ c, 0 < maxSize c) (maxInflight : ι → Nat) (roots : Nat) :
    World ι κ ν ε where
  caches := fun c => FlightCache.init (maxSize c) (hpos c) (maxInflight c)
  tasks := List.replicate roots ⟨none, none, ∅, none⟩

/-- The flight of a load. -/
def flight? (w : World ι κ ν ε) (c : ι) (f : Nat) : Option (Flight κ ν ε) :=
  (w.caches c).flights[f]?

/-- A task that executes code of the user: the task of a load does so in the loader. -/
def executes (w : World ι κ ν ε) (task : TaskRecord ι κ) : Bool :=
  match task.load with
  | none => true
  | some (c, f) =>
      match (w.flight? c f).map Flight.phase with
      | some .loading => true
      | _ => false

section Steps

variable [DecidableEq ι] [DecidableEq κ]

/-- What a step of a cache does to the context of a task. -/
def follow (ident : ι → Nat) (w : World ι κ ν ε) (c : ι) (e : Event κ ν ε)
    (task : TaskRecord ι κ) : TaskRecord ι κ :=
  match task.load with
  | none => task
  | some (c', f) =>
      if c' = c then
        match w.flight? c f with
        | some fl => task.advance (ident c, fl.key) f e
        | none => task
      else task

/-- `scope_key in _LOAD_SCOPE.get()` -/
def isRecursive (ident : ι → Nat) (task : TaskRecord ι κ) (c : ι) (key : κ) : Bool :=
  decide ((ident c, key) ∈ task.scope)

/--
One step; none when it cannot be taken.  `ident` is the `id` of a cache.  A call of `get_or_load`
that raises `RecursiveLoadError` leaves everything as it was; any other is one step up to the end
of its lock section, since the context of a waiting caller does not change.
-/
def step (ident : ι → Nat) (w : World ι κ ν ε) : WorldEvent ι κ ν ε → Option (World ι κ ν ε)
  | .create t =>
      match w.tasks[t]? with
      | some task =>
          if w.executes task then
            some { w with tasks := w.tasks ++ [⟨some t, none, task.scope, none⟩] }
          else none
      | none => none
  | .getOrLoad t c key ttlNs reading taskFailure =>
      match w.tasks[t]? with
      | some task =>
          if w.executes task then
            if isRecursive ident task c key then some w
            else
              let s := (w.caches c).getOrLoad .async key ttlNs reading taskFailure
              let f := (w.caches c).flights.length
              -- a new flight is owned unless the creation of its task failed
              if f ∈ s.owned then
                some
                  { caches := Function.update w.caches c s
                    tasks := w.tasks ++ [⟨some t, some (c, f), task.scope, none⟩] }
              else some { w with caches := Function.update w.caches c s }
          else none
      | none => none
  | .cache _ (.getOrLoad _ _ _ _) => none
  | .cache c e =>
      match (w.caches c).step .async e with
      | some s =>
          some
            { caches := Function.update w.caches c s
              tasks := w.tasks.map (w.follow ident c e) }
      | none => none

/-- Single steps as a relation, for runs. -/
def Step (ident : ι → Nat) (w : World ι κ ν ε) (e : WorldEvent ι κ ν ε) (w' : World ι κ ν ε) :
    Prop :=
  w.step ident e = some w'

end Steps

/-! ## Lineage -/

/-- A task and those that it descends from by creation. -/
inductive DescendsFrom (w : World ι κ ν ε) (a : Nat) : Nat → Prop
  | self :
      DescendsFrom w a a
  | child {t p : Nat} {task : TaskRecord ι κ}
      (htask : w.tasks[t]? = some task) (hparent : task.parent = some p)
      (h : DescendsFrom w a p) :
      DescendsFrom w a t

/-- A task runs the load of a key by a cache, or has run it. -/
def Loads (w : World ι κ ν ε) (a : Nat) (c : ι) (key : κ) : Prop :=
  ∃ task f fl, w.tasks[a]? = some task ∧ task.load = some (c, f) ∧ w.flight? c f = some fl ∧
    fl.key = key

/-- The loader of the load is still running. -/
def Loading (w : World ι κ ν ε) (a : Nat) (c : ι) (key : κ) : Prop :=
  ∃ task f fl, w.tasks[a]? = some task ∧ task.load = some (c, f) ∧ w.flight? c f = some fl ∧
    fl.key = key ∧ fl.phase = .loading

/-- The loads that a task descends from, as entries of a scope. -/
def Lineage (ident : ι → Nat) (w : World ι κ ν ε) (t : Nat) (entry : Nat × κ) : Prop :=
  ∃ a c key, w.DescendsFrom a t ∧ w.Loads a c key ∧ entry = (ident c, key)

/-! ## Frames -/

section Frames

variable {ident : ι → Nat} {w w' : World ι κ ν ε}

/-- Tasks keep their creators and loads, and flights their keys. -/
structure Extends (w w' : World ι κ ν ε) : Prop where
  tasks : ∀ (t : Nat) (task : TaskRecord ι κ), w.tasks[t]? = some task →
    ∃ task', w'.tasks[t]? = some task' ∧ task'.parent = task.parent ∧ task'.load = task.load
  flights : ∀ (c : ι) (f : Nat) (fl : Flight κ ν ε), w.flight? c f = some fl →
    ∃ fl', w'.flight? c f = some fl' ∧ fl'.key = fl.key

/-- What the tasks of a world refer to is there. -/
structure Grounded (w : World ι κ ν ε) : Prop where
  parents : ∀ (t : Nat) (task : TaskRecord ι κ) (p : Nat), w.tasks[t]? = some task →
    task.parent = some p → p < t
  loads : ∀ (t : Nat) (task : TaskRecord ι κ) (c : ι) (f : Nat), w.tasks[t]? = some task →
    task.load = some (c, f) → ∃ fl, w.flight? c f = some fl

theorem DescendsFrom.le
    (h : w.Grounded) {a t : Nat}
    (hdescends : w.DescendsFrom a t) :
    a ≤ t := by
  induction hdescends with
  | self =>
      exact le_rfl
  | child htask hparent _ ih =>
      exact ih.trans (h.parents _ _ _ htask hparent).le

/-- The ancestors of a task do not change. -/
theorem Extends.descends_iff
    (h : Extends w w')
    (hgrounded : w.Grounded) {a t : Nat}
    (ht : t < w.tasks.length) :
    w'.DescendsFrom a t ↔ w.DescendsFrom a t := by
  constructor
  · intro hdescends
    induction hdescends with
    | self =>
        exact .self
    | @child t p task' htask' hparent _ ih =>
        obtain ⟨task, htask⟩ : ∃ task, w.tasks[t]? = some task :=
          ⟨_, List.getElem?_eq_getElem ht⟩
        obtain ⟨task'', htask'', hparent', -⟩ := h.tasks t task htask
        obtain rfl := Option.some.inj (htask'.symm.trans htask'')
        rw [hparent'] at hparent
        exact .child htask hparent (ih ((hgrounded.parents t task p htask hparent).trans ht))
  · intro hdescends
    induction hdescends with
    | self =>
        exact .self
    | @child t p task htask hparent _ ih =>
        obtain ⟨task', htask', hparent', -⟩ := h.tasks t task htask
        exact .child htask' (hparent'.trans hparent)
          (ih ((hgrounded.parents t task p htask hparent).trans ht))

theorem Extends.loads_iff
    (h : Extends w w')
    (hgrounded : w.Grounded) {a : Nat} {c : ι} {key : κ}
    (ha : a < w.tasks.length) :
    w'.Loads a c key ↔ w.Loads a c key := by
  constructor
  · rintro ⟨task', f, fl', htask', hload, hfl', hkey⟩
    obtain ⟨task, htask⟩ : ∃ task, w.tasks[a]? = some task := ⟨_, List.getElem?_eq_getElem ha⟩
    obtain ⟨task'', htask'', -, hload'⟩ := h.tasks a task htask
    obtain rfl := Option.some.inj (htask'.symm.trans htask'')
    rw [hload'] at hload
    obtain ⟨fl, hfl⟩ := hgrounded.loads a task c f htask hload
    obtain ⟨fl'', hfl'', hkey'⟩ := h.flights c f fl hfl
    obtain rfl := Option.some.inj (hfl'.symm.trans hfl'')
    exact ⟨task, f, fl, htask, hload, hfl, hkey'.symm.trans hkey⟩
  · rintro ⟨task, f, fl, htask, hload, hfl, hkey⟩
    obtain ⟨task', htask', -, hload'⟩ := h.tasks a task htask
    obtain ⟨fl', hfl', hkey'⟩ := h.flights c f fl hfl
    exact ⟨task', f, fl', htask', hload'.trans hload, hfl', hkey'.trans hkey⟩

/-- The lineage of a task does not change. -/
theorem Extends.lineage_iff
    (h : Extends w w')
    (hgrounded : w.Grounded) {t : Nat} {entry : Nat × κ}
    (ht : t < w.tasks.length) :
    w'.Lineage ident t entry ↔ w.Lineage ident t entry := by
  constructor
  · rintro ⟨a, c, key, hdescends, hloads, hentry⟩
    have hdescends' := (h.descends_iff hgrounded ht).mp hdescends
    have ha := (hdescends'.le hgrounded).trans_lt ht
    exact ⟨a, c, key, hdescends', (h.loads_iff hgrounded ha).mp hloads, hentry⟩
  · rintro ⟨a, c, key, hdescends, hloads, hentry⟩
    have ha := (hdescends.le hgrounded).trans_lt ht
    exact ⟨a, c, key, (h.descends_iff hgrounded ht).mpr hdescends,
      (h.loads_iff hgrounded ha).mpr hloads, hentry⟩

/-- The lineage of a task is its own load and the lineage of its creator. -/
theorem lineage_iff
    {t : Nat} {task : TaskRecord ι κ} {entry : Nat × κ}
    (htask : w.tasks[t]? = some task) :
    w.Lineage ident t entry ↔
      (∃ c key, w.Loads t c key ∧ entry = (ident c, key)) ∨
        ∃ p, task.parent = some p ∧ w.Lineage ident p entry := by
  constructor
  · rintro ⟨a, c, key, hdescends, hloads, hentry⟩
    cases hdescends with
    | self =>
        exact .inl ⟨c, key, hloads, hentry⟩
    | child htask' hparent hrest =>
        obtain rfl := Option.some.inj (htask.symm.trans htask')
        exact .inr ⟨_, hparent, a, c, key, hrest, hloads, hentry⟩
  · rintro (⟨c, key, hloads, hentry⟩ | ⟨p, hparent, a, c, key, hrest, hloads, hentry⟩)
    · exact ⟨t, c, key, .self, hloads, hentry⟩
    · exact ⟨a, c, key, .child htask hparent hrest, hloads, hentry⟩

end Frames

/-! ## Scopes -/

section Scopes

variable [DecidableEq κ] {ident : ι → Nat} {w w' : World ι κ ν ε}

/-- What the context of a task holds, according to how far its own load has come. -/
structure TaskScope (ident : ι → Nat) (w : World ι κ ν ε) (task : TaskRecord ι κ) : Prop where
  inherited : ∀ entry, entry ∈ task.token.getD task.scope ↔
    ∃ p, task.parent = some p ∧ w.Lineage ident p entry
  entered : ∀ scope, task.token = some scope →
    ∃ c f fl, task.load = some (c, f) ∧ w.flight? c f = some fl ∧
      task.scope = insert (ident c, fl.key) scope
  created : ∀ c f fl, task.load = some (c, f) → w.flight? c f = some fl →
    fl.phase = .created → task.token = none
  loading : ∀ c f fl, task.load = some (c, f) → w.flight? c f = some fl →
    fl.phase = .loading → task.token ≠ none

/-- What holds of the tasks of a world after every step. -/
structure Scoped [DecidableEq ι] (ident : ι → Nat) (w : World ι κ ν ε) : Prop where
  inv : ∀ c, (w.caches c).Inv
  grounded : w.Grounded
  tasks : ∀ (t : Nat) (task : TaskRecord ι κ), w.tasks[t]? = some task → TaskScope ident w task

/-- The scope of a task that executes code of the user is its lineage. -/
theorem TaskScope.mem_scope_iff
    {t : Nat} {task : TaskRecord ι κ} {entry : Nat × κ}
    (h : TaskScope ident w task)
    (htask : w.tasks[t]? = some task)
    (hexecutes : w.executes task = true) :
    entry ∈ task.scope ↔ w.Lineage ident t entry := by
  rw [lineage_iff htask, ← h.inherited]
  unfold executes at hexecutes
  cases hload : task.load with
  | none =>
      have hnone : task.token = none := by
        by_contra hsome
        obtain ⟨scope, hscope⟩ := Option.ne_none_iff_exists'.mp hsome
        obtain ⟨c, f, fl, hload', -⟩ := h.entered scope hscope
        cases hload.symm.trans hload'
      rw [hnone, Option.getD_none]
      refine ⟨.inr, fun hentry => hentry.resolve_left ?_⟩
      rintro ⟨c, key, ⟨task', f, fl, htask', hload', -⟩, -⟩
      obtain rfl := Option.some.inj (htask.symm.trans htask')
      cases hload.symm.trans hload'
  | some load =>
      obtain ⟨c, f⟩ := load
      rw [hload] at hexecutes
      dsimp only at hexecutes
      split at hexecutes
      case h_2 =>
        cases hexecutes
      case h_1 hphase =>
        obtain ⟨fl, hfl, hloading⟩ := Option.map_eq_some_iff.mp hphase
        obtain ⟨scope, hscope⟩ :=
          Option.ne_none_iff_exists'.mp (h.loading c f fl hload hfl hloading)
        obtain ⟨c', f', fl', hload', hfl', hinsert⟩ := h.entered scope hscope
        obtain ⟨rfl, rfl⟩ := Prod.mk.inj (Option.some.inj (hload.symm.trans hload'))
        obtain rfl := Option.some.inj (hfl.symm.trans hfl')
        rw [hinsert, Finset.mem_insert, hscope, Option.getD_some]
        refine or_congr_left ⟨fun hentry => ⟨c, fl.key, ⟨task, f, fl, htask, hload, hfl, rfl⟩,
          hentry⟩, ?_⟩
        rintro ⟨c', key, ⟨task', f', fl', htask', hload', hfl', rfl⟩, hentry⟩
        obtain rfl := Option.some.inj (htask.symm.trans htask')
        obtain ⟨rfl, rfl⟩ := Prod.mk.inj (Option.some.inj (hload.symm.trans hload'))
        obtain rfl := Option.some.inj (hfl.symm.trans hfl')
        exact hentry

/-- A task as a step of its world leaves it. -/
structure TaskMove (ident : ι → Nat) (w' : World ι κ ν ε) (task task' : TaskRecord ι κ) :
    Prop where
  parent : task'.parent = task.parent
  load : task'.load = task.load
  inherited : task'.token.getD task'.scope = task.token.getD task.scope
  entered : ∀ scope, task'.token = some scope →
    ∃ c f fl, task'.load = some (c, f) ∧ w'.flight? c f = some fl ∧
      task'.scope = insert (ident c, fl.key) scope
  created : ∀ c f fl, task'.load = some (c, f) → w'.flight? c f = some fl →
    fl.phase = .created → task'.token = none
  loading : ∀ c f fl, task'.load = some (c, f) → w'.flight? c f = some fl →
    fl.phase = .loading → task'.token ≠ none

variable [DecidableEq ι]

/-- A step that adds no task. -/
theorem Scoped.update
    (h : Scoped ident w)
    (hinv : ∀ c, (w'.caches c).Inv)
    (hextends : Extends w w')
    (hmoves : ∀ (t : Nat) (task' : TaskRecord ι κ), w'.tasks[t]? = some task' →
      ∃ task, w.tasks[t]? = some task ∧ TaskMove ident w' task task') :
    Scoped ident w' := by
  refine ⟨hinv, ⟨fun t task' p htask' hparent => ?_, fun t task' c f htask' hload => ?_⟩,
    fun t task' htask' => ?_⟩
  · obtain ⟨task, htask, hmove⟩ := hmoves t task' htask'
    exact h.grounded.parents t task p htask (hmove.parent.symm.trans hparent)
  · obtain ⟨task, htask, hmove⟩ := hmoves t task' htask'
    obtain ⟨fl, hfl⟩ := h.grounded.loads t task c f htask (hmove.load.symm.trans hload)
    obtain ⟨fl', hfl', -⟩ := hextends.flights c f fl hfl
    exact ⟨fl', hfl'⟩
  · obtain ⟨task, htask, hmove⟩ := hmoves t task' htask'
    refine ⟨fun entry => ?_, hmove.entered, hmove.created, hmove.loading⟩
    rw [hmove.inherited, (h.tasks t task htask).inherited, hmove.parent]
    refine exists_congr fun p => and_congr_right fun hparent => ?_
    have hlt := h.grounded.parents t task p htask hparent
    exact (hextends.lineage_iff h.grounded
      (hlt.trans (List.getElem?_eq_some_iff.mp htask).1)).symm

/-- A new task has the context of the task that creates it. -/
theorem Scoped.append
    (h : Scoped ident w) {t : Nat} {load : Option (ι × Nat)} {scope : Finset (Nat × κ)}
    (ht : t < w.tasks.length)
    (hscope : ∀ entry, entry ∈ scope ↔ w.Lineage ident t entry)
    (hload : ∀ c f, load = some (c, f) → ∃ fl, w.flight? c f = some fl ∧ fl.phase = .created) :
    Scoped ident { w with tasks := w.tasks ++ [⟨some t, load, scope, none⟩] } := by
  have hextends : Extends w { w with tasks := w.tasks ++ [⟨some t, load, scope, none⟩] } := by
    refine ⟨fun t' task htask => ⟨task, ?_, rfl, rfl⟩, fun c f fl hfl => ⟨fl, hfl, rfl⟩⟩
    exact (List.getElem?_append_left (List.getElem?_eq_some_iff.mp htask).1).trans htask
  have hcases : ∀ (t' : Nat) (task : TaskRecord ι κ),
      (w.tasks ++ [⟨some t, load, scope, none⟩])[t']? = some task →
        (w.tasks[t']? = some task ∧ t' < w.tasks.length) ∨
          t' = w.tasks.length ∧ task = ⟨some t, load, scope, none⟩ := by
    intro t' task htask
    rcases Nat.lt_or_ge t' w.tasks.length with hlt | hge
    · rw [List.getElem?_append_left hlt] at htask
      exact .inl ⟨htask, hlt⟩
    · have hlt := (List.getElem?_eq_some_iff.mp htask).1
      rw [List.length_append, List.length_singleton] at hlt
      obtain rfl : t' = w.tasks.length := by omega
      rw [List.getElem?_concat_length] at htask
      exact .inr ⟨rfl, (Option.some.inj htask).symm⟩
  refine ⟨h.inv, ⟨fun t' task p htask hparent => ?_, fun t' task c f htask hload' => ?_⟩,
    fun t' task htask => ?_⟩
  · rcases hcases t' task htask with ⟨hold, -⟩ | ⟨rfl, rfl⟩
    · exact h.grounded.parents t' task p hold hparent
    · obtain rfl := Option.some.inj hparent
      exact ht
  · rcases hcases t' task htask with ⟨hold, -⟩ | ⟨-, rfl⟩
    · exact h.grounded.loads t' task c f hold hload'
    · obtain ⟨fl, hfl, -⟩ := hload c f hload'
      exact ⟨fl, hfl⟩
  · rcases hcases t' task htask with ⟨hold, hlt⟩ | ⟨-, rfl⟩
    · have hspec := h.tasks t' task hold
      refine ⟨fun entry => ?_, hspec.entered, hspec.created, hspec.loading⟩
      rw [hspec.inherited]
      refine exists_congr fun p => and_congr_right fun hparent => ?_
      have hp := h.grounded.parents t' task p hold hparent
      exact (hextends.lineage_iff h.grounded (hp.trans hlt)).symm
    · refine ⟨fun entry => ?_, nofun, fun _ _ _ _ _ _ => rfl, fun c f fl hload' hfl hloading => ?_⟩
      · rw [Option.getD_none, hscope, ← hextends.lineage_iff h.grounded ht]
        simp only [Option.some.injEq, exists_eq_left']
      · obtain ⟨fl', hfl', hcreated⟩ := hload c f hload'
        obtain rfl := Option.some.inj (hfl.symm.trans hfl')
        cases hcreated.symm.trans hloading

omit [DecidableEq ι] in
/-- A step that leaves a task alone, and its flight where it was. -/
theorem TaskScope.unmoved
    {task : TaskRecord ι κ}
    (h : TaskScope ident w task)
    (hextends : Extends w w')
    (hphase : ∀ c f fl', task.load = some (c, f) → w'.flight? c f = some fl' →
      ∃ fl, w.flight? c f = some fl ∧ (fl'.phase = .created → fl.phase = .created) ∧
        (fl'.phase = .loading → fl.phase = .loading)) :
    TaskMove ident w' task task := by
  refine ⟨rfl, rfl, rfl, fun scope hscope => ?_, fun c f fl' hload hfl' hcreated => ?_,
    fun c f fl' hload hfl' hloading => ?_⟩
  · obtain ⟨c, f, fl, hload, hfl, hinsert⟩ := h.entered scope hscope
    obtain ⟨fl', hfl', hkey⟩ := hextends.flights c f fl hfl
    exact ⟨c, f, fl', hload, hfl', by rw [hkey, hinsert]⟩
  · obtain ⟨fl, hfl, hsame, -⟩ := hphase c f fl' hload hfl'
    exact h.created c f fl hload hfl (hsame hcreated)
  · obtain ⟨fl, hfl, -, hsame⟩ := hphase c f fl' hload hfl'
    exact h.loading c f fl hload hfl (hsame hloading)

omit [DecidableEq ι] in
/-- A task that is over has taken its entry out. -/
theorem TaskMove.left
    {task : TaskRecord ι κ} {c : ι} {f : Nat} {fl' : Flight κ ν ε}
    (hload : task.load = some (c, f))
    (hfl' : w'.flight? c f = some fl')
    (hloading : fl'.phase ≠ .loading) :
    TaskMove ident w' task task.leave := by
  have htoken : task.leave.token = none := by
    unfold TaskRecord.leave
    split
    · rfl
    · next hnone => exact hnone
  have hsame : task.leave.load = task.load := by
    unfold TaskRecord.leave
    split <;> rfl
  have hphases : ∀ c' f' fl'', task.leave.load = some (c', f') → w'.flight? c' f' = some fl'' →
      fl'' = fl' := by
    intro c' f' fl'' hload' hfl''
    obtain ⟨rfl, rfl⟩ := Prod.mk.inj (Option.some.inj (hload.symm.trans (hsame.symm.trans hload')))
    exact Option.some.inj (hfl''.symm.trans hfl')
  refine ⟨?_, hsame, ?_, fun scope hscope => ?_, fun _ _ _ _ _ _ => htoken,
    fun c' f' fl'' hload' hfl'' hphase => ?_⟩
  · unfold TaskRecord.leave
    split <;> rfl
  · unfold TaskRecord.leave
    split
    · next hsome => rw [hsome]; rfl
    · rfl
  · rw [htoken] at hscope
    cases hscope
  · rw [hphases c' f' fl'' hload' hfl''] at hphase
    exact absurd hphase hloading

omit [DecidableEq κ] in
/-- The caches after a step of one of them. -/
theorem flight?_update
    {c c' : ι} {s : FlightCache κ ν ε} {tasks : List (TaskRecord ι κ)} {f : Nat} :
    (World.mk (Function.update w.caches c s) tasks).flight? c' f =
      if c' = c then s.flights[f]? else w.flight? c' f := by
  unfold flight?
  by_cases hc : c' = c
  · rw [hc, if_pos rfl]
    exact congrArg (fun cache => cache.flights[f]?) (Function.update_self c s w.caches)
  · rw [if_neg hc]
    exact congrArg (fun cache => cache.flights[f]?) (Function.update_of_ne hc s w.caches)

theorem follow_frame
    (c : ι) (e : Event κ ν ε) (task : TaskRecord ι κ) :
    (w.follow ident c e task).parent = task.parent ∧
      (w.follow ident c e task).load = task.load := by
  have hleave : task.leave.parent = task.parent ∧ task.leave.load = task.load := by
    unfold TaskRecord.leave
    split <;> exact ⟨rfl, rfl⟩
  unfold follow
  split
  · exact ⟨rfl, rfl⟩
  · split
    · split
      · unfold TaskRecord.advance
        split
        · split <;> exact ⟨rfl, rfl⟩
        · split
          · exact hleave
          · exact ⟨rfl, rfl⟩
        · split
          · exact hleave
          · exact ⟨rfl, rfl⟩
        · exact ⟨rfl, rfl⟩
      · exact ⟨rfl, rfl⟩
    · exact ⟨rfl, rfl⟩

omit [DecidableEq ι] in
/-- Only the task of a flight takes the steps of its task. -/
theorem advance_of_task
    {entry : Nat × κ} {f : Nat} {e : Event κ ν ε} {task : TaskRecord ι κ}
    (htask : FlightCache.task? e ≠ some f) :
    task.advance entry f e = task := by
  have hne : ∀ f', some f' ≠ some f → f' ≠ f := fun f' h heq => h (congrArg some heq)
  cases e with
  | startLoader f' =>
      exact if_neg (hne f' htask)
  | complete f' reading =>
      exact if_neg (hne f' htask)
  | loseTask f' =>
      exact if_neg (hne f' htask)
  | _ =>
      rfl

omit [DecidableEq ι] in
/-- The task of a flight whose cache takes a step. -/
theorem TaskScope.moved
    {task : TaskRecord ι κ} {c : ι} {f : Nat} {fl : Flight κ ν ε} {e : Event κ ν ε}
    {s : FlightCache κ ν ε}
    (h : TaskScope ident w task)
    (hextends : Extends w w')
    (hload : task.load = some (c, f))
    (hfl : w.flight? c f = some fl)
    (hcache : ∀ f, w'.flight? c f = s.flights[f]?)
    (hinv : (w.caches c).Inv)
    (hstep : FlightCache.Step .async (w.caches c) e s) :
    TaskMove ident w' task (task.advance (ident c, fl.key) f e) := by
  obtain ⟨fl', hfl', hkey⟩ := hextends.flights c f fl hfl
  have hunmoved : (fl'.phase = .created → fl.phase = .created) →
      (fl'.phase = .loading → fl.phase = .loading) → TaskMove ident w' task task := by
    intro hcreated hloading
    refine h.unmoved hextends fun c' f' fl'' hload' hfl'' => ?_
    obtain ⟨rfl, rfl⟩ := Prod.mk.inj (Option.some.inj (hload.symm.trans hload'))
    obtain rfl := Option.some.inj (hfl'.symm.trans hfl'')
    exact ⟨fl, hfl, hcreated, hloading⟩
  have hflight : s.flights[f]? = some fl' := (hcache f).symm.trans hfl'
  cases hinv.flightMove hstep hflight with
  | kept hsame hphase _ htask =>
      obtain rfl := Option.some.inj (hfl.symm.trans hsame)
      rw [advance_of_task htask]
      exact hunmoved hphase.symm.trans hphase.symm.trans
  | started hsame hcreated hphase _ =>
      obtain rfl := Option.some.inj (hfl.symm.trans hsame)
      have hnone := h.created c f fl hload hfl hcreated
      rw [TaskRecord.advance, if_pos rfl]
      refine ⟨rfl, rfl, ?_, fun scope hscope => ?_, fun c' f' fl'' hload' hfl'' hagain => ?_,
        fun _ _ _ _ _ _ => Option.some_ne_none _⟩
      · rw [hnone]
        rfl
      · obtain rfl := Option.some.inj hscope
        exact ⟨c, f, fl', hload, hfl', by rw [hkey]; rfl⟩
      · obtain ⟨rfl, rfl⟩ := Prod.mk.inj (Option.some.inj (hload.symm.trans hload'))
        obtain rfl := Option.some.inj (hfl'.symm.trans hfl'')
        cases hphase.symm.trans hagain
  | loaded _ _ hphase _ =>
      refine hunmoved (fun hcreated => ?_) fun hloading => ?_
      · cases hphase.symm.trans hcreated
      · cases hphase.symm.trans hloading
  | ended _ _ hphase _ _ =>
      rw [TaskRecord.advance, if_pos rfl]
      refine .left hload hfl' fun hloading => ?_
      cases hphase.symm.trans hloading
  | lost _ _ hphase =>
      rw [TaskRecord.advance, if_pos rfl]
      refine .left hload hfl' fun hloading => ?_
      cases hphase.symm.trans hloading
  | opened hnew _ _ =>
      exact absurd (List.getElem?_eq_some_iff.mp hfl).1 hnew.not_lt
  | failed hnew _ _ =>
      exact absurd (List.getElem?_eq_some_iff.mp hfl).1 hnew.not_lt

theorem extends_cacheStep
    (ident : ι → Nat) {c : ι} {e : Event κ ν ε} {s : FlightCache κ ν ε}
    (hstep : FlightCache.Step .async (w.caches c) e s) :
    Extends w ⟨Function.update w.caches c s, w.tasks.map (w.follow ident c e)⟩ := by
  refine ⟨fun t task htask => ⟨w.follow ident c e task, ?_, follow_frame c e task⟩,
    fun c' f fl hfl => ?_⟩
  · rw [List.getElem?_map, htask]
    rfl
  · rw [flight?_update]
    split
    case isTrue hc =>
      subst hc
      obtain ⟨fl', hfl', hevolves⟩ := hstep.persists hfl
      exact ⟨fl', hfl', hevolves.key⟩
    case isFalse =>
      exact ⟨fl, hfl, rfl⟩

/-- A step of a cache, with the tasks of its flights. -/
theorem Scoped.cacheStep
    (h : Scoped ident w) {c : ι} {e : Event κ ν ε} {s : FlightCache κ ν ε}
    (hstep : FlightCache.Step .async (w.caches c) e s) :
    Scoped ident ⟨Function.update w.caches c s, w.tasks.map (w.follow ident c e)⟩ := by
  have hextends := extends_cacheStep ident hstep
  refine h.update (fun c' => ?_) hextends fun t task' htask' => ?_
  · change (Function.update w.caches c s c').Inv
    by_cases hc : c' = c
    · subst hc
      rw [Function.update_self]
      exact (h.inv c').step hstep
    · rw [Function.update_of_ne hc]
      exact h.inv c'
  · rw [List.getElem?_map] at htask'
    obtain ⟨task, htask, rfl⟩ := Option.map_eq_some_iff.mp htask'
    refine ⟨task, htask, ?_⟩
    have hspec := h.tasks t task htask
    cases hload : task.load with
    | none =>
        rw [follow, hload]
        refine hspec.unmoved hextends fun c' f fl' hload' => ?_
        cases hload.symm.trans hload'
    | some load =>
        obtain ⟨c', f⟩ := load
        have hfollow : w.follow ident c e task = if c' = c then
            match w.flight? c f with
            | some fl => task.advance (ident c, fl.key) f e
            | none => task
          else task := by rw [follow, hload]
        by_cases hc : c' = c
        · subst hc
          obtain ⟨fl, hfl⟩ := h.grounded.loads t task c' f htask hload
          rw [hfollow, if_pos rfl, hfl]
          refine hspec.moved hextends hload hfl (fun f => ?_) (h.inv c') hstep
          rw [flight?_update, if_pos rfl]
        · rw [hfollow, if_neg hc]
          refine hspec.unmoved hextends fun c'' f' fl' hload' hfl' => ?_
          obtain ⟨rfl, rfl⟩ := Prod.mk.inj (Option.some.inj (hload.symm.trans hload'))
          rw [flight?_update, if_neg hc] at hfl'
          exact ⟨fl', hfl', id, id⟩

theorem map_follow_getOrLoad
    (c : ι) (key : κ) (ttlNs : Nat) (reading : Except ε Int) (taskFailure : Option ε) :
    w.tasks.map (w.follow ident c (.getOrLoad key ttlNs reading taskFailure)) = w.tasks := by
  refine (List.map_congr_left fun task _ => ?_).trans (List.map_id _)
  unfold follow
  split
  · rfl
  · split
    · split <;> rfl
    · rfl

/-- A call of `get_or_load` that looks the key up. -/
theorem Scoped.getOrLoad
    (h : Scoped ident w) (c : ι) (key : κ) (ttlNs : Nat) (reading : Except ε Int)
    (taskFailure : Option ε) :
    let s := (w.caches c).getOrLoad .async key ttlNs reading taskFailure
    Extends w ⟨Function.update w.caches c s, w.tasks⟩ ∧
      Scoped ident ⟨Function.update w.caches c s, w.tasks⟩ := by
  have hstep : FlightCache.Step .async (w.caches c) (.getOrLoad key ttlNs reading taskFailure)
      ((w.caches c).getOrLoad .async key ttlNs reading taskFailure) := rfl
  have hextends := extends_cacheStep ident hstep
  have hscoped := h.cacheStep hstep
  intro s
  rw [map_follow_getOrLoad] at hextends hscoped
  exact ⟨hextends, hscoped⟩

/-- The flight that a call of `get_or_load` opens. -/
theorem created_of_owned
    {s t : FlightCache κ ν ε} {key : κ} {ttlNs : Nat} {reading : Except ε Int}
    {taskFailure : Option ε}
    (hinv : s.Inv)
    (hstep : FlightCache.Step .async s (.getOrLoad key ttlNs reading taskFailure) t)
    (howned : s.flights.length ∈ t.owned) :
    ∃ fl, t.flights[s.flights.length]? = some fl ∧ fl.phase = .created := by
  obtain ⟨fl, hfl⟩ := (hinv.step hstep).known _ howned
  refine ⟨fl, hfl, ?_⟩
  cases hinv.flightMove hstep hfl with
  | kept hold _ _ _ =>
      exact absurd (List.getElem?_eq_some_iff.mp hold).1 (lt_irrefl _)
  | opened _ hphase _ =>
      exact hphase
  | failed _ _ hnot =>
      exact absurd howned hnot

/-- **Every step keeps what the contexts say.** -/
theorem Scoped.step
    {e : WorldEvent ι κ ν ε}
    (h : Scoped ident w)
    (hstep : Step ident w e w') :
    Scoped ident w' := by
  unfold Step at hstep
  cases e with
  | create t =>
      simp only [World.step] at hstep
      split at hstep
      case h_2 =>
        cases hstep
      case h_1 task htask =>
        split at hstep
        case isFalse =>
          cases hstep
        case isTrue hexecutes =>
          obtain rfl := Option.some.inj hstep
          exact h.append (List.getElem?_eq_some_iff.mp htask).1
            (fun entry => (h.tasks t task htask).mem_scope_iff htask hexecutes) nofun
  | getOrLoad t c key ttlNs reading taskFailure =>
      simp only [World.step] at hstep
      split at hstep
      case h_2 =>
        cases hstep
      case h_1 task htask =>
        split at hstep
        case isFalse =>
          cases hstep
        case isTrue hexecutes =>
          split at hstep
          case isTrue =>
            obtain rfl := Option.some.inj hstep
            exact h
          case isFalse =>
            obtain ⟨hextends, hscoped⟩ := h.getOrLoad c key ttlNs reading taskFailure
            split at hstep
            case isFalse =>
              obtain rfl := Option.some.inj hstep
              exact hscoped
            case isTrue howned =>
              obtain rfl := Option.some.inj hstep
              have ht := (List.getElem?_eq_some_iff.mp htask).1
              refine hscoped.append ht (fun entry => ?_) fun c' f hload => ?_
              · rw [(h.tasks t task htask).mem_scope_iff htask hexecutes,
                  hextends.lineage_iff h.grounded ht]
              · obtain ⟨rfl, rfl⟩ := Prod.mk.inj (Option.some.inj hload)
                rw [flight?_update, if_pos rfl]
                exact created_of_owned (h.inv c) rfl howned
  | cache c e =>
      have hcache : ∀ s, FlightCache.Step .async (w.caches c) e s →
          some (⟨Function.update w.caches c s, w.tasks.map (w.follow ident c e)⟩ : World ι κ ν ε) =
            some w' → Scoped ident w' := by
        intro s hs heq
        obtain rfl := Option.some.inj heq
        exact h.cacheStep hs
      cases e with
      | getOrLoad =>
          cases hstep
      | _ =>
          simp only [World.step] at hstep
          split at hstep
          case h_1 s hs =>
            exact hcache s hs hstep
          case h_2 =>
            cases hstep

end Scopes

/-! ## Calls -/

section Calls

variable [DecidableEq ι] [DecidableEq κ] {ident : ι → Nat} {w : World ι κ ν ε}

theorem scoped_init
    (maxSize : ι → Nat) (hpos : ∀ c, 0 < maxSize c) (maxInflight : ι → Nat) (roots : Nat) :
    Scoped ident (init maxSize hpos maxInflight roots : World ι κ ν ε) := by
  have hroot : ∀ (t : Nat) (task : TaskRecord ι κ),
      (List.replicate roots (⟨none, none, ∅, none⟩ : TaskRecord ι κ))[t]? = some task →
        task = ⟨none, none, ∅, none⟩ :=
    fun t task htask => List.eq_of_mem_replicate (List.mem_of_getElem? htask)
  refine ⟨fun c => FlightCache.inv_init _ _ _, ⟨fun t task p htask hparent => ?_,
    fun t task c f htask hload => ?_⟩, fun t task htask => ?_⟩
  · rw [hroot t task htask] at hparent
    cases hparent
  · rw [hroot t task htask] at hload
    cases hload
  · rw [hroot t task htask]
    refine ⟨fun entry => ?_, nofun, nofun, nofun⟩
    simp

/-- **A call raises when the caller descends from a load of the same cache and key.** -/
theorem raises_iff_lineage
    {t : Nat} {task : TaskRecord ι κ} {c : ι} {key : κ}
    (h : Scoped ident w)
    (htask : w.tasks[t]? = some task)
    (hexecutes : w.executes task = true) :
    isRecursive ident task c key = true ↔
      ∃ a c', w.DescendsFrom a t ∧ w.Loads a c' key ∧ ident c' = ident c := by
  rw [isRecursive, decide_eq_true_eq, (h.tasks t task htask).mem_scope_iff htask hexecutes]
  constructor
  · rintro ⟨a, c', key', hdescends, hloads, hentry⟩
    obtain ⟨hident, rfl⟩ := Prod.mk.inj hentry
    exact ⟨a, c', hdescends, hloads, hident.symm⟩
  · rintro ⟨a, c', hdescends, hloads, hident⟩
    exact ⟨a, c', key, hdescends, hloads, by rw [hident]⟩

omit [DecidableEq ι] [DecidableEq κ] in
theorem Loading.loads
    {a : Nat} {c : ι} {key : κ}
    (h : w.Loading a c key) :
    w.Loads a c key := by
  obtain ⟨task, f, fl, htask, hload, hfl, hkey, -⟩ := h
  exact ⟨task, f, fl, htask, hload, hfl, hkey⟩

/--
**A call raises exactly in the loader of the same cache and key, or in a task that descends from
it while it runs, when the caller descends from such a running load, or from no load of the key by
a cache with that `id`.**
-/
theorem recursion_exact_iff
    (ident : ι → Nat) (maxSize : ι → Nat) (hpos : ∀ c, 0 < maxSize c) (maxInflight : ι → Nat)
    (roots : Nat) (es : List (WorldEvent ι κ ν ε)) (w : World ι κ ν ε) (t : Nat)
    (task : TaskRecord ι κ) (c : ι) (key : κ)
    (hrun : Run (Step ident) (init maxSize hpos maxInflight roots) es w)
    (htask : w.tasks[t]? = some task)
    (hexecutes : w.executes task = true) :
    (isRecursive ident task c key = true ↔ ∃ a, w.DescendsFrom a t ∧ w.Loading a c key) ↔
      (∃ a, w.DescendsFrom a t ∧ w.Loading a c key) ∨
        ∀ a c', w.DescendsFrom a t → w.Loads a c' key → ident c' ≠ ident c := by
  have hscoped : Scoped ident w :=
    hrun.invariant (I := Scoped ident) (fun _ _ _ (h : Scoped ident _) hst => Scoped.step h hst)
      (scoped_init maxSize hpos maxInflight roots)
  rw [raises_iff_lineage hscoped htask hexecutes]
  constructor
  · intro hexact
    by_cases hraises : ∃ a c', w.DescendsFrom a t ∧ w.Loads a c' key ∧ ident c' = ident c
    · exact .inl (hexact.mp hraises)
    · exact .inr fun a c' hdescends hloads hident => hraises ⟨a, c', hdescends, hloads, hident⟩
  · rintro (hrunning | hnone)
    · obtain ⟨a, hdescends, hloading⟩ := hrunning
      exact iff_of_true ⟨a, c, hdescends, hloading.loads, rfl⟩ ⟨a, hdescends, hloading⟩
    · refine iff_of_false ?_ ?_
      · rintro ⟨a, c', hdescends, hloads, hident⟩
        exact hnone a c' hdescends hloads hident
      · rintro ⟨a, hdescends, hloading⟩
        exact hnone a c hdescends hloading.loads rfl

/-- One task calls `get_or_load`, and its loader runs. -/
def loadingWorld : List (WorldEvent Unit Nat Nat String) :=
  [.getOrLoad 0 () 7 5 (.ok 0) none, .cache () (.startLoader 0)]

/-- The loader calls `get_or_load` for its own key. -/
theorem recursion_exact_iff_loader :
    ∃ (w : World Unit Nat Nat String) (task : TaskRecord Unit Nat),
      Run (Step fun _ => 0) (init (fun _ => 1) (fun _ => Nat.one_pos) (fun _ => 2) 1)
        loadingWorld w ∧
      w.tasks[1]? = some task ∧
      ((isRecursive (fun _ => 0) task () 7 = true ↔
          ∃ a, w.DescendsFrom a 1 ∧ w.Loading a () 7) ↔
        (∃ a, w.DescendsFrom a 1 ∧ w.Loading a () 7) ∨
          ∀ a c', w.DescendsFrom a 1 → w.Loads a c' 7 → (0 : Nat) ≠ 0) :=
  let run : { w // Run (Step fun _ => 0)
      (init (fun _ => 1) (fun _ => Nat.one_pos) (fun _ => 2) 1) loadingWorld w } :=
    ⟨_, .cons rfl (.cons rfl (.nil _))⟩
  ⟨run.1, _, run.2, rfl, recursion_exact_iff (fun _ => 0) _ _ _ 1 loadingWorld run.1 1 _ () 7
    run.2 rfl rfl⟩

/-- The loader creates a task that outlives the load and calls `get_or_load` for the key. -/
theorem recursion_exact_iff_outlived :
    ∃ (w : World Unit Nat Nat String) (task : TaskRecord Unit Nat),
      Run (Step fun _ => 0) (init (fun _ => 1) (fun _ => Nat.one_pos) (fun _ => 2) 1)
        (loadingWorld ++ [.create 1, .cache () (.loaderEnds 0 (.ok 9)),
          .cache () (.complete 0 (.ok 1))]) w ∧
      w.tasks[2]? = some task ∧ w.executes task = true ∧
      isRecursive (fun _ => 0) task () 7 = true ∧
      ¬ ∃ a, w.DescendsFrom a 2 ∧ w.Loading a () 7 := by
  refine ⟨_, _, .cons rfl (.cons rfl (.cons rfl (.cons rfl (.cons rfl (.nil _))))), rfl, rfl, rfl,
    ?_⟩
  rintro ⟨a, -, task, f, fl, -, -, hfl, -, hloading⟩
  cases f with
  | zero =>
      obtain rfl := Option.some.inj hfl
      cases hloading
  | succ f =>
      cases hfl

end Calls

end World
end Cache
end Bluetape
