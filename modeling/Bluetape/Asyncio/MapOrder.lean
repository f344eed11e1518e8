import Bluetape.Asyncio.MapBounded

/-!
# Order, slots and bound of bounded concurrent mapping

The invariant ties every worker that awaits its mapper to one empty slot, every
filled slot to an outcome of the mapper on the item pulled for it, and every empty
slot without a worker to a failure that keeps the invocation from returning.
-/

namespace Bluetape
namespace Asyncio

open Base

variable {T R E : Type} {limit : Nat}

namespace Invocation

/-- The invocation cannot return a list. -/
def Failed (s : Invocation T R E limit) : Prop :=
  s.shared.ownerCancelled = true ∨ ∃ w, (s.workers w).status.failed = true

/-- The workers that await their mapper. -/
def running (s : Invocation T R E limit) : Finset (Fin limit) :=
  Finset.univ.filter fun w => (s.workers w).status.isMapping = true

/-- The items whose worker was not cancelled when they were pulled. -/
def kept (s : Invocation T R E limit) : List T :=
  (s.pulled.filter fun p => !p.2).map Prod.fst

/-- Every item comes from the source after the items before it. -/
def FollowsSource (source : List T → PullOutcome T E → Prop) (items : List T) : Prop :=
  ∀ (i : Nat) (x : T), items[i]? = some x → source (items.take i) (.item x)

/-- What holds in every reachable state. -/
structure Sound (mapper : T → MapperOutcome R E → Prop)
    (source : List T → PullOutcome T E → Prop) (s : Invocation T R E limit) : Prop where
  called : s.called = s.kept
  length : s.shared.results.length = s.called.length
  slot : ∀ w index x, (s.workers w).status = .mapping index x →
    s.called[index]? = some x ∧ s.shared.results[index]? = some none
  apart : ∀ w v index x y, (s.workers w).status = .mapping index x →
    (s.workers v).status = .mapping index y → w = v
  filled : ∀ (index : Nat) (r : R), s.shared.results[index]? = some (some r) →
    ∃ x, s.called[index]? = some x ∧ mapper x (.value r)
  empty : ∀ index : Nat, s.shared.results[index]? = some none →
    (∃ w x, (s.workers w).status = .mapping index x) ∨ s.Failed
  terminal : s.shared.terminal = true ↔ ∃ w, (s.workers w).status.failed = true
  cancelled : ∀ p ∈ s.pulled, p.2 = true → s.Failed
  counted : s.called.length = s.finished + s.running.card
  pulls : FollowsSource source s.items
  stopped : s.exhausted = true → ∃ p, p <+: s.items ∧ source p .stopIteration
  left : ∀ w e, (s.workers w).status = .ended e → e = .dropped ∨ s.exhausted = true ∨ s.Failed

/-! ## Changes of one worker -/

@[simp] theorem setStatus_self
    (s : Invocation T R E limit)
    (w : Fin limit)
    (status : WorkerStatus T E) :
    ((s.setStatus w status).workers w).status = status := by
  simp [setStatus]

theorem setStatus_of_ne
    (s : Invocation T R E limit)
    {w v : Fin limit}
    (status : WorkerStatus T E)
    (hne : v ≠ w) :
    (s.setStatus w status).workers v = s.workers v := by
  simp [setStatus, hne]

@[simp] theorem setCancelling_status
    (s : Invocation T R E limit)
    (w v : Fin limit)
    (cancelling : Bool) :
    ((s.setCancelling w cancelling).workers v).status = (s.workers v).status := by
  by_cases hv : v = w
  · subst hv
    simp [setCancelling]
  · simp [setCancelling, hv]

theorem pullCancels_status
    (s : Invocation T R E limit)
    (w : Fin limit)
    (pull : Pull T E)
    (v : Fin limit) :
    ((s.pullCancels w pull).workers v).status = (s.workers v).status := by
  cases hw : pull.cancelsWorker <;> cases ho : pull.cancelsOwner <;>
    simp [pullCancels, hw, ho, cancelOwner]

theorem pullCancels_items
    (s : Invocation T R E limit)
    (w : Fin limit)
    (pull : Pull T E) :
    (s.pullCancels w pull).items = s.items := by
  cases hw : pull.cancelsWorker <;> cases ho : pull.cancelsOwner <;>
    simp [pullCancels, hw, ho, cancelOwner, setCancelling, items]

/-- The failed workers after one that had not failed changes its status. -/
theorem exists_failed_setStatus
    {s : Invocation T R E limit}
    {w : Fin limit}
    {status : WorkerStatus T E}
    (hw : (s.workers w).status.failed = false) :
    (∃ v, ((s.setStatus w status).workers v).status.failed = true) ↔
      (∃ v, (s.workers v).status.failed = true) ∨ status.failed = true := by
  constructor
  · rintro ⟨v, hv⟩
    by_cases hne : v = w
    · subst hne
      exact .inr (by simpa using hv)
    · exact .inl ⟨v, by rwa [setStatus_of_ne s status hne] at hv⟩
  · rintro (⟨v, hv⟩ | hf)
    · have hne : v ≠ w := by
        rintro rfl
        simp [hw] at hv
      exact ⟨v, by rwa [setStatus_of_ne s status hne]⟩
    · exact ⟨w, by simpa using hf⟩

theorem Failed.setStatus
    {s : Invocation T R E limit}
    {w : Fin limit}
    (h : s.Failed)
    (hw : (s.workers w).status.failed = false)
    (status : WorkerStatus T E) :
    (s.setStatus w status).Failed :=
  h.imp id fun hv => (exists_failed_setStatus hw).mpr (.inl hv)

theorem running_setStatus
    (s : Invocation T R E limit)
    (w : Fin limit)
    (status : WorkerStatus T E) :
    (s.setStatus w status).running =
      if status.isMapping then insert w s.running else s.running.erase w := by
  ext v
  by_cases hv : v = w
  · subst hv
    cases hmap : status.isMapping <;> simp [running, hmap]
  · cases hmap : status.isMapping <;> simp [running, setStatus_of_ne s status hv, hv]

theorem mem_running
    {s : Invocation T R E limit}
    {w : Fin limit} :
    w ∈ s.running ↔ (s.workers w).status.isMapping = true := by
  simp [running]

/-- A filled slot stays where it is when an empty one is appended. -/
theorem getElem?_of_concat_none
    {slots : List (Option R)}
    {i : Nat}
    {r : R}
    (h : (slots ++ [none])[i]? = some (some r)) :
    slots[i]? = some (some r) := by
  rw [List.getElem?_append] at h
  split at h
  · exact h
  · obtain ⟨hlt, heq⟩ := List.getElem?_eq_some_iff.mp h
    simp at heq

theorem FollowsSource.concat
    {source : List T → PullOutcome T E → Prop}
    {items : List T}
    {x : T}
    (h : FollowsSource source items)
    (hx : source items (.item x)) :
    FollowsSource source (items ++ [x]) := by
  intro i y hy
  rcases Nat.lt_trichotomy i items.length with hlt | rfl | hgt
  · rw [List.getElem?_append_left hlt] at hy
    rw [List.take_append_of_le_length (by omega)]
    exact h i y hy
  · rw [List.getElem?_concat_length] at hy
    obtain rfl : x = y := by simpa using hy
    rw [List.take_left]
    exact hx
  · have := (List.getElem?_eq_some_iff.mp hy).1
    simp at this
    omega

/-! ## What each piece of a worker's code preserves -/

namespace Sound

variable {mapper : T → MapperOutcome R E → Prop} {source : List T → PullOutcome T E → Prop}
variable {s : Invocation T R E limit} {w : Fin limit}

theorem start :
    (Invocation.start T R E limit).Sound mapper source where
  called := rfl
  length := rfl
  slot w index x hw := by simp [Invocation.start] at hw
  apart w v index x y hw := by simp [Invocation.start] at hw
  filled index r hr := by simp [Invocation.start] at hr
  empty index hr := by simp [Invocation.start] at hr
  terminal := by simp [Invocation.start, WorkerStatus.failed]
  cancelled p hp := by simp [Invocation.start] at hp
  counted := by simp [Invocation.start, running, WorkerStatus.isMapping]
  pulls i x hx := by simp [Invocation.start, items] at hx
  stopped he := by simp [Invocation.start] at he
  left w e hw := by simp [Invocation.start] at hw

/--
A worker leaves its status for one without a mapper.  If it gives up a mapper, the
invocation has failed.
-/
theorem settle
    {status : WorkerStatus T E}
    {shared : Shared R}
    {n : Nat}
    (h : s.Sound mapper source)
    (hw : (s.workers w).status.failed = false)
    (hstatus : status.isMapping = false)
    (hresults : shared.results = s.shared.results)
    (howner : shared.ownerCancelled = s.shared.ownerCancelled)
    (hterminal : shared.terminal = true ↔ s.shared.terminal = true ∨ status.failed = true)
    (hgiven : (s.workers w).status.isMapping = true →
      s.shared.ownerCancelled = true ∨ status.failed = true)
    (hcount : s.called.length = n + (s.running.erase w).card)
    (hleft : ∀ e, status = .ended e →
      e = .dropped ∨ s.exhausted = true ∨ s.Failed ∨ status.failed = true) :
    Sound mapper source { s.setStatus w status with shared := shared, finished := n } := by
  have hmapping : ∀ v index x,
      ((s.setStatus w status).workers v).status = .mapping index x →
      (s.workers v).status = .mapping index x := by
    intro v index x hv
    by_cases hne : v = w
    · subst hne
      simp [setStatus_self] at hv
      simp [hv, WorkerStatus.isMapping] at hstatus
    · rwa [setStatus_of_ne s status hne] at hv
  have hfailed : s.Failed →
      Failed { s.setStatus w status with shared := shared, finished := n } := by
    intro hf
    rcases hf.setStatus hw status with ho | hv
    · exact .inl (howner.trans ho)
    · exact .inr hv
  have hself : status.failed = true →
      Failed { s.setStatus w status with shared := shared, finished := n } := fun hf =>
    .inr ⟨w, by simpa [setStatus] using hf⟩
  refine ⟨h.called, ?_, ?_, ?_, ?_, ?_, ?_, ?_, ?_, h.pulls, h.stopped, ?_⟩
  · exact (congrArg List.length hresults).trans h.length
  · intro v index x hv
    rw [hresults]
    exact h.slot v index x (hmapping v index x hv)
  · intro v v' index x y hv hv'
    exact h.apart v v' index x y (hmapping v index x hv) (hmapping v' index y hv')
  · intro index r hr
    exact h.filled index r (hresults ▸ hr)
  · intro index hr
    rcases h.empty index (hresults ▸ hr) with ⟨v, x, hv⟩ | hf
    · by_cases hne : v = w
      · subst hne
        rcases hgiven (by simp [hv, WorkerStatus.isMapping]) with ho | hf
        · exact .inr (.inl (howner.trans ho))
        · exact .inr (hself hf)
      · exact .inl ⟨v, x, by rwa [← setStatus_of_ne s status hne] at hv⟩
    · exact .inr (hfailed hf)
  · show shared.terminal = true ↔ ∃ v, ((s.setStatus w status).workers v).status.failed = true
    rw [hterminal, h.terminal, exists_failed_setStatus hw]
  · intro p hp hc
    exact hfailed (h.cancelled p hp hc)
  · have hrunning := running_setStatus s w status
    rw [hstatus] at hrunning
    simp only [Bool.false_eq_true, if_false] at hrunning
    exact hrunning ▸ hcount
  · intro v e hv
    have hv : ((s.setStatus w status).workers v).status = .ended e := hv
    by_cases hne : v = w
    · subst hne
      rcases hleft e (by simpa using hv) with hd | he | hf | hf
      · exact .inl hd
      · exact .inr (.inl he)
      · exact .inr (.inr (hfailed hf))
      · exact .inr (.inr (hself hf))
    · rw [setStatus_of_ne s status hne] at hv
      exact (h.left v e hv).imp id (Or.imp id hfailed)

/-- A mapper ends with a value, and the value goes into the slot of its worker. -/
theorem fill
    {index : Nat}
    {x : T}
    {r : R}
    (h : s.Sound mapper source)
    (hw : (s.workers w).status = .mapping index x)
    (hr : mapper x (.value r)) :
    Sound mapper source (Invocation.fill index r w { s with finished := s.finished + 1 }) := by
  have hslot := h.slot w index x hw
  have hindex : index < s.shared.results.length := (List.getElem?_eq_some_iff.mp hslot.2).1
  have hmapping : ∀ v i y,
      ((s.setStatus w .looping).workers v).status = .mapping i y →
      v ≠ w ∧ (s.workers v).status = .mapping i y := by
    intro v i y hv
    by_cases hne : v = w
    · subst hne
      simp at hv
    · exact ⟨hne, by rwa [setStatus_of_ne s .looping hne] at hv⟩
  have hnot : (s.workers w).status.failed = false := by simp [hw, WorkerStatus.failed]
  have hfailed : s.Failed →
      Failed (Invocation.fill index r w { s with finished := s.finished + 1 }) := fun hf =>
    hf.setStatus hnot .looping
  refine ⟨h.called, ?_, ?_, ?_, ?_, ?_, ?_, ?_, ?_, h.pulls, h.stopped, ?_⟩
  · exact (List.length_set ..).trans h.length
  · intro v i y hv
    obtain ⟨hne, hv⟩ := hmapping v i y hv
    have hi : index ≠ i := by
      rintro rfl
      exact hne (h.apart v w index y x hv hw)
    refine ⟨(h.slot v i y hv).1, ?_⟩
    exact (List.getElem?_set_ne hi).trans (h.slot v i y hv).2
  · intro v v' i y z hv hv'
    exact h.apart v v' i y z (hmapping v i y hv).2 (hmapping v' i z hv').2
  · intro i r' hr'
    by_cases hi : index = i
    · subst hi
      have hr' : (s.shared.results.set index (some r))[index]? = some (some r') := hr'
      rw [List.getElem?_set_self hindex] at hr'
      obtain rfl : r = r' := by simpa using hr'
      exact ⟨x, hslot.1, hr⟩
    · exact h.filled i r' ((List.getElem?_set_ne hi).symm.trans hr')
  · intro i hi
    have hne : index ≠ i := by
      rintro rfl
      have hi : (s.shared.results.set index (some r))[index]? = some none := hi
      rw [List.getElem?_set_self hindex] at hi
      simp at hi
    rcases h.empty i ((List.getElem?_set_ne hne).symm.trans hi) with ⟨v, y, hv⟩ | hf
    · have hvw : v ≠ w := by
        rintro rfl
        rw [hw] at hv
        exact hne (WorkerStatus.mapping.inj hv).1
      exact .inl ⟨v, y, by rwa [← setStatus_of_ne s .looping hvw] at hv⟩
    · exact .inr (hfailed hf)
  · show s.shared.terminal = true ↔
      ∃ v, ((s.setStatus w .looping).workers v).status.failed = true
    rw [h.terminal, exists_failed_setStatus hnot]
    simp [WorkerStatus.failed]
  · intro p hp hc
    exact hfailed (h.cancelled p hp hc)
  · have hmem : w ∈ s.running := mem_running.mpr (by rw [hw]; rfl)
    have hrunning : (s.setStatus w .looping).running = s.running.erase w :=
      running_setStatus s w .looping
    have hcard := Finset.card_erase_add_one hmem
    have hcounted := h.counted
    show s.called.length = s.finished + 1 + (s.setStatus w .looping).running.card
    rw [hrunning]
    omega
  · intro v e hv
    have hv : ((s.setStatus w .looping).workers v).status = .ended e := hv
    by_cases hne : v = w
    · subst hne
      simp at hv
    · rw [setStatus_of_ne s .looping hne] at hv
      exact (h.left v e hv).imp id (Or.imp id hfailed)

/-- A worker pulls an item, appends a slot and calls the mapper. -/
theorem call
    {x : T}
    (h : s.Sound mapper source)
    (hw : (s.workers w).status = .looping)
    (hx : source s.items (.item x)) :
    Sound mapper source (callMapper x w { s with pulled := s.pulled ++ [(x, false)] }) := by
  have hnot : (s.workers w).status.failed = false := by simp [hw, WorkerStatus.failed]
  have hlength := h.length
  have hmapping : ∀ v i y,
      ((s.setStatus w (.mapping s.shared.results.length x)).workers v).status = .mapping i y →
      (v = w ∧ i = s.shared.results.length ∧ y = x) ∨
        (v ≠ w ∧ (s.workers v).status = .mapping i y ∧ i < s.shared.results.length) := by
    intro v i y hv
    by_cases hne : v = w
    · subst hne
      obtain ⟨hi, hy⟩ := WorkerStatus.mapping.inj ((setStatus_self s v _).symm.trans hv)
      exact .inl ⟨rfl, hi.symm, hy.symm⟩
    · rw [setStatus_of_ne s _ hne] at hv
      exact .inr ⟨hne, hv, (List.getElem?_eq_some_iff.mp (h.slot v i y hv).2).1⟩
  have hfailed : s.Failed →
      Failed (callMapper x w { s with pulled := s.pulled ++ [(x, false)] }) := fun hf =>
    hf.setStatus hnot (.mapping s.shared.results.length x)
  refine ⟨?_, ?_, ?_, ?_, ?_, ?_, ?_, ?_, ?_, ?_, ?_, ?_⟩
  · show s.called ++ [x] = ((s.pulled ++ [(x, false)]).filter fun p => !p.2).map Prod.fst
    simp [h.called, kept]
  · simp [callMapper, hlength]
  · intro v i y hv
    rcases hmapping v i y hv with ⟨rfl, rfl, rfl⟩ | ⟨-, hv, hi⟩
    · refine ⟨?_, ?_⟩
      · show (s.called ++ [y])[s.shared.results.length]? = some y
        rw [hlength, List.getElem?_concat_length]
      · exact List.getElem?_concat_length
    · refine ⟨?_, ?_⟩
      · exact (List.getElem?_append_left (hlength ▸ hi)).trans (h.slot v i y hv).1
      · exact (List.getElem?_append_left hi).trans (h.slot v i y hv).2
  · intro v v' i y z hv hv'
    rcases hmapping v i y hv with ⟨rfl, rfl, -⟩ | ⟨-, hv, hi⟩
    · rcases hmapping v' _ z hv' with ⟨rfl, -, -⟩ | ⟨-, -, hi⟩
      · rfl
      · omega
    · rcases hmapping v' i z hv' with ⟨-, rfl, -⟩ | ⟨-, hv', -⟩
      · omega
      · exact h.apart v v' i y z hv hv'
  · intro i r hr
    have hr : (s.shared.results ++ [none])[i]? = some (some r) := hr
    obtain ⟨y, hy, hm⟩ := h.filled i r (getElem?_of_concat_none hr)
    have hi : i < s.called.length := (List.getElem?_eq_some_iff.mp hy).1
    exact ⟨y, (List.getElem?_append_left hi).trans hy, hm⟩
  · intro i hi
    have hi : (s.shared.results ++ [none])[i]? = some none := hi
    rcases Nat.lt_trichotomy i s.shared.results.length with hlt | rfl | hgt
    · rw [List.getElem?_append_left hlt] at hi
      rcases h.empty i hi with ⟨v, y, hv⟩ | hf
      · have hvw : v ≠ w := by
          rintro rfl
          simp [hw] at hv
        exact .inl ⟨v, y, by rwa [← setStatus_of_ne s _ hvw] at hv⟩
      · exact .inr (hfailed hf)
    · exact .inl ⟨w, x, setStatus_self s w _⟩
    · have := (List.getElem?_eq_some_iff.mp hi).1
      simp at this
      omega
  · show s.shared.terminal = true ↔
      ∃ v, ((s.setStatus w (.mapping s.shared.results.length x)).workers v).status.failed = true
    rw [h.terminal, exists_failed_setStatus hnot]
    simp [WorkerStatus.failed]
  · intro p hp hc
    have hp : p ∈ s.pulled ++ [(x, false)] := hp
    rcases List.mem_append.mp hp with hp | hp
    · exact hfailed (h.cancelled p hp hc)
    · obtain rfl := List.mem_singleton.mp hp
      cases hc
  · have hmem : w ∉ s.running := by simp [mem_running, hw, WorkerStatus.isMapping]
    have hrunning : (s.setStatus w (.mapping s.shared.results.length x)).running =
        insert w s.running :=
      running_setStatus s w (.mapping s.shared.results.length x)
    have hcounted := h.counted
    show (s.called ++ [x]).length =
      s.finished + (s.setStatus w (.mapping s.shared.results.length x)).running.card
    rw [hrunning, Finset.card_insert_of_notMem hmem, List.length_append, List.length_singleton]
    omega
  · show FollowsSource source ((s.pulled ++ [(x, false)]).map Prod.fst)
    rw [List.map_append]
    exact h.pulls.concat hx
  · intro he
    obtain ⟨p, hp, hsource⟩ := h.stopped he
    refine ⟨p, hp.trans ?_, hsource⟩
    show s.items <+: (s.pulled ++ [(x, false)]).map Prod.fst
    rw [List.map_append]
    exact List.prefix_append _ _
  · intro v e hv
    have hv : ((s.setStatus w (.mapping s.shared.results.length x)).workers v).status =
        .ended e := hv
    by_cases hne : v = w
    · subst hne
      simp at hv
    · rw [setStatus_of_ne s _ hne] at hv
      exact (h.left v e hv).imp id (Or.imp id hfailed)

/-- The flags of the workers and of the owner play no part but for a failure. -/
theorem flags
    {workers : Fin limit → Worker T E}
    {owner : Bool}
    (h : s.Sound mapper source)
    (hstatus : ∀ v, (workers v).status = (s.workers v).status)
    (howner : s.shared.ownerCancelled = true → owner = true) :
    Sound mapper source
      { s with workers := workers, shared := { s.shared with ownerCancelled := owner } } := by
  have hfailed : s.Failed →
      Failed { s with
        workers := workers, shared := { s.shared with ownerCancelled := owner } } := by
    rintro (ho | ⟨v, hv⟩)
    · exact .inl (howner ho)
    · exact .inr ⟨v, (congrArg WorkerStatus.failed (hstatus v)).trans hv⟩
  have hrunning :
      (Finset.univ.filter fun v => (workers v).status.isMapping = true) = s.running := by
    simp only [hstatus, running]
  refine ⟨h.called, h.length, ?_, ?_, h.filled, ?_, ?_, ?_, ?_, h.pulls, h.stopped, ?_⟩
  · intro v index x hv
    exact h.slot v index x ((hstatus v).symm.trans hv)
  · intro v v' index x y hv hv'
    exact h.apart v v' index x y ((hstatus v).symm.trans hv) ((hstatus v').symm.trans hv')
  · intro index hr
    rcases h.empty index hr with ⟨v, x, hv⟩ | hf
    · exact .inl ⟨v, x, (hstatus v).trans hv⟩
    · exact .inr (hfailed hf)
  · simp only [hstatus]
    exact h.terminal
  · intro p hp hc
    exact hfailed (h.cancelled p hp hc)
  · exact h.counted.trans (congrArg (s.finished + ·.card) hrunning.symm)
  · intro v e hv
    exact (h.left v e ((hstatus v).symm.trans hv)).imp id (Or.imp id hfailed)

theorem setCancelling
    (h : s.Sound mapper source)
    (w : Fin limit)
    (cancelling : Bool) :
    (s.setCancelling w cancelling).Sound mapper source :=
  h.flags (setCancelling_status s w · cancelling) (id : s.shared.ownerCancelled = true → _)

theorem cancelOwner
    (h : s.Sound mapper source) :
    s.cancelOwner.Sound mapper source :=
  h.flags (fun _ => rfl) fun _ => rfl

/-- An item pulled by a worker that gives up is recorded. -/
theorem record
    {x : T}
    (h : s.Sound mapper source)
    (hfailed : s.Failed)
    (hx : source s.items (.item x)) :
    Sound mapper source { s with pulled := s.pulled ++ [(x, true)] } := by
  refine ⟨?_, h.length, h.slot, h.apart, h.filled, h.empty, h.terminal, ?_, h.counted, ?_, ?_,
    h.left⟩
  · show s.called = ((s.pulled ++ [(x, true)]).filter fun p => !p.2).map Prod.fst
    simp [h.called, kept]
  · intro _ _ _
    exact hfailed
  · show FollowsSource source ((s.pulled ++ [(x, true)]).map Prod.fst)
    rw [List.map_append]
    exact h.pulls.concat hx
  · intro he
    obtain ⟨p, hp, hsource⟩ := h.stopped he
    refine ⟨p, hp.trans ?_, hsource⟩
    show s.items <+: (s.pulled ++ [(x, true)]).map Prod.fst
    rw [List.map_append]
    exact List.prefix_append _ _

theorem exhaust
    (h : s.Sound mapper source)
    (hstop : source s.items .stopIteration) :
    Sound mapper source { s with exhausted := true } :=
  { h with
    stopped := fun _ => ⟨s.items, List.prefix_rfl, hstop⟩
    left := fun _ _ _ => .inr (.inl rfl) }

/-! ## The code of a worker -/

theorem onCancelledError
    {n : Nat}
    (h : s.Sound mapper source)
    (hw : (s.workers w).status.failed = false)
    (hcount : s.called.length = n + (s.running.erase w).card) :
    Sound mapper source (Invocation.onCancelledError { s with finished := n } w) := by
  by_cases ho : s.shared.ownerCancelled = true
  · have hend : (s.shared.onCancelledError : WorkerEnd E × Shared R) = (.cancelled, s.shared) :=
      if_pos ho
    have hshared := congrArg Prod.snd hend
    refine h.settle hw rfl ?_ ?_ ?_ (fun _ => .inl ho) hcount fun _ _ =>
      .inr (.inr (.inl (.inl ho)))
    · exact congrArg Shared.results hshared
    · exact congrArg Shared.ownerCancelled hshared
    · rw [congrArg Shared.terminal hshared]
      simp [hend, WorkerStatus.failed]
  · have hend : (s.shared.onCancelledError : WorkerEnd E × Shared R) =
        (.invocationCancelled, s.shared.terminate) :=
      if_neg ho
    have hshared := congrArg Prod.snd hend
    have hfailed : (WorkerStatus.ended (T := T) (s.shared.onCancelledError (E := E)).1).failed =
        true := by
      rw [hend]
      rfl
    refine h.settle hw rfl ?_ ?_ ?_ (fun _ => .inr hfailed) hcount fun _ _ =>
      .inr (.inr (.inr hfailed))
    · exact (congrArg Shared.results hshared :)
    · exact (congrArg Shared.ownerCancelled hshared :)
    · exact iff_of_true (congrArg Shared.terminal hshared) (.inr hfailed)

theorem raise
    {n : Nat}
    {e : E}
    (h : s.Sound mapper source)
    (hw : (s.workers w).status.failed = false)
    (hcount : s.called.length = n + (s.running.erase w).card) :
    Sound mapper source (Invocation.raise { s with finished := n } w e) :=
  h.settle hw rfl rfl rfl (iff_of_true rfl (.inr rfl)) (fun _ => .inr rfl) hcount fun _ _ =>
    .inr (.inr (.inr rfl))

/-- After a `CancelledError` the invocation has failed. -/
theorem failed_onCancelledError
    (s : Invocation T R E limit)
    (w : Fin limit) :
    (s.onCancelledError w).Failed := by
  by_cases ho : s.shared.ownerCancelled = true
  · exact .inl (by simp [Invocation.onCancelledError, Shared.onCancelledError, ho])
  · exact .inr ⟨w, by
      simp [Invocation.onCancelledError, Invocation.setStatus, Shared.onCancelledError, ho,
        WorkerStatus.failed]⟩

/-- A worker without a mapper does not count. -/
theorem counted_looping
    (h : s.Sound mapper source)
    (hw : (s.workers w).status.isMapping = false) :
    s.called.length = s.finished + (s.running.erase w).card := by
  have hmem : w ∉ s.running := by simp [mem_running, hw]
  rw [Finset.erase_eq_of_notMem hmem]
  exact h.counted

/-- A worker without a mapper takes another status that is no failure. -/
theorem settle_idle
    {status : WorkerStatus T E}
    (h : s.Sound mapper source)
    (hw : (s.workers w).status.failed = false)
    (hidle : (s.workers w).status.isMapping = false)
    (hfailed : status.failed = false)
    (hstatus : status.isMapping = false)
    (hleft : ∀ e, status = .ended e → e = .dropped ∨ s.exhausted = true ∨ s.Failed) :
    (s.setStatus w status).Sound mapper source := by
  have hgiven : (s.workers w).status.isMapping = true →
      s.shared.ownerCancelled = true ∨ status.failed = true := by
    intro hmapping
    rw [hidle] at hmapping
    cases hmapping
  refine h.settle hw hstatus rfl rfl (by simp [hfailed]) hgiven (h.counted_looping hidle) ?_
  intro e he
  exact (hleft e he).imp id (Or.imp id .inl)

theorem leave
    (h : s.Sound mapper source)
    (hw : (s.workers w).status = .looping)
    (hleft : s.exhausted = true ∨ s.Failed) :
    Sound mapper source (Invocation.leave w s) := by
  have hnot : (s.workers w).status.failed = false := by rw [hw]; rfl
  have hmap : (s.workers w).status.isMapping = false := by rw [hw]; rfl
  exact h.settle_idle hnot hmap rfl rfl fun _ _ => .inr hleft

theorem afterPull
    {outcome : PullOutcome T E}
    (h : s.Sound mapper source)
    (hw : (s.workers w).status = .looping)
    (hsource : source s.items outcome) :
    Sound mapper source (s.afterPull w outcome) := by
  have hnot : (s.workers w).status.failed = false := by rw [hw]; rfl
  have hcount := h.counted_looping (w := w) (by rw [hw]; rfl)
  cases outcome with
  | item x =>
      cases hc : (s.workers w).cancelling with
      | true =>
          have hrecord := (h.onCancelledError hnot hcount).record
            (failed_onCancelledError s w) hsource
          have heq : s.afterPull w (.item x) =
              Invocation.onCancelledError { s with pulled := s.pulled ++ [(x, true)] } w := by
            simp [Invocation.afterPull, Invocation.raiseIfWorkerCancelled, recordPull, hc]
          rw [heq]
          exact hrecord
      | false =>
          have hcall := h.call hw hsource
          simpa [Invocation.afterPull, Invocation.raiseIfWorkerCancelled, recordPull, hc]
            using hcall
  | stopIteration =>
      have hstop := h.exhaust hsource
      cases hc : (s.workers w).cancelling with
      | true =>
          have hend := hstop.onCancelledError hnot hcount
          simpa [Invocation.afterPull, Invocation.raiseIfWorkerCancelled, hc] using hend
      | false =>
          have hleave := hstop.leave hw (.inl rfl)
          simpa [Invocation.afterPull, Invocation.raiseIfWorkerCancelled, hc] using hleave
  | cancelledError =>
      exact h.onCancelledError hnot hcount
  | raised e =>
      exact h.raise hnot hcount

theorem pullCancels
    (h : s.Sound mapper source)
    (w : Fin limit)
    (pull : Pull T E) :
    (s.pullCancels w pull).Sound mapper source := by
  have hworker :
      (if pull.cancelsWorker then s.setCancelling w true else s).Sound mapper source := by
    split
    · exact h.setCancelling w true
    · exact h
  unfold Invocation.pullCancels
  dsimp only
  split
  · exact hworker.cancelOwner
  · exact hworker

theorem next
    {pull : Pull T E}
    (h : s.Sound mapper source)
    (hsource : s.Pulls w → source s.items pull.outcome) :
    (s.next w pull).Sound mapper source := by
  unfold Invocation.next
  split
  case h_2 => exact h
  case h_1 hw =>
    cases ht : s.shared.terminal with
    | true =>
        have hleave := h.leave hw (.inr (.inr (h.terminal.mp ht)))
        simpa [loopHead, ht] using hleave
    | false =>
        have hcancels := h.pullCancels w pull
        have hpull := hcancels.afterPull ((pullCancels_status s w pull w).trans hw)
          ((pullCancels_items s w pull).symm ▸ hsource ⟨hw, ht⟩)
        simpa [loopHead, ht] using hpull

theorem afterMapper
    {index : Nat}
    {x : T}
    {mapped : MapperOutcome R E}
    (h : s.Sound mapper source)
    (hw : (s.workers w).status = .mapping index x)
    (hmapped : mapper x mapped) :
    Sound mapper source (s.afterMapper w index mapped) := by
  have hnot : (s.workers w).status.failed = false := by rw [hw]; rfl
  have hmem : w ∈ s.running := mem_running.mpr (by rw [hw]; rfl)
  have hcount : s.called.length = s.finished + 1 + (s.running.erase w).card := by
    have hcard := Finset.card_erase_add_one hmem
    have hcounted := h.counted
    omega
  cases mapped with
  | value r =>
      cases hc : (s.workers w).cancelling with
      | true =>
          have hend := h.onCancelledError hnot hcount
          simpa [Invocation.afterMapper, Invocation.raiseIfWorkerCancelled, hc] using hend
      | false =>
          have hfill := h.fill hw hmapped
          simpa [Invocation.afterMapper, Invocation.raiseIfWorkerCancelled, hc] using hfill
  | cancelledError =>
      exact h.onCancelledError hnot hcount
  | raised e =>
      exact h.raise hnot hcount

end Sound

/-! ## Steps and runs -/

theorem afterMapper_frame
    (s : Invocation T R E limit)
    (w : Fin limit)
    (index : Nat)
    (mapped : MapperOutcome R E) :
    (s.afterMapper w index mapped).pulled = s.pulled ∧
      (s.afterMapper w index mapped).returned = s.returned ∧
      (s.shared.terminal = true → (s.afterMapper w index mapped).shared.terminal = true) := by
  cases mapped with
  | value r =>
      cases hc : (s.workers w).cancelling <;> cases ho : s.shared.ownerCancelled <;>
        simp [Invocation.afterMapper, raiseIfWorkerCancelled, hc, onCancelledError, fill,
          setStatus, Shared.onCancelledError, ho, Shared.terminate]
  | cancelledError =>
      cases ho : s.shared.ownerCancelled <;>
        simp [Invocation.afterMapper, onCancelledError, setStatus, Shared.onCancelledError, ho,
          Shared.terminate]
  | raised e =>
      simp [Invocation.afterMapper, raise, setStatus, Shared.terminate]

theorem pullCancels_returned
    (s : Invocation T R E limit)
    (w : Fin limit)
    (pull : Pull T E) :
    (s.pullCancels w pull).returned = s.returned := by
  cases hw : pull.cancelsWorker <;> cases ho : pull.cancelsOwner <;>
    simp [pullCancels, hw, ho, cancelOwner, setCancelling]

theorem afterPull_returned
    (s : Invocation T R E limit)
    (w : Fin limit)
    (outcome : PullOutcome T E) :
    (s.afterPull w outcome).returned = s.returned := by
  cases outcome <;> cases hc : (s.workers w).cancelling <;>
    simp [afterPull, raiseIfWorkerCancelled, recordPull, hc, onCancelledError, callMapper, leave,
      raise, setStatus]

theorem next_returned
    (s : Invocation T R E limit)
    (w : Fin limit)
    (pull : Pull T E) :
    (s.next w pull).returned = s.returned := by
  unfold next
  split
  · unfold loopHead
    split
    · rfl
    · rw [afterPull_returned, pullCancels_returned]
  · rfl

/-- Once the terminal event is set, a worker that goes on leaves its loop. -/
theorem next_of_terminal
    {s : Invocation T R E limit}
    (ht : s.shared.terminal = true)
    (w : Fin limit)
    (pull : Pull T E) :
    (s.next w pull).pulled = s.pulled ∧ (s.next w pull).shared.terminal = true := by
  unfold next
  split
  · rw [loopHead, if_pos ht]
    exact ⟨rfl, ht⟩
  · exact ⟨rfl, ht⟩

section Steps

variable {mapper : T → MapperOutcome R E → Prop} {source : List T → PullOutcome T E → Prop}

theorem Sound.step
    {s t : Invocation T R E limit}
    {l : Label T R E limit}
    (h : s.Sound mapper source)
    (hstep : Step mapper source s l t) :
    t.Sound mapper source := by
  cases hstep with
  | @start w pull hopen hw hsource =>
      have hnot : (s.workers w).status.failed = false := by rw [hw]; rfl
      have hmap : (s.workers w).status.isMapping = false := by rw [hw]; rfl
      have hlooping : (s.setStatus w .looping).Sound mapper source := by
        refine h.settle_idle hnot hmap rfl rfl ?_
        rintro e ⟨⟩
      exact hlooping.next hsource
  | @drop w hopen hw =>
      have hnot : (s.workers w).status.failed = false := by rw [hw]; rfl
      have hmap : (s.workers w).status.isMapping = false := by rw [hw]; rfl
      exact h.settle_idle hnot hmap rfl rfl fun e he => .inl (WorkerStatus.ended.inj he).symm
  | @resume w index x mapped pull hopen hw hmapped hsource =>
      have hafter := h.afterMapper hw hmapped
      have hitems : (s.afterMapper w index mapped).items = s.items :=
        congrArg (List.map Prod.fst) (afterMapper_frame s w index mapped).1
      exact hafter.next (hitems ▸ hsource)
  | @cancelWorker w hopen =>
      exact h.setCancelling w true
  | @uncancelWorker w hopen =>
      exact h.setCancelling w false
  | cancelOwner hopen =>
      exact h.cancelOwner
  | finish hopen hquiet howner =>
      exact { h with }

theorem sound_run
    {s : Invocation T R E limit}
    {ls : List (Label T R E limit)}
    (h : Run (Step mapper source) (Invocation.start T R E limit) ls s) :
    s.Sound mapper source :=
  h.invariant (fun _ _ _ hs hstep => hs.step hstep) .start

/-- What a returned invocation looks like. -/
def ReturnsSlots (s : Invocation T R E limit) : Prop :=
  ∀ results, s.returned = some results →
    results = s.shared.results ∧ (∀ w, (s.workers w).status.quiet = true) ∧
      s.shared.ownerCancelled = false

theorem step_open
    {s t : Invocation T R E limit}
    {l : Label T R E limit}
    (hstep : Step mapper source s l t) :
    s.returned = none := by
  cases hstep <;> assumption

theorem ReturnsSlots.step
    {s t : Invocation T R E limit}
    {l : Label T R E limit}
    (hstep : Step mapper source s l t) :
    t.ReturnsSlots := by
  have hopen := step_open hstep
  intro results hresults
  cases hstep with
  | start =>
      rw [next_returned] at hresults
      exact absurd (hopen.symm.trans hresults) (by simp)
  | resume =>
      rw [next_returned, (afterMapper_frame ..).2.1] at hresults
      exact absurd (hopen.symm.trans hresults) (by simp)
  | finish _ hquiet howner =>
      exact ⟨(Option.some.inj hresults).symm, hquiet, howner⟩
  | _ =>
      exact absurd (hopen.symm.trans hresults) (by simp)

theorem returnsSlots_run
    {s : Invocation T R E limit}
    {ls : List (Label T R E limit)}
    (h : Run (Step mapper source) (Invocation.start T R E limit) ls s) :
    s.ReturnsSlots :=
  h.invariant (fun _ _ _ _ hstep => .step hstep) fun _ hresults => by
    simp [Invocation.start] at hresults

/-- After the terminal event nothing is pulled, and the invocation does not return. -/
theorem terminal_step
    {s t : Invocation T R E limit}
    {l : Label T R E limit}
    (h : s.Sound mapper source)
    (ht : s.shared.terminal = true)
    (hstep : Step mapper source s l t) :
    t.pulled = s.pulled ∧ t.shared.terminal = true ∧ t.returned = none := by
  have hopen := step_open hstep
  cases hstep with
  | @start w pull _ hw hsource =>
      have hnext := next_of_terminal (s := s.setStatus w .looping) ht w pull
      exact ⟨hnext.1, hnext.2, (next_returned ..).trans hopen⟩
  | @resume w index x mapped pull _ hw hmapped hsource =>
      obtain ⟨hpulled, hreturned, hterminal⟩ := afterMapper_frame s w index mapped
      have hnext := next_of_terminal (hterminal ht) w pull
      exact ⟨hnext.1.trans hpulled, hnext.2, (next_returned ..).trans (hreturned.trans hopen)⟩
  | finish _ hquiet howner =>
      obtain ⟨w, hw⟩ := h.terminal.mp ht
      have hq := hquiet w
      cases hs : (s.workers w).status with
      | ended e =>
          cases e <;> simp [hs, WorkerStatus.failed, WorkerStatus.quiet] at hw hq
      | _ =>
          simp [hs, WorkerStatus.failed] at hw
  | _ =>
      exact ⟨rfl, ht, hopen⟩

theorem terminal_run
    {s t : Invocation T R E limit}
    {ls : List (Label T R E limit)}
    (hrun : Run (Step mapper source) s ls t)
    (h : s.Sound mapper source)
    (hopen : s.returned = none)
    (ht : s.shared.terminal = true) :
    t.pulled = s.pulled ∧ t.returned = none := by
  have hkept := hrun.invariant
    (I := fun u => u.Sound mapper source ∧ u.pulled = s.pulled ∧ u.shared.terminal = true ∧
      u.returned = none)
    (fun u _ v hu hstep => by
      obtain ⟨hpulled, hterminal, hreturned⟩ := terminal_step hu.1 hu.2.2.1 hstep
      exact ⟨hu.1.step hstep, hpulled.trans hu.2.1, hterminal, hreturned⟩)
    ⟨h, rfl, ht, hopen⟩
  exact ⟨hkept.2.1, hkept.2.2.2⟩

end Steps

/-! ## The result -/

/-- The pulls of an iterator over a list, which may also fail. -/
inductive Enumerates (input : List T) : List T → PullOutcome T E → Prop
  | item {p : List T} {x : T} :
      input[p.length]? = some x →
      Enumerates input p (.item x)
  | stopIteration {p : List T} :
      input.length ≤ p.length →
      Enumerates input p .stopIteration
  | cancelledError {p : List T} :
      Enumerates input p .cancelledError
  | raised {p : List T} {e : E} :
      Enumerates input p (.raised e)

/-- The pulls of an iterator over a list that has stopped are the list. -/
theorem FollowsSource.eq_input
    {source : List T → PullOutcome T E → Prop}
    {input items p : List T}
    (hsource : ∀ q o, source q o → Enumerates input q o)
    (h : FollowsSource source items)
    (hp : p <+: items)
    (hstop : source p .stopIteration) :
    items = input := by
  have hitem : ∀ (i : Nat) (x : T), items[i]? = some x → input[i]? = some x := by
    intro i x hx
    have hi : i < items.length := (List.getElem?_eq_some_iff.mp hx).1
    cases hsource _ _ (h i x hx) with
    | item hinput =>
        rwa [List.length_take, Nat.min_eq_left (by omega)] at hinput
  have hlength : input.length ≤ items.length := by
    cases hsource _ _ hstop with
    | stopIteration hle =>
        exact hle.trans hp.length_le
  refine List.ext_getElem? fun i => ?_
  cases hx : items[i]? with
  | some x =>
      exact (hitem i x hx).symm
  | none =>
      have hi := List.getElem?_eq_none_iff.mp hx
      exact (List.getElem?_eq_none (by omega)).symm

/--
A returned list: one slot per pulled item, in order, with an outcome of the mapper
on it, where the iterator was pulled to its end by a worker that ran.
-/
structure MapsAll (mapper : T → MapperOutcome R E → Prop)
    (source : List T → PullOutcome T E → Prop) (s : Invocation T R E limit)
    (results : List (Option R)) : Prop where
  slots : ∃ values, results = values.map some ∧
    List.Forall₂ (fun x r => mapper x (.value r)) s.items values
  exhausted : (∃ p, p <+: s.items ∧ source p .stopIteration) ∨
    ∀ w, (s.workers w).status = .ended .dropped
  input : ∀ input, (∀ p o, source p o → Enumerates input p o) →
    s.items = input ∨ ∀ w, (s.workers w).status = .ended .dropped

theorem quiet_not_failed
    {status : WorkerStatus T E}
    (h : status.quiet = true) :
    status.failed = false := by
  cases status with
  | ended e =>
      cases e <;> first | rfl | cases h
  | _ =>
      rfl

section Result

variable {mapper : T → MapperOutcome R E → Prop} {source : List T → PullOutcome T E → Prop}
variable {s : Invocation T R E limit}

theorem not_failed_of_quiet
    (hquiet : ∀ w, (s.workers w).status.quiet = true)
    (howner : s.shared.ownerCancelled = false) :
    ¬ s.Failed := by
  rintro (ho | ⟨w, hw⟩)
  · simp [howner] at ho
  · simp [quiet_not_failed (hquiet w)] at hw

/-- Each running mapper has a worker of its own. -/
theorem Sound.called_le
    (h : s.Sound mapper source) :
    s.called.length ≤ s.finished + limit := by
  have hcounted := h.counted
  have hcard := s.running.card_le_univ
  rw [Fintype.card_fin] at hcard
  omega

/-- Where nothing failed, every pulled item was given to the mapper. -/
theorem Sound.called_eq_items
    (h : s.Sound mapper source)
    (hfailed : ¬ s.Failed) :
    s.called = s.items := by
  have hkeep : s.pulled.filter (fun p => !p.2) = s.pulled := by
    refine List.filter_eq_self.mpr fun p hp => ?_
    cases hc : p.2 with
    | false => rfl
    | true => exact absurd (h.cancelled p hp hc) hfailed
  rw [h.called, kept, hkeep, items]

/-- Where nothing failed and no mapper runs, every slot holds the result for its item. -/
theorem Sound.slots
    (h : s.Sound mapper source)
    (hquiet : ∀ w, (s.workers w).status.quiet = true)
    (hfailed : ¬ s.Failed) :
    ∃ values, s.shared.results = values.map some ∧
      List.Forall₂ (fun x r => mapper x (.value r)) s.items values := by
  have hfull : ∀ slot ∈ s.shared.results, slot ∈ Set.range some := by
    intro slot hslot
    obtain ⟨i, hi⟩ := List.mem_iff_getElem?.mp hslot
    cases slot with
    | some r => exact ⟨r, rfl⟩
    | none =>
        rcases h.empty i hi with ⟨w, x, hw⟩ | hf
        · have hq := hquiet w
          simp [hw, WorkerStatus.quiet] at hq
        · exact absurd hf hfailed
  obtain ⟨values, hvalues⟩ : s.shared.results ∈ Set.range (List.map some) := by
    rw [Set.range_list_map]
    exact hfull
  refine ⟨values, hvalues.symm, ?_⟩
  rw [← h.called_eq_items hfailed]
  have hlength : s.called.length = values.length := by
    have hl := h.length
    rw [← hvalues, List.length_map] at hl
    exact hl.symm
  refine List.forall₂_iff_get.mpr ⟨hlength, fun i hi hi' => ?_⟩
  have hslot : s.shared.results[i]? = some (some (values.get ⟨i, hi'⟩)) := by
    rw [← hvalues, List.getElem?_map, List.getElem?_eq_getElem hi']
    rfl
  obtain ⟨x, hx, hm⟩ := h.filled i _ hslot
  obtain ⟨hlt, rfl⟩ := List.getElem?_eq_some_iff.mp hx
  exact hm

theorem Sound.mapsAll
    (h : s.Sound mapper source)
    (hquiet : ∀ w, (s.workers w).status.quiet = true)
    (howner : s.shared.ownerCancelled = false) :
    MapsAll mapper source s s.shared.results := by
  have hfailed := not_failed_of_quiet hquiet howner
  have hexhausted : s.exhausted = true ∨ ∀ w, (s.workers w).status = .ended .dropped := by
    by_cases he : s.exhausted = true
    · exact .inl he
    · refine .inr fun w => ?_
      have hq := hquiet w
      cases hs : (s.workers w).status with
      | ended e =>
          rcases h.left w e hs with rfl | hstop | hf
          · rfl
          · exact absurd hstop he
          · exact absurd hf hfailed
      | _ =>
          simp [hs, WorkerStatus.quiet] at hq
  refine ⟨h.slots hquiet hfailed, hexhausted.imp h.stopped id, fun input hsource => ?_⟩
  refine hexhausted.imp (fun he => ?_) id
  obtain ⟨p, hp, hstop⟩ := h.stopped he
  exact h.pulls.eq_input hsource hp hstop

end Result

/--
**Bounded concurrent mapping**: in every run, the mapper is called once, in order,
for every item that was pulled without its worker being cancelled in the pull; at
most `limit` of these calls are running; once a worker has ended with a failure
nothing is pulled and nothing returned; and a returned list has one slot per input, in order.
-/
theorem map_bounded_sound
    (mapper : T → MapperOutcome R E → Prop)
    (source : List T → PullOutcome T E → Prop)
    (s : Invocation T R E limit)
    (ls : List (Label T R E limit))
    (h : Run (Step mapper source) (Invocation.start T R E limit) ls s) :
    s.called = s.kept ∧
      s.called.length ≤ s.finished + limit ∧
      ((∃ w, (s.workers w).status.failed = true) → ∀ t ls', Run (Step mapper source) s ls' t →
        t.pulled = s.pulled ∧ t.returned = none) ∧
      ∀ results, s.returned = some results →
        s.called = s.items ∧ MapsAll mapper source s results := by
  have hsound := sound_run h
  have hreturns := returnsSlots_run h
  refine ⟨hsound.called, hsound.called_le, fun ht t ls' hrun => ?_, fun results hresults => ?_⟩
  · refine terminal_run hrun hsound ?_ (hsound.terminal.mpr ht)
    cases hr : s.returned with
    | none => rfl
    | some results =>
        obtain ⟨-, hquiet, howner⟩ := hreturns results hr
        exact absurd (.inr ht) (not_failed_of_quiet hquiet howner)
  · obtain ⟨rfl, hquiet, howner⟩ := hreturns results hresults
    exact ⟨hsound.called_eq_items (not_failed_of_quiet hquiet howner),
      hsound.mapsAll hquiet howner⟩

section Examples

/-- A mapper on numbers. -/
def tenfold (x : Nat) (o : MapperOutcome Nat Unit) : Prop :=
  o = .value (10 * x)

/-- A pull that cancels nobody. -/
def quietPull (o : PullOutcome Nat Unit) : Pull Nat Unit :=
  ⟨o, false, false⟩

/-- Two workers take two items, and the second finishes first. -/
theorem map_bounded_sound_out_of_order :
    ∃ s : Invocation Nat Nat Unit 2,
      s.returned = some [some 10, some 20] ∧ s.called = s.items ∧
        MapsAll tenfold (Enumerates [1, 2]) s [some 10, some 20] := by
  have hrun : ∃ s : Invocation Nat Nat Unit 2,
      s.returned = some [some 10, some 20] ∧
        Run (Step tenfold (Enumerates [1, 2])) (Invocation.start Nat Nat Unit 2)
          [.start 0 (quietPull (.item 1)), .start 1 (quietPull (.item 2)),
            .resume 1 (.value 20) (quietPull .stopIteration),
            .resume 0 (.value 10) (quietPull .stopIteration), .finish] s := by
    refine ⟨_, rfl, .cons (.start rfl rfl fun _ => .item rfl)
      (.cons (.start rfl rfl fun _ => .item rfl)
        (.cons (.resume rfl rfl rfl fun _ => .stopIteration (by decide))
          (.cons (.resume rfl rfl rfl fun _ => .stopIteration (by decide))
            (.cons (.finish rfl ?_ rfl) (.nil _)))))⟩
    intro w
    fin_cases w <;> rfl
  obtain ⟨s, hs, hrun⟩ := hrun
  exact ⟨s, hs, (map_bounded_sound tenfold (Enumerates [1, 2]) s _ hrun).2.2.2 _ hs⟩

/--
An iterator that cancels its own worker: the item that it yields is not mapped.  And
two workers cancelled before their first step: the empty list is returned, and the
item is not even pulled.
-/
theorem pulled_item_not_mapped :
    (∃ s : Invocation Nat Nat Unit 1,
      Run (Step tenfold (Enumerates [1])) (Invocation.start Nat Nat Unit 1)
        [.start 0 ⟨.item 1, true, false⟩] s ∧
      ∀ t ls', Run (Step tenfold (Enumerates [1])) s ls' t → t.items = [1] ∧ t.called = []) ∧
    ∃ s : Invocation Nat Nat Unit 2,
      Run (Step tenfold (Enumerates [1])) (Invocation.start Nat Nat Unit 2)
        [.cancelWorker 0, .cancelWorker 1, .drop 0, .drop 1, .finish] s ∧
      s.returned = some [] ∧ s.items = [] := by
  constructor
  · have hrun : Run (Step tenfold (Enumerates [1])) (Invocation.start Nat Nat Unit 1)
        [.start 0 ⟨.item 1, true, false⟩] _ :=
      .single (.start rfl rfl fun _ => .item rfl)
    refine ⟨_, hrun, fun t ls' ht => ?_⟩
    obtain ⟨hpulled, -⟩ := terminal_run ht (sound_run hrun) rfl rfl
    have hcalled := (sound_run (hrun.append ht)).called
    rw [kept, hpulled] at hcalled
    exact ⟨congrArg (List.map Prod.fst) hpulled, hcalled⟩
  · refine ⟨_, .cons (.cancelWorker rfl) (.cons (.cancelWorker rfl) (.cons (.drop rfl rfl)
      (.cons (.drop rfl rfl) (.single (.finish rfl ?_ rfl))))), rfl, rfl⟩
    intro w
    fin_cases w <;> rfl

end Examples

end Invocation

end Asyncio
end Bluetape
