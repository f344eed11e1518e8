import Bluetape.Resilience.BulkheadSections
import Bluetape.Resilience.PolicyLogic

/-!
# Permits and wake-ups of the bulkheads

Every caller keeps the invariant whatever the others do, releases only a
permit that it holds, and has none left when its call is over.

* `wp_call`, `wp_asyncCall`: one call among any others;
* `permit_conservation`: the counters and the ledger, in every run;
* `no_missed_wakeup`: free permits are matched by notified waiters.
-/

namespace Bluetape
namespace Resilience

open Base

namespace Bulkhead

variable {ν : Type} {b : Bulkhead} {t : Caller}

/-- What a step of a caller guarantees to the others. -/
structure Guarantee (b : Bulkhead) (ν : Type) (t : Caller)
    (act : Act BulkheadSection Question (Question.Answer ν)) (s s' : BulkheadState) :
    Prop where
  inv : b.Inv s → b.Inv s'
  others : b.Inv s → ∀ u, u ≠ t → Untouched u s s'
  release : act = .atomic .release → (t, ()) ∈ s.permits.outstanding

/-- Events keep the invariant and move no caller. -/
theorem event_spec
    {e : BulkheadEvent} {s s' : BulkheadState}
    (h : b.Inv s)
    (hevent : bulkheadEvent s e = some s') :
    b.Inv s' ∧ ∀ u, Untouched u s s' := by
  cases e with
  | tick _ | pace _ =>
      obtain ⟨-, h'⟩ := Option.ite_none_right_eq_some.mp hevent
      obtain rfl := Option.some.inj h'
      exact ⟨⟨⟨h.queue, h.permits, h.inFlight, h.limit, h.waiters⟩, h.covered⟩,
        fun u => ⟨Iff.rfl, .refl u s.permits⟩⟩
  | reorder asleep =>
      obtain ⟨hperm, h'⟩ := Option.ite_none_right_eq_some.mp hevent
      obtain rfl := Option.some.inj h'
      refine ⟨⟨⟨h.queue.reorder hperm, h.permits, h.inFlight, h.limit, ?_⟩,
        h.covered.reorder hperm⟩, fun u => ⟨or_congr hperm.mem_iff Iff.rfl, .refl u s.permits⟩⟩
      refine h.waiters.trans ?_
      simp only [WaitQueue.size, hperm.length_eq]

/-- The invariant and an assertion about the caller are stable. -/
theorem stable_standing
    {P : BulkheadState → Prop}
    (hP : ∀ s s', Untouched t s s' → P s → P s') :
    (bulkheadSystem ν).Stable (Guarantee b ν) t (fun s => b.Inv s ∧ P s) := by
  refine .of_steps ?_ ?_
  · rintro e s s' ⟨hinv, hs⟩ hevent
    obtain ⟨hinv', hsame⟩ := event_spec hinv hevent
    exact ⟨hinv', hP s s' (hsame t) hs⟩
  · rintro u act s s' hne ⟨hinv, hs⟩ hguar
    exact ⟨hguar.inv hinv, hP s s' (hguar.others hinv t hne.symm) hs⟩

/-- The caller is idle. -/
def AtIdle (b : Bulkhead) (t : Caller) (s : BulkheadState) : Prop :=
  b.Inv s ∧ Idle t s

/-- The caller waits. -/
def AtWaiting (b : Bulkhead) (t : Caller) (s : BulkheadState) : Prop :=
  b.Inv s ∧ Waiting t s

/-- The caller has a permit. -/
def AtHolding (b : Bulkhead) (t : Caller) (s : BulkheadState) : Prop :=
  b.Inv s ∧ Holding t s

/-- The caller has given its permit back. -/
def AtReturned (b : Bulkhead) (t : Caller) (s : BulkheadState) : Prop :=
  b.Inv s ∧ Returned t s

/-- The caller does not wait, and any permit that it had is given back. -/
def Over (b : Bulkhead) (t : Caller) (s : BulkheadState) : Prop :=
  b.Inv s ∧ ¬ s.queue.Waits t ∧ (t ∈ s.permits.names → t ∈ s.permits.settled)

theorem stable_idle :
    (bulkheadSystem ν).Stable (Guarantee b ν) t (AtIdle b t) :=
  stable_standing fun _ _ h => h.idle

theorem stable_waiting :
    (bulkheadSystem ν).Stable (Guarantee b ν) t (AtWaiting b t) :=
  stable_standing fun _ _ h => h.waiting

theorem stable_holding :
    (bulkheadSystem ν).Stable (Guarantee b ν) t (AtHolding b t) :=
  stable_standing fun _ _ h => h.holding

theorem stable_returned :
    (bulkheadSystem ν).Stable (Guarantee b ν) t (AtReturned b t) :=
  stable_standing fun _ _ h => h.returned

theorem over_of_idle
    {s : BulkheadState}
    (h : AtIdle b t s) :
    Over b t s :=
  ⟨h.1, h.2.1, fun hmem => absurd hmem h.2.2⟩

theorem over_of_returned
    {s : BulkheadState}
    (h : AtReturned b t s) :
    Over b t s :=
  ⟨h.1, h.2.1, fun _ => h.2.2⟩

/-- Where a section of `_acquire` leaves its caller, with the invariant. -/
def AtEntry (b : Bulkhead) {ω : Type} (t : Caller) (entry : Entry ω) (s : BulkheadState) :
    Prop :=
  b.Inv s ∧ EntryStanding t entry s

theorem stable_entry
    {ω : Type} (entry : Entry ω) :
    (bulkheadSystem ν).Stable (Guarantee b ν) t (AtEntry b t entry) := by
  cases entry with
  | admitted snapshot => exact stable_holding
  | refused => exact stable_idle
  | waits timer => exact stable_waiting

/-- A section that is not a release, by its specification. -/
theorem Guarantee.ofSpec
    {label : BulkheadSection} {s s' : BulkheadState} {standing : BulkheadState → Prop}
    (hlabel : label ≠ .release)
    (hspec : SectionSpec b t s s' standing) :
    Guarantee b ν t (.atomic label) s s' where
  inv := fun _ => hspec.inv
  others := fun _ => hspec.others
  release := by
    rintro ⟨⟩
    exact absurd rfl hlabel

theorem Guarantee.idle
    {act : Act BulkheadSection Question (Question.Answer ν)} {s : BulkheadState}
    (hact : act ≠ .atomic .release) :
    Guarantee b ν t act s s where
  inv := id
  others := fun _ u _ => .refl u s
  release := fun h => absurd h hact

theorem asksFreely :
    AsksFreely (bulkheadSystem ν) (Guarantee b ν) t where
  issue := by
    rintro q s s' - hissue
    obtain rfl := Option.some.inj hissue
    exact ⟨rfl, .idle (by rintro ⟨⟩)⟩
  answer := by
    rintro q a s s' hq hanswer
    cases q
    case wait | awaitWait => exact hq.elim
    all_goals
      obtain rfl := Option.some.inj hanswer
      exact ⟨rfl, .idle (by rintro ⟨⟩)⟩

/-- What an answer to a waiter changes. -/
theorem wake_spec
    {q : Question} {a : q.Answer ν} {s s' : BulkheadState}
    (h : AtWaiting b t s)
    (hanswer : answerBulkhead ν t s q a = some s') :
    Guarantee b ν t (.answered q a) s s' ∧ AtWaiting b t s' := by
  have hinterrupt : Guarantee b ν t (.answered q a) s
        { s with queue := s.queue.interrupt t } ∧
      AtWaiting b t { s with queue := s.queue.interrupt t } := by
    refine ⟨⟨fun hinv => ?_, fun hinv u _ => ?_, by rintro ⟨⟩⟩, ?_, ?_⟩
    · refine ⟨⟨hinv.queue.interrupt t, hinv.permits, hinv.inFlight, hinv.limit, ?_⟩,
        hinv.covered.interrupt t⟩
      rw [WaitQueue.size_interrupt hinv.queue]
      exact hinv.waiters
    · exact ⟨WaitQueue.waits_interrupt hinv.queue, .refl u s.permits⟩
    · refine ⟨⟨h.1.queue.interrupt t, h.1.permits, h.1.inFlight, h.1.limit, ?_⟩,
        h.1.covered.interrupt t⟩
      rw [WaitQueue.size_interrupt h.1.queue]
      exact h.1.waiters
    · exact ⟨(WaitQueue.waits_interrupt h.1.queue).mpr h.2.1, h.2.2⟩
  have hsame : Guarantee b ν t (.answered q a) s s := .idle (by rintro ⟨⟩)
  cases q
  case wait remaining =>
      cases a with
      | woken =>
          obtain ⟨-, h'⟩ := Option.ite_none_right_eq_some.mp hanswer
          obtain rfl := Option.some.inj h'
          exact ⟨hsame, h⟩
      | timedOut =>
          obtain rfl := Option.some.inj hanswer
          exact ⟨hsame, h⟩
  case awaitWait =>
      cases a with
      | woken =>
          obtain ⟨-, h'⟩ := Option.ite_none_right_eq_some.mp hanswer
          obtain rfl := Option.some.inj h'
          exact ⟨hsame, h⟩
      | cancelled expired again =>
          obtain rfl := Option.some.inj hanswer
          exact hinterrupt
  all_goals
    obtain rfl := Option.some.inj hanswer
    exact ⟨hsame, h⟩

/-! ## `_acquire` -/

theorem wp_wait
    {q : Question} {α : Type}
    {next : q.Answer ν → PolicyProc BulkheadState BulkheadSection ν α}
    {Φ : α → BulkheadState → Prop} {s : BulkheadState}
    (hnext : ∀ a s, AtWaiting b t s →
      (bulkheadSystem ν).wp (Guarantee b ν) t (next a) Φ s)
    (h : AtWaiting b t s) :
    (bulkheadSystem ν).wp (Guarantee b ν) t (.ask q next) Φ s := by
  refine System.wp_ask stable_waiting stable_waiting ?_ ?_ h
  · intro s s' hs hissue
    obtain rfl := Option.some.inj hissue
    exact ⟨.idle (by rintro ⟨⟩), hs⟩
  · intro a s s' hs hanswer
    obtain ⟨hguar, hs'⟩ := wake_spec hs hanswer
    exact ⟨hguar, hnext a s' hs'⟩

/-- How `_acquire` leaves its caller. -/
def Acquired (b : Bulkhead) (t : Caller) : Option BulkheadSnapshot → BulkheadState → Prop
  | some _ => AtHolding b t
  | none => AtIdle b t

theorem stable_acquired
    (result : Option BulkheadSnapshot) :
    (bulkheadSystem ν).Stable (Guarantee b ν) t (Acquired b t result) := by
  cases result with
  | some snapshot => exact stable_holding
  | none => exact stable_idle

theorem wp_acquire
    {s : BulkheadState}
    (h : AtIdle b t s) :
    (bulkheadSystem ν).wp (Guarantee b ν) t (b.acquire t : BulkheadProg ν _).run
      (Outcome (Acquired b t) (fun _ _ => False)) s := by
  refine wp_then (AtEntry b t) (fun _ _ => False) ?_ ?_ (fun _ _ hfalse => hfalse.elim)
  · refine wp_locked stable_idle (fun s hs => ?_) h
    have hspec := enter_spec hs.1 hs.2
    exact ⟨.ofSpec (by rintro ⟨⟩) hspec,
      (stable_entry _).stably ⟨hspec.inv, hspec.standing⟩⟩
  · intro entry s hentry
    refine System.wp_except_lift _ (System.wp_loop (AtEntry b t) ?_ hentry ?_)
    · rintro (snapshot | - | timer) s hs
      · refine System.wp_ret (r := Sum.inr (some snapshot)) stable_holding ?_ hs
        exact fun s hs => stable_holding.stably hs
      · refine System.wp_ret (r := Sum.inr none) stable_idle ?_ hs
        exact fun s hs => stable_idle.stably hs
      · refine wp_wait (fun _ s hs => ?_) hs
        refine System.wp_atomic stable_waiting (fun s hs _ => ?_) hs
        have hspec := resume_spec timer.deadline hs.1 hs.2
        refine ⟨.ofSpec (by rintro ⟨⟩) hspec, ?_⟩
        exact System.wp_ret (r := Sum.inl (b.resume t timer.deadline s).1)
          (stable_entry (b.resume t timer.deadline s).1) (fun _ hs => hs)
          ⟨hspec.inv, hspec.standing⟩
    · exact fun result s hs => fun s' hs' => hs.later hs'

theorem wp_asyncAcquire
    {s : BulkheadState}
    (h : AtIdle b t s) :
    (bulkheadSystem ν).wp (Guarantee b ν) t (b.asyncAcquire t : BulkheadProg ν _).run
      (Outcome (Acquired b t) (fun _ => AtIdle b t)) s := by
  refine wp_then (fun _ => AtIdle b t) (fun _ => AtIdle b t) ?_ ?_
    (fun e s hs => stable_idle.stably hs)
  · exact wp_quiet asksFreely stable_idle isQuiet_awaitLock h
  · intro _ s hs
    refine wp_then (AtEntry b t) (fun _ _ => False) ?_ ?_ (fun _ _ hfalse => hfalse.elim)
    · refine wp_locked stable_idle (fun s hs => ?_) hs
      have hspec := asyncEnter_spec hs.1 hs.2
      exact ⟨.ofSpec (by rintro ⟨⟩) hspec,
        (stable_entry _).stably ⟨hspec.inv, hspec.standing⟩⟩
    · intro entry s hentry
      refine System.wp_loop (AtEntry b t) ?_ hentry ?_
      · rintro (snapshot | - | timer) s hs
        · exact System.wp_ret (r := Sum.inr (Except.ok (some snapshot))) stable_holding
            (fun s hs => hs) hs
        · exact System.wp_ret (r := Sum.inr (Except.ok none)) stable_idle (fun s hs => hs) hs
        · refine wp_wait (q := .awaitWait) (fun wake s hs => ?_) hs
          cases wake with
          | woken =>
              refine System.wp_atomic stable_waiting (fun s hs _ => ?_) hs
              have hspec := asyncResume_spec hs.1 hs.2
              refine ⟨.ofSpec (by rintro ⟨⟩) hspec, ?_⟩
              exact System.wp_ret (r := Sum.inl (b.asyncResume t s).1)
                (stable_entry (b.asyncResume t s).1) (fun _ hs => hs)
                ⟨hspec.inv, hspec.standing⟩
          | cancelled expired again =>
              refine System.wp_atomic stable_waiting (fun s hs _ => ?_) hs
              have hspec := abandon_spec again hs.1 hs.2
              refine ⟨.ofSpec (by rintro ⟨⟩) hspec, ?_⟩
              cases expired with
              | false =>
                  exact System.wp_ret (r := Sum.inr (Except.error Raised.cancelled)) stable_idle
                    (fun _ hs => hs) ⟨hspec.inv, hspec.standing⟩
              | true =>
                  exact System.wp_ret (r := Sum.inr (Except.ok none)) stable_idle
                    (fun _ hs => hs) ⟨hspec.inv, hspec.standing⟩
      · rintro (e | result) s hs
        · exact stable_idle.stably hs
        · exact (stable_acquired result).stably hs

/-! ## Releases -/

theorem wp_release
    {s : BulkheadState}
    (h : AtHolding b t s) :
    (bulkheadSystem ν).wp (Guarantee b ν) t (b.release t : BulkheadProg ν _).run
      (Outcome (fun _ => AtReturned b t) (fun _ _ => False)) s := by
  refine wp_locked stable_holding (fun s hs => ?_) h
  have hspec := releaseLocked_spec hs.1 hs.2
  exact ⟨⟨fun _ => hspec.inv, fun _ => hspec.others, fun _ => hs.2.2⟩,
    stable_returned.stably ⟨hspec.inv, hspec.standing⟩⟩

theorem wp_releasePreservingCancellation
    {s : BulkheadState}
    (h : AtHolding b t s) :
    (bulkheadSystem ν).wp (Guarantee b ν) t
      (b.releasePreservingCancellation t : BulkheadProg ν _).run
      (Outcome (fun _ => AtReturned b t) (fun _ _ => False)) s := by
  refine wp_preservingCancellation stable_holding stable_returned (fun s hs => ?_) h
  refine wp_then (fun _ => AtHolding b t) (fun e s => e = .cancelled ∧ AtHolding b t s) ?_ ?_ ?_
  · exact wp_awaitLock asksFreely stable_holding hs
  · intro _ s hs
    refine System.wp_mono _ ?_ (wp_release hs)
    rintro (e | snapshot) s hend
    · exact hend.elim
    · exact hend
  · rintro e s ⟨rfl, hs⟩
    exact System.Stably.mono (fun _ hs => ⟨rfl, hs⟩) (stable_holding.stably hs)

/-- A release and then a rest without sections. -/
theorem wp_release_then
    {α β : Type} {p : BulkheadProg ν α} {next : α → BulkheadProg ν β} {s : BulkheadState}
    (hp : (bulkheadSystem ν).wp (Guarantee b ν) t p.run
      (Outcome (fun _ => AtReturned b t) (fun _ _ => False)) s)
    (hnext : ∀ a, IsQuiet (next a)) :
    (bulkheadSystem ν).wp (Guarantee b ν) t (p >>= next).run
      (fun _ => AtReturned b t) s := by
  refine wp_then _ _ hp (fun a s hs => ?_) (fun _ _ hfalse => hfalse.elim)
  refine System.wp_mono _ ?_ (wp_quiet asksFreely stable_returned (hnext a) hs)
  rintro (e | a) s hs
  · exact hs
  · exact hs

/-! ## Calls -/

theorem wp_reject
    {s : BulkheadState} (snapshot : BulkheadProg ν BulkheadSnapshot)
    (hsnapshot : ∀ s, AtIdle b t s →
      (bulkheadSystem ν).wp (Guarantee b ν) t snapshot.run
        (Outcome (fun _ => AtIdle b t) (fun _ => AtIdle b t)) s)
    (h : AtIdle b t s) :
    (bulkheadSystem ν).wp (Guarantee b ν) t (do b.reject (← snapshot)).run
      (fun _ => Over b t) s := by
  refine wp_then _ _ (hsnapshot s h) (fun rejected s hs => ?_)
    (fun e s hs => System.Stably.mono (fun _ => over_of_idle) (stable_idle.stably hs))
  refine System.wp_mono _ ?_ (wp_quiet asksFreely stable_idle
    (.bind (isQuiet_emit _ _) fun _ => isQuiet_throw _) hs)
  rintro (e | a) s hs
  · exact over_of_idle hs
  · exact over_of_idle hs

theorem wp_snapshot
    {s : BulkheadState}
    (h : AtIdle b t s) :
    (bulkheadSystem ν).wp (Guarantee b ν) t (b.snapshot : BulkheadProg ν _).run
      (Outcome (fun _ => AtIdle b t) (fun _ => AtIdle b t)) s :=
  wp_locked stable_idle
    (fun _ hs => ⟨.idle (by rintro ⟨⟩), stable_idle.stably hs⟩) h

theorem wp_asyncSnapshot
    {s : BulkheadState}
    (h : AtIdle b t s) :
    (bulkheadSystem ν).wp (Guarantee b ν) t (b.asyncSnapshot : BulkheadProg ν _).run
      (Outcome (fun _ => AtIdle b t) (fun _ => AtIdle b t)) s :=
  wp_then _ _ (wp_quiet asksFreely stable_idle isQuiet_awaitLock h)
    (fun _ _ hs => wp_snapshot hs) (fun _ _ hs => stable_idle.stably hs)

theorem wp_finish
    {s : BulkheadState}
    (outcome : Except Raised ν)
    (h : AtHolding b t s) :
    (bulkheadSystem ν).wp (Guarantee b ν) t (b.finish t outcome).run
      (fun _ => AtReturned b t) s := by
  unfold finish
  split
  · exact wp_release_then (wp_release h) fun _ => .bind (isQuiet_emit _ _) fun _ => trivial
  · exact wp_release_then (wp_release h) fun _ => isQuiet_throw _
  · split
    · exact wp_release_then (wp_release h) fun _ =>
        .bind (isQuiet_emit _ _) fun _ => isQuiet_throw _
    · exact wp_release_then (wp_release h) fun _ => isQuiet_throw _

theorem wp_releaseAndRaise
    {α : Type} {s : BulkheadState}
    (e : Raised)
    (h : AtHolding b t s) :
    (bulkheadSystem ν).wp (Guarantee b ν) t (b.releaseAndRaise t e : BulkheadProg ν α).run
      (Outcome (fun _ _ => False) (fun _ => AtReturned b t)) s := by
  unfold releaseAndRaise
  split
  · refine wp_then _ _ (wp_releasePreservingCancellation h) (fun _ s hs => ?_)
      (fun _ _ hfalse => hfalse.elim)
    exact wp_throw stable_returned .cancelled (fun _ hs => hs) hs
  · refine wp_then _ _ (wp_releasePreservingCancellation h) (fun released s hs => ?_)
      (fun _ _ hfalse => hfalse.elim)
    obtain ⟨snapshot, cancelled⟩ := released
    cases cancelled with
    | false => exact wp_throw stable_returned e (fun _ hs => hs) hs
    | true => exact wp_throw stable_returned .cancelled (fun _ hs => hs) hs

theorem wp_asyncFinish
    {s : BulkheadState}
    (outcome : Except Raised ν)
    (h : AtHolding b t s) :
    (bulkheadSystem ν).wp (Guarantee b ν) t (b.asyncFinish t outcome).run
      (fun _ => AtReturned b t) s := by
  unfold asyncFinish
  split
  · exact wp_release_then (wp_releasePreservingCancellation h) fun _ =>
      .bind (isQuiet_raiseWhen _ _) fun _ => .bind (isQuiet_emit _ _) fun _ => trivial
  · split
    · exact wp_release_then (wp_releasePreservingCancellation h) fun _ =>
        .bind (isQuiet_raiseWhen _ _) fun _ =>
          .bind (isQuiet_emit _ _) fun _ => isQuiet_throw _
    · refine System.wp_mono _ ?_ (wp_releaseAndRaise _ h)
      rintro (e | a) s hs
      · exact hs
      · exact hs.elim

/-- An admitted call, for either way of cleaning up. -/
theorem wp_admitted
    {s : BulkheadState} {snapshot : BulkheadSnapshot}
    {cleanUp : Raised → BulkheadProg ν Unit} {finish : Except Raised ν → BulkheadProg ν ν}
    (hcleanUp : ∀ e s, AtHolding b t s →
      (bulkheadSystem ν).wp (Guarantee b ν) t (cleanUp e).run
        (Outcome (fun _ _ => False) (fun _ => AtReturned b t)) s)
    (hfinish : ∀ outcome s, AtHolding b t s →
      (bulkheadSystem ν).wp (Guarantee b ν) t (finish outcome).run
        (fun _ => AtReturned b t) s)
    (h : AtHolding b t s) :
    (bulkheadSystem ν).wp (Guarantee b ν) t
      (do
        tryCatch (b.emitAdmitted snapshot) cleanUp
        finish (← asking .operation) : BulkheadProg ν ν).run
      (fun _ => Over b t) s := by
  refine System.wp_mono _ (fun _ _ => over_of_returned) ?_
  refine wp_then (fun _ => AtHolding b t) (fun _ => AtReturned b t) ?_ ?_
    (fun _ _ hs => stable_returned.stably hs)
  · refine wp_catch _ _ (wp_quiet asksFreely stable_holding (isQuiet_emit _ _) h)
      (fun _ _ hs => stable_holding.stably hs) (fun e s hs => ?_)
    refine System.wp_mono _ ?_ (hcleanUp e s hs)
    rintro (e | a) s hs
    · exact hs
    · exact hs.elim
  · intro _ s hs
    exact wp_then (fun _ => AtHolding b t) (fun _ _ => False)
      (wp_asking asksFreely stable_holding trivial hs) hfinish
      (fun _ _ hfalse => hfalse.elim)

/-- A call is over at its end, whichever way it goes. -/
theorem wp_call
    {s : BulkheadState}
    (h : AtIdle b t s) :
    (bulkheadSystem ν).wp (Guarantee b ν) t (b.call t : BulkheadProg ν ν).run
      (fun _ => Over b t) s := by
  refine wp_then _ _ (wp_quiet asksFreely stable_idle isQuiet_checkOperation h) ?_
    (fun _ _ hs => System.Stably.mono (fun _ => over_of_idle) (stable_idle.stably hs))
  intro _ s hs
  refine wp_then _ _ (wp_acquire hs) ?_ (fun _ _ hfalse => hfalse.elim)
  rintro (- | snapshot) s hs
  · exact wp_reject b.snapshot (fun _ => wp_snapshot) hs
  · refine wp_admitted (fun e s hs => ?_) (fun outcome _ => wp_finish outcome) hs
    refine wp_then _ _ (wp_release hs) (fun _ s hs => ?_) (fun _ _ hfalse => hfalse.elim)
    exact wp_throw stable_returned e (fun _ hs => hs) hs

theorem wp_asyncCall
    {s : BulkheadState}
    (h : AtIdle b t s) :
    (bulkheadSystem ν).wp (Guarantee b ν) t (b.asyncCall t : BulkheadProg ν ν).run
      (fun _ => Over b t) s := by
  refine wp_then _ _ (wp_quiet asksFreely stable_idle isQuiet_checkOperation h) ?_
    (fun _ _ hs => System.Stably.mono (fun _ => over_of_idle) (stable_idle.stably hs))
  intro _ s hs
  refine wp_then _ _ (wp_asyncAcquire hs) ?_
    (fun _ _ hs => System.Stably.mono (fun _ => over_of_idle) (stable_idle.stably hs))
  rintro (- | snapshot) s hs
  · exact wp_reject b.asyncSnapshot (fun _ => wp_asyncSnapshot) hs
  · exact wp_admitted (fun e _ => wp_releaseAndRaise e) (fun outcome _ => wp_asyncFinish outcome)
      hs

theorem wp_callOf
    (mode : Mode) {s : BulkheadState}
    (h : AtIdle b t s) :
    (bulkheadSystem ν).wp (Guarantee b ν) t (b.callOf t mode : BulkheadProg ν ν).run
      (fun _ => Over b t) s := by
  cases mode with
  | sync => exact wp_call h
  | async => exact wp_asyncCall h

/-! ## Runs -/

theorem sound_pool
    (b : Bulkhead) (mode : Mode) (ν : Type) :
    System.Pool.Sound (bulkheadSystem ν) (Guarantee b ν) (fun t _ => Over b t)
      (b.pool mode ν) := by
  intro t
  refine wp_callOf mode ⟨inv_init b, ?_, ?_⟩
  · rintro (hasleep | hnotified | hinterrupted)
    · cases hasleep
    · cases hnotified
    · cases hinterrupted
  · exact List.not_mem_nil

/-- A caller releases a permit only when it holds one. -/
def ReleasesOwn (c : BulkheadPool ν) (l : BulkheadLabel ν) (_ : BulkheadPool ν) : Prop :=
  ∀ t, l = .thread t (.atomic .release) → (t, ()) ∈ c.world.permits.outstanding

/-- The permits of a bulkhead are all accounted for. -/
structure Conserved (b : Bulkhead) (c : BulkheadPool ν) : Prop where
  nonneg : 0 ≤ c.world.inFlight
  limit : c.world.inFlight ≤ b.maxConcurrency
  inFlight : c.world.inFlight = c.world.permits.outstanding.length
  waiters : c.world.waiters = c.world.queue.size
  distinct : c.world.queue.WellFormed
  once : c.world.permits.settled.Nodup
  held : ∀ t ∈ c.world.permits.settled, t ∈ c.world.permits.names
  returned : ∀ t r, c.thread t = .running (.ret r) →
    ¬ c.world.queue.Waits t ∧
      (t ∈ c.world.permits.names → t ∈ c.world.permits.settled)

/-- What holds along a run. -/
def Sound (b : Bulkhead) (c : BulkheadPool ν) : Prop :=
  b.Inv c.world ∧
    System.Pool.Sound (bulkheadSystem ν) (Guarantee b ν) (fun t _ => Over b t) c

theorem sound_step
    {c c' : BulkheadPool ν} {l : BulkheadLabel ν}
    (h : Sound b c)
    (hstep : BulkheadStep ν c l c') :
    ReleasesOwn c l c' ∧ Sound b c' := by
  obtain ⟨hguar, hsound'⟩ := System.Pool.sound_step h.2 hstep
  cases l with
  | thread t act =>
      rcases hguar with hguar | ⟨rfl, hsame⟩
      · refine ⟨?_, hguar.inv h.1, hsound'⟩
        rintro u ⟨⟩
        exact hguar.release rfl
      · refine ⟨?_, ?_, hsound'⟩
        · rintro u ⟨⟩
        · rw [hsame]
          exact h.1
  | env e =>
      refine ⟨?_, (event_spec h.1 hguar).1, hsound'⟩
      rintro u ⟨⟩

theorem sound_run
    {mode : Mode} {ls : List (BulkheadLabel ν)} {c : BulkheadPool ν}
    (hrun : Run (BulkheadStep ν) (b.pool mode ν) ls c) :
    Sound b c :=
  hrun.invariant (I := Sound b) (fun _ _ _ h hstep => (sound_step h hstep).2)
    ⟨inv_init b, sound_pool b mode ν⟩

theorem Sound.conserved
    {c : BulkheadPool ν}
    (h : Sound b c) :
    Conserved b c where
  nonneg := by
    rw [h.1.inFlight]
    exact Int.natCast_nonneg _
  limit := h.1.limit
  inFlight := h.1.inFlight
  waiters := h.1.waiters
  distinct := h.1.queue
  once := h.1.permits.settled
  held := h.1.permits.returned
  returned := fun _ _ hret => (h.2.post hret).2

/-- **Every permit is released exactly once, by the call that it was granted to.** -/
theorem permit_conservation
    (b : Bulkhead) (mode : Mode) (ν : Type) (ls : List (BulkheadLabel ν)) (c : BulkheadPool ν)
    (hrun : Run (BulkheadStep ν) (b.pool mode ν) ls c) :
    Run.EachStep (BulkheadStep ν) ReleasesOwn (b.pool mode ν) ls c ∧ Conserved b c :=
  ⟨hrun.eachStep (I := Sound b) (fun _ _ _ h hstep => sound_step h hstep)
    ⟨inv_init b, sound_pool b mode ν⟩, (sound_run hrun).conserved⟩

/-- One permit, and one second to wait for it. -/
def onePermit : Bulkhead where
  name := "one"
  maxConcurrency := 1
  maxConcurrency_pos := Nat.one_pos
  maxWait := 1
  maxWait_nonneg := by decide
  observed := false

/-- Two calls, the second of which sleeps until the first one releases. -/
def handOver : List (System.Choice Caller Question BulkheadEvent (Question.Answer Unit)) :=
  [.run 0, .answer 0 .checkOperation (.ok ()), .run 0, .run 0, .run 0,
    .run 1, .answer 1 .checkOperation (.ok ()), .run 1, .run 1, .run 1,
    .answer 0 .operation (.ok ()), .run 0,
    .answer 1 (.wait 1) .woken, .run 1, .run 1, .run 1]

theorem permit_conservation_handOver :
    ∃ ls c, (bulkheadSystem Unit).schedule (onePermit.pool .sync Unit) handOver = some c ∧
      Run (BulkheadStep Unit) (onePermit.pool .sync Unit) ls c ∧
      Run.EachStep (BulkheadStep Unit) ReleasesOwn (onePermit.pool .sync Unit) ls c ∧
      Conserved onePermit c := by
  obtain ⟨c, hc⟩ := Option.isSome_iff_exists.mp (by decide +kernel :
    ((bulkheadSystem Unit).schedule (onePermit.pool .sync Unit) handOver).isSome = true)
  obtain ⟨ls, hrun⟩ := System.schedule_run hc
  exact ⟨ls, c, hc, hrun, permit_conservation onePermit .sync Unit ls c hrun⟩

/-- **Free permits are matched by notified waiters, or nobody is asleep.** -/
theorem no_missed_wakeup
    (b : Bulkhead) (mode : Mode) (ν : Type) (ls : List (BulkheadLabel ν)) (c : BulkheadPool ν)
    (hrun : Run (BulkheadStep ν) (b.pool mode ν) ls c) :
    (b.maxConcurrency - c.world.inFlight ≤ c.world.queue.notified.card ∨
        c.world.queue.asleep = []) ∧
      (c.world.queue.notified = ∅ → c.world.inFlight < b.maxConcurrency →
        c.world.queue.asleep = []) := by
  have hcovered := (sound_run hrun).1.covered
  refine ⟨hcovered, fun hnone hfree => ?_⟩
  rcases hcovered with hle | hasleep
  · rw [hnone] at hle
    change (b.maxConcurrency : Int) - c.world.inFlight ≤ 0 at hle
    omega
  · exact hasleep

/-- Two calls of the asyncio bulkhead; the sleeper is notified and then cancelled. -/
def notifiedThenCancelled :
    List (System.Choice Caller Question BulkheadEvent (Question.Answer Unit)) :=
  [.run 0, .answer 0 .checkOperation (.ok ()), .run 0, .answer 0 .awaitLock true,
    .run 0, .run 0, .run 0,
    .run 1, .answer 1 .checkOperation (.ok ()), .run 1, .answer 1 .awaitLock true,
    .run 1, .run 1, .run 1,
    .answer 0 .operation (.ok ()), .run 0, .run 0, .answer 0 .awaitLock true, .run 0,
    .answer 1 .awaitWait (.cancelled true false), .run 1]

theorem no_missed_wakeup_cancelled :
    ∃ ls c, (bulkheadSystem Unit).schedule (onePermit.pool .async Unit)
        notifiedThenCancelled = some c ∧
      Run (BulkheadStep Unit) (onePermit.pool .async Unit) ls c ∧
      (onePermit.maxConcurrency - c.world.inFlight ≤ c.world.queue.notified.card ∨
        c.world.queue.asleep = []) ∧
      (c.world.queue.notified = ∅ → c.world.inFlight < onePermit.maxConcurrency →
        c.world.queue.asleep = []) := by
  obtain ⟨c, hc⟩ := Option.isSome_iff_exists.mp (by decide :
    ((bulkheadSystem Unit).schedule (onePermit.pool .async Unit)
      notifiedThenCancelled).isSome = true)
  obtain ⟨ls, hrun⟩ := System.schedule_run hc
  exact ⟨ls, c, hc, hrun, no_missed_wakeup onePermit .async Unit ls c hrun⟩

end Bulkhead
end Resilience
end Bluetape
