import Bluetape.Resilience.CircuitSlots

/-!
# Calls of the circuit breakers

Every call keeps the invariant of its breaker whatever the others do, settles
only an admission of its own, and leaves none unsettled.

* `wp_call`, `wp_asyncCall`: one call among any others;
* `slot_accounting`: slots, thresholds and settlements, in every run.
-/

namespace Bluetape
namespace Resilience

open Base

namespace CircuitBreaker

variable {ν : Type} {b : CircuitBreaker} {t : CircuitCaller}

/-- A section settles the caller's own admission, without effect when it is stale. -/
def SettlesOwn (t : CircuitCaller) (w w' : CircuitWorld) : Prop :=
  ∃ a, (t, a) ∈ w.admissions.outstanding ∧ t ∈ w'.admissions.settled ∧
    (a.generation ≠ w.data.generation → w'.data = w.data)

/-- What a step of a caller guarantees to the others. -/
structure Guarantee (b : CircuitBreaker) (ν : Type) (t : CircuitCaller)
    (act : Act CircuitSection Question (Question.Answer ν)) (w w' : CircuitWorld) : Prop where
  inv : b.Inv w → b.Inv w'
  others : ∀ u, u ≠ t → Ledger.SameFor u w.admissions w'.admissions
  settle : act = .atomic .settle → SettlesOwn t w w'

/-- The invariant and an assertion about the caller's admission are stable. -/
theorem stable_standing
    {P : Ledger CircuitCaller Admission → Prop}
    (hP : ∀ l l', Ledger.SameFor t l l' → P l → P l') :
    (circuitSystem ν).Stable (Guarantee b ν) t (fun w => b.Inv w ∧ P w.admissions) := by
  refine .of_steps (fun e => nomatch e) ?_
  rintro u act w w' hne ⟨hinv, hw⟩ hguar
  exact ⟨hguar.inv hinv, hP _ _ (hguar.others t hne.symm) hw⟩

/-- The caller was never admitted. -/
def Outside (b : CircuitBreaker) (t : CircuitCaller) (w : CircuitWorld) : Prop :=
  b.Inv w ∧ t ∉ w.admissions.names

/-- The caller's admission is not settled. -/
def Admitted (b : CircuitBreaker) (t : CircuitCaller) (a : Admission) (w : CircuitWorld) :
    Prop :=
  b.Inv w ∧ (t, a) ∈ w.admissions.outstanding

/-- The caller's admission is settled. -/
def Settled (b : CircuitBreaker) (t : CircuitCaller) (w : CircuitWorld) : Prop :=
  b.Inv w ∧ t ∈ w.admissions.settled

/-- Any admission that the caller had is settled. -/
def Over (b : CircuitBreaker) (t : CircuitCaller) (w : CircuitWorld) : Prop :=
  b.Inv w ∧ (t ∈ w.admissions.names → t ∈ w.admissions.settled)

theorem stable_outside :
    (circuitSystem ν).Stable (Guarantee b ν) t (Outside b t) :=
  stable_standing (P := fun l => t ∉ l.names) fun _ _ h => h.mem_names.not.mpr

theorem stable_admitted
    (a : Admission) :
    (circuitSystem ν).Stable (Guarantee b ν) t (Admitted b t a) :=
  stable_standing (P := fun l => (t, a) ∈ l.outstanding) fun _ _ h => (h.mem_outstanding a).mpr

theorem stable_settled :
    (circuitSystem ν).Stable (Guarantee b ν) t (Settled b t) :=
  stable_standing (P := fun l => t ∈ l.settled) fun _ _ h => h.settled.mpr

theorem over_of_outside
    {w : CircuitWorld}
    (h : Outside b t w) :
    Over b t w :=
  ⟨h.1, fun hmem => absurd hmem h.2⟩

theorem over_of_settled
    {w : CircuitWorld}
    (h : Settled b t w) :
    Over b t w :=
  ⟨h.1, fun _ => h.2⟩

theorem stable_over :
    (circuitSystem ν).Stable (Guarantee b ν) t (Over b t) :=
  stable_standing (P := fun l => t ∈ l.names → t ∈ l.settled) fun _ _ h hover hmem =>
    h.settled.mpr (hover (h.mem_names.mp hmem))

theorem stably_over_of_outside
    {w : CircuitWorld}
    (h : Outside b t w) :
    (circuitSystem ν).Stably (Guarantee b ν) t (Over b t) w :=
  stable_over.stably (over_of_outside h)

theorem Guarantee.idle
    {act : Act CircuitSection Question (Question.Answer ν)} {w : CircuitWorld}
    (hact : act ≠ .atomic .settle) :
    Guarantee b ν t act w w where
  inv := id
  others := fun u _ => .refl u w.admissions
  settle := fun h => absurd h hact

theorem asksFreely :
    AsksFreely (circuitSystem ν) (Guarantee b ν) t where
  issue := by
    rintro q w w' - hissue
    obtain rfl := Option.some.inj hissue
    exact ⟨rfl, .idle (by rintro ⟨⟩)⟩
  answer := by
    rintro q a w w' hq hanswer
    cases q
    case wait | awaitWait => exact hq.elim
    all_goals
      obtain rfl := Option.some.inj hanswer
      exact ⟨rfl, .idle (by rintro ⟨⟩)⟩

/-! ## Sections -/

/-- Where the section of an admission leaves its caller. -/
def AtResult (b : CircuitBreaker) (t : CircuitCaller) (r : AdmitResult) (w : CircuitWorld) :
    Prop :=
  match r.admission with
  | none => Outside b t w
  | some a => Admitted b t a w

theorem wp_admission
    {w : CircuitWorld} (now : ℚ)
    (h : Outside b t w) :
    (circuitSystem ν).wp (Guarantee b ν) t
      (locked .admission (b.admitLocked t now) : CircuitProg ν AdmitResult).run
      (Outcome (AtResult b t) (fun _ _ => False)) w := by
  refine wp_locked stable_outside (fun w hw => ?_) h
  have hinv := admitCall_spec hw.1 hw.2 now
  change Guarantee b ν t (.atomic .admission) w (record t w (b.admitCall w.data now).1.1
      (b.admitCall w.data now).2) ∧
    (circuitSystem ν).Stably (Guarantee b ν) t (AtResult b t
      ⟨(b.admitCall w.data now).1.1, (b.admitCall w.data now).1.2, _⟩)
      (record t w (b.admitCall w.data now).1.1 (b.admitCall w.data now).2)
  cases hadmission : (b.admitCall w.data now).1.1 with
  | none =>
      rw [hadmission] at hinv
      exact ⟨⟨fun _ => hinv, fun u _ => .refl u w.admissions, by rintro ⟨⟩⟩,
        stable_outside.stably ⟨hinv, hw.2⟩⟩
  | some a =>
      rw [hadmission] at hinv
      refine ⟨⟨fun _ => hinv, fun u hu => .grant hu w.admissions a, by rintro ⟨⟩⟩, ?_⟩
      exact (stable_admitted a).stably
        ⟨hinv, Ledger.mem_outstanding_grant_self hw.1.admissions hw.2⟩

/-- A section that settles the caller's admission. -/
theorem wp_settle
    {w : CircuitWorld} {a : Admission}
    {update : CircuitData → Option Transition × CircuitData}
    (hupdate : ∀ d, Stamped d a → Settles b a d (update d).2)
    (h : Admitted b t a w) :
    (circuitSystem ν).wp (Guarantee b ν) t
      (locked .settle (b.settleLocked t update) : CircuitProg ν SettleResult).run
      (Outcome (fun _ => Settled b t) (fun _ _ => False)) w := by
  refine wp_locked (stable_admitted a) (fun w hw => ?_) h
  have hsettles := hupdate w.data (hw.1.accounted.stamped (t, a) hw.2)
  have hinv : b.Inv (b.settleLocked t update w).2 :=
    ⟨hw.1.admissions.settle hw.2, accounted_settle hw.1 hw.2 hsettles,
      hsettles.thresholds hw.1.thresholds⟩
  refine ⟨⟨fun _ => hinv, fun u hu => .settle hu w.admissions, fun _ => ?_⟩, ?_⟩
  · exact ⟨a, hw.2, List.mem_cons_self, hsettles.stale⟩
  · exact stable_settled.stably ⟨hinv, List.mem_cons_self⟩

/-! ## The parts of a call -/

theorem isQuiet_readClock :
    IsQuiet (readClock : CircuitProg ν ℚ) := by
  refine .bind (isQuiet_asking (q := .clock) trivial) fun r => .bind (isQuiet_orRaise r) ?_
  rintro (seconds | - | -)
  · refine iteInduction (fun _ => isQuiet_throw _) (fun _ => trivial)
  · exact isQuiet_throw _
  · exact isQuiet_throw _

theorem isQuiet_classify
    (b : CircuitBreaker) (error : Raised) :
    IsQuiet (b.classify error : CircuitProg ν Bool) := by
  unfold classify
  split
  · refine .bind (isQuiet_asking (q := .classify error) trivial) fun r =>
      .bind (isQuiet_orRaise r) ?_
    rintro (- | verdict)
    · exact isQuiet_throw _
    · trivial
  · trivial

theorem isQuiet_emitTransition
    (b : CircuitBreaker) (transition : Option Transition) (snapshot : CircuitSnapshot) :
    IsQuiet (b.emitTransition transition snapshot : CircuitProg ν Unit) := by
  cases transition with
  | none => trivial
  | some change => exact isQuiet_emit _ _

/-- A clean-up that settles the admission and raises. -/
def CleansUp (b : CircuitBreaker) (t : CircuitCaller) (cleanUp : CleanUp ν) : Prop :=
  ∀ α a e w, Admitted b t a w →
    (circuitSystem ν).wp (Guarantee b ν) t (cleanUp α a e).run
      (Outcome (fun _ _ => False) (fun _ => Settled b t)) w

/-- A way to settle an admission, which may raise only once that is done. -/
def SettlesBy (b : CircuitBreaker) (t : CircuitCaller) (settle : Settle ν) : Prop :=
  ∀ a update w, (∀ d, Stamped d a → Settles b a d (update d).2) → Admitted b t a w →
    (circuitSystem ν).wp (Guarantee b ν) t (settle a (b.settleLocked t update)).run
      (Outcome (fun _ => Settled b t) (fun _ => Settled b t)) w

section Parts

variable {cleanUp : CleanUp ν} {settle : Settle ν} {a : Admission} {w : CircuitWorld}

/-- A question or a callback with the clean-up as its handler. -/
theorem wp_orCleanUp
    {α : Type} {p : CircuitProg ν α}
    (hcleanUp : CleansUp b t cleanUp)
    (hp : IsQuiet p)
    (h : Admitted b t a w) :
    (circuitSystem ν).wp (Guarantee b ν) t (tryCatch p (cleanUp α a)).run
      (Outcome (fun _ => Admitted b t a) (fun _ => Settled b t)) w := by
  refine wp_catch _ _ (wp_quiet asksFreely (stable_admitted a) hp h)
    (fun _ _ hw => (stable_admitted a).stably hw) (fun e w hw => ?_)
  refine System.wp_mono _ ?_ (hcleanUp α a e w hw)
  rintro (e | x) w hw
  · exact hw
  · exact hw.elim

/-- The events after a settlement. -/
theorem wp_settled
    {α : Type} {p : CircuitProg ν α}
    (hp : IsQuiet p)
    (h : Settled b t w) :
    (circuitSystem ν).wp (Guarantee b ν) t p.run (fun _ => Settled b t) w := by
  refine System.wp_mono _ ?_ (wp_quiet asksFreely stable_settled hp h)
  rintro (e | x) w hw
  · exact hw
  · exact hw

theorem stably_settled
    {w : CircuitWorld}
    (h : Settled b t w) :
    (circuitSystem ν).Stably (Guarantee b ν) t (Settled b t) w :=
  stable_settled.stably h

theorem wp_settleSuccess
    (hcleanUp : CleansUp b t cleanUp)
    (hsettle : SettlesBy b t settle)
    (result : ν)
    (h : Admitted b t a w) :
    (circuitSystem ν).wp (Guarantee b ν) t
      (b.settleSuccess t cleanUp settle a result).run (fun _ => Settled b t) w := by
  refine wp_then _ _ (wp_orCleanUp hcleanUp isQuiet_readClock h) (fun now w hw => ?_)
    (fun _ _ => stably_settled)
  refine wp_then _ _ (hsettle a _ w (fun d hd => succeed_settles hd now) hw)
    (fun settled w hw => ?_) (fun _ _ => stably_settled)
  exact wp_settled (.bind (isQuiet_emitTransition _ _ _) fun _ =>
    .bind (isQuiet_emit _ _) fun _ => trivial) hw

theorem wp_settleFailure
    (hcleanUp : CleansUp b t cleanUp)
    (hsettle : SettlesBy b t settle)
    (error : Raised)
    (h : Admitted b t a w) :
    (circuitSystem ν).wp (Guarantee b ν) t
      (b.settleFailure t cleanUp settle a error).run (fun _ => Settled b t) w := by
  refine wp_then _ _ (wp_orCleanUp hcleanUp (isQuiet_classify b error) h)
    (fun classified w hw => ?_) (fun _ _ => stably_settled)
  refine wp_then _ _ (wp_orCleanUp hcleanUp isQuiet_readClock hw) (fun now w hw => ?_)
    (fun _ _ => stably_settled)
  refine wp_then _ _ (hsettle a _ w (fun d hd => ?_) hw) (fun settled w hw => ?_)
    (fun _ _ => stably_settled)
  · cases classified with
    | false => exact ignore_settles hd
    | true => exact fail_settles hd now
  · exact wp_settled (.bind (isQuiet_emitTransition _ _ _) fun _ =>
      .bind (isQuiet_emit _ _) fun _ => isQuiet_throw _) hw

/-- The first events, whether the call was admitted or not. -/
theorem wp_announceOrCleanUp
    {r : AdmitResult}
    (hcleanUp : CleansUp b t cleanUp)
    (h : AtResult b t r w) :
    (circuitSystem ν).wp (Guarantee b ν) t (b.announceOrCleanUp cleanUp r).run
      (Outcome (Admitted b t) (fun _ => Over b t)) w := by
  obtain ⟨admission, transition, snapshot⟩ := r
  cases admission with
  | none =>
      refine wp_catch (fun _ _ => False) (fun _ => Outside b t) ?_
        (fun _ _ hfalse => hfalse.elim)
        (fun e w hw => wp_throw stable_outside e (fun _ => over_of_outside) hw)
      refine wp_then _ _ (wp_quiet asksFreely stable_outside (isQuiet_emitTransition _ _ _) h)
        (fun _ w hw => ?_) (fun _ _ hw => stable_outside.stably hw)
      refine wp_then _ _ (wp_quiet asksFreely stable_outside (isQuiet_emit _ _) hw)
        (fun _ w hw => ?_) (fun _ _ hw => stable_outside.stably hw)
      exact wp_throw stable_outside _ (fun _ hw => hw) hw
  | some a =>
      have hstable := stable_admitted (ν := ν) (b := b) (t := t) a
      refine wp_catch (fun a' w => a' = a ∧ Admitted b t a w) (fun _ => Admitted b t a) ?_ ?_ ?_
      · refine wp_then _ _ (wp_quiet asksFreely hstable (isQuiet_emitTransition _ _ _) h)
          (fun _ w hw => ?_) (fun _ _ hw => hstable.stably hw)
        refine wp_then _ _ (wp_quiet asksFreely hstable (isQuiet_emit _ _) hw)
          (fun _ w hw => ?_) (fun _ _ hw => hstable.stably hw)
        exact wp_return hstable a (fun _ hw => ⟨rfl, hw⟩) hw
      · rintro a' w ⟨rfl, hw⟩
        exact hstable.stably hw
      · intro e w hw
        refine System.wp_mono _ ?_ (hcleanUp Admission a e w hw)
        rintro (e | x) w hw
        · exact over_of_settled hw
        · exact hw.elim

end Parts

/-! ## The synchronous breaker -/

theorem wp_release
    {a : Admission} {w : CircuitWorld}
    (h : Admitted b t a w) :
    (circuitSystem ν).wp (Guarantee b ν) t (b.release t a : CircuitProg ν _).run
      (Outcome (fun _ => Settled b t) (fun _ _ => False)) w :=
  wp_settle (fun _ hd => ignore_settles hd) h

theorem cleansUp_releaseAndRaise :
    CleansUp b t (b.releaseAndRaise t : CleanUp ν) := by
  intro α a e w hw
  refine wp_then _ _ (wp_release hw) (fun _ w hw => ?_) (fun _ _ hfalse => hfalse.elim)
  exact wp_throw stable_settled e (fun _ hw => hw) hw

theorem settlesBy_settleNow :
    SettlesBy b t (settleNow : Settle ν) := by
  intro a update w hupdate hw
  refine System.wp_mono _ ?_ (wp_settle hupdate hw)
  rintro (e | x) w hw
  · exact hw.elim
  · exact hw

/-- A clean-up leaves the call over. -/
theorem wp_cleanUp
    {cleanUp : CleanUp ν} {a : Admission} {w : CircuitWorld}
    (hcleanUp : CleansUp b t cleanUp) (e : Raised)
    (h : Admitted b t a w) :
    (circuitSystem ν).wp (Guarantee b ν) t (cleanUp ν a e).run (fun _ => Settled b t) w := by
  refine System.wp_mono _ ?_ (hcleanUp ν a e w h)
  rintro (e | x) w hw
  · exact hw
  · exact hw.elim

theorem wp_finish
    {a : Admission} {w : CircuitWorld}
    (outcome : Except Raised ν)
    (h : Admitted b t a w) :
    (circuitSystem ν).wp (Guarantee b ν) t (b.finish t a outcome).run
      (fun _ => Settled b t) w := by
  unfold finish
  split
  · exact wp_settleSuccess cleansUp_releaseAndRaise settlesBy_settleNow _ h
  · exact wp_cleanUp cleansUp_releaseAndRaise _ h
  · split
    · exact wp_settleFailure cleansUp_releaseAndRaise settlesBy_settleNow _ h
    · exact wp_cleanUp cleansUp_releaseAndRaise _ h

/-- `call` after its admission section. -/
theorem wp_afterAdmission
    {cleanUp : CleanUp ν} {finish : Admission → Except Raised ν → CircuitProg ν ν}
    {r : AdmitResult} {w : CircuitWorld}
    (hcleanUp : CleansUp b t cleanUp)
    (hfinish : ∀ a outcome w, Admitted b t a w →
      (circuitSystem ν).wp (Guarantee b ν) t (finish a outcome).run (fun _ => Settled b t) w)
    (h : AtResult b t r w) :
    (circuitSystem ν).wp (Guarantee b ν) t
      (do
        let a ← b.announceOrCleanUp cleanUp r
        finish a (← asking .operation) : CircuitProg ν ν).run
      (fun _ => Over b t) w := by
  refine wp_then _ _ (wp_announceOrCleanUp hcleanUp h) (fun a w hw => ?_) ?_
  · refine System.wp_mono _ (fun _ _ => over_of_settled) ?_
    exact wp_then _ _ (wp_asking asksFreely (stable_admitted a) trivial hw) (hfinish a)
      (fun _ _ hfalse => hfalse.elim)
  · exact fun _ _ hw => stable_over.stably hw

/-- A call is over at its end, whichever way it goes. -/
theorem wp_call
    {w : CircuitWorld}
    (h : Outside b t w) :
    (circuitSystem ν).wp (Guarantee b ν) t (b.call t : CircuitProg ν ν).run
      (fun _ => Over b t) w := by
  refine wp_then _ _ (wp_quiet asksFreely stable_outside isQuiet_checkOperation h)
    (fun _ w hw => ?_) (fun _ _ => stably_over_of_outside)
  refine wp_then _ _ (wp_quiet asksFreely stable_outside isQuiet_readClock hw)
    (fun now w hw => ?_) (fun _ _ => stably_over_of_outside)
  refine wp_then _ _ (wp_admission now hw) (fun r w hw => ?_) (fun _ _ hfalse => hfalse.elim)
  exact wp_afterAdmission cleansUp_releaseAndRaise (fun a outcome _ => wp_finish outcome) hw

/-! ## The asyncio breaker -/

theorem wp_releasePreservingCancellation
    {a : Admission} {w : CircuitWorld}
    (h : Admitted b t a w) :
    (circuitSystem ν).wp (Guarantee b ν) t
      (b.releasePreservingCancellation t a : CircuitProg ν _).run
      (Outcome (fun _ => Settled b t) (fun _ _ => False)) w := by
  refine wp_preservingCancellation (stable_admitted a) stable_settled (fun w hw => ?_) h
  refine wp_then (fun _ => Admitted b t a) (fun e w => e = .cancelled ∧ Admitted b t a w)
    (wp_awaitLock asksFreely (stable_admitted a) hw) (fun _ w hw => ?_) ?_
  · refine System.wp_mono _ ?_ (wp_release hw)
    rintro (e | x) w hw
    · exact hw.elim
    · exact hw
  · rintro e w ⟨rfl, hw⟩
    exact System.Stably.mono (fun _ hw => ⟨rfl, hw⟩) ((stable_admitted a).stably hw)

theorem cleansUp_asyncReleaseAndRaise :
    CleansUp b t (b.asyncReleaseAndRaise t : CleanUp ν) := by
  intro α a e w hw
  refine wp_then _ _ (wp_releasePreservingCancellation hw) (fun released w hw => ?_)
    (fun _ _ hfalse => hfalse.elim)
  obtain ⟨snapshot, cancelled⟩ := released
  cases cancelled with
  | false => exact wp_throw stable_settled e (fun _ hw => hw) hw
  | true => exact wp_throw stable_settled .cancelled (fun _ hw => hw) hw

theorem settlesBy_asyncSettle :
    SettlesBy b t (b.asyncSettle t : Settle ν) := by
  intro a update w hupdate hw
  refine wp_catch (fun _ => Settled b t) (fun _ => Admitted b t a) ?_
    (fun _ _ => stably_settled) (fun e w hw => ?_)
  · refine wp_then _ _ (wp_quiet asksFreely (stable_admitted a) isQuiet_awaitLock hw)
      (fun _ w hw => ?_) (fun _ _ hw => (stable_admitted a).stably hw)
    refine System.wp_mono _ ?_ (wp_settle hupdate hw)
    rintro (e | x) w hw
    · exact hw.elim
    · exact hw
  · refine System.wp_mono _ ?_ (cleansUp_asyncReleaseAndRaise SettleResult a e w hw)
    rintro (e | x) w hw
    · exact hw
    · exact hw.elim

theorem wp_asyncFinish
    {a : Admission} {w : CircuitWorld}
    (outcome : Except Raised ν)
    (h : Admitted b t a w) :
    (circuitSystem ν).wp (Guarantee b ν) t (b.asyncFinish t a outcome).run
      (fun _ => Settled b t) w := by
  unfold asyncFinish
  split
  · exact wp_settleSuccess cleansUp_asyncReleaseAndRaise settlesBy_asyncSettle _ h
  · split
    · exact wp_settleFailure cleansUp_asyncReleaseAndRaise settlesBy_asyncSettle _ h
    · exact wp_cleanUp cleansUp_asyncReleaseAndRaise _ h

theorem wp_asyncCall
    {w : CircuitWorld}
    (h : Outside b t w) :
    (circuitSystem ν).wp (Guarantee b ν) t (b.asyncCall t : CircuitProg ν ν).run
      (fun _ => Over b t) w := by
  refine wp_then _ _ (wp_quiet asksFreely stable_outside isQuiet_checkOperation h)
    (fun _ w hw => ?_) (fun _ _ => stably_over_of_outside)
  refine wp_then _ _ (wp_quiet asksFreely stable_outside isQuiet_readClock hw)
    (fun now w hw => ?_) (fun _ _ => stably_over_of_outside)
  refine wp_then _ _ (wp_quiet asksFreely stable_outside isQuiet_awaitLock hw)
    (fun _ w hw => ?_) (fun _ _ => stably_over_of_outside)
  refine wp_then _ _ (wp_admission now hw) (fun r w hw => ?_) (fun _ _ hfalse => hfalse.elim)
  exact wp_afterAdmission cleansUp_asyncReleaseAndRaise
    (fun a outcome _ => wp_asyncFinish outcome) hw

/-! ## Runs -/

theorem sound_pool
    (b : CircuitBreaker) (mode : Mode) (ν : Type) :
    System.Pool.Sound (circuitSystem ν) (Guarantee b ν) (fun t _ => Over b t)
      (b.pool mode ν) := by
  intro t
  have hstart : Outside b t .init := ⟨inv_init b, List.not_mem_nil⟩
  cases mode with
  | sync => exact wp_call hstart
  | async => exact wp_asyncCall hstart

/-- What holds along a run. -/
def Sound (b : CircuitBreaker) (c : CircuitPool ν) : Prop :=
  b.Inv c.world ∧
    System.Pool.Sound (circuitSystem ν) (Guarantee b ν) (fun t _ => Over b t) c

/-- A step that settles an admission settles the caller's own one. -/
def SettlesOnce (c : CircuitPool ν) (l : CircuitLabel ν) (c' : CircuitPool ν) : Prop :=
  ∀ t, l = .thread t (.atomic .settle) → SettlesOwn t c.world c'.world

theorem sound_step
    {c c' : CircuitPool ν} {l : CircuitLabel ν}
    (h : Sound b c)
    (hstep : CircuitStep ν c l c') :
    SettlesOnce c l c' ∧ Sound b c' := by
  obtain ⟨hguar, hsound'⟩ := System.Pool.sound_step h.2 hstep
  cases l with
  | thread t act =>
      rcases hguar with hguar | ⟨rfl, hsame⟩
      · refine ⟨?_, hguar.inv h.1, hsound'⟩
        rintro u ⟨⟩
        exact hguar.settle rfl
      · refine ⟨?_, ?_, hsound'⟩
        · rintro u ⟨⟩
        · rw [hsame]
          exact h.1
  | env e => exact nomatch e

/-- The slots and the counters of a breaker, and the admissions of its calls. -/
structure SlotAccount (b : CircuitBreaker) (c : CircuitPool ν) : Prop where
  slots : c.world.data.halfOpenInFlight =
    if c.world.data.state = .halfOpen then
      (c.world.admissions.outstanding.countP (current c.world.data) : Int)
    else 0
  nonneg : 0 ≤ c.world.data.halfOpenInFlight
  limit : c.world.data.halfOpenInFlight ≤ b.halfOpenMaxCalls
  failures : c.world.data.state = .closed →
    c.world.data.consecutiveFailures < b.failureThreshold
  recoveries : c.world.data.state = .halfOpen →
    c.world.data.recoverySuccesses < b.recoverySuccessThreshold
  once : c.world.admissions.settled.Nodup
  own : ∀ t ∈ c.world.admissions.settled, t ∈ c.world.admissions.names
  settled : ∀ t r, c.thread t = .running (.ret r) →
    t ∈ c.world.admissions.names → t ∈ c.world.admissions.settled

theorem Sound.slotAccount
    {c : CircuitPool ν}
    (h : Sound b c) :
    SlotAccount b c := by
  have hslots : c.world.data.halfOpenInFlight =
      if c.world.data.state = .halfOpen then
        (c.world.admissions.outstanding.countP (current c.world.data) : Int)
      else 0 := by
    split
    case isTrue hstate => exact h.1.accounted.slots hstate
    case isFalse hstate => exact h.1.accounted.unused hstate
  refine ⟨hslots, ?_, h.1.thresholds.limit, h.1.thresholds.failures,
    h.1.thresholds.recoveries, h.1.admissions.settled, h.1.admissions.returned,
    fun _ _ hret => (h.2.post hret).2⟩
  rw [hslots]
  split
  · exact Int.natCast_nonneg _
  · exact le_refl _

/-- **Slots, thresholds and settlements of a circuit breaker, in every run.** -/
theorem slot_accounting
    (b : CircuitBreaker) (mode : Mode) (ν : Type) (ls : List (CircuitLabel ν))
    (c : CircuitPool ν)
    (hrun : Run (CircuitStep ν) (b.pool mode ν) ls c) :
    Run.EachStep (CircuitStep ν) SettlesOnce (b.pool mode ν) ls c ∧ SlotAccount b c := by
  have hstart : Sound b (b.pool mode ν) := ⟨inv_init b, sound_pool b mode ν⟩
  refine ⟨hrun.eachStep (I := Sound b) (fun _ _ _ h hstep => sound_step h hstep) hstart, ?_⟩
  exact (hrun.invariant (I := Sound b) (fun _ _ _ h hstep => (sound_step h hstep).2)
    hstart).slotAccount

/-- Every threshold is one. -/
def oneFailure : CircuitBreaker where
  name := "one"
  failureThreshold := 1
  failureThreshold_pos := Nat.one_pos
  openDuration := 1
  openDuration_pos := by decide
  halfOpenMaxCalls := 1
  halfOpenMaxCalls_pos := Nat.one_pos
  recoverySuccessThreshold := 1
  recoverySuccessThreshold_pos := Nat.one_pos
  hasFailureIf := false
  observed := false

/-- A failure opens the circuit, a later call half-opens it and is still running. -/
def openThenProbe : List (System.Choice CircuitCaller Question Empty (Question.Answer Unit)) :=
  [.run 0, .answer 0 .checkOperation (.ok ()), .run 0, .answer 0 .clock (.ok (.finite 0)),
    .run 0, .run 0, .answer 0 .operation (.error (.exception 0)), .run 0,
    .answer 0 .clock (.ok (.finite 1)), .run 0,
    .run 1, .answer 1 .checkOperation (.ok ()), .run 1, .answer 1 .clock (.ok (.finite 2)),
    .run 1, .run 1]

theorem slot_accounting_openThenProbe :
    ∃ ls c, (circuitSystem Unit).schedule (oneFailure.pool .sync Unit) openThenProbe = some c ∧
      Run (CircuitStep Unit) (oneFailure.pool .sync Unit) ls c ∧
      Run.EachStep (CircuitStep Unit) SettlesOnce (oneFailure.pool .sync Unit) ls c ∧
      SlotAccount oneFailure c := by
  obtain ⟨c, hc⟩ := Option.isSome_iff_exists.mp (by decide +kernel :
    ((circuitSystem Unit).schedule (oneFailure.pool .sync Unit) openThenProbe).isSome = true)
  obtain ⟨ls, hrun⟩ := System.schedule_run hc
  exact ⟨ls, c, hc, hrun, slot_accounting oneFailure .sync Unit ls c hrun⟩

end CircuitBreaker
end Resilience
end Bluetape
