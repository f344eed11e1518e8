import Bluetape.Base.Recording
import Bluetape.Resilience.CircuitSlots

/-!
# What the calls of a circuit breaker report

The verdict on a call, from what the call was told, and the sections of a call with it: an
admission at the clock reading that the call was told last, and a settlement that applies
the verdict.  A call asks for its operation only when it was admitted.

* `Traces`: what a step of a call does, beside the record of what it was told;
* `traces_pool`: every step of every run does that.
-/

namespace Bluetape
namespace Resilience

open Base Dialogue

/-! ## Verdicts -/

/-- How the completion of a call counts. -/
inductive Verdict
  | succeeded
  | failed
  | ignored
deriving DecidableEq, Repr

/-- What a call was told, newest first. -/
abbrev Told (ν : Type) :=
  History (Question.Answer ν)

/-- The breaker classifies the error of an operation. -/
def Raised.isClassified (mode : Mode) (error : Raised) : Bool :=
  error.isException && !(decide (mode = .sync) && decide (error = .syncResultContract))

section Verdicts

variable {ν : Type}

/-- What the call was told before the lock was granted, which only asyncio calls wait for. -/
def beforeLock : Mode → Told ν → Option (Told ν)
  | .sync, h => some h
  | .async, ⟨.awaitLock, granted⟩ :: h => if granted = true then some h else none
  | .async, _ => none

/-- The clock reading that the call was told last, and what it was told before. -/
def lastReading : Told ν → Option (ℚ × Told ν)
  | ⟨.clock, .ok (.finite seconds)⟩ :: h => if seconds < 0 then none else some (seconds, h)
  | _ => none

/-- The reading at which a section of a call is executed. -/
def sectionReading (mode : Mode) (h : Told ν) : Option (ℚ × Told ν) :=
  (beforeLock mode h).bind lastReading

namespace CircuitBreaker

variable (b : CircuitBreaker) (mode : Mode)

/-- The verdict on the operation. -/
def classified : Told ν → Verdict
  | ⟨.operation, .ok _⟩ :: _ => .succeeded
  | ⟨.operation, .error error⟩ :: _ =>
      if error.isClassified mode && !b.hasFailureIf then .failed else .ignored
  | ⟨.classify _, .ok (some true)⟩ :: _ => .failed
  | _ => .ignored

/-- The verdict on a call that completes. -/
def verdict (h : Told ν) : Verdict :=
  match sectionReading mode h with
  | some (_, h) => b.classified mode h
  | none => .ignored

/-- What a verdict does to the data. -/
def apply (a : Admission) (now : ℚ) (d : CircuitData) : Verdict → CircuitData
  | .succeeded => (b.succeed d a now).2
  | .failed => (b.fail d a now).2
  | .ignored => ignore d a

end CircuitBreaker
end Verdicts

/-! ## What a step does -/

/-- The world of a breaker with the record of its calls. -/
abbrev CircuitRecord (ν : Type) :=
  System.Recorded CircuitCaller CircuitWorld (Question.Answer ν)

/-- The system of a breaker with the record. -/
abbrev recordedCircuit (ν : Type) :=
  (circuitSystem ν).recorded

namespace CircuitBreaker
namespace Reported

variable {ν : Type} {b : CircuitBreaker} {mode : Mode} {t : CircuitCaller}

/-- The phases of a call. -/
inductive Phase
  | before
  | admitted (a : Admission)
  | refused
  | settled

/-- Where a call stands, by the ledger and the number of its sections. -/
def Stands (t : CircuitCaller) (l : Ledger CircuitCaller Admission) (sections : Nat) :
    Phase → Prop
  | .before => sections = 0 ∧ t ∉ l.names ∧ t ∉ l.settled
  | .admitted a => 0 < sections ∧ (t, a) ∈ l.granted ∧ t ∉ l.settled
  | .refused => 0 < sections ∧ t ∉ l.names
  | .settled => 0 < sections ∧ t ∈ l.settled

/-- A call stands somewhere and was told something. -/
def At (t : CircuitCaller) (phase : Phase) (h : Told ν) (g : CircuitRecord ν) : Prop :=
  Stands t g.world.admissions (g.sections t) phase ∧ g.told t = h

/-- What a step of a call does. -/
def Does (b : CircuitBreaker) (mode : Mode) (t : CircuitCaller) (g g' : CircuitRecord ν) :
    Act CircuitSection Question (Question.Answer ν) → Prop
  | .atomic .admission => Stands t g.world.admissions (g.sections t) .before ∧
      ∃ now h, sectionReading mode (g.told t) = some (now, h) ∧
        g'.world = (b.admitLocked t now g.world).2
  | .atomic .settle => ∃ a now, Stands t g.world.admissions (g.sections t) (.admitted a) ∧
      g'.world = ⟨b.apply a now g.world.data (b.verdict mode (g.told t)),
        g.world.admissions.settle t⟩
  | .asked q => g'.world = g.world ∧ (q = .operation → t ∈ g.world.admissions.names)
  | .answered _ _ | .unrolled => g'.world = g.world

/-- What a step of a call guarantees. -/
structure Traces (b : CircuitBreaker) (mode : Mode) (ν : Type) (t : CircuitCaller)
    (act : Act CircuitSection Question (Question.Answer ν)) (g g' : CircuitRecord ν) :
    Prop where
  does : Does b mode t g g' act
  sections : g.sections t ≤ g'.sections t
  progress : ∀ l, act = .atomic l → 0 < g'.sections t
  others : ∀ u, u ≠ t → Ledger.SameFor u g.world.admissions g'.world.admissions ∧
    g'.sections u = g.sections u ∧ g'.told u = g.told u

theorem Stands.same
    {l l' : Ledger CircuitCaller Admission} {sections : Nat} {phase : Phase}
    (h : Stands t l sections phase)
    (hsame : Ledger.SameFor t l l') :
    Stands t l' sections phase := by
  cases phase with
  | before =>
      exact ⟨h.1, hsame.mem_names.not.mpr h.2.1, hsame.settled.not.mpr h.2.2⟩
  | admitted a =>
      exact ⟨h.1, (hsame.granted a).mpr h.2.1, hsame.settled.not.mpr h.2.2⟩
  | refused =>
      exact ⟨h.1, hsame.mem_names.not.mpr h.2⟩
  | settled =>
      exact ⟨h.1, hsame.settled.mpr h.2⟩

theorem stable_at
    (phase : Phase) (K : Told ν → Prop) :
    (recordedCircuit ν).Stable (Traces b mode ν) t (fun g => ∃ h, K h ∧ At t phase h g) := by
  refine .of_steps (fun e => nomatch e) ?_
  rintro u act g g' hne ⟨h, hK, hstands, htold⟩ hguar
  obtain ⟨hsame, hsections, htold'⟩ := hguar.others t hne.symm
  exact ⟨h, hK, hsections ▸ hstands.same hsame, htold'.trans htold⟩

/-! ## Questions -/

/-- A question that a call may ask in a phase. -/
def Allowed (q : Question) (phase : Phase) : Prop :=
  q.Outside ∧ (q = .operation → ∃ a, phase = .admitted a)

theorem traces_asked
    {q : Question} {phase : Phase} {h : Told ν} {g g' : CircuitRecord ν}
    (hq : Allowed q phase)
    (hat : At t phase h g)
    (hissue : (recordedCircuit ν).issue t q g = some g') :
    Traces b mode ν t (.asked q) g g' ∧ At t phase h g' := by
  obtain rfl := Option.some.inj hissue
  refine ⟨⟨⟨rfl, fun hop => ?_⟩, le_refl _, by rintro _ ⟨⟩, fun u _ => ⟨.refl _ _, rfl, rfl⟩⟩,
    hat⟩
  obtain ⟨a, rfl⟩ := hq.2 hop
  exact List.mem_map_of_mem (f := Prod.fst) hat.1.2.1

theorem traces_answered
    {q : Question} {phase : Phase} {h : Told ν} {g g' : CircuitRecord ν} {r : q.Answer ν}
    (hq : q.Outside)
    (hat : At t phase h g)
    (hanswer : (recordedCircuit ν).answer t q r g = some g') :
    Traces b mode ν t (.answered q r) g g' ∧ At t phase (⟨q, r⟩ :: h) g' := by
  have hworld : (circuitSystem ν).answer t q r g.world = some g.world := by
    cases q
    case wait | awaitWait => exact hq.elim
    all_goals rfl
  have hrecord : (recordedCircuit ν).answer t q r g =
      some { g with told := Function.update g.told t (⟨q, r⟩ :: g.told t) } :=
    congrArg (Option.map _) hworld
  obtain rfl := Option.some.inj (hrecord.symm.trans hanswer)
  refine ⟨⟨rfl, le_refl _, by rintro _ ⟨⟩, fun u hu => ⟨.refl _ _, rfl, ?_⟩⟩, hat.1, ?_⟩
  · exact Function.update_of_ne hu _ _
  · change Function.update g.told t (⟨q, r⟩ :: g.told t) t = _
    rw [Function.update_self, hat.2]

/-- A question, and the answer that the call is told. -/
theorem wp_told
    {q : Question} {phase : Phase} {K : Told ν → Prop} {g : CircuitRecord ν}
    (hq : Allowed q phase)
    (hat : ∃ h, K h ∧ At t phase h g) :
    (recordedCircuit ν).wp (Traces b mode ν) t
      (asking q : CircuitProg ν (q.Answer ν)).run
      (Outcome (fun r g => ∃ h, (∃ h', K h' ∧ h = ⟨q, r⟩ :: h') ∧ At t phase h g)
        (fun _ _ => False)) g := by
  refine System.wp_except_lift _ (System.wp_ask (stable_at phase K) (stable_at phase K) ?_ ?_ hat)
  · rintro g g' ⟨h, hK, hat⟩ hissue
    obtain ⟨hguar, hat'⟩ := traces_asked hq hat hissue
    exact ⟨hguar, h, hK, hat'⟩
  · rintro r g g' ⟨h, hK, hat⟩ hanswer
    obtain ⟨hguar, hat'⟩ := traces_answered hq.1 hat hanswer
    refine ⟨hguar, System.wp_ret
      (stable_at phase fun h => ∃ h', K h' ∧ h = ⟨q, r⟩ :: h') (fun g hg => ?_)
      ⟨_, ⟨h, hK, rfl⟩, hat'⟩⟩
    exact (stable_at phase fun h => ∃ h', K h' ∧ h = ⟨q, r⟩ :: h').stably hg

/-- The questions that leave a verdict as it is. -/
def Calm (q : Question) : Prop :=
  q.Outside ∧ q ≠ .operation ∧ q ≠ .clock

/-- The program has no sections and asks calm questions only. -/
def IsCalm {α : Type} (p : CircuitProg ν α) : Prop :=
  p.run.All (fun _ _ => False) Calm

theorem isCalm_emit
    (observed : Bool) (event : PolicyEvent) :
    IsCalm (emit observed event : CircuitProg ν Unit) := by
  cases observed with
  | false => trivial
  | true =>
      refine Proc.All.except_bind ⟨⟨trivial, by rintro ⟨⟩, by rintro ⟨⟩⟩, fun _ => trivial⟩ ?_
      rintro (e | ⟨⟩) <;> trivial

theorem isCalm_emitTransition
    (b : CircuitBreaker) (transition : Option Transition) (snapshot : CircuitSnapshot) :
    IsCalm (b.emitTransition transition snapshot : CircuitProg ν Unit) := by
  cases transition with
  | none => trivial
  | some change => exact isCalm_emit _ _

/-- A calm program leaves a call where it stands. -/
theorem wp_calm
    {α : Type} {p : CircuitProg ν α} {phase : Phase} {K : Told ν → Prop} {g : CircuitRecord ν}
    (hp : IsCalm p)
    (hK : ∀ q r h, Calm q → K h → K (⟨q, r⟩ :: h))
    (hat : ∃ h, K h ∧ At t phase h g) :
    (recordedCircuit ν).wp (Traces b mode ν) t p.run
      (Outcome (fun _ g => ∃ h, K h ∧ At t phase h g) (fun _ g => ∃ h, K h ∧ At t phase h g))
      g := by
  refine System.wp_mono p.run ?_
    (System.wp_of_all (stable_at phase K) (fun _ _ _ hfalse => hfalse.elim) ?_ ?_ hp hat)
  · rintro (e | a) g' hg
    · exact hg
    · exact hg
  · rintro q g g' hq ⟨h, hh, hat⟩ hissue
    obtain ⟨hguar, hat'⟩ := traces_asked ⟨hq.1, fun hop => absurd hop hq.2.1⟩ hat hissue
    exact ⟨hguar, h, hh, hat'⟩
  · rintro q r g g' hq ⟨h, hh, hat⟩ hanswer
    obtain ⟨hguar, hat'⟩ := traces_answered hq.1 hat hanswer
    exact ⟨hguar, _, hK q r h hq hh, hat'⟩

/-! ## Readings and verdicts -/

/-- What an asyncio call is told before a section; a synchronous one is told nothing. -/
def withLock : Mode → Told ν → Told ν
  | .sync, h => h
  | .async, h => ⟨.awaitLock, true⟩ :: h

theorem sectionReading_withLock
    (mode : Mode) (h : Told ν) :
    sectionReading mode (withLock mode h) = lastReading h := by
  cases mode with
  | sync => rfl
  | async => rfl

/-- A call that was told this can settle its admission without a verdict. -/
def Ignorable (b : CircuitBreaker) (mode : Mode) (h : Told ν) : Prop :=
  b.verdict mode (withLock mode h) = .ignored

theorem ignorable_of_no_reading
    {h : Told ν}
    (hreading : lastReading h = none) :
    Ignorable b mode h := by
  unfold Ignorable verdict
  rw [sectionReading_withLock, hreading]

theorem lastReading_of_ne_clock
    {q : Question} (r : q.Answer ν) (h : Told ν)
    (hq : q ≠ .clock) :
    lastReading (⟨q, r⟩ :: h) = none := by
  cases q
  case clock => exact absurd rfl hq
  all_goals rfl

theorem ignorable_cons
    {q : Question} (r : q.Answer ν) (h : Told ν)
    (hq : q ≠ .clock) :
    Ignorable b mode (⟨q, r⟩ :: h) :=
  ignorable_of_no_reading (lastReading_of_ne_clock r h hq)

theorem verdict_of_reading
    {now : ℚ} {h h' : Told ν}
    (hreading : lastReading h = some (now, h')) :
    b.verdict mode (withLock mode h) = b.classified mode h' := by
  unfold verdict
  rw [sectionReading_withLock, hreading]

/-- The clock is read, or the call was told nothing that counts. -/
theorem wp_readClock
    {phase : Phase} {K : Told ν → Prop} {g : CircuitRecord ν}
    (hat : ∃ h, K h ∧ At t phase h g) :
    (recordedCircuit ν).wp (Traces b mode ν) t (readClock : CircuitProg ν ℚ).run
      (Outcome
        (fun now g => ∃ h, (∃ h', K h' ∧ lastReading h = some (now, h')) ∧ At t phase h g)
        (fun _ g => ∃ h, lastReading h = none ∧ At t phase h g)) g := by
  have hallowed : Allowed .clock phase := ⟨trivial, by rintro ⟨⟩⟩
  refine wp_then _ _ (wp_told hallowed hat) (fun r g hg => ?_) (fun _ _ hfalse => hfalse.elim)
  obtain ⟨_, ⟨h', hK, rfl⟩, hat⟩ := hg
  have hraise : ∀ e : Raised, lastReading (⟨.clock, r⟩ :: h' : Told ν) = none →
      (recordedCircuit ν).wp (Traces b mode ν) t (throw e : CircuitProg ν ℚ).run
        (Outcome
          (fun now g => ∃ h, (∃ h', K h' ∧ lastReading h = some (now, h')) ∧ At t phase h g)
          (fun _ g => ∃ h, lastReading h = none ∧ At t phase h g)) g := by
    intro e hnone
    exact wp_throw (stable_at phase fun h => lastReading h = none) e (fun _ hg => hg)
      ⟨_, hnone, hat⟩
  match r with
  | .error e => exact hraise e rfl
  | .ok .notNumber => exact hraise _ rfl
  | .ok .notFinite => exact hraise _ rfl
  | .ok (.finite seconds) =>
      change (recordedCircuit ν).wp (Traces b mode ν) t
        (if seconds < 0 then throw _ else pure seconds : CircuitProg ν ℚ).run _ g
      split
      case isTrue hneg =>
        exact hraise _ (if_pos hneg)
      case isFalse hnonneg =>
        refine wp_return
          (stable_at phase fun h => ∃ h', K h' ∧ lastReading h = some (seconds, h')) seconds
          (fun _ hg => hg) ⟨⟨.clock, .ok (.finite seconds)⟩ :: h', ⟨h', hK, if_neg hnonneg⟩, hat⟩

/-! ## Sections -/

/-- What a caller was told before a section. -/
theorem wp_awaitLockOf
    {phase : Phase} {K : Told ν → Prop} {g : CircuitRecord ν}
    (hat : ∃ h, K h ∧ At t phase h g) :
    (recordedCircuit ν).wp (Traces b .async ν) t (awaitLock : CircuitProg ν Unit).run
      (Outcome (fun _ g => ∃ h, (∃ h', K h' ∧ h = withLock .async h') ∧ At t phase h g)
        (fun e g => e = .cancelled ∧ ∃ h, Ignorable b .async h ∧ At t phase h g)) g := by
  have hallowed : Allowed .awaitLock phase := ⟨trivial, by rintro ⟨⟩⟩
  refine wp_then _ _ (wp_told hallowed hat) (fun granted g hg => ?_)
    (fun _ _ hfalse => hfalse.elim)
  obtain ⟨_, ⟨h', hK, rfl⟩, hat⟩ := hg
  cases granted with
  | false =>
      exact wp_throw (stable_at phase (Ignorable b .async)) .cancelled (fun _ hg => ⟨rfl, hg⟩)
        ⟨_, ignorable_cons _ _ (by rintro ⟨⟩), hat⟩
  | true =>
      exact wp_return (stable_at phase fun h => ∃ h', K h' ∧ h = withLock .async h') ()
        (fun _ hg => hg) ⟨_, ⟨h', hK, rfl⟩, hat⟩

/-- Where the section of an admission leaves its caller. -/
def phaseOf (r : AdmitResult) : Phase :=
  match r.admission with
  | none => .refused
  | some a => .admitted a

/-- A section counts. -/
theorem sections_put
    (t : CircuitCaller) (w : CircuitWorld) (g : CircuitRecord ν) :
    g.sections t ≤ ((recordedCircuit ν).put t w g).sections t ∧
      0 < ((recordedCircuit ν).put t w g).sections t := by
  have hcount : ((recordedCircuit ν).put t w g).sections t = g.sections t + 1 :=
    Function.update_self t _ _
  omega

theorem wp_admitLocked
    {now : ℚ} {K : Told ν → Prop} {g : CircuitRecord ν}
    (hK : ∀ h, K h → ∃ h', sectionReading mode h = some (now, h'))
    (hat : ∃ h, K h ∧ At t .before h g) :
    (recordedCircuit ν).wp (Traces b mode ν) t
      (locked .admission (b.admitLocked t now) : CircuitProg ν AdmitResult).run
      (Outcome (fun r g => ∃ h, K h ∧ At t (phaseOf r) h g) (fun _ _ => False)) g := by
  refine wp_locked (stable_at .before K) (fun g hg => ?_) hat
  obtain ⟨h, hh, hstands, htold⟩ := hg
  obtain ⟨h', hreading⟩ := hK h hh
  obtain ⟨hle, hpositive⟩ := sections_put t (b.admitLocked t now g.world).2 g
  have hothers : ∀ u, u ≠ t →
      Ledger.SameFor u g.world.admissions (b.admitLocked t now g.world).2.admissions := by
    intro u hu
    change Ledger.SameFor u g.world.admissions
      (record t g.world (b.admitCall g.world.data now).1.1 _).admissions
    cases (b.admitCall g.world.data now).1.1 with
    | none => exact .refl u _
    | some a => exact .grant hu _ a
  refine ⟨⟨⟨hstands, now, h', htold ▸ hreading, rfl⟩, hle, fun _ _ => hpositive,
    fun u hu => ⟨hothers u hu, Function.update_of_ne hu _ _, rfl⟩⟩, ?_⟩
  refine (stable_at (phaseOf _) K).stably ⟨h, hh, ?_, htold⟩
  change Stands t (record t g.world (b.admitCall g.world.data now).1.1 _).admissions
    (Function.update g.sections t (g.sections t + 1) t)
    (match (b.admitCall g.world.data now).1.1 with
      | none => .refused
      | some a => .admitted a)
  cases (b.admitCall g.world.data now).1.1 with
  | none => exact ⟨hpositive, hstands.2.1⟩
  | some a => exact ⟨hpositive, List.mem_cons_self, hstands.2.2⟩

/-- A section that applies the verdict on the caller. -/
theorem wp_settleLocked
    {a : Admission} (now : ℚ) {K : Told ν → Prop} {g : CircuitRecord ν}
    {update : CircuitData → Option Transition × CircuitData}
    (hupdate : ∀ h d, K h → (update d).2 = b.apply a now d (b.verdict mode h))
    (hat : ∃ h, K h ∧ At t (.admitted a) h g) :
    (recordedCircuit ν).wp (Traces b mode ν) t
      (locked .settle (b.settleLocked t update) : CircuitProg ν SettleResult).run
      (Outcome (fun _ g => ∃ h, True ∧ At t .settled h g) (fun _ _ => False)) g := by
  refine wp_locked (stable_at (.admitted a) K) (fun g hg => ?_) hat
  obtain ⟨h, hK, hstands, htold⟩ := hg
  obtain ⟨hle, hpositive⟩ := sections_put t (b.settleLocked t update g.world).2 g
  refine ⟨⟨⟨a, now, hstands, ?_⟩, hle, fun _ _ => hpositive,
    fun u hu => ⟨.settle hu _, Function.update_of_ne hu _ _, rfl⟩⟩, ?_⟩
  · rw [htold, ← hupdate h g.world.data hK]
    rfl
  · exact (stable_at .settled _).stably
      ⟨h, trivial, ⟨hpositive, List.mem_cons_self⟩, htold⟩

/-! ## The parts of a call -/

/-- The caller's admission is settled. -/
def Done (t : CircuitCaller) (g : CircuitRecord ν) : Prop :=
  ∃ h, True ∧ At t .settled h g

theorem stable_done :
    (recordedCircuit ν).Stable (Traces b mode ν) t (Done t) :=
  stable_at .settled fun _ => True

/-- A clean-up that settles an admission without a verdict and raises. -/
def CleansUp (b : CircuitBreaker) (mode : Mode) (t : CircuitCaller) (cleanUp : CleanUp ν) :
    Prop :=
  ∀ α a e g, (∃ h, Ignorable b mode h ∧ At t (.admitted a) h g) →
    (recordedCircuit ν).wp (Traces b mode ν) t (cleanUp α a e).run
      (Outcome (fun _ _ => False) (fun _ => Done t)) g

/-- A way to settle an admission by the verdict on it. -/
def SettlesBy (b : CircuitBreaker) (mode : Mode) (t : CircuitCaller) (settle : Settle ν) :
    Prop :=
  ∀ a update now (K : Told ν → Prop) g,
    (∀ h d, K h → (update d).2 = b.apply a now d (b.verdict mode (withLock mode h))) →
    (∃ h, K h ∧ At t (.admitted a) h g) →
    (recordedCircuit ν).wp (Traces b mode ν) t (settle a (b.settleLocked t update)).run
      (Outcome (fun _ => Done t) (fun _ => Done t)) g

/-- The events after a settlement. -/
theorem wp_done
    {α : Type} {p : CircuitProg ν α} {g : CircuitRecord ν}
    (hp : IsCalm p)
    (hdone : Done t g) :
    (recordedCircuit ν).wp (Traces b mode ν) t p.run (fun _ => Done t) g := by
  refine System.wp_mono _ ?_ (wp_calm hp (fun _ _ _ _ hK => hK) hdone)
  rintro (e | x) g hg
  · exact hg
  · exact hg

section Parts

variable {cleanUp : CleanUp ν} {settle : Settle ν} {a : Admission} {g : CircuitRecord ν}

/-- A program with the clean-up as its handler. -/
theorem wp_orCleanUp
    {α : Type} {p : CircuitProg ν α} {K : α → Told ν → Prop}
    (hcleanUp : CleansUp b mode t cleanUp)
    (hp : (recordedCircuit ν).wp (Traces b mode ν) t p.run
      (Outcome (fun x g => ∃ h, K x h ∧ At t (.admitted a) h g)
        (fun _ g => ∃ h, Ignorable b mode h ∧ At t (.admitted a) h g)) g) :
    (recordedCircuit ν).wp (Traces b mode ν) t (tryCatch p (cleanUp α a)).run
      (Outcome (fun x g => ∃ h, K x h ∧ At t (.admitted a) h g) (fun _ => Done t)) g := by
  refine wp_catch _ _ hp (fun x g hg => (stable_at (.admitted a) (K x)).stably hg)
    (fun e g hg => ?_)
  refine System.wp_mono _ ?_ (hcleanUp α a e g hg)
  rintro (e | x) g hg
  · exact hg
  · exact hg.elim

/-- The clock, with the clean-up as its handler. -/
theorem wp_readClockOr
    {K : Told ν → Prop}
    (hcleanUp : CleansUp b mode t cleanUp)
    (hat : ∃ h, K h ∧ At t (.admitted a) h g) :
    (recordedCircuit ν).wp (Traces b mode ν) t (tryCatch readClock (cleanUp ℚ a)).run
      (Outcome
        (fun now g => ∃ h, (∃ h', K h' ∧ lastReading h = some (now, h')) ∧
          At t (.admitted a) h g)
        (fun _ => Done t)) g := by
  refine wp_orCleanUp hcleanUp (System.wp_mono _ ?_ (wp_readClock hat))
  rintro (e | now) g hg
  · obtain ⟨h, hnone, hat⟩ := hg
    exact ⟨h, ignorable_of_no_reading hnone, hat⟩
  · exact hg

theorem wp_settleSuccess
    {result : ν}
    (hcleanUp : CleansUp b mode t cleanUp)
    (hsettle : SettlesBy b mode t settle)
    (hat : ∃ h, (∃ h', h = ⟨.operation, .ok result⟩ :: h') ∧ At t (.admitted a) h g) :
    (recordedCircuit ν).wp (Traces b mode ν) t
      (b.settleSuccess t cleanUp settle a result).run (fun _ => Done t) g := by
  refine wp_then _ _ (wp_readClockOr hcleanUp hat) (fun now g hg => ?_)
    (fun _ _ hg => stable_done.stably hg)
  refine wp_then _ _ (hsettle a _ now _ g ?_ hg) (fun settled g hg => ?_)
    (fun _ _ hg => stable_done.stably hg)
  · rintro h d ⟨_, ⟨h', rfl⟩, hreading⟩
    rw [verdict_of_reading hreading]
    rfl
  · refine wp_done ?_ hg
    exact Proc.All.except_bind (isCalm_emitTransition _ _ _) fun _ =>
      Proc.All.except_bind (isCalm_emit _ _) fun _ => trivial

/-- The verdict of the failure predicate, if there is one. -/
theorem wp_classify
    {error : Raised} (herror : error.isClassified mode = true)
    (hat : ∃ h, (∃ h', h = ⟨.operation, .error error⟩ :: h') ∧ At t (.admitted a) h g) :
    (recordedCircuit ν).wp (Traces b mode ν) t (b.classify error : CircuitProg ν Bool).run
      (Outcome
        (fun counts g => ∃ h, b.classified mode h = (if counts then .failed else .ignored) ∧
          At t (.admitted a) h g)
        (fun _ g => ∃ h, Ignorable b mode h ∧ At t (.admitted a) h g)) g := by
  unfold classify
  split
  case isTrue hpredicate =>
    have hallowed : Allowed (.classify error) (.admitted a) := ⟨trivial, by rintro ⟨⟩⟩
    refine wp_then _ _ (wp_told hallowed hat) (fun r g hg => ?_) (fun _ _ hfalse => hfalse.elim)
    obtain ⟨h, hh, hat⟩ := hg
    obtain ⟨h', -, rfl⟩ := hh
    have hraise : ∀ e : Raised, (recordedCircuit ν).wp (Traces b mode ν) t
        (throw e : CircuitProg ν Bool).run
        (Outcome
          (fun counts g => ∃ h, b.classified mode h = (if counts then .failed else .ignored) ∧
            At t (.admitted a) h g)
          (fun _ g => ∃ h, Ignorable b mode h ∧ At t (.admitted a) h g)) g := fun e =>
      wp_throw (stable_at (.admitted a) (Ignorable b mode)) e (fun _ hg => hg)
        ⟨_, ignorable_cons _ _ (by rintro ⟨⟩), hat⟩
    match r with
    | .error e => exact hraise e
    | .ok none => exact hraise _
    | .ok (some counts) =>
        refine wp_return (stable_at (.admitted a) fun h =>
          b.classified mode h = (if counts then .failed else .ignored)) counts
          (fun _ hg => hg) ⟨⟨.classify error, .ok (some counts)⟩ :: h', ?_, hat⟩
        cases counts with
        | false => rfl
        | true => rfl
  case isFalse hpredicate =>
    obtain ⟨_, ⟨h', rfl⟩, hat⟩ := hat
    refine wp_return (stable_at (.admitted a) fun h => b.classified mode h = .failed) true
      (fun _ hg => hg) ⟨⟨.operation, .error error⟩ :: h', ?_, hat⟩
    simp [classified, herror, hpredicate]

theorem wp_settleFailure
    {error : Raised}
    (herror : error.isClassified mode = true)
    (hcleanUp : CleansUp b mode t cleanUp)
    (hsettle : SettlesBy b mode t settle)
    (hat : ∃ h, (∃ h', h = ⟨.operation, .error error⟩ :: h') ∧ At t (.admitted a) h g) :
    (recordedCircuit ν).wp (Traces b mode ν) t
      (b.settleFailure t cleanUp settle a error).run (fun _ => Done t) g := by
  refine wp_then _ _ (wp_orCleanUp hcleanUp (wp_classify herror hat)) (fun counts g hg => ?_)
    (fun _ _ hg => stable_done.stably hg)
  refine wp_then _ _ (wp_readClockOr hcleanUp hg) (fun now g hg => ?_)
    (fun _ _ hg => stable_done.stably hg)
  refine wp_then _ _ (hsettle a _ now _ g ?_ hg) (fun settled g hg => ?_)
    (fun _ _ hg => stable_done.stably hg)
  · rintro h d ⟨h', hclassified, hreading⟩
    rw [verdict_of_reading hreading, hclassified]
    cases counts with
    | false => rfl
    | true => rfl
  · refine wp_done ?_ hg
    exact Proc.All.except_bind (isCalm_emitTransition _ _ _) fun _ =>
      Proc.All.except_bind (isCalm_emit _ _) fun _ => trivial

/-- The first events; a refused call ends here. -/
theorem wp_announceOrCleanUp
    {r : AdmitResult}
    (hcleanUp : CleansUp b mode t cleanUp)
    (hat : ∃ h, Ignorable b mode h ∧ At t (phaseOf r) h g) :
    (recordedCircuit ν).wp (Traces b mode ν) t (b.announceOrCleanUp cleanUp r).run
      (Outcome (fun a g => ∃ h, True ∧ At t (.admitted a) h g) (fun _ _ => True)) g := by
  obtain ⟨admission, transition, snapshot⟩ := r
  have hcalm : ∀ (q : Question) (r : q.Answer ν) (h : Told ν), Calm q →
      Ignorable b mode h → Ignorable b mode (⟨q, r⟩ :: h) :=
    fun _ r h hq _ => ignorable_cons r h hq.2.2
  cases admission with
  | none =>
      refine wp_catch (fun _ _ => False) (fun _ g => ∃ h, Ignorable b mode h ∧ At t .refused h g)
        ?_ (fun _ _ hfalse => hfalse.elim)
        (fun e g hg => wp_throw (stable_at .refused (Ignorable b mode)) e (fun _ _ => trivial) hg)
      refine wp_then _ _ (wp_calm (isCalm_emitTransition _ _ _) hcalm hat) (fun _ g hg => ?_)
        (fun _ _ hg => (stable_at .refused (Ignorable b mode)).stably hg)
      refine wp_then _ _ (wp_calm (isCalm_emit _ _) hcalm hg) (fun _ g hg => ?_)
        (fun _ _ hg => (stable_at .refused (Ignorable b mode)).stably hg)
      exact wp_throw (stable_at .refused (Ignorable b mode)) _ (fun _ hg => hg) hg
  | some a =>
      refine wp_catch (fun a' g => a' = a ∧ ∃ h, Ignorable b mode h ∧ At t (.admitted a) h g)
        (fun _ g => ∃ h, Ignorable b mode h ∧ At t (.admitted a) h g) ?_ ?_ ?_
      · refine wp_then _ _ (wp_calm (isCalm_emitTransition _ _ _) hcalm hat) (fun _ g hg => ?_)
          (fun _ _ hg => (stable_at (.admitted a) (Ignorable b mode)).stably hg)
        refine wp_then _ _ (wp_calm (isCalm_emit _ _) hcalm hg) (fun _ g hg => ?_)
          (fun _ _ hg => (stable_at (.admitted a) (Ignorable b mode)).stably hg)
        exact wp_return (stable_at (.admitted a) (Ignorable b mode)) a
          (fun _ hg => ⟨rfl, hg⟩) hg
      · rintro a' g ⟨rfl, h, -, hat⟩
        exact (stable_at (.admitted a') fun _ => True).stably ⟨h, trivial, hat⟩
      · intro e g hg
        refine System.wp_mono _ ?_ (hcleanUp Admission a e g hg)
        rintro (e | x) g hg
        · trivial
        · exact hg.elim

/-- A clean-up leaves the admission settled. -/
theorem wp_cleanUp
    {α : Type} (hcleanUp : CleansUp b mode t cleanUp) (e : Raised)
    (hat : ∃ h, Ignorable b mode h ∧ At t (.admitted a) h g) :
    (recordedCircuit ν).wp (Traces b mode ν) t (cleanUp α a e).run (fun _ => Done t) g := by
  refine System.wp_mono _ ?_ (hcleanUp α a e g hat)
  rintro (e | x) g hg
  · exact hg
  · exact hg.elim

/-- `call` after its admission section. -/
theorem wp_afterAdmission
    {finish : Admission → Except Raised ν → CircuitProg ν ν} {r : AdmitResult}
    (hcleanUp : CleansUp b mode t cleanUp)
    (hfinish : ∀ a outcome g,
      (∃ h, (∃ h', h = ⟨.operation, outcome⟩ :: h') ∧ At t (.admitted a) h g) →
      (recordedCircuit ν).wp (Traces b mode ν) t (finish a outcome).run (fun _ => Done t) g)
    (hat : ∃ h, Ignorable b mode h ∧ At t (phaseOf r) h g) :
    (recordedCircuit ν).wp (Traces b mode ν) t
      (do
        let a ← b.announceOrCleanUp cleanUp r
        finish a (← asking .operation) : CircuitProg ν ν).run
      (fun _ _ => True) g := by
  refine wp_then _ _ (wp_announceOrCleanUp hcleanUp hat) (fun a g hg => ?_)
    (fun _ _ _ _ _ => trivial)
  refine wp_then _ _ (wp_told ⟨trivial, fun _ => ⟨a, rfl⟩⟩ hg) (fun outcome g hg => ?_)
    (fun _ _ hfalse => hfalse.elim)
  obtain ⟨h, ⟨h', -, rfl⟩, hat⟩ := hg
  exact System.wp_mono _ (fun _ _ _ => trivial) (hfinish a outcome g ⟨_, ⟨h', rfl⟩, hat⟩)

end Parts

/-! ## The two breakers -/

section Calls

variable {a : Admission} {g : CircuitRecord ν}

/-- A release settles the admission without a verdict. -/
theorem wp_release
    {K : Told ν → Prop}
    (hK : ∀ h, K h → b.verdict mode h = .ignored)
    (hat : ∃ h, K h ∧ At t (.admitted a) h g) :
    (recordedCircuit ν).wp (Traces b mode ν) t (b.release t a : CircuitProg ν _).run
      (Outcome (fun _ => Done t) (fun _ _ => False)) g := by
  refine wp_settleLocked 0 (fun h d hh => ?_) hat
  rw [hK h hh]
  rfl

theorem cleansUp_releaseAndRaise :
    CleansUp b .sync t (b.releaseAndRaise t : CleanUp ν) := by
  intro α a e g hat
  refine wp_then _ _ (wp_release (fun _ hh => hh) hat) (fun _ g hg => ?_)
    (fun _ _ hfalse => hfalse.elim)
  exact wp_throw stable_done e (fun _ hg => hg) hg

theorem settlesBy_settleNow :
    SettlesBy b .sync t (settleNow : Settle ν) := by
  intro a update now K g hupdate hat
  refine System.wp_mono _ ?_ (wp_settleLocked now hupdate hat)
  rintro (e | x) g hg
  · exact hg.elim
  · exact hg

/-- The synchronous call after its operation. -/
theorem wp_finish
    (outcome : Except Raised ν)
    (hat : ∃ h, (∃ h', h = ⟨.operation, outcome⟩ :: h') ∧ At t (.admitted a) h g) :
    (recordedCircuit ν).wp (Traces b .sync ν) t (b.finish t a outcome).run
      (fun _ => Done t) g := by
  have hignorable : ∃ h, Ignorable b .sync h ∧ At t (.admitted a) h g := by
    obtain ⟨_, ⟨h', rfl⟩, hat⟩ := hat
    exact ⟨_, ignorable_cons _ _ (by rintro ⟨⟩), hat⟩
  unfold finish
  split
  case h_1 result =>
    exact wp_settleSuccess cleansUp_releaseAndRaise settlesBy_settleNow hat
  case h_2 =>
    exact wp_cleanUp cleansUp_releaseAndRaise _ hignorable
  case h_3 error hcontract =>
    split
    case isTrue hexception =>
      have herror : error.isClassified .sync = true := by
        have hne : error ≠ .syncResultContract := fun heq => hcontract (heq ▸ rfl)
        simp [Raised.isClassified, hexception, hne]
      exact wp_settleFailure herror cleansUp_releaseAndRaise settlesBy_settleNow hat
    case isFalse =>
      exact wp_cleanUp cleansUp_releaseAndRaise _ hignorable

/-- The release of an asyncio call is done, or it was cancelled before. -/
theorem wp_asyncRelease
    (hat : ∃ h, Ignorable b .async h ∧ At t (.admitted a) h g) :
    (recordedCircuit ν).wp (Traces b .async ν) t (b.asyncRelease t a : CircuitProg ν _).run
      (Outcome (fun _ => Done t)
        (fun e g => e = .cancelled ∧ ∃ h, Ignorable b .async h ∧ At t (.admitted a) h g)) g := by
  refine wp_then _ _ (wp_awaitLockOf hat) (fun _ g hg => ?_) ?_
  · refine System.wp_mono _ ?_ (wp_release ?_ hg)
    · rintro (e | x) g hg
      · exact hg.elim
      · exact hg
    · rintro h ⟨h', hignorable, rfl⟩
      exact hignorable
  · rintro e g ⟨rfl, hg⟩
    exact System.Stably.mono (fun _ hg => ⟨rfl, hg⟩)
      ((stable_at (.admitted a) (Ignorable b .async)).stably hg)

theorem cleansUp_asyncReleaseAndRaise :
    CleansUp b .async t (b.asyncReleaseAndRaise t : CleanUp ν) := by
  intro α a e g hat
  refine wp_then _ _ (wp_preservingCancellation (stable_at (.admitted a) _) stable_done
    (fun _ hg => wp_asyncRelease hg) hat) (fun released g hg => ?_) (fun _ _ hfalse => hfalse.elim)
  obtain ⟨snapshot, cancelled⟩ := released
  cases cancelled with
  | false => exact wp_throw stable_done e (fun _ hg => hg) hg
  | true => exact wp_throw stable_done .cancelled (fun _ hg => hg) hg

theorem settlesBy_asyncSettle :
    SettlesBy b .async t (b.asyncSettle t : Settle ν) := by
  intro a update now K g hupdate hat
  refine wp_catch (fun _ => Done t)
    (fun _ g => ∃ h, Ignorable b .async h ∧ At t (.admitted a) h g) ?_
    (fun _ _ hg => stable_done.stably hg) (fun e g hg => ?_)
  · refine wp_then _ _ (wp_awaitLockOf hat) (fun _ g hg => ?_) ?_
    · refine System.wp_mono _ ?_ (wp_settleLocked now ?_ hg)
      · rintro (e | x) g hg
        · exact hg.elim
        · exact hg
      · rintro h d ⟨h', hh, rfl⟩
        exact hupdate h' d hh
    · rintro e g ⟨-, hg⟩
      exact (stable_at (.admitted a) (Ignorable b .async)).stably hg
  · refine System.wp_mono _ ?_ (cleansUp_asyncReleaseAndRaise SettleResult a e g hg)
    rintro (e | x) g hg
    · exact hg
    · exact hg.elim

/-- The asyncio call after its operation. -/
theorem wp_asyncFinish
    (outcome : Except Raised ν)
    (hat : ∃ h, (∃ h', h = ⟨.operation, outcome⟩ :: h') ∧ At t (.admitted a) h g) :
    (recordedCircuit ν).wp (Traces b .async ν) t (b.asyncFinish t a outcome).run
      (fun _ => Done t) g := by
  have hignorable : ∃ h, Ignorable b .async h ∧ At t (.admitted a) h g := by
    obtain ⟨_, ⟨h', rfl⟩, hat⟩ := hat
    exact ⟨_, ignorable_cons _ _ (by rintro ⟨⟩), hat⟩
  unfold asyncFinish
  split
  case h_1 result =>
    exact wp_settleSuccess cleansUp_asyncReleaseAndRaise settlesBy_asyncSettle hat
  case h_2 error =>
    split
    case isTrue hexception =>
      have herror : error.isClassified .async = true := by
        simp [Raised.isClassified, hexception]
      exact wp_settleFailure herror cleansUp_asyncReleaseAndRaise settlesBy_asyncSettle hat
    case isFalse =>
      exact wp_cleanUp cleansUp_asyncReleaseAndRaise _ hignorable

theorem wp_checkOperation
    (hat : ∃ h, True ∧ At t .before h g) :
    (recordedCircuit ν).wp (Traces b mode ν) t (checkOperation : CircuitProg ν Unit).run
      (Outcome (fun _ g => ∃ h, b.classified mode h = .ignored ∧ At t .before h g)
        (fun _ _ => True)) g := by
  refine wp_then _ _ (wp_told ⟨trivial, by rintro ⟨⟩⟩ hat) (fun r g hg => ?_)
    (fun _ _ hfalse => hfalse.elim)
  obtain ⟨h, ⟨h', -, rfl⟩, hat⟩ := hg
  have hstable : (recordedCircuit ν).Stable (Traces b mode ν) t
      (fun g => ∃ h, b.classified mode h = .ignored ∧ At t .before h g) :=
    stable_at .before _
  cases r with
  | error e => exact wp_throw hstable e (fun _ _ => trivial) ⟨_, rfl, hat⟩
  | ok => exact wp_return hstable () (fun _ hg => hg) ⟨_, rfl, hat⟩

theorem wp_call
    (hat : ∃ h, True ∧ At t .before h g) :
    (recordedCircuit ν).wp (Traces b .sync ν) t (b.call t : CircuitProg ν ν).run
      (fun _ _ => True) g := by
  refine wp_then _ _ (wp_checkOperation hat) (fun _ g hg => ?_) (fun _ _ _ _ _ => trivial)
  refine wp_then _ _ (wp_readClock hg) (fun now g hg => ?_) (fun _ _ _ _ _ => trivial)
  refine wp_then _ _ (wp_admitLocked ?_ hg) (fun r g hg => ?_) (fun _ _ hfalse => hfalse.elim)
  · rintro h ⟨h', -, hreading⟩
    exact ⟨h', hreading⟩
  · obtain ⟨h, ⟨h', hignored, hreading⟩, hat⟩ := hg
    refine wp_afterAdmission cleansUp_releaseAndRaise
      (fun a outcome _ => wp_finish outcome) ⟨h, ?_, hat⟩
    exact (verdict_of_reading hreading).trans hignored

theorem wp_asyncCall
    (hat : ∃ h, True ∧ At t .before h g) :
    (recordedCircuit ν).wp (Traces b .async ν) t (b.asyncCall t : CircuitProg ν ν).run
      (fun _ _ => True) g := by
  refine wp_then _ _ (wp_checkOperation hat) (fun _ g hg => ?_) (fun _ _ _ _ _ => trivial)
  refine wp_then _ _ (wp_readClock hg) (fun now g hg => ?_) (fun _ _ _ _ _ => trivial)
  refine wp_then _ _ (wp_awaitLockOf hg) (fun _ g hg => ?_) (fun _ _ _ _ _ => trivial)
  refine wp_then _ _ (wp_admitLocked ?_ hg) (fun r g hg => ?_) (fun _ _ hfalse => hfalse.elim)
  · rintro _ ⟨h', ⟨h'', -, hreading⟩, rfl⟩
    exact ⟨h'', (sectionReading_withLock .async h').trans hreading⟩
  · obtain ⟨_, ⟨h', -, rfl⟩, hat⟩ := hg
    exact wp_afterAdmission cleansUp_asyncReleaseAndRaise
      (fun a outcome _ => wp_asyncFinish outcome) ⟨_, ignorable_cons _ _ (by rintro ⟨⟩), hat⟩

end Calls

/-! ## Runs -/

/-- Every call keeps to its guarantee. -/
theorem traces_pool
    (b : CircuitBreaker) (mode : Mode) (ν : Type) :
    System.Pool.Sound (recordedCircuit ν) (Traces b mode ν) (fun _ _ _ => True)
      (b.pool mode ν).recorded := by
  intro t
  have hstart : ∃ h, True ∧ At t .before h (b.pool mode ν).recorded.world :=
    ⟨[], trivial, ⟨rfl, List.not_mem_nil, List.not_mem_nil⟩, rfl⟩
  cases mode with
  | sync => exact wp_call hstart
  | async => exact wp_asyncCall hstart

end Reported
end CircuitBreaker
end Resilience
end Bluetape
