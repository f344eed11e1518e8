import Bluetape.Base.Evaluation
import Bluetape.LeaderRedis.AcquisitionSoundness
import Bluetape.LeaderRedis.AsyncAcquisition

/-!
# The attempts of an acquisition

A lock that stays contended: every attempt is told so, a pause lasts between 40 and 60
milliseconds unless the budget ends before, and the clock advances by every sleep at least.
Both acquisition loops then end without a lease, after a bounded number of attempts.

* `Ready`: what holds whenever a loop goes round;
* `acquire_attempts_bounded`: the two loops.
-/

namespace Bluetape
namespace LeaderRedis

open Base Proc Dialogue

/-! ## Histories -/

/-- What a call has asked and been answered, newest first. -/
abbrev Exchanges :=
  History HandleQuestion.Answer

/-- The question dispatches an attempt. -/
def isAttempt : HandleQuestion → Bool
  | .evalsha _ => true
  | _ => false

/-- The attempts that were dispatched. -/
def attempts (h : Exchanges) : Nat :=
  h.countP fun e => isAttempt e.1

/-- The readings of a clock with ticks of so many seconds, newest first. -/
def readings (tick : ℚ) : Exchanges → List ℚ
  | [] => []
  | ⟨.monotonicNs, n⟩ :: h => ((n : Int) : ℚ) * tick :: readings tick h
  | _ :: h => readings tick h

/-- A clock that advances by every sleep at least can read this after the history. -/
def NotBefore (tick : ℚ) : Exchanges → ℚ → Prop
  | [], _ => True
  | ⟨.monotonicNs, n⟩ :: _, t => ((n : Int) : ℚ) * tick ≤ t
  | ⟨.sleep seconds, _⟩ :: h, t => NotBefore tick h (t - seconds)
  | _ :: h, t => NotBefore tick h t

/-- The lock is contended at every attempt. -/
structure Contention (tick : ℚ)
    (oracle : Exchanges → (q : HandleQuestion) → q.Answer) : Prop where
  evalsha : ∀ h call, oracle h (.evalsha call) = .noScript ∨
    oracle h (.evalsha call) = .reply Reply.contended.wire
  eval : ∀ h call, oracle h (.eval call) = .reply Reply.contended.wire
  jitter : ∀ h, ∃ delay : ℚ, oracle h .jitter = some delay ∧
    4 / 100 ≤ delay ∧ delay ≤ 6 / 100
  clock : ∀ h, NotBefore tick h ((oracle h .monotonicNs : Int) * tick)

/--
What may be asked after a history: every attempt but the first one before the deadline, and
no sleep beyond what the last reading has left of the budget.
-/
def Allowed (tick wait : ℚ) (h : Exchanges) : HandleQuestion → Prop
  | .evalsha _ => 1 ≤ attempts h → ∃ start now, (readings tick h).getLast? = some start ∧
      (readings tick h).head? = some now ∧ now < start + wait
  | .sleep seconds => ∃ start now, (readings tick h).getLast? = some start ∧
      (readings tick h).head? = some now ∧ seconds ≤ start + wait - now
  | _ => True

/-- The attempts that a budget has room for. -/
def attemptLimit (wait : ℚ) : Nat :=
  max 1 ⌈wait / (4 / 100)⌉₊

/-- The call has kept to its budget. -/
structure Bounded (tick wait : ℚ) (h : Exchanges) : Prop where
  permitted : Dialogue.Permitted (Allowed tick wait) h
  first : 1 ≤ attempts h
  bound : attempts h ≤ attemptLimit wait

/-! ## The invariant of the loops -/

section Invariant

variable {tick wait start : ℚ} {k : Nat} {h : Exchanges}

/-- After so many attempts, the clock has reached the deadline or gone on by the pauses. -/
structure Ready (tick wait start : ℚ) (k : Nat) (h : Exchanges) : Prop where
  permitted : Dialogue.Permitted (Allowed tick wait) h
  started : (readings tick h).getLast? = some start
  attempts_eq : attempts h = k
  bound : k ≤ attemptLimit wait
  later : ∀ t, NotBefore tick h t → start + wait ≤ t ∨ start + k * (4 / 100) ≤ t

/-- An attempt has been dispatched after so many others. -/
structure Attempted (tick wait start : ℚ) (k : Nat) (h : Exchanges) : Prop where
  permitted : Dialogue.Permitted (Allowed tick wait) h
  started : (readings tick h).getLast? = some start
  attempts_eq : attempts h = k + 1
  bound : k + 1 ≤ attemptLimit wait
  later : ∀ t, NotBefore tick h t → start + k * (4 / 100) ≤ t

@[simp] theorem attempts_evalsha
    (call : Call) (answer : ScriptAnswer) (h : Exchanges) :
    attempts (⟨.evalsha call, answer⟩ :: h) = attempts h + 1 := by
  simp [attempts, isAttempt]

@[simp] theorem attempts_eval
    (call : Call) (answer : ScriptAnswer) (h : Exchanges) :
    attempts (⟨.eval call, answer⟩ :: h) = attempts h := by
  simp [attempts, isAttempt]

@[simp] theorem attempts_monotonicNs
    (n : Int) (h : Exchanges) :
    attempts (⟨.monotonicNs, n⟩ :: h) = attempts h := by
  simp [attempts, isAttempt]

@[simp] theorem attempts_jitter
    (delay : Option ℚ) (h : Exchanges) :
    attempts (⟨.jitter, delay⟩ :: h) = attempts h := by
  simp [attempts, isAttempt]

@[simp] theorem attempts_sleep
    (seconds : ℚ) (h : Exchanges) :
    attempts (⟨.sleep seconds, ()⟩ :: h) = attempts h := by
  simp [attempts, isAttempt]

/-- The clock may be read at any time. -/
theorem permitted_monotonicNs
    (hpermitted : Dialogue.Permitted (Allowed tick wait) h) (n : Int) :
    Dialogue.Permitted (Allowed tick wait) (⟨.monotonicNs, n⟩ :: h) :=
  hpermitted.cons (show Allowed tick wait h .monotonicNs from trivial) n

theorem getLast?_cons_of_some
    {α : Type} {a b : α} {l : List α}
    (h : l.getLast? = some b) :
    (a :: l).getLast? = some b := by
  cases l with
  | nil =>
      cases h
  | cons c l =>
      rw [List.getLast?_cons_cons, h]

/-- A loop that finds its deadline reached has kept to the budget. -/
theorem Ready.bounded
    (hready : Ready tick wait start k h)
    (hk : 1 ≤ k) (n : Int) :
    Bounded tick wait (⟨.monotonicNs, n⟩ :: h) where
  permitted := permitted_monotonicNs hready.permitted n
  first := by
    rwa [attempts_monotonicNs, hready.attempts_eq]
  bound := by
    rw [attempts_monotonicNs, hready.attempts_eq]
    exact hready.bound

/-- The loops start when the clock has been read. -/
theorem ready_zero
    (n : Int) :
    Ready tick wait (n * tick) 0 [⟨.monotonicNs, n⟩] where
  permitted := permitted_monotonicNs permitted_nil n
  started := rfl
  attempts_eq := attempts_monotonicNs n []
  bound := Nat.zero_le _
  later := by
    intro t ht
    right
    push_cast
    linarith [show (n : ℚ) * tick ≤ t from ht]

/-- The next attempt starts before the deadline, or it is the first one. -/
theorem Ready.attempt
    (hwait : 0 ≤ wait)
    (hready : Ready tick wait start k h)
    {n : Int}
    (hclock : NotBefore tick h (n * tick))
    (hopen : ¬ (1 ≤ k ∧ start + wait ≤ n * tick))
    (call : Call) (answer : ScriptAnswer) :
    Attempted tick wait start k (⟨.evalsha call, answer⟩ :: ⟨.monotonicNs, n⟩ :: h) := by
  have hreading : start + k * (4 / 100) ≤ n * tick := by
    rcases hready.later _ hclock with hdeadline | hlater
    · have hk : k = 0 := by
        by_contra hne
        exact hopen ⟨Nat.one_le_iff_ne_zero.mpr hne, hdeadline⟩
      subst hk
      push_cast
      linarith
    · exact hlater
  have hbefore : 1 ≤ k → (n : ℚ) * tick < start + wait := by
    intro hk
    by_contra hle
    exact hopen ⟨hk, not_lt.mp hle⟩
  refine ⟨?_, getLast?_cons_of_some hready.started, ?_, ?_, fun t ht => hreading.trans ht⟩
  · have hallowed : Allowed tick wait (⟨.monotonicNs, n⟩ :: h) (.evalsha call) := by
      intro hk
      rw [attempts_monotonicNs, hready.attempts_eq] at hk
      exact ⟨start, _, getLast?_cons_of_some hready.started, rfl, hbefore hk⟩
    exact (permitted_monotonicNs hready.permitted n).cons hallowed answer
  · rw [attempts_evalsha, attempts_monotonicNs, hready.attempts_eq]
  · rcases Nat.eq_zero_or_pos k with rfl | hk
    · exact le_max_left _ _
    · have hlt : (k : ℚ) < wait / (4 / 100) := by
        rw [lt_div_iff₀ (by norm_num)]
        linarith [hbefore hk]
      exact le_max_of_le_right (Nat.lt_ceil.mpr hlt)

/-- The fallback of an attempt is no other attempt. -/
theorem Attempted.eval
    (hattempted : Attempted tick wait start k h)
    (call : Call) (answer : ScriptAnswer) :
    Attempted tick wait start k (⟨.eval call, answer⟩ :: h) where
  permitted := hattempted.permitted.cons (show Allowed tick wait h (.eval call) from trivial) answer
  started := hattempted.started
  attempts_eq := by
    rw [attempts_eval, hattempted.attempts_eq]
  bound := hattempted.bound
  later := hattempted.later

/-- A contended attempt that ends after the deadline is the last one. -/
theorem Attempted.bounded
    (hattempted : Attempted tick wait start k h) (n : Int) :
    Bounded tick wait (⟨.monotonicNs, n⟩ :: h) := by
  have hattempts : attempts (⟨.monotonicNs, n⟩ :: h) = k + 1 := by
    rw [attempts_monotonicNs, hattempted.attempts_eq]
  exact
    { permitted := permitted_monotonicNs hattempted.permitted n
      first := by omega
      bound := hattempts ▸ hattempted.bound }

/-- A pause of 40 milliseconds at least, or up to the deadline. -/
theorem Attempted.pause
    (hattempted : Attempted tick wait start k h)
    {n : Int} {delay : ℚ}
    (hclock : NotBefore tick h (n * tick))
    (hdelay : 4 / 100 ≤ delay) :
    Ready tick wait start (k + 1)
      (⟨.sleep (min delay (start + wait - n * tick)), ()⟩ :: ⟨.jitter, some delay⟩ ::
        ⟨.monotonicNs, n⟩ :: h) where
  permitted := by
    have hread := permitted_monotonicNs hattempted.permitted n
    have hjitter := hread.cons
      (show Allowed tick wait (⟨.monotonicNs, n⟩ :: h) .jitter from trivial) (some delay)
    have hallowed : Allowed tick wait (⟨.jitter, some delay⟩ :: ⟨.monotonicNs, n⟩ :: h)
        (.sleep (min delay (start + wait - n * tick))) :=
      ⟨start, _, getLast?_cons_of_some hattempted.started, rfl, min_le_right _ _⟩
    exact hjitter.cons hallowed ()
  started := getLast?_cons_of_some hattempted.started
  attempts_eq := by
    rw [attempts_sleep, attempts_jitter, attempts_monotonicNs, hattempted.attempts_eq]
  bound := hattempted.bound
  later := by
    intro t ht
    have ht : (n : ℚ) * tick ≤ t - min delay (start + wait - n * tick) := ht
    have hreading := hattempted.later _ hclock
    rcases le_total delay (start + wait - n * tick) with hle | hle
    · rw [min_eq_left hle] at ht
      right
      push_cast
      linarith
    · rw [min_eq_right hle] at ht
      left
      linarith

end Invariant

/-! ## A contended round -/

/-- The command of an attempt. -/
abbrev acquireCall (ownerToken : Bytes) (ttlMs : Nat) : Call :=
  .acquire ownerToken (millisecondsText ttlMs)

/-- What the code has made and validated may be dispatched. -/
theorem validateDispatch_acquire
    {ownerToken : Bytes} {lease : Timedelta} {ttlMs : Nat}
    (howner : isOwnerToken ownerToken = true)
    (httl : durationMilliseconds lease = some ttlMs) :
    validateDispatch (acquireCall ownerToken ttlMs) = true := by
  have hmax := lease.le_max
  rw [durationMilliseconds_eq] at httl
  split at httl
  case isTrue =>
    cases httl
  case isFalse hms =>
    obtain rfl := Option.some.inj httl
    have hcanon : isCanonicalFence (decimal (lease.total / 1000).toNat) = true :=
      isCanonicalFence_decimal (by omega) (by unfold maxRedisInteger; omega)
    simp [validateDispatch, validateMilliseconds, millisecondsText, hcanon, howner]

theorem parseAcquireResponse_contended :
    parseAcquireResponse Reply.contended.wire = some (.contended, none) := by
  decide

section Rounds

variable {σ Λ : Type} {tick wait start : ℚ} {k : Nat} {h : Exchanges}
  {oracle : Exchanges → (q : HandleQuestion) → q.Answer} {ownerToken : Bytes} {ttlMs : Nat}

theorem evaluates_asking
    {q : HandleQuestion} {answer : q.Answer}
    (hanswer : oracle h q = answer)
    (s : σ) :
    Proc.Evaluates oracle (asking q : Asking σ Λ q.Answer).run s h (.ok answer) s
      (⟨q, answer⟩ :: h) :=
  hanswer ▸ evaluates_lift q s h

/-- A contended script call returns its reply, by `eval` when the server lacks the script. -/
theorem evaluates_afterEvalsha
    (hcontention : Contention tick oracle)
    (hattempted : Attempted tick wait start k h)
    {call : Call} {answer : ScriptAnswer}
    (hanswer : answer = .noScript ∨ answer = .reply Reply.contended.wire)
    (s : σ) :
    ∃ h', Proc.Evaluates oracle (afterEvalsha call answer : Asking σ Λ RawReply).run s h
        (.ok Reply.contended.wire) s h' ∧
      Attempted tick wait start k h' := by
  rcases hanswer with rfl | rfl
  · exact ⟨_, (evaluates_asking (hcontention.eval h call) s).except_bind (evaluates_pure _ _ _),
      hattempted.eval call _⟩
  · exact ⟨h, evaluates_pure _ _ _, hattempted⟩

/-- An attempt is told that the lock is contended. -/
theorem evaluates_attempt
    (hcontention : Contention tick oracle)
    (hcall : validateDispatch (acquireCall ownerToken ttlMs) = true)
    (hattempted : ∀ answer, Attempted tick wait start k
      (⟨.evalsha (acquireCall ownerToken ttlMs), answer⟩ :: h))
    (s : σ) :
    ∃ h', Proc.Evaluates oracle
        (attempt (dispatchAcquire ownerToken ttlMs : Asking σ Λ (Status × Option Nat))).run s h
        (.ok (.done (.contended, none))) s h' ∧
      Attempted tick wait start k h' := by
  obtain ⟨h', hafter, hattempted'⟩ := evaluates_afterEvalsha hcontention (hattempted _)
    (hcontention.evalsha h (acquireCall ownerToken ttlMs)) s
  have hrun : (runScript (acquireCall ownerToken ttlMs) : Asking σ Λ RawReply) =
      asking (.evalsha (acquireCall ownerToken ttlMs)) >>=
        afterEvalsha (acquireCall ownerToken ttlMs) := by
    simp [runScript, hcall]
  have hdispatch : Proc.Evaluates oracle
      (dispatchAcquire ownerToken ttlMs : Asking σ Λ (Status × Option Nat)).run s h
      (.ok (.contended, none)) s h' := by
    unfold dispatchAcquire
    rw [hrun]
    refine ((evaluates_asking rfl s).except_bind hafter).except_bind ?_
    rw [parseAcquireResponse_contended]
    exact evaluates_pure _ _ _
  exact ⟨h', hdispatch.bind (.ret _ _ _), hattempted'⟩

/-- The pause of a loop that goes on. -/
theorem evaluates_pause
    (hcontention : Contention tick oracle)
    {n : Int}
    (hattempted : Attempted tick wait start k h)
    (hclock : NotBefore tick h (n * tick))
    (s : σ) :
    ∃ h', Proc.Evaluates oracle (pause (start + wait - n * tick) : Asking σ Λ Unit).run s
        (⟨.monotonicNs, n⟩ :: h) (.ok ()) s h' ∧
      Ready tick wait start (k + 1) h' := by
  obtain ⟨delay, hjitter, hlow, hhigh⟩ := hcontention.jitter (⟨.monotonicNs, n⟩ :: h)
  refine ⟨_, (evaluates_asking hjitter s).except_bind ?_, hattempted.pause hclock hlow⟩
  simp only [hlow, hhigh, and_self, if_true]
  exact evaluates_asking rfl s

/--
A round ends the loop in its budget, or it goes on after one attempt more.  It reads its clock,
stops when it is late, and reads the clock again after a contended attempt.
-/
theorem evaluates_round
    {τ β : Type} {clock : Asking σ Λ τ} {attempted : Bool} {body : Asking σ Λ (Bool ⊕ Option β)}
    (reading : Int → τ) (left : τ → ℚ) (late spent : τ → Prop)
    [DecidablePred late] [DecidablePred spent]
    (after : τ → Attempt (Status × Option Nat) → Asking σ Λ (Bool ⊕ Option β))
    (hbody : body = clock >>= fun acquired =>
      if attempted = true ∧ late acquired then pure (.inr none)
      else attempt (dispatchAcquire ownerToken ttlMs) >>= after acquired)
    (hafter : ∀ acquired, after acquired (.done (.contended, none)) = clock >>= fun now =>
      if spent now then pure (.inr none) else pause (left now) >>= fun _ => pure (.inl true))
    (hclock : ∀ h n s, oracle h .monotonicNs = n →
      Proc.Evaluates oracle clock.run s h (.ok (reading n)) s (⟨.monotonicNs, n⟩ :: h))
    (hlate : ∀ n, late (reading n) ↔ start + wait ≤ n * tick)
    (hleft : ∀ n, left (reading n) = start + wait - n * tick)
    (hwait : 0 ≤ wait)
    (hcontention : Contention tick oracle)
    (hcall : validateDispatch (acquireCall ownerToken ttlMs) = true)
    (hk : attempted = true ↔ 1 ≤ k)
    (hready : Ready tick wait start k h)
    (s : σ) :
    ∃ h', (Proc.Evaluates oracle body.run s h (.ok (.inr none)) s h' ∧ Bounded tick wait h') ∨
      (Proc.Evaluates oracle body.run s h (.ok (.inl true)) s h' ∧
        Ready tick wait start (k + 1) h') := by
  subst hbody
  obtain ⟨n, hn⟩ : ∃ n, oracle h .monotonicNs = n := ⟨_, rfl⟩
  have hbefore : NotBefore tick h (n * tick) := hn ▸ hcontention.clock h
  by_cases hstop : attempted = true ∧ late (reading n)
  · refine ⟨_, .inl ⟨(hclock h n s hn).except_bind ?_, hready.bounded (hk.mp hstop.1) n⟩⟩
    rw [if_pos hstop]
    exact evaluates_pure _ _ _
  · have hopen : ¬ (1 ≤ k ∧ start + wait ≤ n * tick) :=
      fun hboth => hstop ⟨hk.mpr hboth.1, (hlate n).mpr hboth.2⟩
    obtain ⟨h₁, hattempt, hattempted⟩ := evaluates_attempt hcontention hcall
      (fun answer => hready.attempt hwait hbefore hopen _ answer) s
    obtain ⟨m, hm⟩ : ∃ m, oracle h₁ .monotonicNs = m := ⟨_, rfl⟩
    have hbefore₁ : NotBefore tick h₁ (m * tick) := hm ▸ hcontention.clock h₁
    by_cases hend : spent (reading m)
    · refine ⟨_, .inl ⟨(hclock h n s hn).except_bind ?_, hattempted.bounded m⟩⟩
      rw [if_neg hstop]
      refine hattempt.except_bind ?_
      rw [hafter]
      refine (hclock h₁ m s hm).except_bind ?_
      rw [if_pos hend]
      exact evaluates_pure _ _ _
    · obtain ⟨h₂, hpause, hready₂⟩ := evaluates_pause hcontention hattempted hbefore₁ s
      refine ⟨h₂, .inr ⟨(hclock h n s hn).except_bind ?_, hready₂⟩⟩
      rw [if_neg hstop]
      refine hattempt.except_bind ?_
      rw [hafter]
      refine (hclock h₁ m s hm).except_bind ?_
      rw [if_neg hend, hleft]
      exact hpause.except_bind (evaluates_pure _ _ _)

/-- A round of the lock that counts nanoseconds. -/
theorem evaluates_acquireRound
    {options : LeaderElectionOptions} {deadline : Int}
    (hdeadline : (deadline : ℚ) / 1000000000 = start + wait)
    (hwait : 0 ≤ wait)
    (hcontention : Contention (1 / 1000000000) oracle)
    (hcall : validateDispatch (acquireCall ownerToken ttlMs) = true)
    {attempted : Bool}
    (hk : attempted = true ↔ 1 ≤ k)
    (hready : Ready (1 / 1000000000) wait start k h)
    (s : HandleState) :
    ∃ h', (Proc.Evaluates oracle (acquireRound ownerToken ttlMs options deadline attempted).run
          s h (.ok (.inr none)) s h' ∧ Bounded (1 / 1000000000) wait h') ∨
      (Proc.Evaluates oracle (acquireRound ownerToken ttlMs options deadline attempted).run
          s h (.ok (.inl true)) s h' ∧ Ready (1 / 1000000000) wait start (k + 1) h') := by
  have hlate : ∀ n : Int, deadline ≤ n ↔ start + wait ≤ n * (1 / 1000000000) := by
    intro n
    rw [← hdeadline, ← Int.cast_le (R := ℚ)]
    constructor
    · intro hle
      linarith
    · intro hle
      linarith
  have hleft : ∀ n : Int, ((deadline - n : Int) : ℚ) / 1000000000 =
      start + wait - n * (1 / 1000000000) := by
    intro n
    rw [← hdeadline]
    push_cast
    ring
  exact evaluates_round id (fun now => ((deadline - now : Int) : ℚ) / 1000000000)
    (deadline ≤ ·) (deadline - · ≤ 0) (afterAttempt ownerToken options deadline) rfl
    (fun _ => rfl) (fun _ _ s hn => evaluates_asking hn s) hlate hleft hwait hcontention hcall
    hk hready s

/-- A reading of the clock of the event loop. -/
theorem Async.evaluates_monotonic
    {n : Int}
    (hn : oracle h .monotonicNs = n)
    (s : AsyncHandleState) :
    Proc.Evaluates oracle (monotonic tick).run s h (.ok (n * tick)) s
      (⟨.monotonicNs, n⟩ :: h) :=
  (evaluates_asking hn s).except_bind (evaluates_pure _ _ _)

/-- A round of the lock that counts the ticks of its clock. -/
theorem Async.evaluates_acquireRound
    {options : LeaderElectionOptions}
    (hwait : 0 ≤ wait)
    (hcontention : Contention tick oracle)
    (hcall : validateDispatch (acquireCall ownerToken ttlMs) = true)
    {attempted : Bool}
    (hk : attempted = true ↔ 1 ≤ k)
    (hready : Ready tick wait start k h)
    (s : AsyncHandleState) :
    ∃ h', (Proc.Evaluates oracle
          (Async.acquireRound tick ownerToken ttlMs options (start + wait) attempted).run
          s h (.ok (.inr none)) s h' ∧ Bounded tick wait h') ∨
      (Proc.Evaluates oracle
          (Async.acquireRound tick ownerToken ttlMs options (start + wait) attempted).run
          s h (.ok (.inl true)) s h' ∧ Ready tick wait start (k + 1) h') :=
  evaluates_round (fun n => n * tick) (start + wait - ·) (start + wait ≤ ·)
    (start + wait - · ≤ 0) (Async.afterAttempt tick ownerToken options (start + wait)) rfl
    (fun _ => rfl) (fun _ _ s hn => Async.evaluates_monotonic hn s) (fun _ => Iff.rfl)
    (fun _ => rfl) hwait hcontention hcall hk hready s

end Rounds

/-! ## The loops -/

/-- Rounds that end in the budget, or go on after one attempt more, end in the budget. -/
theorem evaluates_rounds
    {σ Λ β : Type} {tick wait start : ℚ}
    {oracle : Exchanges → (q : HandleQuestion) → q.Answer} {s : σ}
    {body : Bool → Asking σ Λ (Bool ⊕ Option β)}
    (hround : ∀ k h attempted, (attempted = true ↔ 1 ≤ k) → Ready tick wait start k h →
      ∃ h', (Proc.Evaluates oracle (body attempted).run s h (.ok (.inr none)) s h' ∧
          Bounded tick wait h') ∨
        (Proc.Evaluates oracle (body attempted).run s h (.ok (.inl true)) s h' ∧
          Ready tick wait start (k + 1) h'))
    {h : Exchanges}
    (hready : Ready tick wait start 0 h) :
    ∃ h', Proc.Evaluates oracle (exceptLoop body false).run s h (.ok none) s h' ∧
      Bounded tick wait h' := by
  let Inv : Nat → Bool → σ → Exchanges → Prop := fun n attempted s' h =>
    s' = s ∧ ∃ k, (attempted = true ↔ 1 ≤ k) ∧ Ready tick wait start k h ∧
      attemptLimit wait - k = n
  let Post : Except Raised (Option β) → σ → Exchanges → Prop := fun r s' h =>
    r = .ok none ∧ s' = s ∧ Bounded tick wait h
  have hinv : Inv (attemptLimit wait) false s h := ⟨rfl, 0, by simp, hready, rfl⟩
  have hsteps : ∀ n attempted s' h, Inv n attempted s' h →
      ∃ r s'' h', Proc.Evaluates oracle (body attempted).run s' h r s'' h' ∧
        RoundKeeps Inv Post n r s'' h' := by
    rintro _ attempted _ h ⟨rfl, k, hk, hready, rfl⟩
    obtain ⟨h', ⟨hend, hbounded⟩ | ⟨hgo, hready'⟩⟩ := hround k h attempted hk hready
    · exact ⟨_, _, h', hend, rfl, rfl, hbounded⟩
    · have hbound := hready'.bound
      exact ⟨_, _, h', hgo, attemptLimit wait - (k + 1), by omega, rfl, k + 1, by simp,
        hready', rfl⟩
  obtain ⟨_, _, h', heval, rfl, rfl, hbounded⟩ := evaluates_exceptLoop Inv Post hsteps hinv
  exact ⟨h', heval, hbounded⟩

section Loops

variable {oracle : Exchanges → (q : HandleQuestion) → q.Answer}
  {requested options : LeaderElectionOptions} {timing : Timing} {ownerToken : Bytes} {ttlMs : Nat}

/-- The constructor keeps the time to wait. -/
theorem waitTime_of_make
    {waitTime leaseTime minLeaseTime : Timedelta} {autoRenew : Bool}
    {renewInterval : Option Timedelta}
    (h : LeaderElectionOptions.make waitTime leaseTime minLeaseTime autoRenew renewInterval =
      some options) :
    options.waitTime = waitTime := by
  unfold LeaderElectionOptions.make at h
  split at h
  · rw [← Option.some.inj h]
  · cases h

/-- The validation of the options keeps the time to wait. -/
theorem waitTime_of_validated
    (h : validatedRedisOptions requested timing = some options) :
    options.waitTime = requested.waitTime := by
  unfold validatedRedisOptions at h
  split at h
  case isFalse =>
    rw [← Option.some.inj h]
  case isTrue =>
    obtain ⟨interval, -, h⟩ := Option.bind_eq_some_iff.mp h
    split at h
    case isTrue =>
      obtain ⟨rounded, -, h⟩ := Option.bind_eq_some_iff.mp h
      obtain ⟨replaced, hreplaced, h⟩ := Option.bind_eq_some_iff.mp h
      split at h
      case isFalse => cases h
      case isTrue =>
        rw [← Option.some.inj h]
        exact waitTime_of_make hreplaced
    case isFalse =>
      split at h
      case isFalse => cases h
      case isTrue =>
        rw [← Option.some.inj h]

/-- No time to wait is negative. -/
theorem LeaderElectionOptions.totalSeconds_nonneg
    (options : LeaderElectionOptions) :
    0 ≤ options.waitTime.totalSeconds := by
  have hnonneg : (0 : ℚ) ≤ options.waitTime.total := by
    exact_mod_cast options.wait_nonneg
  unfold Timedelta.totalSeconds
  positivity

theorem evaluates_tryAcquire
    (hcontention : Contention (1 / 1000000000) oracle)
    (hoptions : validatedRedisOptions requested timing = some options)
    (httl : durationMilliseconds options.leaseTime = some ttlMs)
    (howner : isOwnerToken ownerToken = true)
    (s : HandleState) :
    ∃ h, Proc.Evaluates oracle (tryAcquire requested timing ownerToken).run s [] (.ok none) s h ∧
      Bounded (1 / 1000000000) options.waitTime.totalSeconds h := by
  have hcall := validateDispatch_acquire howner httl
  obtain ⟨n, hn⟩ : ∃ n, oracle [] .monotonicNs = n := ⟨_, rfl⟩
  have hdeadline : ((n + durationNanoseconds options.waitTime : Int) : ℚ) / 1000000000 =
      n * (1 / 1000000000) + options.waitTime.totalSeconds := by
    rw [durationNanoseconds_eq]
    unfold Timedelta.totalSeconds
    push_cast
    ring
  obtain ⟨h, hloop, hbounded⟩ := evaluates_rounds
    (fun k h attempted hk hready => evaluates_acquireRound hdeadline
      options.totalSeconds_nonneg hcontention hcall hk hready s) (ready_zero n)
  refine ⟨h, ?_, hbounded⟩
  unfold tryAcquire
  rw [hoptions]
  refine (evaluates_pure _ _ _).except_bind ?_
  rw [httl]
  refine (evaluates_pure _ _ _).except_bind ((evaluates_asking hn s).except_bind ?_)
  exact hloop

theorem Async.evaluates_tryAcquire
    {tick : ℚ}
    (hcontention : Contention tick oracle)
    (hoptions : validatedRedisOptions requested timing = some options)
    (httl : durationMilliseconds options.leaseTime = some ttlMs)
    (howner : isOwnerToken ownerToken = true)
    (s : AsyncHandleState) :
    ∃ h, Proc.Evaluates oracle (Async.tryAcquire tick requested timing ownerToken).run s []
        (.ok none) s h ∧
      Bounded tick options.waitTime.totalSeconds h := by
  have hcall := validateDispatch_acquire howner httl
  obtain ⟨n, hn⟩ : ∃ n, oracle [] .monotonicNs = n := ⟨_, rfl⟩
  obtain ⟨h, hloop, hbounded⟩ := evaluates_rounds
    (fun k h attempted hk hready => Async.evaluates_acquireRound
      options.totalSeconds_nonneg hcontention hcall hk hready s) (ready_zero n)
  refine ⟨h, ?_, hbounded⟩
  unfold Async.tryAcquire
  rw [hoptions]
  refine (evaluates_pure _ _ _).except_bind ?_
  rw [httl]
  refine (evaluates_pure _ _ _).except_bind ((Async.evaluates_monotonic hn s).except_bind ?_)
  exact hloop

/--
**The attempts of an acquisition are bounded.**  On a contended lock both loops end without
a lease; they send a first attempt, none later at or after the deadline and no more than the
budget has room for, and they never sleep beyond the budget.
-/
theorem acquire_attempts_bounded
    (hoptions : validatedRedisOptions requested timing = some options)
    (httl : durationMilliseconds options.leaseTime = some ttlMs)
    (howner : isOwnerToken ownerToken = true) :
    (Contention (1 / 1000000000) oracle → ∀ s, ∃ h,
      Proc.Evaluates oracle (tryAcquire requested timing ownerToken).run s [] (.ok none) s h ∧
        Bounded (1 / 1000000000) requested.waitTime.totalSeconds h) ∧
    ∀ tick, Contention tick oracle → ∀ s, ∃ h,
      Proc.Evaluates oracle (Async.tryAcquire tick requested timing ownerToken).run s []
          (.ok none) s h ∧
        Bounded tick requested.waitTime.totalSeconds h := by
  rw [← waitTime_of_validated hoptions]
  exact ⟨fun hcontention s => evaluates_tryAcquire hcontention hoptions httl howner s,
    fun _ hcontention s => Async.evaluates_tryAcquire hcontention hoptions httl howner s⟩

end Loops

/-! ## A lock that stays contended -/

/-- The earliest time after a history. -/
def earliest (tick : ℚ) : Exchanges → ℚ
  | [] => 0
  | ⟨.monotonicNs, n⟩ :: _ => ((n : Int) : ℚ) * tick
  | ⟨.sleep seconds, _⟩ :: h => earliest tick h + seconds
  | _ :: h => earliest tick h

theorem notBefore_of_earliest
    {tick : ℚ} {h : Exchanges} {t : ℚ}
    (hle : earliest tick h ≤ t) :
    NotBefore tick h t := by
  induction h generalizing t with
  | nil =>
      trivial
  | cons e h ih =>
      obtain ⟨q, answer⟩ := e
      cases q with
      | monotonicNs =>
          exact hle
      | sleep seconds =>
          exact ih (by linarith [show earliest tick h + seconds ≤ t from hle])
      | evalsha | eval | jitter | startThread | threadStarted | waitStop | waitReady
      | joinWorker | action | nextOperation | report =>
          exact ih hle

/-- Contended at every attempt, pauses of 50 milliseconds, and a clock that is just on time. -/
def contendedOracle (h : Exchanges) : (q : HandleQuestion) → q.Answer
  | .evalsha _ => .noScript
  | .eval _ => .reply Reply.contended.wire
  | .monotonicNs => ⌈earliest (1 / 1000000000) h * 1000000000⌉
  | .jitter => some ((1 : ℚ) / 20)
  | .startThread => .started
  | .waitStop | .waitReady | .joinWorker => false
  | .action fence => .ok fence
  | .nextOperation => .release
  | .sleep _ | .threadStarted | .report _ => ()

theorem contention_contendedOracle :
    Contention (1 / 1000000000) contendedOracle where
  evalsha _ _ := .inl rfl
  eval _ _ := rfl
  jitter _ := ⟨1 / 20, rfl, by norm_num, by norm_num⟩
  clock h := by
    refine notBefore_of_earliest ?_
    have hceil : earliest (1 / 1000000000) h * 1000000000 ≤
        ((contendedOracle h .monotonicNs : Int) : ℚ) :=
      Int.le_ceil _
    linarith

/-- A tenth of a second. -/
def tenthSecond : Timedelta :=
  ⟨100000, by decide, by decide⟩

/-- A tenth of a second to wait, for a lease of thirty seconds. -/
def shortWait : LeaderElectionOptions where
  waitTime := tenthSecond
  leaseTime := halfMinute
  minLeaseTime := noTime
  autoRenew := false
  renewInterval := none
  wait_nonneg := by decide
  lease_pos := halfMinute_pos
  min_nonneg := noTime_nonneg
  min_le_lease := noTime_le_halfMinute
  interval_of_autoRenew := not_autoRenew
  interval_bounds := no_interval

/-- Both loops end within three attempts. -/
theorem acquire_attempts_bounded_shortWait :
    (∀ s, ∃ h, Proc.Evaluates contendedOracle
        (tryAcquire shortWait secondTiming (twoTokens true)).run s [] (.ok none) s h ∧
      Bounded (1 / 1000000000) shortWait.waitTime.totalSeconds h) ∧
    ∀ s, ∃ h, Proc.Evaluates contendedOracle
        (Async.tryAcquire (1 / 1000000000) shortWait secondTiming
          (twoTokens true)).run s [] (.ok none) s h ∧
      Bounded (1 / 1000000000) shortWait.waitTime.totalSeconds h := by
  obtain ⟨hsync, hasync⟩ := @acquire_attempts_bounded contendedOracle shortWait shortWait
    secondTiming (twoTokens true) 30000 rfl (by decide) (by decide)
  exact ⟨hsync contention_contendedOracle, hasync _ contention_contendedOracle⟩

end LeaderRedis
end Bluetape
