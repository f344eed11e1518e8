import Bluetape.Resilience.RetryRuns

/-!
# Cancellation and agreement

Whatever the operation, the predicate, the backoff, the observer and the sleeper do, a
cancellation is the last thing that happens to a call.  Where the operation keeps the
contract of the sync policy, the two calls agree.

* `PassesCancellation`: a program that ends, and that a cancellation ends at once;
* `retry_runs`: both calls run by the reference semantics, agree, and never retry a
  cancellation.
-/

namespace Bluetape
namespace Resilience

open Base Base.Proc

/-! ## Cancellation -/

section Cancellation

variable {ν α β : Type} {p : Retry}

/-- The exception that answers a question, if one does. -/
@[simp] def RetryQuestion.failure : (q : RetryQuestion ν) → q.Answer → Option Raised
  | .checkOperation, .error e => some e
  | .operation, .error e => some e
  | .close _, .error e => some e
  | .retryIf _, .error e => some e
  | .backoff _, .error e => some e
  | .observe _, .error e => some e
  | .sleep _, .error e => some e
  | _, _ => none

/-- The exchange was cancelled. -/
def Cancelled (e : Dialogue.Exchange (Q := RetryQuestion ν) RetryQuestion.Answer) : Prop :=
  e.1.failure e.2 = some .cancelled

/--
Whatever the answers are, the program ends; a cancellation ends it at once, and what it
returns otherwise is as stated.
-/
def PassesCancellation (program : RetryProg ν α) (Post : α → Prop) : Prop :=
  ∀ oracle h, ∃ r new, Evaluates oracle program.run () h r () (new ++ h) ∧
    (∀ e ∈ new, Cancelled e → new.head? = some e ∧ r = .error ⟨.cancelled, none⟩) ∧
    ∀ a, r = .ok a → Post a

theorem passesCancellation_pure
    {Post : α → Prop} {a : α}
    (h : Post a) :
    PassesCancellation (pure a : RetryProg ν α) Post := by
  intro oracle x
  refine ⟨.ok a, [], evaluates_pure a () x, by simp, fun b hb => ?_⟩
  obtain rfl := Except.ok.inj hb
  exact h

theorem passesCancellation_throw
    (e : RaisedFrom) (Post : α → Prop) :
    PassesCancellation (throw e : RetryProg ν α) Post :=
  fun _ x => ⟨.error e, [], evaluates_throw e () x, by simp, by simp⟩

theorem PassesCancellation.bind
    {program : RetryProg ν α} {next : α → RetryProg ν β} {Post : α → Prop} {Post' : β → Prop}
    (h : PassesCancellation program Post)
    (h' : ∀ a, Post a → PassesCancellation (next a) Post') :
    PassesCancellation (program >>= next) Post' := by
  intro oracle x
  obtain ⟨r, new, hevaluates, hcancelled, hpost⟩ := h oracle x
  cases r with
  | error e =>
      refine ⟨.error e, new, hevaluates.except_bind_error, fun y hy hy' => ?_, by simp⟩
      obtain ⟨hhead, hr⟩ := hcancelled y hy hy'
      exact ⟨hhead, congrArg Except.error (Except.error.inj hr)⟩
  | ok a =>
      obtain ⟨r', new', hevaluates', hcancelled', hpost'⟩ := h' a (hpost a rfl) oracle (new ++ x)
      refine ⟨r', new' ++ new, ?_, fun y hy hy' => ?_, hpost'⟩
      · rw [List.append_assoc]
        exact hevaluates.except_bind hevaluates'
      · rcases List.mem_append.mp hy with hy | hy
        · obtain ⟨hhead, hr⟩ := hcancelled' y hy hy'
          exact ⟨by rw [List.head?_append, hhead, Option.some_or], hr⟩
        · cases (hcancelled y hy hy').2

/-- A question, whose cancellation the rest passes on. -/
theorem passesCancellation_asking
    {q : RetryQuestion ν} {next : q.Answer → RetryProg ν α} {Post : α → Prop}
    (hnext : ∀ a, q.failure a ≠ some .cancelled → PassesCancellation (next a) Post)
    (hraise : ∀ a, q.failure a = some .cancelled → ∀ oracle h,
      Evaluates oracle (next a).run () h (.error ⟨.cancelled, none⟩) () h) :
    PassesCancellation (Retry.asking q >>= next) Post := by
  intro oracle x
  by_cases hanswer : q.failure (oracle x q) = some .cancelled
  · refine ⟨_, [⟨q, oracle x q⟩], (evaluates_lift q () x).except_bind (hraise _ hanswer _ _),
      fun y hy _ => ?_, by simp⟩
    rw [List.mem_singleton.mp hy]
    exact ⟨rfl, rfl⟩
  · obtain ⟨r, new, hevaluates, hcancelled, hpost⟩ :=
      hnext _ hanswer oracle (⟨q, oracle x q⟩ :: x)
    refine ⟨r, new ++ [⟨q, oracle x q⟩], ?_, fun y hy hy' => ?_, hpost⟩
    · rw [List.append_assoc]
      exact (evaluates_lift q () x).except_bind hevaluates
    · rcases List.mem_append.mp hy with hy | hy
      · obtain ⟨hhead, hr⟩ := hcancelled y hy hy'
        exact ⟨by rw [List.head?_append, hhead, Option.some_or], hr⟩
      · rw [List.mem_singleton.mp hy] at hy'
        exact absurd hy' hanswer

theorem passesCancellation_orRaise
    (r : Except Raised α) :
    PassesCancellation (Retry.orRaise r : RetryProg ν α) fun _ => True := by
  cases r with
  | error e =>
      exact passesCancellation_throw ⟨e, none⟩ _
  | ok a =>
      exact passesCancellation_pure trivial

/-- A question whose answer is raised, when it is an exception. -/
theorem passesCancellation_request
    {q : RetryQuestion ν} (view : q.Answer → Except Raised β)
    (hview : ∀ a, q.failure a = some .cancelled ↔ view a = .error .cancelled)
    {next : β → RetryProg ν α} {Post : α → Prop}
    (hnext : ∀ b, PassesCancellation (next b) Post) :
    PassesCancellation (Retry.asking q >>= fun a => Retry.orRaise (view a) >>= next) Post := by
  refine passesCancellation_asking (fun a _ => ?_) fun a ha oracle h => ?_
  · exact (passesCancellation_orRaise (view a)).bind fun b _ => hnext b
  · rw [(hview a).mp ha]
    exact (evaluates_throw (⟨.cancelled, none⟩ : RaisedFrom) () h).except_bind_error

/-- Such a question at the end. -/
theorem passesCancellation_last
    {q : RetryQuestion ν} (view : q.Answer → Except Raised β)
    (hview : ∀ a, q.failure a = some .cancelled ↔ view a = .error .cancelled)
    {P : Prop}
    (hP : P) :
    PassesCancellation (Retry.asking q >>= fun a => Retry.orRaise (view a)) fun _ => P := by
  refine passesCancellation_asking (fun a _ => ?_) fun a ha oracle h => ?_
  · intro oracle h
    obtain ⟨r, new, hevaluates, hcancelled, -⟩ := passesCancellation_orRaise (view a) oracle h
    exact ⟨r, new, hevaluates, hcancelled, fun _ _ => hP⟩
  · rw [(hview a).mp ha]
    exact evaluates_throw (⟨.cancelled, none⟩ : RaisedFrom) () h

theorem passesCancellation_emit
    (event : PolicyEvent) :
    PassesCancellation (p.emit event : RetryProg ν Unit) fun _ => True := by
  unfold Retry.emit
  split
  · refine passesCancellation_last (q := .observe event) id (fun a => ?_) trivial
    cases a <;> simp [RetryQuestion.failure]
  · exact passesCancellation_pure trivial

theorem passesCancellation_isRetryable
    (error : Raised) :
    PassesCancellation (p.isRetryable error : RetryProg ν Bool) fun _ => True := by
  unfold Retry.isRetryable
  split
  · refine passesCancellation_request (q := .retryIf error) id (fun a => ?_) fun verdict => ?_
    · cases a <;> simp [RetryQuestion.failure]
    · cases verdict with
      | none =>
          exact passesCancellation_throw _ _
      | some result =>
          exact passesCancellation_pure trivial
  · exact passesCancellation_pure trivial

/-- The handler returns only when an attempt is left. -/
theorem passesCancellation_handleFailure
    (error : Raised) (attempt : Nat) :
    PassesCancellation (p.handleFailure error attempt : RetryProg ν Unit)
      fun _ => attempt < p.maxAttempts := by
  refine (passesCancellation_isRetryable error).bind fun retryable _ => ?_
  split
  · exact (passesCancellation_emit _).bind fun _ _ => passesCancellation_throw _ _
  · split
    · exact (passesCancellation_emit _).bind fun _ _ => passesCancellation_throw _ _
    · next hmore =>
        refine passesCancellation_request (q := .backoff attempt) id (fun a => ?_) fun value => ?_
        · cases a <;> simp [RetryQuestion.failure]
        · refine (passesCancellation_orRaise _).bind fun delay _ => ?_
          refine (passesCancellation_emit _).bind fun _ _ => ?_
          refine passesCancellation_last (q := .sleep delay) id (fun a => ?_) (not_le.mp hmore)
          cases a <;> simp [RetryQuestion.failure]

/-- A round goes on with the next attempt, if one is left. -/
def GoesOn (p : Retry) (attempt : Nat) : Nat ⊕ ν → Prop
  | .inl next => next = attempt + 1 ∧ attempt < p.maxAttempts
  | .inr _ => True

theorem passesCancellation_round
    (isAwaitable : ν → Bool) (attempt : Nat) :
    PassesCancellation (p.round isAwaitable attempt) (GoesOn p attempt) := by
  refine passesCancellation_asking (fun outcome houtcome => ?_) fun outcome houtcome oracle h => ?_
  · cases outcome with
    | error e =>
        dsimp only
        split
        · exact passesCancellation_throw _ _
        · split
          · exact (passesCancellation_handleFailure e attempt).bind fun _ hmore =>
              passesCancellation_pure ⟨rfl, hmore⟩
          · exact passesCancellation_throw _ _
    | ok v =>
        refine (?_ : PassesCancellation _ fun _ => True).bind fun _ _ =>
          (passesCancellation_emit _).bind fun _ _ => passesCancellation_pure trivial
        unfold Retry.ensureSyncResult
        split
        · refine passesCancellation_request (q := .close v) id (fun a => ?_) fun _ =>
            passesCancellation_throw _ _
          cases a <;> simp [RetryQuestion.failure]
        · exact passesCancellation_pure trivial
  · cases outcome with
    | error e =>
        obtain rfl := Option.some.inj houtcome
        exact evaluates_throw (⟨.cancelled, none⟩ : RaisedFrom) () h
    | ok v =>
        cases houtcome

theorem passesCancellation_asyncRound
    (attempt : Nat) :
    PassesCancellation (AsyncRetry.round p attempt : RetryProg ν (Nat ⊕ ν))
      (GoesOn p attempt) := by
  refine passesCancellation_asking (fun outcome houtcome => ?_) fun outcome houtcome oracle h => ?_
  · cases outcome with
    | error e =>
        dsimp only
        split
        · exact passesCancellation_throw _ _
        · split
          · exact (passesCancellation_handleFailure e attempt).bind fun _ hmore =>
              passesCancellation_pure ⟨rfl, hmore⟩
          · exact passesCancellation_throw _ _
    | ok v =>
        exact (passesCancellation_emit _).bind fun _ _ => passesCancellation_pure trivial
  · cases outcome with
    | error e =>
        obtain rfl := Option.some.inj houtcome
        exact evaluates_throw (⟨.cancelled, none⟩ : RaisedFrom) () h
    | ok v =>
        cases houtcome

/-- Rounds that pass a cancellation on make a loop that does. -/
theorem passesCancellation_loop
    {round : Nat → RetryProg ν (Nat ⊕ ν)}
    (hround : ∀ attempt, PassesCancellation (round attempt) (GoesOn p attempt))
    (attempt : Nat) :
    PassesCancellation (exceptLoop round attempt) fun _ => True := by
  induction hleft : p.maxAttempts - attempt using Nat.strong_induction_on generalizing attempt with
  | _ left ih =>
      intro oracle h
      obtain ⟨r, new, hevaluates, hcancelled, hpost⟩ := hround attempt oracle h
      rcases r with e | next | v
      · refine ⟨.error e, new, evaluates_exceptLoop_raise hevaluates, fun y hy hy' => ?_, by simp⟩
        obtain ⟨hhead, hr⟩ := hcancelled y hy hy'
        exact ⟨hhead, congrArg Except.error (Except.error.inj hr)⟩
      · obtain ⟨rfl, hmore⟩ := hpost _ rfl
        obtain ⟨r', new', hevaluates', hcancelled', -⟩ :=
          ih (p.maxAttempts - (attempt + 1)) (by omega) (attempt + 1) rfl oracle (new ++ h)
        refine ⟨r', new' ++ new, ?_, fun y hy hy' => ?_, fun _ _ => trivial⟩
        · rw [List.append_assoc]
          exact evaluates_exceptLoop_continue hevaluates hevaluates'
        · rcases List.mem_append.mp hy with hy | hy
          · obtain ⟨hhead, hr⟩ := hcancelled' y hy hy'
            exact ⟨by rw [List.head?_append, hhead, Option.some_or], hr⟩
          · cases (hcancelled y hy hy').2
      · refine ⟨.ok v, new, evaluates_exceptLoop_end hevaluates, fun y hy hy' => ?_,
          fun _ _ => trivial⟩
        cases (hcancelled y hy hy').2

theorem passesCancellation_check
    {program : RetryProg ν α}
    (h : PassesCancellation program fun _ => True) :
    PassesCancellation (do
      let checked : Except Raised Unit ← Retry.asking .checkOperation
      Retry.orRaise checked
      program) fun _ => True := by
  refine passesCancellation_request (q := .checkOperation) id (fun a => ?_) fun _ => h
  cases a <;> simp [RetryQuestion.failure]

/-- Nothing follows a cancellation, and the call ends with it. -/
theorem PassesCancellation.evaluates
    {program : RetryProg ν α} {Post : α → Prop}
    (hprogram : PassesCancellation program Post)
    {oracle : RetryExchanges ν → (q : RetryQuestion ν) → q.Answer}
    {r : Except RaisedFrom α} {h : RetryExchanges ν}
    (hrun : Evaluates oracle program.run () [] r () h) :
    ∀ e ∈ h, Cancelled e → h.head? = some e ∧ r = .error ⟨.cancelled, none⟩ := by
  obtain ⟨r', new, hevaluates, hcancelled, -⟩ := hprogram oracle []
  obtain ⟨rfl, -, rfl⟩ := hrun.unique hevaluates
  rw [List.append_nil]
  exact hcancelled

end Cancellation

/-! ## Both calls -/

section Agreement

variable {ν : Type} {p : Retry} {s : RetryScript ν} {isAwaitable : ν → Bool}

/-- Where no contract is broken, the same outcomes pass. -/
theorem syncPasses_eq_asyncPasses
    (hresults : ∀ i v, s.operation i = .ok v → isAwaitable v = false)
    (hcontract : ∀ i, s.operation i ≠ .error .syncResultContract)
    (attempt : Nat) :
    s.syncPasses isAwaitable (s.operation attempt) = asyncPasses (s.operation attempt) := by
  cases hoperation : s.operation attempt with
  | ok v =>
      simp [RetryScript.syncPasses, asyncPasses, hresults attempt v hoperation]
  | error e =>
      have hne : e ≠ .syncResultContract := by
        rintro rfl
        exact hcontract attempt hoperation
      cases hexception : e.isException with
      | false =>
          simp [RetryScript.syncPasses, asyncPasses, hexception]
      | true =>
          simp [RetryScript.syncPasses, asyncPasses, hexception, hne]

theorem Retry.decides_congr
    {passes passes' : Except Raised ν → Option Raised} {attempt : Nat}
    (h : passes (s.operation attempt) = passes' (s.operation attempt)) :
    p.Decides s passes attempt ↔ p.Decides s passes' attempt := by
  unfold Retry.Decides
  cases hoperation : s.operation attempt with
  | ok v =>
      exact Iff.rfl
  | error e =>
      rw [hoperation] at h
      dsimp only
      rw [h]

/-- Runs by rules under which the same outcomes pass are alike. -/
theorem Retry.RunsTo.congr
    {passes passes' : Except Raised ν → Option Raised} {program program' : RetryProg ν ν}
    {k k' : Nat} {h h' : RetryExchanges ν}
    (hpasses : ∀ i, passes (s.operation i) = passes' (s.operation i))
    (hrun : p.RunsTo s passes program k h)
    (hrun' : p.RunsTo s passes' program' k' h') :
    k = k' ∧ p.result s passes k = p.result s passes' k' ∧ happenings h = happenings h' := by
  have hleast := hrun.least
  simp only [Retry.decides_congr (hpasses _)] at hleast
  obtain rfl := hleast.unique hrun'.least
  have hresult : p.result s passes k = p.result s passes' k := by
    rw [Retry.result, Retry.result, hpasses]
  have hterminal : p.terminal s passes k = p.terminal s passes' k := by
    rw [Retry.terminal, Retry.terminal, hpasses]
  exact ⟨rfl, hresult, by rw [hrun.seen, hrun'.seen, hterminal]⟩

/--
**Retry by its reference semantics.**  Each of the two calls runs to the first attempt that
decides it, or to the last that is allowed; the two agree unless the operation breaks the
contract of the sync policy; and a cancellation, whoever raises it, is the last thing that
happens to a call.
-/
theorem retry_runs
    (p : Retry) (s : RetryScript ν) (isAwaitable : ν → Bool) :
    (∃ k h, p.RunsTo s (s.syncPasses isAwaitable) (p.call isAwaitable) k h) ∧
    (∃ k h, p.RunsTo s asyncPasses (AsyncRetry.call p) k h) ∧
    ((∀ i v, s.operation i = .ok v → isAwaitable v = false) →
      (∀ i, s.operation i ≠ .error .syncResultContract) →
      ∀ k h k' h', p.RunsTo s (s.syncPasses isAwaitable) (p.call isAwaitable) k h →
        p.RunsTo s asyncPasses (AsyncRetry.call p) k' h' →
        k = k' ∧ p.result s (s.syncPasses isAwaitable) k = p.result s asyncPasses k' ∧
          happenings h = happenings h') ∧
    ∀ program, program = p.call isAwaitable ∨ program = AsyncRetry.call p →
      ∀ oracle r h, Evaluates oracle program.run () [] r () h →
        ∀ e ∈ h, Cancelled e → h.head? = some e ∧ r = .error ⟨.cancelled, none⟩ := by
  refine ⟨call_runs p s isAwaitable, asyncCall_runs p s, ?_, ?_⟩
  · intro hresults hcontract k h k' h' hrun hrun'
    exact hrun.congr (syncPasses_eq_asyncPasses hresults hcontract) hrun'
  · rintro program (rfl | rfl) oracle r h hrun
    · exact (passesCancellation_check
        (passesCancellation_loop (passesCancellation_round isAwaitable) 1)).evaluates hrun
    · exact (passesCancellation_check
        (passesCancellation_loop passesCancellation_asyncRound 1)).evaluates hrun

end Agreement

/-! ### Outcomes without an event -/

theorem one_le_two :
    1 ≤ 2 := by
  decide

/-- Two attempts, with an observer. -/
def twoTries : Retry :=
  ⟨"retry", 2, false, true, one_le_two⟩

theorem noDelay_nonneg
    (_attempt : Nat) :
    (0 : ℚ) ≤ 0 :=
  le_refl 0

/-- An operation with the same outcome each time. -/
def steadyScript (outcome : Except Raised Unit) : RetryScript Unit where
  operation _ := outcome
  close _ := .ok ()
  retryIf _ _ := false
  backoff _ := 0
  backoff_nonneg := noDelay_nonneg

theorem steadyScript_first
    {passes : Except Raised Unit → Option Raised} {outcome : Except Raised Unit}
    {program : RetryProg Unit Unit} {k : Nat} {h : RetryExchanges Unit}
    (hrun : twoTries.RunsTo (steadyScript outcome) passes program k h)
    (hdecides : twoTries.Decides (steadyScript outcome) passes 1) :
    k = 1 :=
  le_antisymm (hrun.least.2 ⟨le_rfl, Or.inr hdecides⟩) hrun.least.1.1

/--
An awaitable result is neither returned by the sync policy nor followed by a terminal event,
although the asyncio policy returns it; an exception that is no `Exception` has no terminal
event either.
-/
theorem retry_silent_outcomes :
    (∀ r h, Evaluates (steadyScript (.ok ())).oracle
        (twoTries.call fun _ => true).run () [] r () h →
      r = .error ⟨.syncResultContract, none⟩ ∧ events (happenings h) = []) ∧
    (∀ r h, Evaluates (steadyScript (.ok ())).oracle (AsyncRetry.call twoTries).run () [] r () h →
      r = .ok () ∧ events (happenings h) =
        [retryEvent "retry" .succeeded (some .success) .none 1 none]) ∧
    ∀ r h, Evaluates (steadyScript (.error (.baseException 0))).oracle
        (AsyncRetry.call twoTries).run () [] r () h →
      r = .error ⟨.baseException 0, none⟩ ∧ events (happenings h) = [] := by
  refine ⟨fun r h hrun => ?_, fun r h hrun => ?_, fun r h hrun => ?_⟩
  · obtain ⟨k, h', hruns⟩ := call_runs twoTries (steadyScript (.ok ())) fun _ => true
    obtain rfl := steadyScript_first hruns trivial
    obtain ⟨rfl, -, rfl⟩ := hrun.unique hruns.evaluates
    exact ⟨rfl, hruns.emitted⟩
  · obtain ⟨k, h', hruns⟩ := asyncCall_runs twoTries (steadyScript (.ok ()))
    obtain rfl := steadyScript_first hruns trivial
    obtain ⟨rfl, -, rfl⟩ := hrun.unique hruns.evaluates
    exact ⟨rfl, hruns.emitted⟩
  · obtain ⟨k, h', hruns⟩ := asyncCall_runs twoTries (steadyScript (.error (.baseException 0)))
    obtain rfl := steadyScript_first hruns (Or.inl (Option.some_ne_none _))
    obtain ⟨rfl, -, rfl⟩ := hrun.unique hruns.evaluates
    exact ⟨rfl, hruns.emitted⟩

end Resilience
end Bluetape
