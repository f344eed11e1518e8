import Bluetape.Resilience.Retry
import Mathlib.Order.Bounds.Basic
import Mathlib.Order.Nat

/-!
# Runs of a retry policy

What a call does, said without its loop.  The call ends with the first attempt that decides
it, or with the last one that is allowed; before that, every attempt fails and is followed by
its event and its delay.

* `RetryScript`: what the operation and the functions of the policy do in a run;
* `Does`: a program, alone with a script, ends so and makes this happen;
* `Retry.RunsTo`: the run of a call by its reference semantics;
* `call_runs`, `asyncCall_runs`: both calls run so.
-/

namespace Bluetape
namespace Resilience

open Base Base.Proc

/-- The exchanges of a retry policy so far, newest first. -/
abbrev RetryExchanges (ν : Type) :=
  Dialogue.History (Q := RetryQuestion ν) RetryQuestion.Answer

/-! ## The reference semantics -/

/-- What is seen of a run from outside. -/
inductive Happening
  | invoked
  | emitted (event : PolicyEvent)
  | slept (delay : ℚ)
deriving DecidableEq

/--
What the operation and the functions of the policy do, by the number of the attempt; the
observer and the sleeper return.
-/
structure RetryScript (ν : Type) where
  operation : Nat → Except Raised ν
  close : ν → Except Raised Unit
  retryIf : Nat → Raised → Bool
  backoff : Nat → ℚ
  backoff_nonneg : ∀ attempt, 0 ≤ backoff attempt

section Reference

variable {ν : Type} (p : Retry) (s : RetryScript ν)

/-- What is seen of an exchange. -/
def happening : Dialogue.Exchange (Q := RetryQuestion ν) RetryQuestion.Answer → Option Happening
  | ⟨.operation, _⟩ => some .invoked
  | ⟨.observe event, _⟩ => some (.emitted event)
  | ⟨.sleep delay, _⟩ => some (.slept delay)
  | _ => none

/-- What was seen so far, oldest first. -/
def happenings (h : RetryExchanges ν) : List Happening :=
  (h.filterMap happening).reverse

/-- How often the operation was invoked. -/
def invocations (seen : List Happening) : Nat :=
  seen.count .invoked

/-- The delays that were slept, in order. -/
def sleeps (seen : List Happening) : List ℚ :=
  seen.filterMap fun
    | .slept delay => some delay
    | _ => none

/-- The events that the observer was given, in order. -/
def events (seen : List Happening) : List PolicyEvent :=
  seen.filterMap fun
    | .emitted event => some event
    | _ => none

/-- The answers of a script, which counts the attempts. -/
def RetryScript.oracle (h : RetryExchanges ν) : (q : RetryQuestion ν) → q.Answer
  | .checkOperation => .ok ()
  | .operation => s.operation (invocations (happenings h) + 1)
  | .close result => s.close result
  | .retryIf error => .ok (some (s.retryIf (invocations (happenings h)) error))
  | .backoff attempt => .ok (.number (s.backoff attempt))
  | .observe _ => .ok ()
  | .sleep _ => .ok ()

/-- The failure of an attempt may be retried. -/
def Retry.retries (attempt : Nat) (error : Raised) : Bool :=
  if p.hasRetryIf then s.retryIf attempt error else retriedByDefault error

/--
The exception with which `Retry` lets an outcome of the operation pass: an awaitable result
breaks its contract, and so does the exception of a policy that has found one.
-/
def RetryScript.syncPasses (isAwaitable : ν → Bool) : Except Raised ν → Option Raised
  | .ok result =>
      if isAwaitable result then
        some (match s.close result with
          | .ok _ => .syncResultContract
          | .error e => e)
      else none
  | .error e => if e = .syncResultContract ∨ e.isException = false then some e else none

/-- The exception with which `AsyncRetry` lets an outcome of the operation pass. -/
def asyncPasses : Except Raised ν → Option Raised
  | .ok _ => none
  | .error e => if e.isException then none else some e

variable (passes : Except Raised ν → Option Raised)

/-- The attempt ends the call, even if more are allowed. -/
def Retry.Decides (attempt : Nat) : Prop :=
  match s.operation attempt with
  | .ok _ => True
  | .error e => passes (.error e) ≠ none ∨ p.retries s attempt e = false

/-- How the call ends with an attempt. -/
def Retry.result (attempt : Nat) : Except RaisedFrom ν :=
  match passes (s.operation attempt), s.operation attempt with
  | some e, _ => .error ⟨e, none⟩
  | none, .ok result => .ok result
  | none, .error e =>
      if p.retries s attempt e then .error ⟨.retryExhausted p.name attempt, some e⟩
      else .error ⟨e, none⟩

/-- The terminal event of a call that ends with an attempt; none, if the outcome passes. -/
def Retry.terminal (attempt : Nat) : List PolicyEvent :=
  match passes (s.operation attempt), s.operation attempt with
  | some _, _ => []
  | none, .ok _ => [retryEvent p.name .succeeded (some .success) .none attempt none]
  | none, .error e =>
      [retryEvent p.name .failed (some .failure)
        (if p.retries s attempt e then .retryExhausted else failureCategory e) attempt none]

/-- The category of the failure of an attempt. -/
def RetryScript.category (attempt : Nat) : FailureCategory :=
  match s.operation attempt with
  | .ok _ => .none
  | .error e => failureCategory e

/-- The event of an attempt that is followed by another one. -/
def Retry.scheduled (attempt : Nat) : PolicyEvent :=
  retryEvent p.name .retryScheduled none (s.category attempt) attempt (some (s.backoff attempt))

/-- Events, if there is an observer. -/
def Retry.emissions (p : Retry) (events : List PolicyEvent) : List Happening :=
  if p.observed then events.map .emitted else []

/-- What an attempt makes happen that is followed by another one. -/
def Retry.retried (attempt : Nat) : List Happening :=
  .invoked :: p.emissions [p.scheduled s attempt] ++ [.slept (s.backoff attempt)]

/--
**The run of a call**, by its reference semantics: the last attempt is the first that decides
the call, or the last that is allowed, and each attempt before it is followed by its event
and its delay.
-/
structure Retry.RunsTo (program : RetryProg ν ν) (k : Nat) (h : RetryExchanges ν) : Prop where
  least : IsLeast {i | 1 ≤ i ∧ (i = p.maxAttempts ∨ p.Decides s passes i)} k
  evaluates : Evaluates s.oracle program.run () [] (p.result s passes k) () h
  seen : happenings h = (List.range' 1 (k - 1)).flatMap (p.retried s) ++
    .invoked :: p.emissions (p.terminal s passes k)
  invoked : invocations (happenings h) = k
  slept : sleeps (happenings h) = (List.range' 1 (k - 1)).map s.backoff
  emitted : events (happenings h) =
    if p.observed then (List.range' 1 (k - 1)).map (p.scheduled s) ++ p.terminal s passes k
    else []

end Reference

/-! ## Programs with a script -/

section Programs

variable {ν α β : Type} {p : Retry} {s : RetryScript ν}

/--
After a number of attempts, the program ends with this result, whatever was before, and makes
this happen.
-/
def Does (s : RetryScript ν) (program : RetryProg ν α) (attempts : Nat)
    (r : Except RaisedFrom α) (seen : List Happening) : Prop :=
  ∀ h, invocations (happenings h) = attempts →
    ∃ h', Evaluates s.oracle program.run () h r () h' ∧ happenings h' = happenings h ++ seen

theorem invocations_append
    (seen seen' : List Happening) :
    invocations (seen ++ seen') = invocations seen + invocations seen' :=
  List.count_append

theorem Does.bind
    {program : RetryProg ν α} {next : α → RetryProg ν β} {n : Nat} {a : α}
    {r : Except RaisedFrom β} {seen seen' : List Happening}
    (h : Does s program n (.ok a) seen)
    (h' : Does s (next a) (n + invocations seen) r seen') :
    Does s (program >>= next) n r (seen ++ seen') := by
  intro x hx
  obtain ⟨y, hxy, hy⟩ := h x hx
  obtain ⟨z, hyz, hz⟩ := h' y (by rw [hy, invocations_append, hx])
  exact ⟨z, hxy.except_bind hyz, by rw [hz, hy, List.append_assoc]⟩

/-- Sequencing after a program that makes nothing happen. -/
theorem Does.then
    {program : RetryProg ν α} {next : α → RetryProg ν β} {n : Nat} {a : α}
    {r : Except RaisedFrom β} {seen : List Happening}
    (h : Does s program n (.ok a) [])
    (h' : Does s (next a) n r seen) :
    Does s (program >>= next) n r seen :=
  h.bind h'

/-- Sequencing before a program that makes nothing happen. -/
theorem Does.at_last
    {program : RetryProg ν α} {next : α → RetryProg ν β} {n : Nat} {a : α}
    {r : Except RaisedFrom β} {seen : List Happening}
    (h : Does s program n (.ok a) seen)
    (h' : ∀ n, Does s (next a) n r []) :
    Does s (program >>= next) n r seen := by
  have hall := h.bind (h' _)
  rwa [List.append_nil] at hall

theorem Does.bind_error
    {program : RetryProg ν α} {next : α → RetryProg ν β} {n : Nat} {e : RaisedFrom}
    {seen : List Happening}
    (h : Does s program n (.error e) seen) :
    Does s (program >>= next) n (.error e) seen := by
  intro x hx
  obtain ⟨y, hxy, hy⟩ := h x hx
  exact ⟨y, hxy.except_bind_error, hy⟩

theorem does_pure
    (a : α) (n : Nat) :
    Does s (pure a : RetryProg ν α) n (.ok a) [] :=
  fun h _ => ⟨h, evaluates_pure a () h, (List.append_nil _).symm⟩

theorem does_throw
    (e : RaisedFrom) (n : Nat) :
    Does s (throw e : RetryProg ν α) n (.error e) [] :=
  fun h _ => ⟨h, evaluates_throw e () h, (List.append_nil _).symm⟩

/-- A question, answered by the script. -/
theorem does_asking
    {q : RetryQuestion ν} {n : Nat} {answer : q.Answer}
    (hanswer : ∀ h, invocations (happenings h) = n → s.oracle h q = answer) :
    Does s (Retry.asking q) n (.ok answer) (happening ⟨q, answer⟩).toList := by
  intro h hn
  obtain rfl : s.oracle h q = answer := hanswer h hn
  refine ⟨_, evaluates_lift q () h, ?_⟩
  rw [happenings, List.filterMap_cons]
  cases happening ⟨q, s.oracle h q⟩ with
  | none =>
      simp [happenings]
  | some seen =>
      simp [happenings]

theorem does_operation
    (n : Nat) :
    Does s (Retry.asking .operation) n (.ok (s.operation (n + 1))) [.invoked] :=
  does_asking fun _ hn => hn ▸ rfl

/-- The operation, and what follows it. -/
theorem does_operation_bind
    {next : Except Raised ν → RetryProg ν α} {n : Nat} {r : Except RaisedFrom α}
    {seen : List Happening}
    (h : Does s (next (s.operation (n + 1))) (n + 1) r seen) :
    Does s (Retry.asking .operation >>= next) n r (.invoked :: seen) :=
  (does_operation n).bind h

theorem does_emit
    (event : PolicyEvent) (n : Nat) :
    Does s (p.emit event) n (.ok ()) (p.emissions [event]) := by
  unfold Retry.emit Retry.emissions
  split
  · exact (does_asking (q := .observe event) fun _ _ => rfl).at_last fun n => does_pure () n
  · exact does_pure () n

theorem does_isRetryable
    (error : Raised) (n : Nat) :
    Does s (p.isRetryable error) n (.ok (p.retries s n error)) [] := by
  unfold Retry.isRetryable Retry.retries
  split
  · have hanswer : ∀ h, invocations (happenings h) = n →
        s.oracle h (.retryIf error) = .ok (some (s.retryIf n error)) :=
      fun _ hn => hn ▸ rfl
    exact (does_asking hanswer).then ((does_pure _ n).then (does_pure _ n))
  · exact does_pure _ n

/-! ### The handler -/

/-- An error that is not retried is raised, after its event. -/
theorem does_handleFailure_refused
    {error : Raised} {n attempt : Nat}
    (hretries : p.retries s n error = false) :
    Does s (p.handleFailure error attempt) n (.error ⟨error, none⟩)
      (p.emissions [retryEvent p.name .failed (some .failure) (failureCategory error)
        attempt none]) := by
  have hverdict : Does s (p.isRetryable error) n (.ok false) [] :=
    hretries ▸ does_isRetryable error n
  refine hverdict.then ?_
  rw [if_pos (by decide)]
  exact (does_emit _ n).at_last fun n => does_throw _ n

/-- The last failure that may be retried exhausts the policy. -/
theorem does_handleFailure_exhausted
    {error : Raised} {n attempt : Nat}
    (hretries : p.retries s n error = true)
    (hlast : attempt ≥ p.maxAttempts) :
    Does s (p.handleFailure error attempt) n
      (.error ⟨.retryExhausted p.name attempt, some error⟩)
      (p.emissions [retryEvent p.name .failed (some .failure) .retryExhausted
        attempt none]) := by
  have hverdict : Does s (p.isRetryable error) n (.ok true) [] :=
    hretries ▸ does_isRetryable error n
  refine hverdict.then ?_
  rw [if_neg (by decide), if_pos hlast]
  exact (does_emit _ n).at_last fun n => does_throw _ n

theorem finiteNonNegative_backoff
    (attempt : Nat) :
    finiteNonNegative (.number (s.backoff attempt)) = .ok (s.backoff attempt) := by
  rw [finiteNonNegative, if_neg (not_lt.mpr (s.backoff_nonneg attempt))]

/-- An earlier failure is followed by its event and its delay. -/
theorem does_handleFailure_retried
    {error : Raised} {n attempt : Nat}
    (hretries : p.retries s n error = true)
    (hmore : attempt < p.maxAttempts) :
    Does s (p.handleFailure error attempt) n (.ok ())
      (p.emissions [retryEvent p.name .retryScheduled none (failureCategory error) attempt
        (some (s.backoff attempt))] ++ [.slept (s.backoff attempt)]) := by
  have hverdict : Does s (p.isRetryable error) n (.ok true) [] :=
    hretries ▸ does_isRetryable error n
  have hbackoff : Does s (Retry.asking (.backoff attempt)) n
      (.ok (.ok (.number (s.backoff attempt)))) [] :=
    does_asking fun _ _ => rfl
  refine hverdict.then ?_
  rw [if_neg (by decide), if_neg (not_le.mpr hmore)]
  refine hbackoff.then ((does_pure _ n).then ?_)
  rw [finiteNonNegative_backoff]
  refine (does_pure _ n).then ((does_emit _ n).bind ?_)
  exact (does_asking (q := .sleep (s.backoff attempt)) fun _ _ => rfl).at_last
    fun n => does_pure () n

/-- The failure of the attempt that ends the call. -/
theorem does_handleFailure_last
    {error : Raised} {n attempt : Nat}
    (hlast : p.retries s n error = true → attempt ≥ p.maxAttempts) :
    Does s (p.handleFailure error attempt) n
      (if p.retries s n error then .error ⟨.retryExhausted p.name attempt, some error⟩
        else .error ⟨error, none⟩)
      (p.emissions [retryEvent p.name .failed (some .failure)
        (if p.retries s n error then .retryExhausted else failureCategory error)
        attempt none]) := by
  cases hretries : p.retries s n error with
  | true =>
      exact does_handleFailure_exhausted hretries (hlast hretries)
  | false =>
      exact does_handleFailure_refused hretries

end Programs

/-! ## Rounds -/

section Rounds

variable {ν : Type} {p : Retry} {s : RetryScript ν} {passes : Except Raised ν → Option Raised}
  {isAwaitable : ν → Bool} {n : Nat}

theorem Retry.of_not_decides
    {attempt : Nat}
    (h : ¬ p.Decides s passes attempt) :
    ∃ e, s.operation attempt = .error e ∧ passes (.error e) = none ∧
      p.retries s attempt e = true := by
  unfold Retry.Decides at h
  split at h
  · exact absurd trivial h
  · next e hoperation =>
      rw [not_or, not_not, Bool.not_eq_false] at h
      exact ⟨e, hoperation, h⟩

/-- The attempt is the last one: none is left, or it decides. -/
def Retry.IsLast (p : Retry) (s : RetryScript ν) (passes : Except Raised ν → Option Raised)
    (attempt : Nat) : Prop :=
  attempt = p.maxAttempts ∨ p.Decides s passes attempt

theorem Retry.IsLast.exhausts
    {attempt : Nat} {e : Raised}
    (h : p.IsLast s passes attempt)
    (hoperation : s.operation attempt = .error e)
    (hpasses : passes (.error e) = none) :
    p.retries s attempt e = true → attempt ≥ p.maxAttempts := by
  intro hretries
  rcases h with heq | hdecides
  · exact heq.ge
  · rw [Retry.Decides, hoperation] at hdecides
    rcases hdecides with hpass | hrefused
    · exact absurd hpasses hpass
    · rw [hretries] at hrefused
      cases hrefused

theorem Retry.result_ok
    {attempt : Nat} {v : ν}
    (hoperation : s.operation attempt = .ok v)
    (hpasses : passes (.ok v) = none) :
    p.result s passes attempt = .ok v ∧
      p.terminal s passes attempt =
        [retryEvent p.name .succeeded (some .success) .none attempt none] := by
  simp [Retry.result, Retry.terminal, hoperation, hpasses]

theorem Retry.result_error
    {attempt : Nat} {e : Raised}
    (hoperation : s.operation attempt = .error e)
    (hpasses : passes (.error e) = none) :
    p.result s passes attempt =
        (if p.retries s attempt e then .error ⟨.retryExhausted p.name attempt, some e⟩
          else .error ⟨e, none⟩) ∧
      p.terminal s passes attempt =
        [retryEvent p.name .failed (some .failure)
          (if p.retries s attempt e then .retryExhausted else failureCategory e)
          attempt none] := by
  simp [Retry.result, Retry.terminal, hoperation, hpasses]

theorem Retry.result_passes
    {attempt : Nat} {outcome : Except Raised ν} {e : Raised}
    (hoperation : s.operation attempt = outcome)
    (hpasses : passes outcome = some e) :
    p.result s passes attempt = .error ⟨e, none⟩ ∧ p.terminal s passes attempt = [] := by
  subst hoperation
  simp [Retry.result, Retry.terminal, hpasses]

theorem emissions_nil :
    p.emissions [] = [] := by
  simp [Retry.emissions]

/-- The loop goes on after an attempt that is not the last one. -/
def RoundGoesOn (p : Retry) (s : RetryScript ν) (passes : Except Raised ν → Option Raised)
    (round : Nat → RetryProg ν (Nat ⊕ ν)) : Prop :=
  ∀ n, n + 1 < p.maxAttempts → ¬ p.Decides s passes (n + 1) →
    Does s (round (n + 1)) n (.ok (.inl (n + 1 + 1))) (p.retried s (n + 1))

/-- The loop ends with the last attempt, as the reference semantics says. -/
def RoundEnds (p : Retry) (s : RetryScript ν) (passes : Except Raised ν → Option Raised)
    (round : Nat → RetryProg ν (Nat ⊕ ν)) : Prop :=
  ∀ n, p.IsLast s passes (n + 1) →
    Does s (round (n + 1)) n ((p.result s passes (n + 1)).map .inr)
      (.invoked :: p.emissions (p.terminal s passes (n + 1)))

/-- What both loops do with an exception that they catch, when they go on. -/
theorem does_caught_goesOn
    {e : Raised}
    (hoperation : s.operation (n + 1) = .error e)
    (hretries : p.retries s (n + 1) e = true)
    (hmore : n + 1 < p.maxAttempts) :
    Does s (do
        p.handleFailure e (n + 1)
        return Sum.inl (β := ν) (n + 1 + 1)) (n + 1) (.ok (.inl (n + 1 + 1)))
      (p.emissions [p.scheduled s (n + 1)] ++ [.slept (s.backoff (n + 1))]) := by
  have hscheduled : p.scheduled s (n + 1) = retryEvent p.name .retryScheduled none
      (failureCategory e) (n + 1) (some (s.backoff (n + 1))) := by
    rw [Retry.scheduled, RetryScript.category, hoperation]
  rw [hscheduled]
  exact (does_handleFailure_retried hretries hmore).at_last fun n => does_pure _ n

/-- What both loops do with an exception that they catch, in the last attempt. -/
theorem does_caught_ends
    {e : Raised}
    (hlast : p.IsLast s passes (n + 1))
    (hoperation : s.operation (n + 1) = .error e)
    (hpasses : passes (.error e) = none) :
    Does s (do
        p.handleFailure e (n + 1)
        return Sum.inl (β := ν) (n + 1 + 1)) (n + 1) ((p.result s passes (n + 1)).map .inr)
      (p.emissions (p.terminal s passes (n + 1))) := by
  obtain ⟨hresult, hterminal⟩ := Retry.result_error (p := p) hoperation hpasses
  have hfails := does_handleFailure_last (hlast.exhausts hoperation hpasses)
  rw [hresult, hterminal]
  cases hretries : p.retries s (n + 1) e with
  | true =>
      rw [hretries] at hfails
      exact hfails.bind_error
  | false =>
      rw [hretries] at hfails
      exact hfails.bind_error

theorem round_goesOn :
    RoundGoesOn p s (s.syncPasses isAwaitable) (p.round isAwaitable) := by
  intro n hmore hdecides
  obtain ⟨e, hoperation, hpasses, hretries⟩ := Retry.of_not_decides hdecides
  have hcaught : ¬(e = .syncResultContract ∨ e.isException = false) := by
    intro hpass
    simp [RetryScript.syncPasses, hpass] at hpasses
  rw [not_or, Bool.not_eq_false] at hcaught
  refine does_operation_bind ?_
  rw [hoperation]
  dsimp only
  rw [if_neg hcaught.1, if_pos hcaught.2]
  exact does_caught_goesOn hoperation hretries hmore

theorem round_ends :
    RoundEnds p s (s.syncPasses isAwaitable) (p.round isAwaitable) := by
  intro n hlast
  refine does_operation_bind ?_
  cases hoperation : s.operation (n + 1) with
  | error e =>
      dsimp only
      by_cases hcontract : e = .syncResultContract
      · have hpasses : s.syncPasses isAwaitable (.error e) = some e := by
          simp [RetryScript.syncPasses, hcontract]
        obtain ⟨hresult, hterminal⟩ := Retry.result_passes (p := p) hoperation hpasses
        rw [if_pos hcontract, hresult, hterminal, emissions_nil]
        exact does_throw _ _
      · rw [if_neg hcontract]
        cases hexception : e.isException with
        | false =>
            have hpasses : s.syncPasses isAwaitable (.error e) = some e := by
              simp [RetryScript.syncPasses, hexception]
            obtain ⟨hresult, hterminal⟩ := Retry.result_passes (p := p) hoperation hpasses
            rw [if_neg (by decide), hresult, hterminal, emissions_nil]
            exact does_throw _ _
        | true =>
            have hpasses : s.syncPasses isAwaitable (.error e) = none := by
              simp [RetryScript.syncPasses, hcontract, hexception]
            rw [if_pos rfl]
            exact does_caught_ends hlast hoperation hpasses
  | ok v =>
      dsimp only
      cases hawaitable : isAwaitable v with
      | false =>
          have hpasses : s.syncPasses isAwaitable (.ok v) = none := by
            simp [RetryScript.syncPasses, hawaitable]
          obtain ⟨hresult, hterminal⟩ := Retry.result_ok (p := p) hoperation hpasses
          have hensures : Does s (Retry.ensureSyncResult isAwaitable v) (n + 1) (.ok v) [] := by
            rw [Retry.ensureSyncResult, hawaitable]
            exact does_pure v (n + 1)
          rw [hresult, hterminal]
          exact hensures.then ((does_emit _ (n + 1)).at_last fun n => does_pure _ n)
      | true =>
          have hpasses : s.syncPasses isAwaitable (.ok v) = some (match s.close v with
              | .ok _ => .syncResultContract
              | .error e => e) := by
            simp [RetryScript.syncPasses, hawaitable]
          obtain ⟨hresult, hterminal⟩ := Retry.result_passes (p := p) hoperation hpasses
          rw [hresult, hterminal, emissions_nil]
          refine Does.bind_error ?_
          rw [Retry.ensureSyncResult, hawaitable, if_pos rfl]
          have hclosed : Does s (Retry.asking (.close v)) (n + 1) (.ok (s.close v)) [] :=
            does_asking fun _ _ => rfl
          refine hclosed.then ?_
          cases s.close v with
          | error e =>
              exact (does_throw ⟨e, none⟩ _).bind_error
          | ok closed =>
              exact (does_pure closed _).then (does_throw ⟨.syncResultContract, none⟩ _)

theorem asyncRound_goesOn :
    RoundGoesOn p s asyncPasses (AsyncRetry.round p) := by
  intro n hmore hdecides
  obtain ⟨e, hoperation, hpasses, hretries⟩ := Retry.of_not_decides hdecides
  have hexception : e.isException = true := by
    by_contra hpass
    simp [asyncPasses, hpass] at hpasses
  have hcancelled : e ≠ .cancelled := by
    rintro rfl
    cases hexception
  refine does_operation_bind ?_
  rw [hoperation]
  dsimp only
  rw [if_neg hcancelled, if_pos hexception]
  exact does_caught_goesOn hoperation hretries hmore

theorem asyncRound_ends :
    RoundEnds p s asyncPasses (AsyncRetry.round p) := by
  intro n hlast
  refine does_operation_bind ?_
  cases hoperation : s.operation (n + 1) with
  | error e =>
      dsimp only
      cases hexception : e.isException with
      | false =>
          have hpasses : asyncPasses (ν := ν) (.error e) = some e := by
            simp [asyncPasses, hexception]
          obtain ⟨hresult, hterminal⟩ := Retry.result_passes (p := p) hoperation hpasses
          rw [hresult, hterminal, emissions_nil]
          split
          · exact does_throw _ _
          · exact does_throw _ _
      | true =>
          have hcancelled : e ≠ .cancelled := by
            rintro rfl
            cases hexception
          have hpasses : asyncPasses (ν := ν) (.error e) = none := by
            simp [asyncPasses, hexception]
          rw [if_neg hcancelled, if_pos rfl]
          exact does_caught_ends hlast hoperation hpasses
  | ok v =>
      dsimp only
      obtain ⟨hresult, hterminal⟩ := Retry.result_ok (p := p) hoperation
        (rfl : asyncPasses (.ok v) = none)
      rw [hresult, hterminal]
      exact (does_emit _ (n + 1)).at_last fun n => does_pure _ n

end Rounds

/-! ## Calls -/

section Calls

variable {ν : Type} {p : Retry} {s : RetryScript ν} {passes : Except Raised ν → Option Raised}
  {round : Nat → RetryProg ν (Nat ⊕ ν)} {k : Nat}

@[simp] theorem invocations_emissions
    (l : List PolicyEvent) :
    invocations (p.emissions l) = 0 := by
  unfold Retry.emissions invocations
  split
  · simp [List.count_eq_zero]
  · rfl

@[simp] theorem sleeps_emissions
    (l : List PolicyEvent) :
    sleeps (p.emissions l) = [] := by
  unfold Retry.emissions sleeps
  split
  · simp [List.filterMap_map]
  · rfl

@[simp] theorem events_emissions
    (l : List PolicyEvent) :
    events (p.emissions l) = if p.observed then l else [] := by
  unfold Retry.emissions events
  split
  · simp [List.filterMap_map]
  · rfl

theorem sleeps_append
    (seen seen' : List Happening) :
    sleeps (seen ++ seen') = sleeps seen ++ sleeps seen' :=
  List.filterMap_append

theorem events_append
    (seen seen' : List Happening) :
    events (seen ++ seen') = events seen ++ events seen' :=
  List.filterMap_append

@[simp] theorem invocations_retried
    (attempt : Nat) :
    invocations (p.retried s attempt) = 1 := by
  have hparts : p.retried s attempt = [.invoked] ++
      (p.emissions [p.scheduled s attempt] ++ [.slept (s.backoff attempt)]) := rfl
  rw [hparts, invocations_append, invocations_append, invocations_emissions]
  rfl

@[simp] theorem sleeps_retried
    (attempt : Nat) :
    sleeps (p.retried s attempt) = [s.backoff attempt] := by
  have hparts : p.retried s attempt = [.invoked] ++
      (p.emissions [p.scheduled s attempt] ++ [.slept (s.backoff attempt)]) := rfl
  rw [hparts, sleeps_append, sleeps_append, sleeps_emissions]
  rfl

@[simp] theorem events_retried
    (attempt : Nat) :
    events (p.retried s attempt) = if p.observed then [p.scheduled s attempt] else [] := by
  have hparts : p.retried s attempt = [.invoked] ++
      (p.emissions [p.scheduled s attempt] ++ [.slept (s.backoff attempt)]) := rfl
  rw [hparts, events_append, events_append, events_emissions]
  exact List.append_nil _

theorem invocations_rounds
    (attempts : List Nat) :
    invocations (attempts.flatMap (p.retried s)) = attempts.length := by
  induction attempts with
  | nil =>
      rfl
  | cons attempt attempts ih =>
      rw [List.flatMap_cons, invocations_append, ih, invocations_retried, List.length_cons,
        Nat.add_comm]

theorem sleeps_rounds
    (attempts : List Nat) :
    sleeps (attempts.flatMap (p.retried s)) = attempts.map s.backoff := by
  induction attempts with
  | nil =>
      rfl
  | cons attempt attempts ih =>
      rw [List.flatMap_cons, sleeps_append, ih, sleeps_retried, List.map_cons]
      rfl

theorem events_rounds
    (attempts : List Nat) :
    events (attempts.flatMap (p.retried s)) =
      if p.observed then attempts.map (p.scheduled s) else [] := by
  induction attempts with
  | nil =>
      simp [events]
  | cons attempt attempts ih =>
      rw [List.flatMap_cons, events_append, ih, events_retried]
      split
      · rfl
      · rfl

/-- A loop whose round raises or returns. -/
theorem does_loop_end
    {attempt n : Nat} {r : Except RaisedFrom ν} {seen : List Happening}
    (h : Does s (round attempt) n (r.map .inr) seen) :
    Does s (exceptLoop round attempt) n r seen := by
  intro x hx
  obtain ⟨y, hxy, hy⟩ := h x hx
  cases r with
  | error e =>
      exact ⟨y, evaluates_exceptLoop_raise hxy, hy⟩
  | ok v =>
      exact ⟨y, evaluates_exceptLoop_end hxy, hy⟩

theorem does_loop_continue
    {attempt attempt' n : Nat} {r : Except RaisedFrom ν} {seen seen' : List Happening}
    (h : Does s (round attempt) n (.ok (.inl attempt')) seen)
    (h' : Does s (exceptLoop round attempt') (n + invocations seen) r seen') :
    Does s (exceptLoop round attempt) n r (seen ++ seen') := by
  intro x hx
  obtain ⟨y, hxy, hy⟩ := h x hx
  obtain ⟨z, hyz, hz⟩ := h' y (by rw [hy, invocations_append, hx])
  exact ⟨z, evaluates_exceptLoop_continue hxy hyz, by rw [hz, hy, List.append_assoc]⟩

/-- The rounds from an attempt on, up to the last one. -/
theorem does_rounds
    (hgo : RoundGoesOn p s passes round)
    (hend : RoundEnds p s passes round)
    (hk : IsLeast {i | 1 ≤ i ∧ (i = p.maxAttempts ∨ p.Decides s passes i)} k)
    {n more : Nat}
    (hmore : n + 1 + more = k) :
    Does s (exceptLoop round (n + 1)) n (p.result s passes k)
      ((List.range' (n + 1) more).flatMap (p.retried s) ++
        .invoked :: p.emissions (p.terminal s passes k)) := by
  induction more generalizing n with
  | zero =>
      subst hmore
      exact does_loop_end (hend n hk.1.2)
  | succ more ih =>
      have hopen : ¬(n + 1 = p.maxAttempts ∨ p.Decides s passes (n + 1)) := by
        intro hlast
        have hle : k ≤ n + 1 := hk.2 ⟨Nat.succ_pos n, hlast⟩
        omega
      rw [not_or] at hopen
      have hmax : k ≤ p.maxAttempts := hk.2 ⟨p.one_le_maxAttempts, Or.inl rfl⟩
      rw [List.range'_succ, List.flatMap_cons, List.append_assoc]
      refine does_loop_continue (hgo n (by omega) hopen.2) ?_
      rw [invocations_retried]
      exact ih (by omega)

/-- **A call runs to its last attempt.** -/
theorem runsTo_of_rounds
    {program : RetryProg ν ν}
    (hprogram : ∀ r seen, Does s (exceptLoop round 1) 0 r seen → Does s program 0 r seen)
    (hgo : RoundGoesOn p s passes round)
    (hend : RoundEnds p s passes round) :
    ∃ k h, p.RunsTo s passes program k h := by
  have hnonempty : {i | 1 ≤ i ∧ (i = p.maxAttempts ∨ p.Decides s passes i)}.Nonempty :=
    ⟨p.maxAttempts, p.one_le_maxAttempts, Or.inl rfl⟩
  obtain ⟨k, hk⟩ : ∃ k, IsLeast {i | 1 ≤ i ∧ (i = p.maxAttempts ∨ p.Decides s passes i)} k :=
    ⟨_, Nat.sInf_mem hnonempty, fun _ hi => Nat.sInf_le hi⟩
  have hone : 1 ≤ k := hk.1.1
  obtain ⟨h, hevaluates, hseen⟩ :=
    hprogram _ _ (does_rounds hgo hend hk (show 0 + 1 + (k - 1) = k by omega)) [] rfl
  have hseen : happenings h = (List.range' 1 (k - 1)).flatMap (p.retried s) ++
      ([.invoked] ++ p.emissions (p.terminal s passes k)) := hseen
  refine ⟨k, h, hk, hevaluates, hseen, ?_, ?_, ?_⟩
  · rw [hseen, invocations_append, invocations_append, invocations_rounds,
      invocations_emissions, List.length_range']
    exact Nat.sub_add_cancel hone
  · rw [hseen, sleeps_append, sleeps_append, sleeps_rounds, sleeps_emissions]
    exact List.append_nil _
  · rw [hseen, events_append, events_append, events_rounds, events_emissions]
    split
    · rfl
    · rfl

theorem does_check
    {program : RetryProg ν ν} {r : Except RaisedFrom ν} {seen : List Happening}
    (h : Does s program 0 r seen) :
    Does s (do
      let checked : Except Raised Unit ← Retry.asking .checkOperation
      Retry.orRaise checked
      program) 0 r seen :=
  (does_asking (q := .checkOperation) fun _ _ => rfl).then ((does_pure () 0).then h)

theorem call_runs
    (p : Retry) (s : RetryScript ν) (isAwaitable : ν → Bool) :
    ∃ k h, p.RunsTo s (s.syncPasses isAwaitable) (p.call isAwaitable) k h :=
  runsTo_of_rounds (fun _ _ => does_check) round_goesOn round_ends

theorem asyncCall_runs
    (p : AsyncRetry) (s : RetryScript ν) :
    ∃ k h, p.RunsTo s asyncPasses (AsyncRetry.call p) k h :=
  runsTo_of_rounds (fun _ _ => does_check) asyncRound_goesOn asyncRound_ends

end Calls

end Resilience
end Bluetape
