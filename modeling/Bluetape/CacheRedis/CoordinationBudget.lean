import Bluetape.CacheRedis.Coordination

/-!
# The command budget of a flight

Every question of a flight is permitted by its history: an acquire or a snapshot
only right after the clock has shown a time before the deadline, and each command
within its budget.  The invariants of the two loops bound the commands and the
length of the history by the attempts and polls that were counted.

* `runFlight_obeys`: the invariants;
* `flight_budget`: every play of a flight, whatever it is answered.
-/

namespace Bluetape
namespace CacheRedis

open Base Serde Dialogue

section Budget

variable {V : Type}

/-- The exchanges of a flight. -/
abbrev Log (V : Type) :=
  History (Answer V)

/-! ## Budgets -/

/-- A `SET NX` command. -/
def isAcquire (e : Exchange (Answer V)) : Bool :=
  match e.1 with
  | .setIfAbsent .. => true
  | _ => false

/-- A snapshot command. -/
def isSnapshot (e : Exchange (Answer V)) : Bool :=
  match e.1 with
  | .coordinationSnapshot .. => true
  | _ => false

/-- A publication. -/
def isPublish (e : Exchange (Answer V)) : Bool :=
  match e.1 with
  | .publishIfValue .. => true
  | _ => false

/-- A compare-delete. -/
def isDelete (e : Exchange (Answer V)) : Bool :=
  match e.1 with
  | .deleteIfValue .. => true
  | _ => false

/-- A run of the user's loader. -/
def isLoad (e : Exchange (Answer V)) : Bool :=
  match e.1 with
  | .loader _ => true
  | _ => false

/-- The clock has just shown a time before the deadline. -/
def OnTime (deadline : ℚ) (log : Log V) : Prop :=
  ∃ (now : ℚ) (earlier : Log V), log = ⟨.clock, now⟩ :: earlier ∧ now < deadline

/--
The active marker has been acquired, and the clock has then shown a time before
the deadline; it has been read once more since, for the deadline of the lease.
-/
def Acquired (context : FlightContext V) (deadline : ℚ) (log : Log V) : Prop :=
  ∃ (later now : ℚ) (token : Text) (ttl : ℚ) (earlier : Log V),
    log = ⟨.clock, later⟩ :: ⟨.clock, now⟩ ::
      ⟨.setIfAbsent context.leaseKey (activeMarker token) ttl, .ok true⟩ :: earlier ∧
    now < deadline

/-- What may be asked after a history. -/
def Affordable (context : FlightContext V) (deadline : ℚ) (log : Log V) : Question → Prop
  | .setIfAbsent .. => log.countP isAcquire < context.options.maxAttempts ∧ OnTime deadline log
  | .coordinationSnapshot .. =>
      log.countP isSnapshot < context.options.maxAttempts + context.options.maxPolls ∧
        OnTime deadline log
  | .publishIfValue .. => log.countP isPublish = 0
  | .deleteIfValue .. => log.countP isDelete = 0
  | .loader _ => log.countP isLoad = 0 ∧ Acquired context deadline log
  | .onEvent event => event.attempts = log.countP isAcquire
  | _ => True

/-- The first exchange reads the clock, for the deadline. -/
def Opened (start : ℚ) (log : Log V) : Prop :=
  log.getLast? = some ⟨.clock, start⟩

/-- What a flight may ask: the clock first, and then what its deadline allows. -/
def MayAsk (context : FlightContext V) (log : Log V) (q : Question) : Prop :=
  log = [] ∧ q = .clock ∨
    ∃ start, Opened start log ∧
      Affordable context (start + context.options.waitTimeout) log q

theorem Opened.cons
    {start : ℚ} {log : Log V}
    (h : Opened start log) (e : Exchange (Answer V)) :
    Opened start (e :: log) := by
  unfold Opened at h ⊢
  rw [List.getLast?_cons, h]
  rfl

theorem OnTime.cons
    {deadline now : ℚ} (log : Log V)
    (h : now < deadline) :
    OnTime deadline (⟨.clock, now⟩ :: log) :=
  ⟨now, log, rfl, h⟩

/-! ## What has been spent -/

/-- The commands before the lease is acquired, and the length of the log. -/
structure Spent (start : ℚ) (attempts snapshots length : Nat) (log : Log V) : Prop where
  opened : Opened start log
  acquires : log.countP isAcquire = attempts
  snapshots : log.countP isSnapshot ≤ snapshots
  publishes : log.countP isPublish = 0
  deletes : log.countP isDelete = 0
  loads : log.countP isLoad = 0
  length : log.length ≤ length

/-- A question that no budget counts. -/
def isFree : Question → Bool
  | .clock | .newToken | .jitter | .sleep _ => true
  | _ => false

namespace Spent

variable {start : ℚ} {attempts snapshots length : Nat} {log : Log V}

/-- An exchange before the lease is acquired costs its length and what it counts for. -/
theorem cons
    (h : Spent start attempts snapshots length log)
    (e : Exchange (Answer V))
    (hpublish : isPublish e = false) (hdelete : isDelete e = false) (hload : isLoad e = false) :
    Spent start (attempts + if isAcquire e then 1 else 0)
      (snapshots + if isSnapshot e then 1 else 0) (length + 1) (e :: log) where
  opened := h.opened.cons e
  acquires := by
    rw [List.countP_cons, h.acquires]
  snapshots := by
    rw [List.countP_cons]
    exact Nat.add_le_add_right h.snapshots _
  publishes := by
    rw [List.countP_cons_of_neg (by simp [hpublish]), h.publishes]
  deletes := by
    rw [List.countP_cons_of_neg (by simp [hdelete]), h.deletes]
  loads := by
    rw [List.countP_cons_of_neg (by simp [hload]), h.loads]
  length := Nat.succ_le_succ h.length

theorem free
    (h : Spent start attempts snapshots length log)
    {q : Question} (hfree : isFree q = true) (a : Answer V q) :
    Spent start attempts snapshots (length + 1) (⟨q, a⟩ :: log) := by
  cases q with
  | clock =>
      exact h.cons ⟨.clock, a⟩ rfl rfl rfl
  | newToken =>
      exact h.cons ⟨.newToken, a⟩ rfl rfl rfl
  | jitter =>
      exact h.cons ⟨.jitter, a⟩ rfl rfl rfl
  | sleep duration =>
      exact h.cons ⟨.sleep duration, a⟩ rfl rfl rfl
  | _ =>
      cases hfree

theorem acquire
    (h : Spent start attempts snapshots length log)
    {key : Text} {marker : Bytes} {ttl : ℚ} (a : Answer V (.setIfAbsent key marker ttl)) :
    Spent start (attempts + 1) snapshots (length + 1) (⟨.setIfAbsent key marker ttl, a⟩ :: log) :=
  h.cons ⟨.setIfAbsent key marker ttl, a⟩ rfl rfl rfl

theorem snapshot
    (h : Spent start attempts snapshots length log)
    {leaseKey resultKey : Text} {size : Nat}
    (a : Answer V (.coordinationSnapshot leaseKey resultKey size)) :
    Spent start attempts (snapshots + 1) (length + 1)
      (⟨.coordinationSnapshot leaseKey resultKey size, a⟩ :: log) :=
  h.cons ⟨.coordinationSnapshot leaseKey resultKey size, a⟩ rfl rfl rfl

theorem mono
    (h : Spent start attempts snapshots length log)
    {snapshots' length' : Nat}
    (hsnapshots : snapshots ≤ snapshots') (hlength : length ≤ length') :
    Spent start attempts snapshots' length' log :=
  ⟨h.opened, h.acquires, h.snapshots.trans hsnapshots, h.publishes, h.deletes, h.loads,
    h.length.trans hlength⟩

/-- A free question may always be asked. -/
theorem mayAsk_free
    (h : Spent start attempts snapshots length log)
    {context : FlightContext V} {q : Question} (hfree : isFree q = true) :
    MayAsk context log q := by
  refine .inr ⟨start, h.opened, ?_⟩
  cases q with
  | clock | newToken | jitter | sleep duration =>
      trivial
  | _ =>
      cases hfree

end Spent

/-! ## Rules -/

section Rules

variable {S β γ : Type} {P : Log V → Question → Prop} {Post : Ended S β → Log V → Prop}
  {log : Log V} {state : S}

theorem obeys_answered
    {answer : Except FlightException γ} {next : γ → Flight V (Ended S β)}
    (herror : ∀ e, answer = .error e → Post (.error e, state) log)
    (hok : ∀ value, answer = .ok value → (next value).Obeys P Post log) :
    (answered answer state next).Obeys P Post log := by
  cases answer with
  | error e =>
      exact herror e rfl
  | ok value =>
      exact hok value rfl

theorem obeys_beforeDeadline
    {deadline : ℚ} {next : Flight V (Ended S β)}
    (hclock : P log .clock)
    (hlate : ∀ now, Post (.error (.timeout .deadlineExceeded), state) (⟨.clock, now⟩ :: log))
    (hnext : ∀ now, now < deadline → next.Obeys P Post (⟨.clock, now⟩ :: log)) :
    (beforeDeadline deadline state next).Obeys P Post log := by
  refine obeys_request_bind hclock fun now => ?_
  split
  case isTrue =>
    exact hlate now
  case isFalse hlt =>
    exact hnext now (not_le.mp hlt)

end Rules

/-! ## The loops -/

section Loops

variable (context : FlightContext V)

/-- A flight that has ended, before its event. -/
structure Closed (start : ℚ) (attempts : Nat) (log : Log V) : Prop where
  opened : Opened start log
  acquires : log.countP isAcquire = attempts
  length : log.length + 1 ≤ 8 * context.options.maxAttempts + 6 * context.options.maxPolls

variable {context}

theorem Spent.closed
    {start : ℚ} {attempts snapshots length : Nat} {log : Log V}
    (h : Spent start attempts snapshots length log)
    (hlength : length + 1 ≤ 8 * context.options.maxAttempts + 6 * context.options.maxPolls) :
    Closed context start attempts log :=
  ⟨h.opened, h.acquires, by have := h.length; omega⟩

/-- How the inner loop ends: a gone marker leaves time for another attempt. -/
def PollPost (context : FlightContext V) (start : ℚ) (attempts : Nat) :
    Ended Nat (Option (V × RedisCoordinationOutcome)) → Log V → Prop
  | (.ok none, polls), log => polls < context.options.maxPolls ∧
      Spent start attempts (attempts + polls) (8 * attempts + 6 * polls + 1) log
  | _, log => Closed context start attempts log

/-- **The inner loop keeps its budget.** -/
theorem pollLoop_obeys
    {start : ℚ} {attempts polls : Nat} {log : Log V}
    (hpositive : 1 ≤ attempts)
    (hattempts : attempts ≤ context.options.maxAttempts)
    (hpolls : polls < context.options.maxPolls)
    (h : Spent start attempts (attempts - 1 + polls) (8 * attempts + 6 * polls - 2) log) :
    (pollLoop context (start + context.options.waitTimeout) polls).Obeys
      (MayAsk context) (PollPost context start attempts) log := by
  rw [pollLoop]
  refine obeys_beforeDeadline (h.mayAsk_free rfl) (fun now => ?_) fun now hnow => ?_
  · exact (h.free rfl now).closed (by omega)
  have h₁ := h.free (q := .clock) rfl now
  have hsnapshot : MayAsk context (⟨.clock, now⟩ :: log)
      (.coordinationSnapshot context.leaseKey context.resultKey context.codec.maxEncodedSize) :=
    .inr ⟨start, h₁.opened, by have := h₁.snapshots; omega, .cons log hnow⟩
  refine obeys_request_bind hsnapshot fun snapshot => ?_
  have h₂ := h₁.snapshot snapshot
  refine obeys_answered (fun e _ => h₂.closed (by omega)) fun snapshot _ => ?_
  refine obeys_beforeDeadline (h₂.mayAsk_free rfl) (fun now => ?_) fun now _ => ?_
  · exact (h₂.free rfl now).closed (by omega)
  have h₃ := h₂.free (q := .clock) rfl now
  refine obeys_answered (fun e _ => h₃.closed (by omega)) fun reading _ => ?_
  cases reading with
  | absent =>
      exact ⟨hpolls, h₃.mono (by omega) (by omega)⟩
  | reused value =>
      exact h₃.closed (by omega)
  | waiting =>
      dsimp only
      split
      case isTrue =>
        exact h₃.closed (by omega)
      case isFalse hmore =>
        refine obeys_request_bind (h₃.mayAsk_free rfl) fun now => ?_
        have h₄ := h₃.free (q := .clock) rfl now
        split
        case isTrue =>
          exact h₄.closed (by omega)
        case isFalse =>
          refine obeys_request_bind (h₄.mayAsk_free rfl) fun factor => ?_
          have h₅ := h₄.free (q := .jitter) rfl factor
          refine obeys_request_bind (h₅.mayAsk_free rfl) fun slept => ?_
          have h₆ := h₅.free (q := .sleep _) rfl slept
          refine obeys_answered (fun e _ => h₆.closed (by omega)) fun _ _ => ?_
          exact pollLoop_obeys hpositive hattempts (not_le.mp hmore)
            (h₆.mono (by omega) (by omega))
termination_by context.options.maxPolls - polls

/-! ## The owner -/

/-- The owner has the lease and has not given it up. -/
structure Owning (start : ℚ) (attempts length : Nat) (log : Log V) : Prop where
  opened : Opened start log
  acquires : log.countP isAcquire = attempts
  deletes : log.countP isDelete = 0
  length : log.length ≤ length

section Owning

variable {start : ℚ} {attempts length : Nat} {log : Log V}

theorem Spent.owning
    {snapshots : Nat}
    (h : Spent start attempts snapshots length log) :
    Owning start attempts length log :=
  ⟨h.opened, h.acquires, h.deletes, h.length⟩

theorem Owning.cons
    (h : Owning start attempts length log)
    (e : Exchange (Answer V))
    (hacquire : isAcquire e = false) (hdelete : isDelete e = false) :
    Owning start attempts (length + 1) (e :: log) where
  opened := h.opened.cons e
  acquires := by
    rw [List.countP_cons_of_neg (by simp [hacquire]), h.acquires]
  deletes := by
    rw [List.countP_cons_of_neg (by simp [hdelete]), h.deletes]
  length := Nat.succ_le_succ h.length

theorem Owning.closed
    (h : Owning start attempts length log)
    (hlength : length + 1 ≤ 8 * context.options.maxAttempts + 6 * context.options.maxPolls) :
    Closed context start attempts log :=
  ⟨h.opened, h.acquires, by have := h.length; omega⟩

end Owning

/-- How a flight ends. -/
def FlightPost (context : FlightContext V) (start : ℚ)
    (r : Ended FlightState (V × RedisCoordinationOutcome)) (log : Log V) : Prop :=
  Closed context start r.2.attempts log

theorem cleanup_obeys
    {mode : RedisMode} {start : ℚ} {length : Nat} {log : Log V} {token : Text}
    {primary : FlightException} {state : FlightState}
    (hlength : length + 2 ≤ 8 * context.options.maxAttempts + 6 * context.options.maxPolls)
    (h : Owning start state.attempts length log) :
    (cleanup context mode token primary state).Obeys (MayAsk context)
      (FlightPost context start) log := by
  refine obeys_request_bind (.inr ⟨start, h.opened, h.deletes⟩) fun deleted => ?_
  have hclosed : Closed context start state.attempts
      (⟨.deleteIfValue context.leaseKey (activeMarker token), deleted⟩ :: log) := by
    refine ⟨h.opened.cons _, ?_, by have := h.length; rw [List.length_cons]; omega⟩
    rw [List.countP_cons_of_neg (by simp [isAcquire]), h.acquires]
  cases deleted with
  | ok found =>
      exact hclosed
  | error e =>
      dsimp only
      split <;> exact hclosed

theorem runOwner_obeys
    {mode : RedisMode} {start leaseDeadline : ℚ} {snapshots length : Nat} {log : Log V}
    {token : Text} {state : FlightState}
    (hlength : length + 6 ≤ 8 * context.options.maxAttempts + 6 * context.options.maxPolls)
    (hacquired : Acquired context (start + context.options.waitTimeout) log)
    (h : Spent start state.attempts snapshots length log) :
    (runOwner context mode token leaseDeadline state).Obeys (MayAsk context)
      (FlightPost context start) log := by
  refine obeys_request_bind (.inr ⟨start, h.opened, h.loads, hacquired⟩) fun loaded => ?_
  have h₁ := h.owning.cons ⟨.loader context.key, loaded⟩ rfl rfl
  cases loaded with
  | error e =>
      exact cleanup_obeys (by omega) h₁
  | ok value =>
      refine obeys_request_bind (.inr ⟨start, h₁.opened, trivial⟩) fun now => ?_
      have h₂ := h₁.cons ⟨.clock, now⟩ rfl rfl
      split
      case isTrue =>
        exact h₂.closed (by omega)
      case isFalse =>
        cases context.codec.encode token value with
        | error e =>
            exact cleanup_obeys (by omega) h₂
        | ok encoded =>
            refine obeys_request_bind (.inr ⟨start, h₂.opened, trivial⟩) fun now => ?_
            have h₃ := h₂.cons ⟨.clock, now⟩ rfl rfl
            split
            case isTrue =>
              exact h₃.closed (by omega)
            case isFalse =>
              have hpublish := h.publishes
              refine obeys_request_bind (.inr ⟨start, h₃.opened, by
                simpa [Affordable, List.countP_cons, isPublish] using hpublish⟩)
                fun published => ?_
              have h₄ := h₃.cons ⟨.publishIfValue context.leaseKey (activeMarker token)
                context.resultKey encoded (completionMarker token) context.options.resultTtl,
                published⟩ rfl rfl
              cases published with
              | error e =>
                  exact cleanup_obeys (by omega) h₄
              | ok published =>
                  cases published with
                  | true =>
                      exact h₄.closed (by omega)
                  | false =>
                      exact h₄.closed (by omega)

theorem acquiredLease_obeys
    {mode : RedisMode} {start : ℚ} {snapshots length : Nat} {log : Log V} {token : Text} {ttl : ℚ}
    (state : FlightState)
    (hlength : length + 9 ≤ 8 * context.options.maxAttempts + 6 * context.options.maxPolls)
    (h : Spent start state.attempts snapshots (length + 1)
      (⟨.setIfAbsent context.leaseKey (activeMarker token) ttl, .ok true⟩ :: log)) :
    (acquiredLease context mode (start + context.options.waitTimeout) token state).Obeys
      (MayAsk context) (FlightPost context start)
      (⟨.setIfAbsent context.leaseKey (activeMarker token) ttl, .ok true⟩ :: log) := by
  refine obeys_request_bind (h.mayAsk_free rfl) fun now => ?_
  have h₁ := h.free (q := .clock) rfl now
  split
  case isTrue =>
    exact cleanup_obeys (by omega) h₁.owning
  case isFalse hnow =>
    refine obeys_request_bind (h₁.mayAsk_free rfl) fun later => ?_
    have h₂ := h₁.free (q := .clock) rfl later
    refine runOwner_obeys (by omega) ?_ h₂
    exact ⟨later, now, token, ttl, log, rfl, not_le.mp hnow⟩

/-- **A flight keeps its budget.** -/
theorem runFlight_obeys
    {mode : RedisMode} {start : ℚ} {log : Log V}
    (state : FlightState)
    (hpolls : state.polls < context.options.maxPolls)
    (h : Spent start state.attempts (state.attempts + state.polls)
      (8 * state.attempts + 6 * state.polls + 1) log)
    (hattempts : state.attempts ≤ context.options.maxAttempts) :
    (runFlight context mode (start + context.options.waitTimeout) state).Obeys
      (MayAsk context) (FlightPost context start) log := by
  have hone := context.options.one_le_attempts
  rw [runFlight]
  refine obeys_beforeDeadline (h.mayAsk_free rfl) (fun now => ?_) fun now _ => ?_
  · exact (h.free rfl now).closed (by omega)
  have h₁ := h.free (q := .clock) rfl now
  split
  case isTrue =>
    exact h₁.closed (by omega)
  case isFalse hmore =>
    refine obeys_request_bind (h₁.mayAsk_free rfl) fun token => ?_
    have h₂ := h₁.free (q := .newToken) rfl token
    split
    case isTrue =>
      exact h₂.closed (by omega)
    case isFalse =>
      dsimp only
      refine obeys_beforeDeadline (h₂.mayAsk_free rfl) (fun now => ?_) fun now hnow => ?_
      · exact ((h₂.free rfl now).closed (by omega) : Closed context start state.attempts _)
      have h₃ := h₂.free (q := .clock) rfl now
      have hacquire : MayAsk context (⟨.clock, now⟩ :: ⟨.newToken, token⟩ :: _)
          (.setIfAbsent context.leaseKey (activeMarker token) context.options.leaseTtl) :=
        .inr ⟨start, h₃.opened, by have := h₃.acquires; omega, .cons _ hnow⟩
      refine obeys_request_bind hacquire fun acquired => ?_
      have h₄ := h₃.acquire acquired
      refine obeys_answered (fun e _ => ?_) fun acquired hok => ?_
      · exact (h₄.closed (by omega) : Closed context start (state.attempts + 1) _)
      subst hok
      split
      case isTrue hacquired =>
        subst hacquired
        exact acquiredLease_obeys ⟨state.attempts + 1, state.polls, state.cleanupFailed⟩
          (by omega) h₄
      case isFalse =>
        refine obeys_beforeDeadline (h₄.mayAsk_free rfl) (fun now => ?_) fun now _ => ?_
        · exact ((h₄.free rfl now).closed (by omega) :
            Closed context start (state.attempts + 1) _)
        have h₅ := h₄.free (q := .clock) rfl now
        have hspent : Spent start (state.attempts + 1) (state.attempts + 1 - 1 + state.polls)
            (8 * (state.attempts + 1) + 6 * state.polls - 2) _ :=
          h₅.mono (by omega) (by omega)
        refine (pollLoop_obeys (by omega) (by omega) hpolls hspent).bind ?_
        rintro ⟨found, polls⟩ log' hpost
        refine obeys_answered (fun e he => ?_) fun found hfound => ?_
        · subst he
          exact hpost
        · subst hfound
          cases found with
          | some found =>
              exact hpost
          | none =>
              exact runFlight_obeys ⟨state.attempts + 1, polls, state.cleanupFailed⟩
                hpost.1 hpost.2 (by simp only; omega)
termination_by context.options.maxAttempts - state.attempts

/-- A whole flight keeps its budget, and its history is bounded. -/
theorem distributedLoad_obeys
    (context : FlightContext V) (mode : RedisMode) :
    (distributedLoad context mode).Obeys (MayAsk context)
      (fun _ log => (∃ start, Opened start log) ∧
        log.length ≤ 8 * context.options.maxAttempts + 6 * context.options.maxPolls) [] := by
  refine obeys_request_bind (.inl ⟨rfl, rfl⟩) fun start => ?_
  have h : Spent start 0 (0 + 0) (8 * 0 + 6 * 0 + 1) [(⟨.clock, start⟩ : Exchange (Answer V))] :=
    ⟨rfl, rfl, le_rfl, rfl, rfl, rfl, le_rfl⟩
  refine (runFlight_obeys ⟨0, 0, false⟩ context.options.one_le_polls h (Nat.zero_le _)).bind ?_
  rintro ⟨result, state⟩ log hpost
  have hpost : Closed context start state.attempts log := hpost
  have hlength := hpost.length
  dsimp only [emit]
  split
  case isTrue =>
    refine obeys_request_bind (.inr ⟨start, hpost.opened, hpost.acquires.symm⟩) fun observed => ?_
    exact ⟨⟨start, hpost.opened.cons _⟩, by rwa [List.length_cons]⟩
  case isFalse =>
    exact ⟨⟨start, hpost.opened⟩, by omega⟩

end Loops

/-- A budget that is affordable at every exchange is kept. -/
theorem countP_le_of_affordable
    {context : FlightContext V} {p : Exchange (Answer V) → Bool} {n : Nat} {log : Log V}
    (hpermitted : Permitted (MayAsk context) log)
    (hpos : 0 < n)
    (hbudget : ∀ deadline log (e : Exchange (Answer V)), Affordable context deadline log e.1 →
      p e = true → log.countP p < n) :
    log.countP p ≤ n := by
  refine countP_le_of_permitted hpermitted ?_
  rintro log' e (⟨rfl, -⟩ | ⟨start, -, haffordable⟩) hp
  · exact hpos
  · exact hbudget _ _ e haffordable hp

/-- The first exchange of a history is the first one of all that follow. -/
theorem Opened.of_suffix
    {start : ℚ} {log earlier : Log V}
    (h : Opened start earlier) (hsuffix : earlier <:+ log) :
    Opened start log := by
  obtain ⟨later, rfl⟩ := hsuffix
  unfold Opened at h ⊢
  rw [List.getLast?_append, h]
  rfl

theorem Opened.unique
    {start start' : ℚ} {log : Log V}
    (h : Opened start log) (h' : Opened start' log) :
    start = start' := by
  have heq := Option.some.inj (h.symm.trans h')
  cases heq
  rfl

/--
**The command budget of a flight.**  Whatever it is answered, a flight ends after a bounded
number of exchanges and within its budget of each command; every acquire and
every snapshot follows a clock that shows a time before the deadline; and the
loader runs after the active marker was acquired before the deadline.
-/
theorem flight_budget
    (context : FlightContext V) (mode : RedisMode)
    (oracle : Log V → (q : Question) → Answer V q) :
    let log := ((distributedLoad context mode).play oracle []).2
    log.length ≤ 8 * context.options.maxAttempts + 6 * context.options.maxPolls ∧
    log.countP isAcquire ≤ context.options.maxAttempts ∧
    log.countP isSnapshot ≤ context.options.maxAttempts + context.options.maxPolls ∧
    log.countP isPublish ≤ 1 ∧ log.countP isDelete ≤ 1 ∧ log.countP isLoad ≤ 1 ∧
    ∃ start, Opened start log ∧ ∀ e earlier, e :: earlier <:+ log →
      (isAcquire e = true ∨ isSnapshot e = true →
        OnTime (start + context.options.waitTimeout) earlier) ∧
      (isLoad e = true → Acquired context (start + context.options.waitTimeout) earlier) := by
  intro log
  have hattempts := context.options.one_le_attempts
  obtain ⟨⟨⟨start, hopened⟩, hlength⟩, hpermitted⟩ :=
    (distributedLoad_obeys context mode).play permitted_nil oracle
  refine ⟨hlength, ?_, ?_, ?_, ?_, ?_, start, hopened, ?_⟩
  · refine countP_le_of_affordable hpermitted (by omega) fun deadline log e h hp => ?_
    obtain ⟨q, a⟩ := e
    cases q <;> first | exact h.1 | cases hp
  · refine countP_le_of_affordable hpermitted (by omega) fun deadline log e h hp => ?_
    obtain ⟨q, a⟩ := e
    cases q <;> first | exact h.1 | cases hp
  · refine countP_le_of_affordable hpermitted one_pos fun deadline log e h hp => ?_
    obtain ⟨q, a⟩ := e
    cases q <;> first | exact Nat.lt_one_iff.mpr h | cases hp
  · refine countP_le_of_affordable hpermitted one_pos fun deadline log e h hp => ?_
    obtain ⟨q, a⟩ := e
    cases q <;> first | exact Nat.lt_one_iff.mpr h | cases hp
  · refine countP_le_of_affordable hpermitted one_pos fun deadline log e h hp => ?_
    obtain ⟨q, a⟩ := e
    cases q <;> first | exact Nat.lt_one_iff.mpr h.1 | cases hp
  · intro e earlier hsuffix
    rcases hpermitted e earlier hsuffix with ⟨-, hclock⟩ | ⟨start', hopened', h⟩
    · obtain ⟨q, a⟩ := e
      obtain rfl : q = .clock := hclock
      exact ⟨fun hp => by simp [isAcquire, isSnapshot] at hp, fun hp => by cases hp⟩
    · obtain rfl := (hopened'.of_suffix ((List.suffix_cons e earlier).trans hsuffix)).unique hopened
      obtain ⟨q, a⟩ := e
      constructor
      · intro hp
        cases q <;> first | exact h.2 | simp [isAcquire, isSnapshot] at hp
      · intro hp
        cases q <;> first | exact h.2 | cases hp

end Budget

end CacheRedis
end Bluetape
