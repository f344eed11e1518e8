import Bluetape.CacheRedis.CoordinationBudget
import Bluetape.CacheRedis.CoordinationServer

/-!
# Where the result of a flight comes from

What a flight publishes, returns and raises, read off its own history: it publishes an
envelope of what its loader has returned, it reuses what a snapshot has shown, and it
raises what a call has raised or what the reading of a snapshot has found.

* `distributedLoad_sources`: the questions of a flight, and its end.
-/

namespace Bluetape
namespace CacheRedis

open Base Serde Dialogue

section Sources

variable {V : Type}

/-! ## What a history contains -/

/-- An event of the flight. -/
def isEvent (e : Exchange (Answer V)) : Bool :=
  match e.1 with
  | .onEvent _ => true
  | _ => false

/-- No exchange of the history is of this kind. -/
def Lacks (kind : Exchange (Answer V) → Bool) (log : Log V) : Prop :=
  ∀ x ∈ log, kind x = false

theorem Lacks.cons
    {kind : Exchange (Answer V) → Bool} {log : Log V} {x : Exchange (Answer V)}
    (h : Lacks kind log)
    (hx : kind x = false) :
    Lacks kind (x :: log) :=
  List.forall_mem_cons.mpr ⟨hx, h⟩

/-- Nothing was loaded, and no event emitted. -/
structure Unstarted (log : Log V) : Prop where
  silent : Lacks isEvent log
  unloaded : Lacks isLoad log

theorem Unstarted.cons
    {log : Log V} {x : Exchange (Answer V)}
    (h : Unstarted log)
    (hevent : isEvent x = false) (hload : isLoad x = false) :
    Unstarted (x :: log) :=
  ⟨h.silent.cons hevent, h.unloaded.cons hload⟩

/-- The loader has returned the value. -/
def LoadedIn (context : FlightContext V) (log : Log V) (value : V) : Prop :=
  (⟨.loader context.key, .ok value⟩ : Exchange (Answer V)) ∈ log

/-- The flight has seen the snapshot. -/
def SawIn (context : FlightContext V) (log : Log V) (snapshot : RedisCoordinationSnapshot) :
    Prop :=
  (⟨.coordinationSnapshot context.leaseKey context.resultKey context.codec.maxEncodedSize,
    .ok snapshot⟩ : Exchange (Answer V)) ∈ log

/-- The value was read from a snapshot. -/
def ReusedIn (context : FlightContext V) (log : Log V) (value : V) : Prop :=
  ∃ snapshot, SawIn context log snapshot ∧
    readSnapshot context snapshot = .ok (.reused value)

/-- The exception that a call has raised. -/
def raisedBy : Exchange (Answer V) → Option FlightException
  | ⟨.sleep _, .error e⟩ => some e
  | ⟨.setIfAbsent .., .error e⟩ => some e
  | ⟨.coordinationSnapshot .., .error e⟩ => some e
  | ⟨.publishIfValue .., .error e⟩ => some e
  | ⟨.deleteIfValue .., .error e⟩ => some e
  | ⟨.loader _, .error e⟩ => some e
  | _ => none

/-- Where an exception of a flight comes from. -/
inductive Explained (context : FlightContext V) (log : Log V) : FlightException → Prop
  | raised {x : Exchange (Answer V)} {e : FlightException} :
      x ∈ log → raisedBy x = some e → Explained context log e
  | read {snapshot : RedisCoordinationSnapshot} {e : FlightException} :
      SawIn context log snapshot → readSnapshot context snapshot = .error e →
      Explained context log e
  | timeout (code : RedisCoordinationErrorCode) : Explained context log (.timeout code)
  | codec (e : CodecException) : Explained context log (ofCodec e)
  | token : Explained context log (.new .other)
  | noted {e : FlightException} :
      Explained context log e → Explained context log (e.addNote cleanupNote)

theorem Explained.cons
    {context : FlightContext V} {log : Log V} {e : FlightException}
    (h : Explained context log e) (x : Exchange (Answer V)) :
    Explained context (x :: log) e := by
  induction h with
  | raised hmem hraised => exact .raised (List.mem_cons_of_mem x hmem) hraised
  | read hsaw hread => exact .read (List.mem_cons_of_mem x hsaw) hread
  | timeout code => exact .timeout code
  | codec e => exact .codec e
  | token => exact .token
  | noted _ ih => exact .noted ih

theorem ReusedIn.cons
    {context : FlightContext V} {log : Log V} {value : V}
    (h : ReusedIn context log value) (x : Exchange (Answer V)) :
    ReusedIn context (x :: log) value := by
  obtain ⟨snapshot, hsaw, hread⟩ := h
  exact ⟨snapshot, List.mem_cons_of_mem x hsaw, hread⟩

/-! ## What a flight asks and how it ends -/

/-- The data of a question come from the history; an event is the last question. -/
def Sources (context : FlightContext V) (log : Log V) (q : Question) : Prop :=
  Lacks isEvent log ∧
    match q with
    | .coordinationSnapshot leaseKey resultKey size =>
        leaseKey = context.leaseKey ∧ resultKey = context.resultKey ∧
          size = context.codec.maxEncodedSize
    | .publishIfValue _ expected _ encoded _ _ =>
        ∃ token value, isOwnerToken token = true ∧ expected = activeMarker token ∧
          LoadedIn context log value ∧ context.codec.encode token value = .ok encoded
    | .onEvent event =>
        event.outcome = .resultReused →
          ∃ value, Lacks isLoad log ∧ ReusedIn context log value
    | _ => True

/-- The result of a flight before its event. -/
def Traced (context : FlightContext V) (log : Log V) :
    Except FlightException (V × RedisCoordinationOutcome) → Prop
  | .ok (value, .resultReused) => Lacks isLoad log ∧ ReusedIn context log value
  | .ok (value, _) => LoadedIn context log value
  | .error e => Explained context log e

/-- The flight has ended, but for its event. -/
def SourcesPost (context : FlightContext V)
    (r : Ended FlightState (V × RedisCoordinationOutcome)) (log : Log V) : Prop :=
  Lacks isEvent log ∧ Traced context log r.1

section Owner

variable {context : FlightContext V} {mode : RedisMode} {token : Text}

theorem cleanup_sources
    {e : FlightException} {log : Log V} {state : FlightState}
    (hsilent : Lacks isEvent log)
    (he : Explained context log e) :
    (cleanup context mode token e state).Obeys (Sources context) (SourcesPost context) log := by
  refine obeys_request_bind ⟨hsilent, trivial⟩ fun deleted => ?_
  have hsilent' := hsilent.cons (x := ⟨.deleteIfValue context.leaseKey (activeMarker token),
    deleted⟩) rfl
  have hprimary := he.cons ⟨.deleteIfValue context.leaseKey (activeMarker token), deleted⟩
  cases deleted with
  | ok found =>
      exact ⟨hsilent', hprimary⟩
  | error error =>
      dsimp only
      split
      case isTrue =>
        exact ⟨hsilent', .raised List.mem_cons_self rfl⟩
      case isFalse =>
        exact ⟨hsilent', hprimary.noted⟩

theorem runOwner_sources
    {leaseDeadline : ℚ} {log : Log V} {state : FlightState}
    (htoken : isOwnerToken token = true)
    (hsilent : Lacks isEvent log) :
    (runOwner context mode token leaseDeadline state).Obeys (Sources context)
      (SourcesPost context) log := by
  refine obeys_request_bind ⟨hsilent, trivial⟩ fun loaded => ?_
  have h₁ : Lacks isEvent (⟨.loader context.key, loaded⟩ :: log) := hsilent.cons rfl
  cases loaded with
  | error e =>
      exact cleanup_sources h₁ (.raised List.mem_cons_self rfl)
  | ok value =>
      have hloaded : LoadedIn context (⟨.loader context.key, .ok value⟩ :: log) value :=
        List.mem_cons_self
      refine obeys_request_bind ⟨h₁, trivial⟩ fun (now : ℚ) => ?_
      have h₂ := h₁.cons (x := ⟨.clock, now⟩) rfl
      have hloaded₂ := List.mem_cons_of_mem (⟨.clock, now⟩ : Exchange (Answer V)) hloaded
      split
      case isTrue =>
        exact ⟨h₂, hloaded₂⟩
      case isFalse =>
        cases hencode : context.codec.encode token value with
        | error e =>
            exact cleanup_sources h₂ (.codec e)
        | ok encoded =>
            refine obeys_request_bind ⟨h₂, trivial⟩ fun (later : ℚ) => ?_
            have h₃ := h₂.cons (x := ⟨.clock, later⟩) rfl
            have hloaded₃ := List.mem_cons_of_mem (⟨.clock, later⟩ : Exchange (Answer V)) hloaded₂
            split
            case isTrue =>
              exact ⟨h₃, hloaded₃⟩
            case isFalse =>
              refine obeys_request_bind
                ⟨h₃, token, value, htoken, rfl, hloaded₃, hencode⟩ fun published => ?_
              have h₄ := h₃.cons (x := ⟨.publishIfValue context.leaseKey (activeMarker token)
                context.resultKey encoded (completionMarker token) context.options.resultTtl,
                published⟩) rfl
              cases published with
              | error e =>
                  exact cleanup_sources h₄ (.raised List.mem_cons_self rfl)
              | ok published =>
                  cases published with
                  | true => exact ⟨h₄, List.mem_cons_of_mem _ hloaded₃⟩
                  | false => exact ⟨h₄, List.mem_cons_of_mem _ hloaded₃⟩

theorem acquiredLease_sources
    {deadline : ℚ} {log : Log V} {state : FlightState}
    (htoken : isOwnerToken token = true)
    (hsilent : Lacks isEvent log) :
    (acquiredLease context mode deadline token state).Obeys (Sources context)
      (SourcesPost context) log := by
  refine obeys_request_bind ⟨hsilent, trivial⟩ fun (now : ℚ) => ?_
  have h₁ := hsilent.cons (x := ⟨.clock, now⟩) rfl
  split
  case isTrue =>
    exact cleanup_sources h₁ (.timeout .deadlineExceeded)
  case isFalse =>
    refine obeys_request_bind ⟨h₁, trivial⟩ fun (acquired : ℚ) => ?_
    exact runOwner_sources htoken (h₁.cons rfl)

end Owner

section Loops

variable {context : FlightContext V} {mode : RedisMode}

/-- The exception of a snapshot that is not read. -/
theorem explained_of_readSnapshot
    {log : Log V} {snapshot : RedisCoordinationSnapshot} {e : FlightException}
    (hsaw : SawIn context log snapshot)
    (hread : readSnapshot context snapshot = .error e)
    (x : Exchange (Answer V)) :
    Explained context (x :: log) e :=
  .read (List.mem_cons_of_mem x hsaw) hread

/-- How the inner loop ends. -/
def PollTraced (context : FlightContext V)
    (r : Ended Nat (Option (V × RedisCoordinationOutcome))) (log : Log V) : Prop :=
  Unstarted log ∧
    match r.1 with
    | .ok none => True
    | .ok (some (value, outcome)) => outcome = .resultReused ∧ ReusedIn context log value
    | .error e => Explained context log e

theorem pollLoop_sources
    {deadline : ℚ} {polls : Nat} {log : Log V}
    (h : Unstarted log) :
    (pollLoop context deadline polls).Obeys (Sources context) (PollTraced context) log := by
  rw [pollLoop]
  refine obeys_beforeDeadline ⟨h.silent, trivial⟩ (fun _ => ⟨h.cons rfl rfl, .timeout _⟩)
    fun now _ => ?_
  have h₁ : Unstarted (⟨.clock, now⟩ :: log) := h.cons rfl rfl
  refine obeys_request_bind ⟨h₁.silent, rfl, rfl, rfl⟩ fun answer => ?_
  have h₂ : Unstarted (⟨.coordinationSnapshot context.leaseKey context.resultKey
    context.codec.maxEncodedSize, answer⟩ :: ⟨.clock, now⟩ :: log) := h₁.cons rfl rfl
  refine obeys_answered (fun e he => ⟨h₂, .raised List.mem_cons_self (by rw [he]; rfl)⟩)
    fun snapshot hsnapshot => ?_
  subst hsnapshot
  have hsaw : SawIn context (⟨.coordinationSnapshot context.leaseKey context.resultKey
      context.codec.maxEncodedSize, .ok snapshot⟩ :: ⟨.clock, now⟩ :: log) snapshot :=
    List.mem_cons_self
  refine obeys_beforeDeadline ⟨h₂.silent, trivial⟩ (fun _ => ⟨h₂.cons rfl rfl, .timeout _⟩)
    fun later _ => ?_
  have h₃ := h₂.cons (x := ⟨.clock, later⟩) rfl rfl
  refine obeys_answered (fun e he => ⟨h₃, explained_of_readSnapshot hsaw he _⟩)
    fun reading hreading => ?_
  cases reading with
  | absent =>
      exact ⟨h₃, trivial⟩
  | reused value =>
      exact ⟨h₃, rfl, snapshot, List.mem_cons_of_mem _ hsaw, hreading⟩
  | waiting =>
      dsimp only
      split
      case isTrue =>
        exact ⟨h₃, .timeout _⟩
      case isFalse hmore =>
        refine obeys_request_bind ⟨h₃.silent, trivial⟩ fun (now : ℚ) => ?_
        have h₄ := h₃.cons (x := ⟨.clock, now⟩) rfl rfl
        split
        case isTrue =>
          exact ⟨h₄, .timeout _⟩
        case isFalse =>
          refine obeys_request_bind ⟨h₄.silent, trivial⟩ fun (factor : ℚ) => ?_
          have h₅ := h₄.cons (x := ⟨.jitter, factor⟩) rfl rfl
          refine obeys_request_bind ⟨h₅.silent, trivial⟩ fun slept => ?_
          have h₆ := h₅.cons (x := ⟨.sleep _, slept⟩) rfl rfl
          refine obeys_answered
            (fun e he => ⟨h₆, .raised List.mem_cons_self (by rw [he]; rfl)⟩) fun _ _ => ?_
          exact pollLoop_sources h₆
termination_by context.options.maxPolls - polls

theorem runFlight_sources
    {deadline : ℚ} {log : Log V}
    (state : FlightState)
    (h : Unstarted log) :
    (runFlight context mode deadline state).Obeys (Sources context) (SourcesPost context)
      log := by
  rw [runFlight]
  refine obeys_beforeDeadline ⟨h.silent, trivial⟩
    (fun _ => ⟨(h.cons rfl rfl).silent, .timeout _⟩) fun now _ => ?_
  have h₁ := h.cons (x := ⟨.clock, now⟩) rfl rfl
  split
  case isTrue =>
    exact ⟨h₁.silent, .timeout _⟩
  case isFalse hmore =>
    refine obeys_request_bind ⟨h₁.silent, trivial⟩ fun (token : Text) => ?_
    have h₂ := h₁.cons (x := ⟨.newToken, token⟩) rfl rfl
    split
    case isTrue =>
      exact ⟨h₂.silent, .token⟩
    case isFalse htoken =>
      have htoken : isOwnerToken token = true := by simpa using htoken
      dsimp only
      refine obeys_beforeDeadline ⟨h₂.silent, trivial⟩
        (fun _ => ⟨(h₂.cons rfl rfl).silent, .timeout _⟩) fun now _ => ?_
      have h₃ := h₂.cons (x := ⟨.clock, now⟩) rfl rfl
      refine obeys_request_bind ⟨h₃.silent, trivial⟩ fun acquired => ?_
      have h₄ := h₃.cons (x := ⟨.setIfAbsent context.leaseKey (activeMarker token)
        context.options.leaseTtl, acquired⟩) rfl rfl
      refine obeys_answered
        (fun e he => ⟨h₄.silent, .raised List.mem_cons_self (by rw [he]; rfl)⟩)
        fun acquired _ => ?_
      cases acquired with
      | true =>
          exact acquiredLease_sources htoken h₄.silent
      | false =>
          refine obeys_beforeDeadline ⟨h₄.silent, trivial⟩
            (fun _ => ⟨(h₄.cons rfl rfl).silent, .timeout _⟩) fun now _ => ?_
          have h₅ := h₄.cons (x := ⟨.clock, now⟩) rfl rfl
          refine (pollLoop_sources h₅).bind ?_
          rintro ⟨found, polls⟩ log' ⟨hlog, htraced⟩
          refine obeys_answered (fun e he => ?_) fun found hfound => ?_
          · subst he
            exact ⟨hlog.silent, htraced⟩
          · subst hfound
            cases found with
            | some found =>
                obtain ⟨value, outcome⟩ := found
                obtain ⟨rfl, hreused⟩ := htraced
                exact ⟨hlog.silent, hlog.unloaded, hreused⟩
            | none =>
                exact runFlight_sources ⟨state.attempts + 1, polls, state.cleanupFailed⟩ hlog
termination_by context.options.maxAttempts - state.attempts

/-- The outcome of the event is the one of the result. -/
theorem reused_of_terminal
    {result : Except FlightException (V × RedisCoordinationOutcome)}
    (h : (terminal mode result).1 = .resultReused) :
    ∃ value, result = .ok (value, .resultReused) := by
  cases result with
  | ok found =>
      obtain ⟨value, outcome⟩ := found
      obtain rfl : outcome = .resultReused := h
      exact ⟨value, rfl⟩
  | error e =>
      dsimp only [terminal] at h
      split at h <;> cases h

/-- Where the result of a whole flight comes from. -/
structure FlightSources (context : FlightContext V) (r : Except FlightException V)
    (log : Log V) : Prop where
  value : ∀ value, r = .ok value →
    LoadedIn context log value ∨ Lacks isLoad log ∧ ReusedIn context log value
  exception : ∀ e, r = .error e → Explained context log e
  event : ∀ event, (⟨.onEvent event, ()⟩ : Exchange (Answer V)) ∈ log →
    event.outcome = .resultReused →
      ∃ value, r = .ok value ∧ Lacks isLoad log ∧ ReusedIn context log value

/-- The result of a flight that does not report it. -/
theorem FlightSources.of_traced
    {log : Log V} {result : Except FlightException (V × RedisCoordinationOutcome)}
    (hsilent : Lacks isEvent log)
    (htraced : Traced context log result) :
    FlightSources context (result.map Prod.fst) log := by
  refine ⟨?_, ?_, fun event hmem => absurd (hsilent _ hmem) (by simp [isEvent])⟩
  · rintro value hvalue
    cases result with
    | error e =>
        cases hvalue
    | ok found =>
        obtain ⟨value', outcome⟩ := found
        obtain rfl := Except.ok.inj hvalue
        cases outcome with
        | resultReused => exact .inr htraced
        | loaded => exact .inl htraced
        | leaseLost => exact .inl htraced
        | timeout => exact .inl htraced
        | failure => exact .inl htraced
        | cancelled => exact .inl htraced
  · intro e he
    cases result with
    | error e' =>
        obtain rfl := Except.error.inj he
        exact htraced
    | ok found =>
        cases he

/-- The same flight after its event. -/
theorem FlightSources.emitted
    {log : Log V} {result : Except FlightException (V × RedisCoordinationOutcome)}
    {event : RedisCoordinationEvent}
    (hsilent : Lacks isEvent log)
    (htraced : Traced context log result)
    (houtcome : event.outcome = (terminal mode result).1) :
    FlightSources context (result.map Prod.fst) (⟨.onEvent event, ()⟩ :: log) := by
  have hbefore := FlightSources.of_traced hsilent htraced
  refine ⟨fun value hvalue => ?_, fun e he => (hbefore.exception e he).cons _,
    fun event' hmem hreused => ?_⟩
  · exact (hbefore.value value hvalue).imp (List.mem_cons_of_mem _)
      fun h => ⟨h.1.cons rfl, h.2.cons _⟩
  · rcases List.mem_cons.mp hmem with heq | hmem
    · cases heq
      obtain ⟨value, rfl⟩ := reused_of_terminal (houtcome.symm.trans hreused)
      exact ⟨value, rfl, htraced.1.cons rfl, htraced.2.cons _⟩
    · exact absurd (hsilent _ hmem) (by simp [isEvent])

/-- **A whole flight**: its questions and its end come from its history. -/
theorem distributedLoad_sources
    (context : FlightContext V) (mode : RedisMode) :
    (distributedLoad context mode).Obeys (Sources context) (FlightSources context) [] := by
  have hnil : Unstarted ([] : Log V) := ⟨by simp [Lacks], by simp [Lacks]⟩
  refine obeys_request_bind ⟨hnil.silent, trivial⟩ fun (start : ℚ) => ?_
  refine (runFlight_sources ⟨0, 0, false⟩ (hnil.cons rfl rfl)).bind ?_
  rintro ⟨result, state⟩ log ⟨hsilent, htraced⟩
  dsimp only [emit]
  split
  case isTrue =>
    refine obeys_request_bind ⟨hsilent, fun hreused => ?_⟩ fun _ => ?_
    · obtain ⟨value, rfl⟩ := reused_of_terminal hreused
      exact ⟨value, htraced⟩
    · exact FlightSources.emitted hsilent htraced rfl
  case isFalse =>
    exact FlightSources.of_traced hsilent htraced

end Loops

end Sources

end CacheRedis
end Bluetape
