import Bluetape.CacheRedis.CoordinationBudget
import Bluetape.CacheRedis.CoordinationServer

/-!
# The cleanup of a failed owner

What a flight does after its loader, its codec or its publication has failed: it deletes
its own active marker, and the failure is what its caller sees.  On the server the delete
meets whatever the other flights, the clock and the failed publication have left.

* `distributedLoad_asks`: the commands of a flight are its own, and a failure is the last
  thing but the cleanup and the event.
-/

namespace Bluetape
namespace CacheRedis

open Base Serde Dialogue

/-! ## Markers -/

section Markers

/-- The bytes of an ASCII text are its encoding. -/
theorem encodeAscii_asciiBytes
    {t : Text}
    (h : ∀ p ∈ t, p.ord < 128) :
    encodeAscii t = some (asciiBytes t) := by
  induction t with
  | nil =>
      rfl
  | cons p t ih =>
      have hp := h p List.mem_cons_self
      have htail : t.mapM CodePoint.asciiByte? = some (asciiBytes t) :=
        ih fun q hq => h q (List.mem_cons_of_mem p hq)
      simp [encodeAscii, List.mapM_cons, CodePoint.asciiByte?, hp, htail, asciiBytes]

theorem asciiBytes_inj
    {t t' : Text}
    (h : ∀ p ∈ t, p.ord < 128) (h' : ∀ p ∈ t', p.ord < 128)
    (heq : asciiBytes t = asciiBytes t') :
    t = t' := by
  have hdecode := encodeAscii_eq_some_iff.mp (encodeAscii_asciiBytes h)
  have hdecode' := encodeAscii_eq_some_iff.mp (encodeAscii_asciiBytes h')
  rw [heq, hdecode'] at hdecode
  exact (Option.some.inj hdecode).symm

theorem ord_of_isOwnerToken
    {token : Text}
    (h : isOwnerToken token = true) :
    ∀ p ∈ token, p.ord < 128 := by
  have hcharacters : ∀ p ∈ tokenCharacters, p.ord < 128 := by
    decide
  simp only [isOwnerToken, Bool.and_eq_true] at h
  intro p hp
  exact hcharacters p (List.contains_iff_mem.mp (List.all_eq_true.mp h.2 p hp))

/-- Two owners have two active markers. -/
theorem activeMarker_inj
    {token token' : Text}
    (h : isOwnerToken token = true) (h' : isOwnerToken token' = true)
    (heq : activeMarker token = activeMarker token') :
    token = token' := by
  unfold activeMarker asciiBytes at heq
  rw [List.map_append, List.map_append] at heq
  exact asciiBytes_inj (ord_of_isOwnerToken h) (ord_of_isOwnerToken h')
    (List.append_cancel_left heq)

/-- A completed marker is never an active one. -/
theorem completionMarker_ne_activeMarker
    (token token' : Text) :
    completionMarker token ≠ activeMarker token' := by
  intro heq
  have hcompleted : (completionMarker token).head? = some (byte 'c') := by
    rfl
  have hactive : (activeMarker token').head? = some (byte 'a') := by
    rfl
  rw [heq, hactive] at hcompleted
  exact absurd (Option.some.inj hcompleted) (by decide)

end Markers

/-! ## Failures -/

section Failures

variable {V : Type}

/-- The lease was just acquired with the token, and the clock read twice since. -/
def Leased (context : FlightContext V) (token : Text) (acquired : ℚ) (log : Log V) : Prop :=
  isOwnerToken token = true ∧ ∃ checked earlier,
    log = ⟨.clock, acquired⟩ :: ⟨.clock, checked⟩ ::
      ⟨.setIfAbsent context.leaseKey (activeMarker token) context.options.leaseTtl, .ok true⟩ ::
        earlier

/-- The last exchange of the owner with this token has failed. -/
inductive Failed (context : FlightContext V) (token : Text) : FlightException → Log V → Prop
  | loader {acquired : ℚ} {e : FlightException} {log : Log V} :
      Leased context token acquired log →
      Failed context token e (⟨.loader context.key, .error e⟩ :: log)
  | codec {acquired now : ℚ} {value : V} {e : CodecException} {log : Log V} :
      Leased context token acquired log → now < acquired + context.options.leaseTtl →
      context.codec.encode token value = .error e →
      Failed context token (ofCodec e)
        (⟨.clock, now⟩ :: ⟨.loader context.key, .ok value⟩ :: log)
  | publish {encoded : Bytes} {e : FlightException} {log : Log V} :
      isOwnerToken token = true →
      Failed context token e
        (⟨.publishIfValue context.leaseKey (activeMarker token) context.resultKey encoded
          (completionMarker token) context.options.resultTtl, .error e⟩ :: log)
  | late {start now : ℚ} {log : Log V} :
      isOwnerToken token = true → Opened start log →
      start + context.options.waitTimeout ≤ now →
      Failed context token (.timeout .deadlineExceeded)
        (⟨.clock, now⟩ ::
          ⟨.setIfAbsent context.leaseKey (activeMarker token) context.options.leaseTtl,
            .ok true⟩ :: log)

/-- Nothing has failed so far. -/
def Unfailed (context : FlightContext V) (log : Log V) : Prop :=
  ∀ earlier, earlier <:+ log → ∀ token e, ¬ Failed context token e earlier

theorem Unfailed.cons
    {context : FlightContext V} {log : Log V} {x : Exchange (Answer V)}
    (h : Unfailed context log)
    (hx : ∀ token e, ¬ Failed context token e (x :: log)) :
    Unfailed context (x :: log) := by
  intro earlier hsuffix
  rcases List.suffix_cons_iff.mp hsuffix with rfl | hsuffix
  · exact hx
  · exact h earlier hsuffix

/-- What the caller sees of a failure after the cleanup has been answered. -/
def seen (mode : RedisMode) (primary : FlightException) :
    Except FlightException Bool → FlightException
  | .ok _ => primary
  | .error e => if mode = .async ∧ e.kind = .fatal then e else primary.addNote cleanupNote

/-- The cleanup is noted as failed. -/
def noted (mode : RedisMode) : Except FlightException Bool → Bool
  | .ok _ => false
  | .error e => !decide (mode = .async ∧ e.kind = .fatal)

/-- The exchanges before the lease, up to clock readings: nothing of an owner. -/
def idle : Log V → Bool
  | [] => true
  | ⟨.clock, _⟩ :: log => idle log
  | ⟨.setIfAbsent .., .ok true⟩ :: _ => false
  | ⟨.loader _, _⟩ :: _ => false
  | ⟨.publishIfValue .., _⟩ :: _ => false
  | _ :: _ => true

theorem idle_false_of_failed
    {context : FlightContext V} {token : Text} {e : FlightException} {log : Log V}
    (h : Failed context token e log) :
    idle log = false := by
  cases h <;> rfl

/-- The flight has not yet acquired a lease. -/
structure Calm (context : FlightContext V) (start : ℚ) (log : Log V) : Prop where
  opened : Opened start log
  idle : idle log = true
  unfailed : Unfailed context log

theorem Calm.cons
    {context : FlightContext V} {start : ℚ} {log : Log V}
    (h : Calm context start log)
    (x : Exchange (Answer V))
    (hidle : CacheRedis.idle (x :: log) = true) :
    Calm context start (x :: log) where
  opened := h.opened.cons x
  idle := hidle
  unfailed := h.unfailed.cons fun token e hfailed => by
    rw [idle_false_of_failed hfailed] at hidle
    cases hidle

/-! ## What a flight asks and how it ends -/

/-- The token was drawn by the flight, and is accepted. -/
def Drew (token : Text) (log : Log V) : Prop :=
  isOwnerToken token = true ∧ (⟨.newToken, token⟩ : Exchange (Answer V)) ∈ log

theorem Drew.cons
    {token : Text} {log : Log V}
    (h : Drew token log) (x : Exchange (Answer V)) :
    Drew token (x :: log) :=
  ⟨h.1, List.mem_cons_of_mem x h.2⟩

/-- The writing commands of a flight name its keys and its token; it deletes after a failure. -/
def Asks (context : FlightContext V) (log : Log V) : Question → Prop
  | .setIfAbsent key value _ =>
      key = context.leaseKey ∧ ∃ token, Drew token log ∧ value = activeMarker token
  | .publishIfValue key expected resultKey _ completion _ =>
      key = context.leaseKey ∧ resultKey = context.resultKey ∧
        ∃ token, Drew token log ∧ expected = activeMarker token ∧
          completion = completionMarker token
  | .deleteIfValue key value =>
      key = context.leaseKey ∧ ∃ token e, Drew token log ∧ value = activeMarker token ∧
        Failed context token e log
  | _ => True

/-- The flight has ended: nothing has failed, or the failure was cleaned up last. -/
def RunPost (context : FlightContext V) (mode : RedisMode)
    (r : Ended FlightState (V × RedisCoordinationOutcome)) (log : Log V) : Prop :=
  Unfailed context log ∨
    ∃ token e deleted earlier,
      log = ⟨.deleteIfValue context.leaseKey (activeMarker token), deleted⟩ :: earlier ∧
      Failed context token e earlier ∧
      (∀ older, older <:+ earlier → older ≠ earlier → ∀ token e, ¬ Failed context token e older) ∧
      r.1 = .error (seen mode e deleted) ∧ r.2.cleanupFailed = noted mode deleted

section Owner

variable {context : FlightContext V} {mode : RedisMode} {token : Text}

/-- The cleanup after the first failure. -/
theorem cleanup_asks
    {e : FlightException} {x : Exchange (Answer V)} {log : Log V} {state : FlightState}
    (hstate : state.cleanupFailed = false)
    (hdrew : Drew token (x :: log))
    (hfailed : Failed context token e (x :: log))
    (hunfailed : Unfailed context log) :
    (cleanup context mode token e state).Obeys (Asks context) (RunPost context mode)
      (x :: log) := by
  refine obeys_request_bind ⟨rfl, token, e, hdrew, rfl, hfailed⟩ fun deleted => ?_
  have holder : ∀ older, older <:+ x :: log → older ≠ x :: log →
      ∀ token e, ¬ Failed context token e older := by
    intro older hsuffix hne
    exact hunfailed older ((List.suffix_cons_iff.mp hsuffix).resolve_left hne)
  cases deleted with
  | ok found =>
      exact .inr ⟨token, e, _, _, rfl, hfailed, holder, rfl, hstate⟩
  | error error =>
      dsimp only
      split
      case isTrue hfatal =>
        refine .inr ⟨token, e, _, _, rfl, hfailed, holder, ?_, ?_⟩
        · simp [seen, hfatal]
        · simp [noted, hfatal, hstate]
      case isFalse hmild =>
        refine .inr ⟨token, e, _, _, rfl, hfailed, holder, ?_, ?_⟩
        · simp only [seen, if_neg hmild]
        · simp only [noted, hmild, decide_false, Bool.not_false]

/-- A lease has one token and one time. -/
theorem Leased.unique
    {token' : Text} {acquired acquired' : ℚ} {log : Log V}
    (h : Leased context token acquired log)
    (h' : Leased context token' acquired' log) :
    token = token' ∧ acquired = acquired' := by
  obtain ⟨htoken, checked, earlier, rfl⟩ := h
  obtain ⟨htoken', checked', earlier', heq⟩ := h'
  simp only [List.cons.injEq, Sigma.mk.injEq, true_and, heq_eq_eq] at heq
  obtain ⟨hacquired, -, hmarker, -⟩ := heq
  have hquestion := congrArg Sigma.fst hmarker
  injection hquestion with _ hmarkers _
  exact ⟨activeMarker_inj htoken htoken' hmarkers, eq_of_heq (Sigma.mk.inj hacquired).2⟩

/-- A failure right after an acquisition is a missed deadline. -/
theorem late_of_failed
    {key : Text} {marker : Bytes} {ttl now : ℚ} {log : Log V} {e : FlightException}
    (h : Failed context token e (⟨.clock, now⟩ :: ⟨.setIfAbsent key marker ttl, .ok true⟩ :: log)) :
    isOwnerToken token = true ∧ marker = activeMarker token ∧ e = .timeout .deadlineExceeded ∧
      ∃ start, Opened start log ∧ start + context.options.waitTimeout ≤ now := by
  cases h with
  | late htoken hopened hlate => exact ⟨htoken, rfl, rfl, _, hopened, hlate⟩

/-- A failure at a publication is its exception. -/
theorem publish_of_failed
    {key resultKey : Text} {expected encoded completion : Bytes} {ttl : ℚ}
    {published : Except FlightException Bool} {log : Log V} {e : FlightException}
    (h : Failed context token e
      (⟨.publishIfValue key expected resultKey encoded completion ttl, published⟩ :: log)) :
    isOwnerToken token = true ∧ expected = activeMarker token ∧ published = .error e := by
  cases h with
  | publish htoken => exact ⟨htoken, rfl, rfl⟩

theorem runOwner_asks
    {acquired : ℚ} {log : Log V} {state : FlightState}
    (hstate : state.cleanupFailed = false)
    (hdrew : Drew token log)
    (hleased : Leased context token acquired log)
    (hunfailed : Unfailed context log) :
    (runOwner context mode token (acquired + context.options.leaseTtl) state).Obeys
      (Asks context) (RunPost context mode) log := by
  refine obeys_request_bind trivial fun loaded => ?_
  have hdrew₁ := hdrew.cons ⟨.loader context.key, loaded⟩
  cases loaded with
  | error e =>
      exact cleanup_asks hstate hdrew₁ (.loader hleased) hunfailed
  | ok value =>
      have hunfailed₁ : Unfailed context (⟨.loader context.key, .ok value⟩ :: log) :=
        hunfailed.cons fun token e h => by cases h
      refine obeys_request_bind trivial fun (now : ℚ) => ?_
      have hdrew₂ := hdrew₁.cons ⟨.clock, now⟩
      -- a failure of the codec is one before the deadline of the lease
      have hcodec : ∀ token' e, Failed context token' e
          (⟨.clock, now⟩ :: ⟨.loader context.key, .ok value⟩ :: log) →
          now < acquired + context.options.leaseTtl ∧
            ∃ e', context.codec.encode token value = .error e' := by
        intro token' e h
        cases h with
        | codec hleased' hlt hencode =>
            obtain ⟨rfl, rfl⟩ := hleased.unique hleased'
            exact ⟨hlt, _, hencode⟩
      split
      case isTrue hlate =>
        refine .inl (hunfailed₁.cons fun token e h => ?_)
        exact absurd (hcodec token e h).1 (not_lt.mpr hlate)
      case isFalse hlate =>
        cases hencode : context.codec.encode token value with
        | error e =>
            exact cleanup_asks hstate hdrew₂ (.codec hleased (not_le.mp hlate) hencode)
              hunfailed₁
        | ok encoded =>
            have hunfailed₂ : Unfailed context
                (⟨.clock, now⟩ :: ⟨.loader context.key, .ok value⟩ :: log) :=
              hunfailed₁.cons fun token e h => by
                obtain ⟨-, e', he'⟩ := hcodec token e h
                rw [hencode] at he'
                cases he'
            refine obeys_request_bind trivial fun later => ?_
            have hdrew₃ := hdrew₂.cons ⟨.clock, later⟩
            have hunfailed₃ : Unfailed context (⟨.clock, later⟩ :: _) :=
              hunfailed₂.cons fun token e h => by cases h
            split
            case isTrue =>
              exact .inl hunfailed₃
            case isFalse =>
              refine obeys_request_bind ⟨rfl, rfl, token, hdrew₃, rfl, rfl⟩ fun published => ?_
              have hdrew₄ := hdrew₃.cons ⟨.publishIfValue context.leaseKey (activeMarker token)
                context.resultKey encoded (completionMarker token) context.options.resultTtl,
                published⟩
              cases published with
              | error e =>
                  exact cleanup_asks hstate hdrew₄ (.publish hleased.1) hunfailed₃
              | ok published =>
                  have hunfailed₄ : Unfailed context
                      (⟨.publishIfValue context.leaseKey (activeMarker token)
                        context.resultKey encoded (completionMarker token)
                        context.options.resultTtl, .ok published⟩ :: _) :=
                    hunfailed₃.cons fun token e h => by
                      obtain ⟨-, -, herror⟩ := publish_of_failed h
                      cases herror
                  cases published with
                  | true => exact .inl hunfailed₄
                  | false => exact .inl hunfailed₄

theorem acquiredLease_asks
    {start : ℚ} {log : Log V} {state : FlightState}
    (hstate : state.cleanupFailed = false)
    (hdrew : Drew token log)
    (hcalm : Calm context start log) :
    (acquiredLease context mode (start + context.options.waitTimeout) token state).Obeys
      (Asks context) (RunPost context mode)
      (⟨.setIfAbsent context.leaseKey (activeMarker token) context.options.leaseTtl, .ok true⟩ ::
        log) := by
  have hunfailed : Unfailed context (⟨.setIfAbsent context.leaseKey (activeMarker token)
      context.options.leaseTtl, .ok true⟩ :: log) :=
    hcalm.unfailed.cons fun token e h => by cases h
  have hdrew₁ := hdrew.cons ⟨.setIfAbsent context.leaseKey (activeMarker token)
    context.options.leaseTtl, .ok true⟩
  refine obeys_request_bind trivial fun (now : ℚ) => ?_
  have hdrew₂ := hdrew₁.cons ⟨.clock, now⟩
  split
  case isTrue hlate =>
    exact cleanup_asks hstate hdrew₂ (.late hdrew.1 hcalm.opened hlate) hunfailed
  case isFalse hlate =>
    have hunfailed₂ : Unfailed context (⟨.clock, now⟩ :: _) :=
      hunfailed.cons fun token' e h => by
        obtain ⟨-, -, -, start', hopened', hlate'⟩ := late_of_failed h
        rw [hopened'.unique hcalm.opened] at hlate'
        exact hlate hlate'
    refine obeys_request_bind trivial fun (acquired : ℚ) => ?_
    have hunfailed₃ : Unfailed context (⟨.clock, acquired⟩ :: _) :=
      hunfailed₂.cons fun token e h => by cases h
    exact runOwner_asks hstate (hdrew₂.cons _) ⟨hdrew.1, now, log, rfl⟩ hunfailed₃

end Owner

section Loops

variable {context : FlightContext V} {mode : RedisMode}

/-- The inner loop only waits. -/
theorem pollLoop_asks
    {start deadline : ℚ} {polls : Nat} {log : Log V}
    (h : Calm context start log) :
    (pollLoop context deadline polls).Obeys (Asks context)
      (fun _ log' => Calm context start log') log := by
  rw [pollLoop]
  refine obeys_beforeDeadline trivial (fun now => h.cons ⟨.clock, now⟩ h.idle) fun now _ => ?_
  have h₁ := h.cons ⟨.clock, now⟩ h.idle
  refine obeys_request_bind trivial fun snapshot => ?_
  have h₂ := h₁.cons ⟨.coordinationSnapshot context.leaseKey context.resultKey
    context.codec.maxEncodedSize, snapshot⟩ rfl
  refine obeys_answered (fun _ _ => h₂) fun snapshot _ => ?_
  refine obeys_beforeDeadline trivial (fun now => h₂.cons ⟨.clock, now⟩ h₂.idle) fun now _ => ?_
  have h₃ := h₂.cons ⟨.clock, now⟩ h₂.idle
  refine obeys_answered (fun _ _ => h₃) fun reading _ => ?_
  cases reading with
  | absent =>
      exact h₃
  | reused value =>
      exact h₃
  | waiting =>
      dsimp only
      split
      case isTrue =>
        exact h₃
      case isFalse hmore =>
        refine obeys_request_bind trivial fun now => ?_
        have h₄ := h₃.cons ⟨.clock, now⟩ h₃.idle
        split
        case isTrue =>
          exact h₄
        case isFalse =>
          refine obeys_request_bind trivial fun factor => ?_
          have h₅ := h₄.cons ⟨.jitter, factor⟩ rfl
          refine obeys_request_bind trivial fun slept => ?_
          have h₆ := h₅.cons ⟨.sleep _, slept⟩ rfl
          refine obeys_answered (fun _ _ => h₆) fun _ _ => ?_
          exact pollLoop_asks h₆
termination_by context.options.maxPolls - polls

/-- **A flight writes under its own name, and a failure ends it.** -/
theorem runFlight_asks
    {start : ℚ} {log : Log V}
    (state : FlightState)
    (hstate : state.cleanupFailed = false)
    (h : Calm context start log) :
    (runFlight context mode (start + context.options.waitTimeout) state).Obeys
      (Asks context) (RunPost context mode) log := by
  rw [runFlight]
  refine obeys_beforeDeadline trivial
    (fun now => .inl (h.cons ⟨.clock, now⟩ h.idle).unfailed) fun now _ => ?_
  have h₁ := h.cons ⟨.clock, now⟩ h.idle
  split
  case isTrue =>
    exact .inl h₁.unfailed
  case isFalse hmore =>
    refine obeys_request_bind trivial fun token => ?_
    have h₂ := h₁.cons ⟨.newToken, token⟩ rfl
    split
    case isTrue =>
      exact .inl h₂.unfailed
    case isFalse htoken =>
      have hdrew : Drew token (⟨.newToken, token⟩ :: ⟨.clock, now⟩ :: log) :=
        ⟨by simpa using htoken, List.mem_cons_self⟩
      dsimp only
      refine obeys_beforeDeadline trivial
        (fun now => .inl (h₂.cons ⟨.clock, now⟩ h₂.idle).unfailed) fun now _ => ?_
      have h₃ := h₂.cons ⟨.clock, now⟩ h₂.idle
      have hdrew₃ := hdrew.cons ⟨.clock, now⟩
      refine obeys_request_bind ⟨rfl, token, hdrew₃, rfl⟩ fun acquired => ?_
      cases acquired with
      | error e =>
          exact .inl (h₃.cons ⟨.setIfAbsent context.leaseKey (activeMarker token)
            context.options.leaseTtl, .error e⟩ rfl).unfailed
      | ok acquired =>
          cases acquired with
          | true =>
              exact acquiredLease_asks hstate hdrew₃ h₃
          | false =>
              have h₄ := h₃.cons ⟨.setIfAbsent context.leaseKey (activeMarker token)
                context.options.leaseTtl, .ok false⟩ rfl
              refine obeys_beforeDeadline trivial
                (fun now => .inl (h₄.cons ⟨.clock, now⟩ h₄.idle).unfailed) fun now _ => ?_
              have h₅ := h₄.cons ⟨.clock, now⟩ h₄.idle
              refine (pollLoop_asks h₅).bind ?_
              rintro ⟨found, polls⟩ log' hpost
              refine obeys_answered (fun _ _ => .inl hpost.unfailed) fun found _ => ?_
              cases found with
              | some found =>
                  exact .inl hpost.unfailed
              | none =>
                  exact runFlight_asks ⟨state.attempts + 1, polls, state.cleanupFailed⟩ hstate
                    hpost
termination_by context.options.maxAttempts - state.attempts

/-- A log fails in one way. -/
theorem Failed.unique
    {token token' : Text} {e e' : FlightException} {log : Log V}
    (h : Failed context token e log)
    (h' : Failed context token' e' log) :
    token = token' ∧ e = e' := by
  cases h with
  | loader hleased =>
      cases h' with
      | loader hleased' => exact ⟨(hleased.unique hleased').1, rfl⟩
  | codec hleased _ hencode =>
      cases h' with
      | codec hleased' _ hencode' =>
          obtain ⟨rfl, -⟩ := hleased.unique hleased'
          rw [hencode] at hencode'
          obtain rfl := Except.error.inj hencode'
          exact ⟨rfl, rfl⟩
  | publish htoken =>
      obtain ⟨htoken', hmarker, herror⟩ := publish_of_failed h'
      exact ⟨activeMarker_inj htoken htoken' hmarker, Except.error.inj herror⟩
  | late htoken =>
      obtain ⟨htoken', hmarker, he, -⟩ := late_of_failed h'
      exact ⟨activeMarker_inj htoken htoken' hmarker, he.symm⟩

/-- The events after a cleanup: one that tells how it ended, if there is an observer. -/
def Reported (context : FlightContext V) (mode : RedisMode) (failed : Bool) (reports : Log V) :
    Prop :=
  if context.observed then
    ∃ event, reports = [⟨.onEvent event, ()⟩] ∧ event.mode = mode ∧ event.cleanupFailed = failed
  else reports = []

/-- The failure was followed by the cleanup, its event, and the end of the flight. -/
structure Cleaned (context : FlightContext V) (mode : RedisMode) (token : Text)
    (e : FlightException) (deleted : Except FlightException Bool) (earlier log : Log V)
    (r : Except FlightException V) : Prop where
  asked : ∃ reports, Reported context mode (noted mode deleted) reports ∧
    log = reports ++
      ⟨.deleteIfValue context.leaseKey (activeMarker token), deleted⟩ :: earlier
  result : r = .error (seen mode e deleted)

/-- Every failure in the log was cleaned up. -/
def FlightEnd (context : FlightContext V) (mode : RedisMode) (r : Except FlightException V)
    (log : Log V) : Prop :=
  ∀ token e earlier, earlier <:+ log → Failed context token e earlier →
    ∃ deleted, Cleaned context mode token e deleted earlier log r

/-- **A whole flight**: its commands are its own, and every failure is cleaned up. -/
theorem distributedLoad_asks
    (context : FlightContext V) (mode : RedisMode) :
    (distributedLoad context mode).Obeys (Asks context) (FlightEnd context mode) [] := by
  refine obeys_request_bind trivial fun (start : ℚ) => ?_
  have hcalm : Calm context start [⟨.clock, start⟩] := by
    refine ⟨rfl, rfl, Unfailed.cons (fun earlier hsuffix token e h => ?_) fun token e h => ?_⟩
    · rw [List.suffix_nil.mp hsuffix] at h
      cases h
    · cases h
  refine (runFlight_asks ⟨0, 0, false⟩ rfl hcalm).bind ?_
  rintro ⟨result, state⟩ log hpost
  -- what is added to the log is no failure
  have hevent : ∀ event token e, ¬ Failed context token e
      ((⟨.onEvent event, ()⟩ : Exchange (Answer V)) :: log) := by
    intro event token e h
    cases h
  rcases hpost with hunfailed | ⟨token, e, deleted, earlier, rfl, hfailed, holder, hresult, hnoted⟩
  · dsimp only [emit]
    split
    case isTrue =>
      refine obeys_request_bind trivial fun _ => ?_
      intro token e earlier hsuffix h
      exact absurd h (hunfailed.cons (hevent _) earlier hsuffix token e)
    case isFalse =>
      intro token e earlier hsuffix h
      exact absurd h (hunfailed earlier hsuffix token e)
  · -- the only failure is the one before the cleanup
    have hone : ∀ token' e' older, older <:+
        ((⟨.deleteIfValue context.leaseKey (activeMarker token), deleted⟩ :
          Exchange (Answer V)) :: earlier) → Failed context token' e' older →
        older = earlier ∧ token' = token ∧ e' = e := by
      intro token' e' older hsuffix h
      rcases List.suffix_cons_iff.mp hsuffix with rfl | hsuffix
      · cases h
      · by_cases heq : older = earlier
        · subst heq
          obtain ⟨rfl, rfl⟩ := h.unique hfailed
          exact ⟨rfl, rfl, rfl⟩
        · exact absurd h (holder older hsuffix heq token' e')
    dsimp only at hresult hnoted
    subst hresult
    dsimp only [emit]
    split
    case isTrue hobserved =>
      refine obeys_request_bind trivial fun _ => ?_
      intro token' e' older hsuffix h
      rcases List.suffix_cons_iff.mp hsuffix with rfl | hsuffix
      · exact absurd h (hevent _ _ _)
      · obtain ⟨rfl, rfl, rfl⟩ := hone token' e' older hsuffix h
        refine ⟨deleted, ⟨[_], ?_, rfl⟩, rfl⟩
        rw [Reported, if_pos hobserved]
        exact ⟨_, rfl, rfl, hnoted⟩
    case isFalse hobserved =>
      intro token' e' older hsuffix h
      obtain ⟨rfl, rfl, rfl⟩ := hone token' e' older hsuffix h
      refine ⟨deleted, ⟨[], ?_, rfl⟩, rfl⟩
      rw [Reported, if_neg hobserved]

end Loops

end Failures

end CacheRedis
end Bluetape
