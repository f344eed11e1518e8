import Bluetape.Base.Run
import Bluetape.Jwt.Provider

/-!
# The cache of verified tokens

A provider with a cache, the repository that it reads, and calls of `verify` that
interleave with mutations of the repository.  A step is what happens under one lock: a
call captures a snapshot, reads the clock, looks its token up, reads the live epoch and
stores.  The TTL cache is a map that may forget an entry at any time.
-/

namespace Bluetape
namespace Jwt

open Base

variable {K : Type}

/-- `_CacheKey` -/
structure CacheKey where
  digest : Bytes
  fingerprint : Text
  epoch : Nat
deriving DecidableEq, Repr

/-- `_VerifiedTokenCache` -/
structure VerifiedTokenCache where
  entries : CacheKey → Option VerifiedToken
  observedEpoch : Option Nat

namespace VerifiedTokenCache

/-- A cache without entries. -/
def empty : VerifiedTokenCache :=
  ⟨fun _ => none, none⟩

/-- `_observe_epoch` -/
def observeEpoch (cache : VerifiedTokenCache) (epoch : Nat) : VerifiedTokenCache :=
  if cache.observedEpoch = none ∨ cache.observedEpoch = some epoch then
    { cache with observedEpoch := some epoch }
  else ⟨fun _ => none, some epoch⟩

/-- `get` -/
def get (cache : VerifiedTokenCache) (key : CacheKey) :
    Option VerifiedToken × VerifiedTokenCache :=
  let cache := cache.observeEpoch key.epoch
  (cache.entries key, cache)

/-- The token has no time left. -/
def expired (value : VerifiedToken) (now : Instant) : Prop :=
  ∃ expiresAt ∈ value.expiresAt, expiresAt.micros - now.micros ≤ 0

instance (value : VerifiedToken) (now : Instant) : Decidable (expired value now) :=
  inferInstanceAs (Decidable (∃ expiresAt ∈ value.expiresAt, _))

/-- `set`; its TTL says only when the entry is forgotten at the latest. -/
def set (cache : VerifiedTokenCache) (key : CacheKey) (value : VerifiedToken) (now : Instant)
    (liveEpoch : Nat) : VerifiedTokenCache :=
  let cache := cache.observeEpoch liveEpoch
  if liveEpoch ≠ key.epoch ∨ expired value now then cache
  else { cache with entries := Function.update cache.entries key (some value) }

/-- The TTL cache drops an entry. -/
def forget (cache : VerifiedTokenCache) (key : CacheKey) : VerifiedTokenCache :=
  { cache with entries := Function.update cache.entries key none }

end VerifiedTokenCache

/-- The key of a token that is verified against a snapshot. -/
def JWSProvider.cacheKey (provider : JWSProvider K) (token : Text) (snapshot : KeySnapshot K) :
    CacheKey where
  digest := provider.sha256 ((encodeUtf8 token).getD [])
  fingerprint := provider.profile.fingerprint
  epoch := snapshot.epoch

/-! ## Calls -/

/-- How far a call of `verify` has come. -/
inductive Phase (K : Type)
  | shaped (encodedHeader : Text)
  | captured (encodedHeader : Text) (snapshot : KeySnapshot K)
  | timed (encodedHeader : Text) (snapshot : KeySnapshot K) (now : Instant)
  | verified (snapshot : KeySnapshot K) (now : Instant) (value : VerifiedToken)
  | checked (snapshot : KeySnapshot K) (now : Instant) (value : VerifiedToken) (liveEpoch : Nat)
  | rejected (error : JWTError)
  | finished (snapshot : KeySnapshot K) (reading : Option Instant)
      (outcome : Except JWTError VerifiedToken)

/-- A call of `verify`; its token has been rejected at once, or the call has read a snapshot. -/
structure VerifyCall (K : Type) where
  token : Text
  phase : Phase K

/-- A provider with its cache, the repository that it reads and the calls so far. -/
structure VerifierState (K : Type) where
  repository : InMemoryKeyRepository K
  cache : Option VerifiedTokenCache
  calls : List (VerifyCall K)

/-- What can happen. -/
inductive VerifierEvent (K : Type)
  | start (token : Text)
  | readSnapshot (call : Nat)
  | readClock (call : Nat) (reading : Option Instant)
  | lookUp (call : Nat)
  | readLiveEpoch (call : Nat)
  | store (call : Nat)
  | mutate (mutation : InMemoryKeyRepository.Mutation K)
  | forget (key : CacheKey)

namespace VerifierState

/-- Before the first call. -/
def init (repository : InMemoryKeyRepository K) (cached : Bool) : VerifierState K where
  repository := repository
  cache := if cached then some .empty else none
  calls := []

/-- A call enters a phase. -/
def setPhase (s : VerifierState K) (c : Nat) (call : VerifyCall K) (phase : Phase K) :
    VerifierState K :=
  { s with calls := s.calls.set c { call with phase := phase } }

/-- The phase of a call whose token has been checked for its shape. -/
def startPhase (token : Text) : Phase K :=
  match validateTokenShape token with
  | .error e => .rejected e
  | .ok (encodedHeader, _, _) => .shaped encodedHeader

/-- The phase after the token has been verified without the cache. -/
def uncachedPhase (cached : Bool) (snapshot : KeySnapshot K) (now : Instant) :
    Except JWTError VerifiedToken → Phase K
  | .error e => .finished snapshot (some now) (.error e)
  | .ok value =>
      if cached then .verified snapshot now value
      else .finished snapshot (some now) (.ok value)

/-- The step of a call that has read the clock. -/
def lookUpCall (provider : JWSProvider K) (s : VerifierState K) (c : Nat) (call : VerifyCall K)
    (encodedHeader : Text) (snapshot : KeySnapshot K) (now : Instant) : VerifierState K :=
  let uncached := provider.verifyUncached call.token encodedHeader snapshot now
  match s.cache with
  | none => s.setPhase c call (uncachedPhase false snapshot now uncached)
  | some cache =>
      let (hit, cache) := cache.get (provider.cacheKey call.token snapshot)
      let s := { s with cache := some cache }
      match hit with
      | none => s.setPhase c call (uncachedPhase true snapshot now uncached)
      | some value =>
          s.setPhase c call (.finished snapshot (some now)
            ((provider.validateCached value now).map fun _ => value))

/-- One step, none where the event cannot happen. -/
def step (provider : JWSProvider K) (s : VerifierState K) :
    VerifierEvent K → Option (VerifierState K)
  | .start token => some { s with calls := s.calls ++ [⟨token, startPhase token⟩] }
  | .readSnapshot c => do
      let call ← s.calls[c]?
      match call.phase with
      | .shaped encodedHeader =>
          return s.setPhase c call (.captured encodedHeader s.repository.snapshot)
      | _ => none
  | .readClock c reading => do
      let call ← s.calls[c]?
      match call.phase, reading with
      | .captured encodedHeader snapshot, some now =>
          return s.setPhase c call (.timed encodedHeader snapshot now)
      | .captured _ snapshot, none =>
          return s.setPhase c call (.finished snapshot none (.error .configurationError))
      | _, _ => none
  | .lookUp c => do
      let call ← s.calls[c]?
      match call.phase with
      | .timed encodedHeader snapshot now =>
          return s.lookUpCall provider c call encodedHeader snapshot now
      | _ => none
  | .readLiveEpoch c => do
      let call ← s.calls[c]?
      match call.phase with
      | .verified snapshot now value =>
          return s.setPhase c call (.checked snapshot now value s.repository.snapshot.epoch)
      | _ => none
  | .store c => do
      let call ← s.calls[c]?
      match call.phase with
      | .checked snapshot now value liveEpoch =>
          let cache := s.cache.map fun cache =>
            cache.set (provider.cacheKey call.token snapshot) value now liveEpoch
          return { s with cache := cache }.setPhase c call
            (.finished snapshot (some now) (.ok value))
      | _ => none
  | .mutate mutation =>
      match s.repository.mutate mutation with
      | .error _ => some s
      | .ok repository => some { s with repository := repository }
  | .forget key => some { s with cache := s.cache.map fun cache => cache.forget key }

/-- A step as a relation. -/
def Step (provider : JWSProvider K) (s : VerifierState K) (e : VerifierEvent K)
    (t : VerifierState K) : Prop :=
  s.step provider e = some t

/-! ## What a step can do -/

/-- What a call does at an event: the cache after it and the phase that it enters. -/
inductive Moves (provider : JWSProvider K) (s : VerifierState K) (c : Nat)
    (call : VerifyCall K) :
    VerifierEvent K → Option VerifiedTokenCache → Phase K → Prop
  | capture {encodedHeader : Text} :
      call.phase = .shaped encodedHeader →
      Moves provider s c call (.readSnapshot c) s.cache
        (.captured encodedHeader s.repository.snapshot)
  | readClock {encodedHeader : Text} {snapshot : KeySnapshot K} (now : Instant) :
      call.phase = .captured encodedHeader snapshot →
      Moves provider s c call (.readClock c (some now)) s.cache
        (.timed encodedHeader snapshot now)
  | clockFails {encodedHeader : Text} {snapshot : KeySnapshot K} :
      call.phase = .captured encodedHeader snapshot →
      Moves provider s c call (.readClock c none) s.cache
        (.finished snapshot none (.error .configurationError))
  | verifyAlone {encodedHeader : Text} {snapshot : KeySnapshot K} {now : Instant} :
      call.phase = .timed encodedHeader snapshot now →
      s.cache = none →
      Moves provider s c call (.lookUp c) none (uncachedPhase false snapshot now
        (provider.verifyUncached call.token encodedHeader snapshot now))
  | miss {encodedHeader : Text} {snapshot : KeySnapshot K} {now : Instant}
      {cache : VerifiedTokenCache} :
      call.phase = .timed encodedHeader snapshot now →
      s.cache = some cache →
      Moves provider s c call (.lookUp c) (some (cache.observeEpoch snapshot.epoch))
        (uncachedPhase true snapshot now
          (provider.verifyUncached call.token encodedHeader snapshot now))
  | hit {encodedHeader : Text} {snapshot : KeySnapshot K} {now : Instant}
      {cache : VerifiedTokenCache} {value : VerifiedToken} :
      call.phase = .timed encodedHeader snapshot now →
      s.cache = some cache →
      (cache.observeEpoch snapshot.epoch).entries (provider.cacheKey call.token snapshot) =
        some value →
      Moves provider s c call (.lookUp c) (some (cache.observeEpoch snapshot.epoch))
        (.finished snapshot (some now) ((provider.validateCached value now).map fun _ => value))
  | readLiveEpoch {snapshot : KeySnapshot K} {now : Instant} {value : VerifiedToken} :
      call.phase = .verified snapshot now value →
      Moves provider s c call (.readLiveEpoch c) s.cache
        (.checked snapshot now value s.repository.snapshot.epoch)
  | store {snapshot : KeySnapshot K} {now : Instant} {value : VerifiedToken} {liveEpoch : Nat} :
      call.phase = .checked snapshot now value liveEpoch →
      Moves provider s c call (.store c)
        (s.cache.map fun cache =>
          cache.set (provider.cacheKey call.token snapshot) value now liveEpoch)
        (.finished snapshot (some now) (.ok value))

/-- A step is the start of a call, a move of a call, a mutation, or the loss of an entry. -/
inductive StepCase (provider : JWSProvider K) (s : VerifierState K) :
    VerifierEvent K → VerifierState K → Prop
  | start (token : Text) :
      StepCase provider s (.start token)
        { s with calls := s.calls ++ [⟨token, startPhase token⟩] }
  | move {e : VerifierEvent K} {c : Nat} {call : VerifyCall K}
      {cache : Option VerifiedTokenCache} {phase : Phase K} :
      s.calls[c]? = some call →
      Moves provider s c call e cache phase →
      StepCase provider s e ({ s with cache := cache }.setPhase c call phase)
  | refused (mutation : InMemoryKeyRepository.Mutation K) :
      StepCase provider s (.mutate mutation) s
  | mutated {mutation : InMemoryKeyRepository.Mutation K}
      {repository : InMemoryKeyRepository K} :
      s.repository.mutate mutation = .ok repository →
      StepCase provider s (.mutate mutation) { s with repository := repository }
  | forget (key : CacheKey) :
      StepCase provider s (.forget key)
        { s with cache := s.cache.map fun cache => cache.forget key }

theorem moves_lookUpCall
    {provider : JWSProvider K} {s : VerifierState K} (c : Nat) {call : VerifyCall K}
    {encodedHeader : Text} {snapshot : KeySnapshot K} {now : Instant}
    (hphase : call.phase = .timed encodedHeader snapshot now) :
    ∃ cache phase, Moves provider s c call (.lookUp c) cache phase ∧
      s.lookUpCall provider c call encodedHeader snapshot now =
        { s with cache := cache }.setPhase c call phase := by
  unfold VerifierState.lookUpCall
  cases hcache : s.cache with
  | none =>
      refine ⟨none, _, .verifyAlone hphase hcache, ?_⟩
      have hs : { s with cache := none } = s := by rw [← hcache]
      simp only [hs]
  | some cache =>
      simp only [VerifiedTokenCache.get]
      cases hhit : (cache.observeEpoch snapshot.epoch).entries
          (provider.cacheKey call.token snapshot) with
      | none =>
          refine ⟨_, _, .miss hphase hcache, ?_⟩
          simp only [JWSProvider.cacheKey] at hhit ⊢
          rw [hhit]
      | some value =>
          refine ⟨_, _, .hit hphase hcache hhit, ?_⟩
          simp only [JWSProvider.cacheKey] at hhit ⊢
          rw [hhit]

/-- **Every step is one of these.** -/
theorem stepCase
    {provider : JWSProvider K} {s t : VerifierState K} {e : VerifierEvent K}
    (h : Step provider s e t) :
    StepCase provider s e t := by
  cases e with
  | start token =>
      cases h
      exact .start token
  | readSnapshot c =>
      simp only [Step, VerifierState.step, Option.bind_eq_bind, Option.bind_eq_some_iff] at h
      obtain ⟨call, hcall, h⟩ := h
      split at h
      case h_1 encodedHeader hphase =>
        cases h
        exact .move hcall (.capture hphase)
      case h_2 =>
        cases h
  | readClock c reading =>
      simp only [Step, VerifierState.step, Option.bind_eq_bind, Option.bind_eq_some_iff] at h
      obtain ⟨call, hcall, h⟩ := h
      split at h
      case h_1 encodedHeader snapshot now hphase =>
        cases h
        exact .move hcall (.readClock now hphase)
      case h_2 encodedHeader snapshot hphase =>
        cases h
        exact .move hcall (.clockFails hphase)
      case h_3 =>
        cases h
  | lookUp c =>
      simp only [Step, VerifierState.step, Option.bind_eq_bind, Option.bind_eq_some_iff] at h
      obtain ⟨call, hcall, h⟩ := h
      split at h
      case h_1 encodedHeader snapshot now hphase =>
        cases h
        obtain ⟨cache, phase, hmoves, heq⟩ :=
          moves_lookUpCall c hphase
        rw [heq]
        exact .move hcall hmoves
      case h_2 =>
        cases h
  | readLiveEpoch c =>
      simp only [Step, VerifierState.step, Option.bind_eq_bind, Option.bind_eq_some_iff] at h
      obtain ⟨call, hcall, h⟩ := h
      split at h
      case h_1 snapshot now value hphase =>
        cases h
        exact .move hcall (.readLiveEpoch hphase)
      case h_2 =>
        cases h
  | store c =>
      simp only [Step, VerifierState.step, Option.bind_eq_bind, Option.bind_eq_some_iff] at h
      obtain ⟨call, hcall, h⟩ := h
      split at h
      case h_1 snapshot now value liveEpoch hphase =>
        cases h
        exact .move hcall (.store hphase)
      case h_2 =>
        cases h
  | mutate mutation =>
      simp only [Step, VerifierState.step] at h
      split at h
      case h_1 =>
        cases h
        exact .refused mutation
      case h_2 repository hmutate =>
        cases h
        exact .mutated hmutate
  | forget key =>
      cases h
      exact .forget key

end VerifierState

end Jwt
end Bluetape
