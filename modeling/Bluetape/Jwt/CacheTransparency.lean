import Bluetape.Jwt.TokenCache

/-!
# The cache of verified tokens is transparent

Every entry of the cache is the result of a verification against the snapshot whose epoch
is in its key, and no two snapshots of a run have one epoch.  So a hit is checked against
claims that a verification without the cache would find again, and a revocation, which
publishes a snapshot, leaves no entry that a later call can hit: `verified_cache_transparent`.
-/

namespace Bluetape
namespace Jwt

open Base

variable {K : Type} {provider : JWSProvider K}

/-- The token has three segments, of which this is the first one. -/
def HasHeader (token encodedHeader : Text) : Prop :=
  ∃ payload signature, validateTokenShape token = .ok (encodedHeader, payload, signature)

theorem HasHeader.unique
    {token a b : Text} (ha : HasHeader token a) (hb : HasHeader token b) :
    a = b := by
  obtain ⟨p, q, ha⟩ := ha
  obtain ⟨p', q', hb⟩ := hb
  rw [ha] at hb
  cases hb
  rfl

theorem HasHeader.encodes
    {token encodedHeader : Text} (h : HasHeader token encodedHeader) :
    ∃ encoded, encodeUtf8 token = some encoded := by
  obtain ⟨p, q, h⟩ := h
  simp only [validateTokenShape, except_bind_eq_ok, orRaise_eq_ok] at h
  obtain ⟨-, -, encoded, hencoded, -⟩ := h
  exact ⟨encoded, hencoded⟩

theorem HasHeader.verify
    {token encodedHeader : Text} (h : HasHeader token encodedHeader) (snapshot : KeySnapshot K)
    (now : Instant) :
    provider.verify token snapshot (some now) =
      provider.verifyUncached token encodedHeader snapshot now := by
  obtain ⟨p, q, h⟩ := h
  simp only [JWSProvider.verify, h]
  rfl

/-- SHA-256 has no collision between these tokens. -/
def JWSProvider.CollisionFree (provider : JWSProvider K) (tokens : Set Text) : Prop :=
  ∀ t ∈ tokens, ∀ u ∈ tokens, ∀ a b, encodeUtf8 t = some a → encodeUtf8 u = some b →
    provider.sha256 a = provider.sha256 b → a = b

theorem eq_of_digest_eq
    {tokens : Set Text} (hfree : provider.CollisionFree tokens) {t u a b : Text}
    (ht : t ∈ tokens) (hu : u ∈ tokens) (hta : HasHeader t a) (hub : HasHeader u b)
    (h : provider.sha256 ((encodeUtf8 t).getD []) = provider.sha256 ((encodeUtf8 u).getD [])) :
    t = u := by
  obtain ⟨encoded, hencoded⟩ := hta.encodes
  obtain ⟨encoded', hencoded'⟩ := hub.encodes
  rw [hencoded, hencoded'] at h
  obtain rfl := hfree t ht u hu encoded encoded' hencoded hencoded' h
  rw [encodeUtf8_eq_some_iff] at hencoded hencoded'
  exact Option.some.inj (hencoded.symm.trans hencoded')

/-! ## What holds of a run -/

/--
The snapshots of a run: no two of them have one epoch, and none is later than the
repository's.
-/
structure Published (published : Set (KeySnapshot K)) (repository : InMemoryKeyRepository K) :
    Prop where
  current : repository.snapshot ∈ published
  unique : ∀ a ∈ published, ∀ b ∈ published, a.epoch = b.epoch → a = b
  bounded : ∀ a ∈ published, a.epoch ≤ repository.snapshot.epoch

theorem Published.mutate
    {published : Set (KeySnapshot K)} {repository next : InMemoryKeyRepository K}
    {mutation : InMemoryKeyRepository.Mutation K}
    (h : Published published repository)
    (hmutate : repository.mutate mutation = .ok next) :
    Published (insert next.snapshot published) next := by
  have hepoch := InMemoryKeyRepository.epoch_of_mutate hmutate
  refine ⟨Set.mem_insert _ _, ?_, ?_⟩
  · rintro a (rfl | ha) b (rfl | hb) hab
    · rfl
    · have := h.bounded b hb
      omega
    · have := h.bounded a ha
      omega
    · exact h.unique a ha b hb hab
  · rintro a (rfl | ha)
    · exact le_rfl
    · have := h.bounded a ha
      omega

/-- The value is what the token is verified as against a published snapshot. -/
def Verifies (provider : JWSProvider K) (published : Set (KeySnapshot K)) (token : Text)
    (snapshot : KeySnapshot K) (now : Instant) (value : VerifiedToken) : Prop :=
  snapshot ∈ published ∧ ∃ encodedHeader, HasHeader token encodedHeader ∧
    provider.verifyUncached token encodedHeader snapshot now = .ok value

/-- Every entry of the cache is the result of a verification. -/
def Sound (provider : JWSProvider K) (tokens : Set Text) (published : Set (KeySnapshot K))
    (cache : VerifiedTokenCache) : Prop :=
  ∀ key value, cache.entries key = some value → ∃ token ∈ tokens, ∃ snapshot before,
    key = provider.cacheKey token snapshot ∧
      Verifies provider published token snapshot before value

/-- How far a call has come, and what it knows. -/
def PhaseSound (provider : JWSProvider K) (published : Set (KeySnapshot K)) (token : Text) :
    Phase K → Prop
  | .shaped encodedHeader => HasHeader token encodedHeader
  | .captured encodedHeader snapshot => HasHeader token encodedHeader ∧ snapshot ∈ published
  | .timed encodedHeader snapshot _ => HasHeader token encodedHeader ∧ snapshot ∈ published
  | .verified snapshot now value => Verifies provider published token snapshot now value
  | .checked snapshot now value _ => Verifies provider published token snapshot now value
  | .rejected error => validateTokenShape token = .error error
  | .finished snapshot reading outcome =>
      snapshot ∈ published ∧ outcome = provider.verify token snapshot reading

variable {tokens : Set Text} {published : Set (KeySnapshot K)}

theorem Verifies.mono
    {published' : Set (KeySnapshot K)} (hsub : published ⊆ published') {token : Text}
    {snapshot : KeySnapshot K} {now : Instant} {value : VerifiedToken}
    (h : Verifies provider published token snapshot now value) :
    Verifies provider published' token snapshot now value :=
  ⟨hsub h.1, h.2⟩

theorem PhaseSound.mono
    {published' : Set (KeySnapshot K)} (hsub : published ⊆ published') {token : Text}
    {phase : Phase K} (h : PhaseSound provider published token phase) :
    PhaseSound provider published' token phase := by
  cases phase with
  | shaped encodedHeader =>
      exact h
  | captured encodedHeader snapshot =>
      exact ⟨h.1, hsub h.2⟩
  | timed encodedHeader snapshot now =>
      exact ⟨h.1, hsub h.2⟩
  | verified snapshot now value =>
      exact Verifies.mono hsub h
  | checked snapshot now value liveEpoch =>
      exact Verifies.mono hsub h
  | rejected error =>
      exact h
  | finished snapshot reading outcome =>
      exact ⟨hsub h.1, h.2⟩

namespace Sound

theorem empty :
    Sound provider tokens published .empty := by
  intro key value h
  cases h

theorem mono
    {published' : Set (KeySnapshot K)} (hsub : published ⊆ published')
    {cache : VerifiedTokenCache} (h : Sound provider tokens published cache) :
    Sound provider tokens published' cache := by
  intro key value hentry
  obtain ⟨token, htoken, snapshot, before, hkey, hverifies⟩ := h key value hentry
  exact ⟨token, htoken, snapshot, before, hkey, hverifies.mono hsub⟩

theorem observeEpoch
    {cache : VerifiedTokenCache} (h : Sound provider tokens published cache) (epoch : Nat) :
    Sound provider tokens published (cache.observeEpoch epoch) := by
  intro key value hentry
  unfold VerifiedTokenCache.observeEpoch at hentry
  split at hentry
  case isTrue =>
    exact h key value hentry
  case isFalse =>
    cases hentry

theorem forget
    {cache : VerifiedTokenCache} (h : Sound provider tokens published cache) (key : CacheKey) :
    Sound provider tokens published (cache.forget key) := by
  intro key' value hentry
  by_cases hkey : key' = key
  · subst hkey
    simp [VerifiedTokenCache.forget] at hentry
  · simp only [VerifiedTokenCache.forget, Function.update_of_ne hkey] at hentry
    exact h key' value hentry

/-- An entry that is stored is the result of a verification. -/
theorem set
    {cache : VerifiedTokenCache} (h : Sound provider tokens published cache) {token : Text}
    (htoken : token ∈ tokens) {snapshot : KeySnapshot K} {now : Instant}
    {value : VerifiedToken} (hvalue : Verifies provider published token snapshot now value)
    (liveEpoch : Nat) :
    Sound provider tokens published
      (cache.set (provider.cacheKey token snapshot) value now liveEpoch) := by
  have hobserved := h.observeEpoch liveEpoch
  unfold VerifiedTokenCache.set
  simp only
  split
  case isTrue =>
    exact hobserved
  case isFalse =>
    intro key value' hentry
    by_cases hkey : key = provider.cacheKey token snapshot
    · subst hkey
      simp only [Function.update_self] at hentry
      obtain rfl := Option.some.inj hentry
      exact ⟨token, htoken, snapshot, now, rfl, hvalue⟩
    · simp only [Function.update_of_ne hkey] at hentry
      exact hobserved key value' hentry

/-- **A hit is what the same token verifies as against the same snapshot.** -/
theorem hit
    {cache : VerifiedTokenCache} (h : Sound provider tokens published cache)
    {repository : InMemoryKeyRepository K} (hpublished : Published published repository)
    (hfree : provider.CollisionFree tokens) {token encodedHeader : Text}
    (htoken : token ∈ tokens) (hheader : HasHeader token encodedHeader)
    {snapshot : KeySnapshot K} (hsnapshot : snapshot ∈ published) {value : VerifiedToken}
    (hentry : cache.entries (provider.cacheKey token snapshot) = some value) :
    ∃ before, provider.verifyUncached token encodedHeader snapshot before = .ok value := by
  obtain ⟨stored, hstored, snapshot', before, hkey, hmem, header', hheader', hverify⟩ :=
    h _ value hentry
  simp only [JWSProvider.cacheKey, CacheKey.mk.injEq, true_and] at hkey
  obtain rfl := eq_of_digest_eq hfree htoken hstored hheader hheader' hkey.1
  obtain rfl := hpublished.unique snapshot hsnapshot snapshot' hmem hkey.2
  obtain rfl := hheader.unique hheader'
  exact ⟨before, hverify⟩

end Sound

/-- The invariant of a run. -/
structure VerifierState.Inv (provider : JWSProvider K) (tokens : Set Text)
    (published : Set (KeySnapshot K)) (s : VerifierState K) : Prop where
  snapshots : Published published s.repository
  entries : ∀ cache ∈ s.cache, Sound provider tokens published cache
  calls : ∀ call ∈ s.calls,
    call.token ∈ tokens ∧ PhaseSound provider published call.token call.phase

namespace VerifierState

theorem inv_init
    (repository : InMemoryKeyRepository K) (cached : Bool) :
    Inv provider tokens {repository.snapshot} (init repository cached) where
  snapshots := by
    refine ⟨rfl, ?_, ?_⟩
    · rintro a rfl b rfl _
      rfl
    · rintro a rfl
      exact le_rfl
  entries := by
    rintro cache hcache
    cases cached with
    | false =>
        cases hcache
    | true =>
        cases hcache
        exact Sound.empty
  calls := by
    simp [init]

/-- A call that enters a sound phase. -/
theorem Inv.setPhase
    {s : VerifierState K} (hs : Inv provider tokens published s) {c : Nat} {call : VerifyCall K}
    (hcall : s.calls[c]? = some call) {phase : Phase K}
    (hphase : PhaseSound provider published call.token phase) :
    Inv provider tokens published (s.setPhase c call phase) where
  snapshots := hs.snapshots
  entries := hs.entries
  calls := by
    intro call' hcall'
    rcases List.mem_or_eq_of_mem_set hcall' with hmem | rfl
    · exact hs.calls call' hmem
    · exact ⟨(hs.calls call (List.mem_of_getElem? hcall)).1, hphase⟩

theorem Inv.withCache
    {s : VerifierState K} (hs : Inv provider tokens published s)
    (cache : Option VerifiedTokenCache)
    (hcache : ∀ c ∈ cache, Sound provider tokens published c) :
    Inv provider tokens published { s with cache := cache } :=
  ⟨hs.snapshots, hcache, hs.calls⟩

theorem phaseSound_start
    (token : Text) :
    PhaseSound provider published token (startPhase token) := by
  unfold startPhase
  split
  case h_1 e he =>
    exact he
  case h_2 encodedHeader payload signature hshape =>
    exact ⟨payload, signature, hshape⟩

theorem phaseSound_uncached
    {token encodedHeader : Text} (hheader : HasHeader token encodedHeader)
    {snapshot : KeySnapshot K} (hsnapshot : snapshot ∈ published) (now : Instant)
    (cached : Bool) :
    PhaseSound provider published token (uncachedPhase cached snapshot now
      (provider.verifyUncached token encodedHeader snapshot now)) := by
  have hverify :
      provider.verify token snapshot (some now) =
        provider.verifyUncached token encodedHeader snapshot now :=
    hheader.verify snapshot now
  cases hresult : provider.verifyUncached token encodedHeader snapshot now with
  | error e =>
      exact ⟨hsnapshot, by rw [hverify, hresult]⟩
  | ok value =>
      cases cached with
      | false =>
          exact ⟨hsnapshot, by rw [hverify, hresult]⟩
      | true =>
          exact ⟨hsnapshot, encodedHeader, hheader, hresult⟩

/-- A call that moves knows afterwards what its new phase says. -/
theorem Inv.moves
    {s : VerifierState K} (hs : Inv provider tokens published s)
    (hfree : provider.CollisionFree tokens) {c : Nat} {call : VerifyCall K}
    (hmem : call ∈ s.calls) {e : VerifierEvent K} {cache : Option VerifiedTokenCache}
    {phase : Phase K}
    (h : Moves provider s c call e cache phase) :
    PhaseSound provider published call.token phase ∧
      ∀ c ∈ cache, Sound provider tokens published c := by
  obtain ⟨htoken, hphase⟩ := hs.calls call hmem
  cases h with
  | capture heq =>
      rw [heq] at hphase
      exact ⟨⟨hphase, hs.snapshots.current⟩, hs.entries⟩
  | readClock now heq =>
      rw [heq] at hphase
      exact ⟨hphase, hs.entries⟩
  | clockFails heq =>
      rw [heq] at hphase
      obtain ⟨⟨p, q, hshape⟩, hsnapshot⟩ := hphase
      refine ⟨⟨hsnapshot, ?_⟩, hs.entries⟩
      simp only [JWSProvider.verify, hshape]
      rfl
  | verifyAlone heq hcache =>
      rw [heq] at hphase
      refine ⟨phaseSound_uncached hphase.1 hphase.2 _ false, ?_⟩
      rintro _ ⟨⟩
  | miss heq hcache =>
      rw [heq] at hphase
      refine ⟨phaseSound_uncached hphase.1 hphase.2 _ true, ?_⟩
      rintro _ ⟨⟩
      exact (hs.entries _ hcache).observeEpoch _
  | hit heq hcache hentry =>
      rw [heq] at hphase
      have hsound := (hs.entries _ hcache).observeEpoch
      obtain ⟨before, hverify⟩ :=
        (hsound _).hit hs.snapshots hfree htoken hphase.1 hphase.2 hentry
      refine ⟨⟨hphase.2, ?_⟩, ?_⟩
      · rw [hphase.1.verify, provider.verifyUncached_again hverify]
      · rintro _ ⟨⟩
        exact hsound _
  | readLiveEpoch heq =>
      rw [heq] at hphase
      exact ⟨hphase, hs.entries⟩
  | store heq =>
      rw [heq] at hphase
      refine ⟨⟨hphase.1, ?_⟩, ?_⟩
      · obtain ⟨-, encodedHeader, hheader, hverify⟩ := hphase
        rw [hheader.verify, hverify]
      · intro stored hstored
        obtain ⟨cache, hcache, rfl⟩ := Option.map_eq_some_iff.mp hstored
        exact (hs.entries cache hcache).set htoken hphase _

/-- **A step keeps the invariant**, for the snapshots published by then. -/
theorem Inv.step
    (hfree : provider.CollisionFree tokens) {s t : VerifierState K} {e : VerifierEvent K}
    (hs : Inv provider tokens published s) (hstep : Step provider s e t)
    (htokens : ∀ token, e = .start token → token ∈ tokens) :
    ∃ published', published ⊆ published' ∧ Inv provider tokens published' t := by
  cases stepCase hstep with
  | start token =>
      refine ⟨published, subset_rfl, hs.snapshots, hs.entries, ?_⟩
      intro call hcall
      rcases List.mem_append.mp hcall with hcall | hcall
      · exact hs.calls call hcall
      · obtain rfl := List.mem_singleton.mp hcall
        exact ⟨htokens token rfl, phaseSound_start token⟩
  | move hcall hmoves =>
      obtain ⟨hphase, hcache⟩ := hs.moves hfree (List.mem_of_getElem? hcall) hmoves
      exact ⟨published, subset_rfl, (hs.withCache _ hcache).setPhase hcall hphase⟩
  | refused mutation =>
      exact ⟨published, subset_rfl, hs⟩
  | @mutated mutation repository hmutate =>
      have hsub := Set.subset_insert repository.snapshot published
      refine ⟨_, hsub, hs.snapshots.mutate hmutate, ?_, ?_⟩
      · intro cache hcache
        exact (hs.entries cache hcache).mono hsub
      · intro call hcall
        exact ⟨(hs.calls call hcall).1, (hs.calls call hcall).2.mono hsub⟩
  | forget key =>
      refine ⟨published, subset_rfl, hs.withCache _ ?_⟩
      intro cache hcache
      obtain ⟨cache₀, hcache₀, rfl⟩ := Option.map_eq_some_iff.mp hcache
      exact (hs.entries cache₀ hcache₀).forget key

/-- The invariant holds at the end of a run. -/
theorem Inv.run
    (hfree : provider.CollisionFree tokens) {s t : VerifierState K}
    {es : List (VerifierEvent K)} (hrun : Run (Step provider) s es t)
    (htokens : ∀ token, .start token ∈ es → token ∈ tokens)
    (hs : Inv provider tokens published s) :
    ∃ published', Inv provider tokens published' t := by
  induction hrun generalizing published with
  | nil =>
      exact ⟨published, hs⟩
  | cons hstep _ ih =>
      obtain ⟨published', -, hs'⟩ := hs.step hfree hstep (by
        rintro token rfl
        exact htokens token List.mem_cons_self)
      exact ih (fun token hmem => htokens token (List.mem_cons_of_mem _ hmem)) hs'

end VerifierState

/-! ## Revocation -/

/-- The snapshot that a call has read. -/
def Phase.snapshot? : Phase K → Option (KeySnapshot K)
  | .shaped _ => none
  | .captured _ snapshot => some snapshot
  | .timed _ snapshot _ => some snapshot
  | .verified snapshot _ _ => some snapshot
  | .checked snapshot _ _ _ => some snapshot
  | .rejected _ => none
  | .finished snapshot _ _ => some snapshot

namespace VerifierState

theorem snapshot_startPhase
    (token : Text) :
    (startPhase token : Phase K).snapshot? = none := by
  unfold startPhase
  split
  · rfl
  · rfl

theorem snapshot_uncachedPhase
    (cached : Bool) (snapshot : KeySnapshot K) (now : Instant)
    (result : Except JWTError VerifiedToken) :
    (uncachedPhase cached snapshot now result).snapshot? = some snapshot := by
  cases result with
  | error e =>
      rfl
  | ok value =>
      cases cached with
      | false =>
          rfl
      | true =>
          rfl

/-- A call reads its snapshot once. -/
theorem Moves.snapshot
    {s : VerifierState K} {c : Nat} {call : VerifyCall K} {e : VerifierEvent K}
    {cache : Option VerifiedTokenCache} {phase : Phase K}
    (h : Moves provider s c call e cache phase) :
    phase.snapshot? = call.phase.snapshot? ∨ phase.snapshot? = some s.repository.snapshot := by
  cases h with
  | capture heq =>
      exact Or.inr rfl
  | readClock now heq =>
      rw [heq]
      exact Or.inl rfl
  | clockFails heq =>
      rw [heq]
      exact Or.inl rfl
  | verifyAlone heq hcache =>
      rw [heq, snapshot_uncachedPhase]
      exact Or.inl rfl
  | miss heq hcache =>
      rw [heq, snapshot_uncachedPhase]
      exact Or.inl rfl
  | hit heq hcache hentry =>
      rw [heq]
      exact Or.inl rfl
  | readLiveEpoch heq =>
      rw [heq]
      exact Or.inl rfl
  | store heq =>
      rw [heq]
      exact Or.inl rfl

/-- The key is revoked for the repository, and for every call from the `n`-th on. -/
structure RevokedFrom (n : Nat) (kid : Text) (s : VerifierState K) : Prop where
  repository : InMemoryKeyRepository.Revoked s.repository.snapshot kid
  calls : ∀ c call, n ≤ c → s.calls[c]? = some call →
    ∀ snapshot ∈ call.phase.snapshot?, InMemoryKeyRepository.Revoked snapshot kid

theorem RevokedFrom.step
    {n : Nat} {kid : Text} {s t : VerifierState K} {e : VerifierEvent K}
    (hs : RevokedFrom n kid s) (hstep : Step provider s e t) :
    RevokedFrom n kid t := by
  cases stepCase hstep with
  | start token =>
      refine ⟨hs.repository, ?_⟩
      intro c call hc hcall snapshot hsnapshot
      simp only [List.getElem?_append] at hcall
      split at hcall
      case isTrue =>
        exact hs.calls c call hc hcall snapshot hsnapshot
      case isFalse =>
        obtain rfl := List.mem_singleton.mp (List.mem_of_getElem? hcall)
        rw [snapshot_startPhase] at hsnapshot
        cases hsnapshot
  | @move _ c call cache phase hcall hmoves =>
      refine ⟨hs.repository, ?_⟩
      intro c' call' hc hcall' snapshot hsnapshot
      simp only [setPhase, List.getElem?_set] at hcall'
      split at hcall'
      case isTrue heq =>
        subst heq
        split at hcall'
        case isTrue =>
          obtain rfl := Option.some.inj hcall'
          rcases hmoves.snapshot with hsame | hread
          · exact hs.calls c call hc hcall snapshot (hsame ▸ hsnapshot)
          · rw [hread] at hsnapshot
            obtain rfl := Option.some.inj hsnapshot
            exact hs.repository
        case isFalse =>
          cases hcall'
      case isFalse =>
        exact hs.calls c' call' hc hcall' snapshot hsnapshot
  | refused mutation =>
      exact hs
  | mutated hmutate =>
      exact ⟨InMemoryKeyRepository.revoked_of_mutate hmutate hs.repository, hs.calls⟩
  | forget key =>
      exact ⟨hs.repository, hs.calls⟩

/-- After a revocation every later call reads a snapshot without the key. -/
theorem revokedFrom_of_revoke
    {kid : Text} {before : VerifierState K} {s t : VerifierState K}
    {next : InMemoryKeyRepository K} {es : List (VerifierEvent K)}
    (hmutate : before.repository.mutate (.revoke (some kid)) = .ok next)
    (hstep : Step provider before (.mutate (.revoke (some kid))) s)
    (hrun : Run (Step provider) s es t) :
    RevokedFrom before.calls.length kid t := by
  have hs : s = { before with repository := next } := by
    simp only [Step, VerifierState.step, hmutate] at hstep
    exact (Option.some.inj hstep).symm
  have hrevoked : RevokedFrom before.calls.length kid s := by
    subst hs
    refine ⟨InMemoryKeyRepository.revoked_of_revoke hmutate, ?_⟩
    intro c call hc hcall
    rw [List.getElem?_eq_none hc] at hcall
    cases hcall
  exact hrun.invariant (fun _ _ _ hs hstep => hs.step hstep) hrevoked

end VerifierState

/-! ## What a call has read -/

/-- The token of a call that starts. -/
def VerifierEvent.token? : VerifierEvent K → Option Text
  | .start token => some token
  | _ => none

/-- The event is one at which this call reads the repository or the clock. -/
def VerifierEvent.Reads (c : Nat) : VerifierEvent K → Prop
  | .readSnapshot c' => c' = c
  | .readClock c' _ => c' = c
  | _ => False

/-- A call has read nothing. -/
def Unread (c : Nat) (es : List (VerifierEvent K)) : Prop :=
  ∀ e ∈ es, ¬e.Reads c

/-- A call has read a snapshot: the repository's at its only event of that kind. -/
def ReadSnapshot (provider : JWSProvider K) (start : VerifierState K) (c : Nat)
    (snapshot : KeySnapshot K) (es : List (VerifierEvent K)) : Prop :=
  ∃ before after s, es = before ++ .readSnapshot c :: after ∧
    Run (VerifierState.Step provider) start before s ∧ snapshot = s.repository.snapshot ∧
    Unread c before ∧ Unread c after

/-- A call has read a snapshot and then the clock, which gave this reading. -/
def ReadClock (provider : JWSProvider K) (start : VerifierState K) (c : Nat)
    (snapshot : KeySnapshot K) (reading : Option Instant) (es : List (VerifierEvent K)) : Prop :=
  ∃ before after, es = before ++ .readClock c reading :: after ∧
    ReadSnapshot provider start c snapshot before ∧ Unread c after

section Reads

variable {start : VerifierState K} {c : Nat} {snapshot : KeySnapshot K}
  {reading : Option Instant} {es : List (VerifierEvent K)} {e : VerifierEvent K}

theorem Unread.concat
    (h : Unread c es)
    (he : ¬e.Reads c) :
    Unread c (es ++ [e]) := by
  intro e' he'
  rcases List.mem_append.mp he' with hmem | hmem
  · exact h e' hmem
  · obtain rfl := List.mem_singleton.mp hmem
    exact he

theorem ReadSnapshot.concat
    (h : ReadSnapshot provider start c snapshot es)
    (he : ¬e.Reads c) :
    ReadSnapshot provider start c snapshot (es ++ [e]) := by
  obtain ⟨before, after, s, rfl, hrun, hsnapshot, hbefore, hafter⟩ := h
  exact ⟨before, after ++ [e], s, by simp, hrun, hsnapshot, hbefore, hafter.concat he⟩

theorem ReadClock.concat
    (h : ReadClock provider start c snapshot reading es)
    (he : ¬e.Reads c) :
    ReadClock provider start c snapshot reading (es ++ [e]) := by
  obtain ⟨before, after, rfl, hread, hafter⟩ := h
  exact ⟨before, after ++ [e], by simp, hread, hafter.concat he⟩

/-- What a call in a phase has read. -/
def PhaseReads (provider : JWSProvider K) (start : VerifierState K) (c : Nat)
    (es : List (VerifierEvent K)) : Phase K → Prop
  | .shaped _ | .rejected _ => Unread c es
  | .captured _ snapshot => ReadSnapshot provider start c snapshot es
  | .timed _ snapshot now => ReadClock provider start c snapshot (some now) es
  | .verified snapshot now _ => ReadClock provider start c snapshot (some now) es
  | .checked snapshot now _ _ => ReadClock provider start c snapshot (some now) es
  | .finished snapshot reading _ => ReadClock provider start c snapshot reading es

theorem PhaseReads.concat
    {phase : Phase K}
    (h : PhaseReads provider start c es phase)
    (he : ¬e.Reads c) :
    PhaseReads provider start c (es ++ [e]) phase := by
  cases phase with
  | shaped encodedHeader => exact Unread.concat h he
  | captured encodedHeader snapshot => exact ReadSnapshot.concat h he
  | timed encodedHeader snapshot now => exact ReadClock.concat h he
  | verified snapshot now value => exact ReadClock.concat h he
  | checked snapshot now value liveEpoch => exact ReadClock.concat h he
  | rejected error => exact Unread.concat h he
  | finished snapshot reading outcome => exact ReadClock.concat h he

namespace VerifierState

/-- The calls of a run with what they have read at its events. -/
structure Traced (provider : JWSProvider K) (start : VerifierState K)
    (es : List (VerifierEvent K)) (s : VerifierState K) : Prop where
  run : Run (Step provider) start es s
  tokens : s.calls.map VerifyCall.token = es.filterMap VerifierEvent.token?
  reads : ∀ c call, s.calls[c]? = some call → PhaseReads provider start c es call.phase
  later : ∀ c, s.calls.length ≤ c → Unread c es

theorem phaseReads_startPhase
    {token : Text}
    (h : Unread c es) :
    PhaseReads provider start c es (startPhase token) := by
  unfold startPhase
  split
  · exact h
  · exact h

theorem phaseReads_uncachedPhase
    {now : Instant}
    (h : ReadClock provider start c snapshot (some now) es) (cached : Bool)
    (result : Except JWTError VerifiedToken) :
    PhaseReads provider start c es (uncachedPhase cached snapshot now result) := by
  cases result with
  | error e =>
      exact h
  | ok value =>
      cases cached with
      | false => exact h
      | true => exact h

/-- A call that moves has read what its new phase says. -/
theorem Moves.reads
    {s : VerifierState K} {call : VerifyCall K} {cache : Option VerifiedTokenCache}
    {phase : Phase K}
    (h : Moves provider s c call e cache phase)
    (hrun : Run (Step provider) start es s)
    (hreads : PhaseReads provider start c es call.phase) :
    PhaseReads provider start c (es ++ [e]) phase := by
  cases h with
  | capture heq =>
      rw [heq] at hreads
      exact ⟨es, [], s, rfl, hrun, rfl, hreads, by rintro _ ⟨⟩⟩
  | readClock now heq =>
      rw [heq] at hreads
      exact ⟨es, [], rfl, hreads, by rintro _ ⟨⟩⟩
  | clockFails heq =>
      rw [heq] at hreads
      exact ⟨es, [], rfl, hreads, by rintro _ ⟨⟩⟩
  | verifyAlone heq hcache =>
      rw [heq] at hreads
      refine phaseReads_uncachedPhase ?_ _ _
      exact hreads.concat fun h => h
  | miss heq hcache =>
      rw [heq] at hreads
      refine phaseReads_uncachedPhase ?_ _ _
      exact hreads.concat fun h => h
  | hit heq hcache hentry =>
      rw [heq] at hreads
      exact hreads.concat fun h => h
  | readLiveEpoch heq =>
      rw [heq] at hreads
      exact hreads.concat fun h => h
  | store heq =>
      rw [heq] at hreads
      exact hreads.concat fun h => h

/-- An event of one call is none at which another one reads. -/
theorem Moves.not_reads
    {s : VerifierState K} {call : VerifyCall K} {cache : Option VerifiedTokenCache}
    {phase : Phase K} {c' : Nat}
    (h : Moves provider s c call e cache phase)
    (hne : c ≠ c') :
    ¬e.Reads c' := by
  cases h with
  | capture => exact hne
  | readClock => exact hne
  | clockFails => exact hne
  | verifyAlone => exact id
  | miss => exact id
  | hit => exact id
  | readLiveEpoch => exact id
  | store => exact id

theorem Moves.token?
    {s : VerifierState K} {call : VerifyCall K} {cache : Option VerifiedTokenCache}
    {phase : Phase K}
    (h : Moves provider s c call e cache phase) :
    e.token? = none := by
  cases h with
  | _ => rfl

/-- An event at which no call reads leaves everything as it was read. -/
theorem Traced.idle
    {s t : VerifierState K}
    (hs : Traced provider start es s)
    (hstep : Step provider s e t)
    (hcalls : t.calls = s.calls)
    (htoken : e.token? = none)
    (he : ∀ c, ¬e.Reads c) :
    Traced provider start (es ++ [e]) t where
  run := hs.run.append (.single hstep)
  tokens := by
    rw [hcalls, hs.tokens, List.filterMap_append]
    simp [htoken]
  reads c call hcall := (hs.reads c call (hcalls ▸ hcall)).concat (he c)
  later c hc := (hs.later c (hcalls ▸ hc)).concat (he c)

/-- A step goes on with the trace. -/
theorem Traced.step
    {s t : VerifierState K}
    (hs : Traced provider start es s)
    (hstep : Step provider s e t) :
    Traced provider start (es ++ [e]) t := by
  have hrun := hs.run.append (.single hstep)
  cases stepCase hstep with
  | start token =>
      refine ⟨hrun, ?_, fun c call hcall => ?_, fun c hc => ?_⟩
      · simp [hs.tokens, VerifierEvent.token?]
      · simp only [List.getElem?_append] at hcall
        split at hcall
        case isTrue => exact (hs.reads c call hcall).concat fun h => h
        case isFalse hc =>
            obtain rfl := List.mem_singleton.mp (List.mem_of_getElem? hcall)
            exact phaseReads_startPhase ((hs.later c (not_lt.mp hc)).concat fun h => h)
      · simp only [List.length_append] at hc
        exact (hs.later c (by omega)).concat fun h => h
  | @move _ c call cache phase hcall hmoves =>
      refine ⟨hrun, ?_, fun c' call' hcall' => ?_, fun c' hc' => ?_⟩
      · have htokens : (s.calls.set c { call with phase := phase }).map VerifyCall.token =
            s.calls.map VerifyCall.token := by
          obtain ⟨hlt, rfl⟩ := List.getElem?_eq_some_iff.mp hcall
          rw [List.map_set, ← List.getElem_map VerifyCall.token (h := by rwa [List.length_map]),
            List.set_getElem_self]
        simp [setPhase, htokens, hs.tokens, hmoves.token?]
      · simp only [setPhase, List.getElem?_set] at hcall'
        split at hcall'
        case isTrue heq =>
            subst heq
            split at hcall'
            case isTrue =>
                obtain rfl := Option.some.inj hcall'
                exact hmoves.reads hs.run (hs.reads c call hcall)
            case isFalse =>
                cases hcall'
        case isFalse hne =>
            exact (hs.reads c' call' hcall').concat (hmoves.not_reads hne)
      · simp only [setPhase, List.length_set] at hc'
        refine (hs.later c' hc').concat (hmoves.not_reads ?_)
        rintro rfl
        rw [List.getElem?_eq_none hc'] at hcall
        cases hcall
  | refused mutation => exact hs.idle hstep rfl rfl fun _ h => h
  | mutated hmutate => exact hs.idle hstep rfl rfl fun _ h => h
  | forget key => exact hs.idle hstep rfl rfl fun _ h => h

/-- What the calls of a run have read. -/
theorem traced_run
    {repository : InMemoryKeyRepository K} {cached : Bool} {s : VerifierState K}
    (hrun : Run (Step provider) (init repository cached) es s) :
    Traced provider (init repository cached) es s := by
  have hinit : Traced provider (init repository cached) [] (init repository cached) :=
    ⟨.nil _, rfl, by rintro c call ⟨⟩, by rintro c _ _ ⟨⟩⟩
  exact Run.history (I := Traced provider (init repository cached))
    (fun _ _ _ _ hs hstep => hs.step hstep) hrun hinit

end VerifierState

end Reads

/-! ## The theorem -/

open VerifierState in
/--
**The cache of verified tokens is transparent.**  In every run the calls are those that were
started, and every call ends as a call without a cache does with the repository's snapshot at
the call's only reading of it and the time of the call's only reading of the clock after it.
No call that starts after `revoke(kid)` has returned accepts a token whose header names `kid`.
No call accepts a token that the temporal checks reject at the time of the call.
-/
theorem verified_cache_transparent
    (provider : JWSProvider K) (repository : InMemoryKeyRepository K) (cached : Bool)
    {es : List (VerifierEvent K)} {s : VerifierState K}
    (hfree : provider.CollisionFree {token | .start token ∈ es})
    (hrun : Run (Step provider) (init repository cached) es s) :
    s.calls.map VerifyCall.token = es.filterMap VerifierEvent.token? ∧
    (∀ c call, s.calls[c]? = some call →
      (∀ snapshot reading outcome, call.phase = .finished snapshot reading outcome →
        ReadClock provider (init repository cached) c snapshot reading es ∧
        outcome = provider.verify call.token snapshot reading) ∧
      (∀ error, call.phase = .rejected error →
        ∀ snapshot reading, provider.verify call.token snapshot reading = .error error)) ∧
    (∀ earlier kid later before next, es = earlier ++ .mutate (.revoke (some kid)) :: later →
      Run (Step provider) (init repository cached) earlier before →
      before.repository.mutate (.revoke (some kid)) = .ok next →
      ∀ c call snapshot reading value, before.calls.length ≤ c → s.calls[c]? = some call →
        call.phase = .finished snapshot reading (.ok value) →
        ¬provider.SignedUnder call.token kid) ∧
    (∀ call ∈ s.calls, ∀ snapshot reading value,
      call.phase = .finished snapshot reading (.ok value) →
      ∃ now, reading = some now ∧
        validateTemporalClaims value.claimFields provider.profile now = .ok ()) := by
  obtain ⟨published, hs⟩ :=
    Inv.run hfree hrun (fun token hmem => hmem) (inv_init repository cached)
  have hoperation : ∀ call ∈ s.calls, ∀ snapshot reading outcome,
      call.phase = .finished snapshot reading outcome →
      outcome = provider.verify call.token snapshot reading := by
    intro call hcall snapshot reading outcome hphase
    have hsound := (hs.calls call hcall).2
    rw [hphase] at hsound
    exact hsound.2
  have htraced := traced_run hrun
  refine ⟨htraced.tokens, ?_, ?_, ?_⟩
  · intro c call hcall
    have hmem := List.mem_of_getElem? hcall
    refine ⟨fun snapshot reading outcome hphase => ⟨?_, ?_⟩, ?_⟩
    · have hreads := htraced.reads c call hcall
      rw [hphase] at hreads
      exact hreads
    · exact hoperation call hmem snapshot reading outcome hphase
    intro error hphase snapshot reading
    have hsound : validateTokenShape call.token = .error error := by
      have hsound := (hs.calls call hmem).2
      rw [hphase] at hsound
      exact hsound
    simp only [JWSProvider.verify, hsound]
    rfl
  · rintro earlier kid later before next rfl hearlier hmutate c call snapshot reading value hc
      hcall hphase hsigned
    obtain ⟨mid, hpre, hpost⟩ := hrun.split
    obtain rfl := hpre.unique (fun _ _ _ _ h h' => Option.some.inj (h.symm.trans h')) hearlier
    cases hpost with
    | cons hstep hlater =>
        have hrevoked := revokedFrom_of_revoke hmutate hstep hlater
        have hverify := hoperation call (List.mem_of_getElem? hcall) snapshot reading _ hphase
        obtain ⟨hname, hlive⟩ := provider.kid_of_verify hverify.symm
        rw [hname.unique hsigned] at hlive
        exact hlive (hrevoked.calls c call hc hcall snapshot (by rw [hphase]; rfl))
  · intro call hcall snapshot reading value hphase
    exact provider.temporal_of_verify (hoperation call hcall snapshot reading _ hphase).symm

/-! ## A run with a hit and a revocation -/

/-- The header is `{"alg":"HS256","kid":"k","typ":"JWT"}`. -/
def demoToken : Text :=
  text "eyJhbGciOiJIUzI1NiIsImtpZCI6ImsiLCJ0eXAiOiJKV1QifQ.a.b"

/-- A provider whose library decodes every token to the same header and claims. -/
def demoProvider : JWSProvider Unit where
  algorithm := .HS256
  profile := strictProfile
  decode _ _ := .decoded
    (.dict [(text "alg", .str (text "HS256")), (text "kid", .str (text "k")),
      (text "typ", .str (text "JWT"))])
    (.dict [(text "iss", .str (text "i")), (text "aud", .str (text "a"))])
  sha256 encoded := encoded

set_option maxRecDepth 50000 in
theorem isKid_k :
    isKid (text "k") = true := by
  decide

/-- The key `k` is published and revoked; three calls verify a token of it. -/
def demoEvents : List (VerifierEvent Unit) :=
  [.mutate (.rotate (some ⟨text "k", .HS256, true, (), isKid_k⟩)),
    .start demoToken, .readSnapshot 0, .readClock 0 (fromTimestamp 0), .lookUp 0,
    .readLiveEpoch 0, .store 0,
    .start demoToken, .readSnapshot 1, .readClock 1 (fromTimestamp 1), .lookUp 1,
    .mutate (.revoke (some (text "k"))),
    .start demoToken, .readSnapshot 2, .readClock 2 (fromTimestamp 2), .lookUp 2]

/-- A repository without keys. -/
def emptyRepository : InMemoryKeyRepository Unit where
  snapshot := {
    entries := .empty
    epoch := 0
    named := by decide
    oneActive := by decide }
  algorithm := none

/-- The call has ended with a token. -/
def Phase.accepted : Phase K → Bool
  | .finished _ _ (.ok _) => true
  | _ => false

theorem verified_cache_transparent_demo :
    ∃ s, Run (VerifierState.Step demoProvider) (.init emptyRepository true) demoEvents s ∧
      s.calls.map (fun call => call.phase.accepted) = [true, true, false] ∧
      ∀ c call, s.calls[c]? = some call → ∀ snapshot reading outcome,
        call.phase = .finished snapshot reading outcome →
        ReadClock demoProvider (.init emptyRepository true) c snapshot reading demoEvents ∧
        outcome = demoProvider.verify call.token snapshot reading := by
  have h : (demoEvents.foldlM (VerifierState.step demoProvider)
      (.init emptyRepository true)).map (fun s => s.calls.map fun call => call.phase.accepted) =
      some [true, true, false] := by
    decide +kernel
  obtain ⟨s, hs, haccepted⟩ := Option.map_eq_some_iff.mp h
  have hrun : Run (VerifierState.Step demoProvider) (.init emptyRepository true) demoEvents s :=
    .of_foldlM hs
  obtain ⟨-, htransparent, -⟩ :=
    verified_cache_transparent demoProvider emptyRepository true (fun _ _ _ _ _ _ _ _ h => h) hrun
  exact ⟨s, hrun, haccepted, fun c call hcall => (htransparent c call hcall).1⟩

end Jwt
end Bluetape
