import Bluetape.Jwt.Payload
import Bluetape.Jwt.Profiles

/-!
# Issuance

`_apply_issuance_profile` compares instants to the microsecond; what it lets pass is then
serialised to whole seconds.  A token can be verified at some time when its instants are still
apart as whole seconds.

* `applyIssuanceProfile_eq_ok`: what the profile accepts;
* `Verifiable`: the parsed payload passes the checks at some time;
* `issued_verifiable_iff`: which issued tokens are verifiable.
-/

namespace Bluetape
namespace Jwt

open Base

/-! ## The code -/

section Code

/-- `IssuanceProfile`, without its clock; durations in microseconds. -/
structure IssuanceProfile where
  defaultTtl : Option Nat
  maxTtl : Option Nat
  addIssuedAt : Bool
  default_pos : ∀ ttl ∈ defaultTtl, 0 < ttl
  max_pos : ∀ ttl ∈ maxTtl, 0 < ttl
  default_le_max : ∀ ttl ∈ defaultTtl, ∀ limit ∈ maxTtl, ttl ≤ limit

/-- `JWTIssuancePolicyError` -/
inductive IssuanceError
  | issuancePolicyError
deriving DecidableEq, Repr

/-- A datetime plus a duration, none for `OverflowError` -/
def Instant.plus (t : Instant) (duration : Nat) : Option Instant :=
  if h : -62135596800000000 ≤ t.micros + duration ∧ t.micros + duration ≤ 253402300799999999 then
    some ⟨t.micros + duration, h⟩
  else none

variable (claims : TokenClaims) (profile : IssuanceProfile) (now : Instant)

/-- `effective_time` -/
def effectiveTime : Instant :=
  claims.issuedAt.getD now

/-- `issued_at`, as it is emitted -/
def emittedIssuedAt : Option Instant :=
  if claims.issuedAt = none ∧ profile.addIssuedAt = true then some now else claims.issuedAt

/-- `expires_at`, with the default -/
def issuedExpiry : Except IssuanceError (Option Instant) :=
  match claims.expiresAt, profile.defaultTtl with
  | none, some ttl =>
      (orRaise .issuancePolicyError ((effectiveTime claims now).plus ttl)).map some
  | expiresAt, _ => .ok expiresAt

/-- The checks of the expiry, if there is one. -/
def checkExpiry (effective : Instant) : Option Instant → Except IssuanceError Unit
  | none => .ok ()
  | some expiresAt => do
      raiseIf (expiresAt.micros ≤ effective.micros) IssuanceError.issuancePolicyError
      raiseIf (∃ notBefore ∈ claims.notBefore, expiresAt.micros ≤ notBefore.micros)
        IssuanceError.issuancePolicyError
      raiseIf (∃ maxTtl ∈ profile.maxTtl, expiresAt.micros - effective.micros > (maxTtl : Int))
        IssuanceError.issuancePolicyError

/-- `_apply_issuance_profile`, of a reference time in UTC -/
def applyIssuanceProfile : Except IssuanceError TokenClaims := do
  let expiresAt ← issuedExpiry claims profile now
  checkExpiry claims profile (effectiveTime claims now) expiresAt
  (TokenClaims.make
    { issuer := claims.issuer
      subject := claims.subject
      audience := claims.audience
      expiresAt := expiresAt
      notBefore := claims.notBefore
      issuedAt := emittedIssuedAt claims profile now
      jwtId := claims.jwtId
      custom := passed claims.custom }).mapError fun _ => .issuancePolicyError

end Code

/-! ## What the profile accepts -/

section Accepted

variable {claims applied : TokenClaims} {profile : IssuanceProfile} {now : Instant}

/-- What is issued are the claims with their expiry and the emitted time. -/
theorem applyIssuanceProfile_eq_ok
    (h : applyIssuanceProfile claims profile now = .ok applied) :
    issuedExpiry claims profile now = .ok applied.expiresAt ∧
      applied = claims.withInstants applied.expiresAt claims.notBefore
        (emittedIssuedAt claims profile now) := by
  obtain ⟨expiresAt, hexpiry, h⟩ := except_bind_eq_ok.mp h
  obtain ⟨⟨⟩, -, h⟩ := except_bind_eq_ok.mp h
  have hmake := TokenClaims.make_fields (claims.withInstants expiresAt claims.notBefore
    (emittedIssuedAt claims profile now))
  have hmade : claims.withInstants expiresAt claims.notBefore
      (emittedIssuedAt claims profile now) = applied := by
    refine Except.ok.inj (Eq.trans (Eq.symm ?_) h)
    exact congrArg (Except.mapError fun _ => IssuanceError.issuancePolicyError) hmake
  subst hmade
  exact ⟨hexpiry, rfl⟩

end Accepted

/-! ## Verifying it -/

section Verifiable

/--
The claims that a payload gives pass the check of their order and, unless they are not valid
before some time after the issue, all temporal checks at some time, whatever the policy is that
does not bound the age of tokens.
-/
def Verifiable (applied : TokenClaims) (effective : Instant) : Prop :=
  ∃ parsed, claimsFromPayload (claimsToPayload applied) = .ok parsed ∧
    (∀ expiresAt ∈ parsed.expiresAt, ∀ notBefore ∈ parsed.notBefore,
      ¬ expiresAt.micros ≤ notBefore.micros) ∧
    ((∀ notBefore ∈ applied.notBefore, notBefore.micros ≤ effective.micros) →
      ∀ profile : ValidationProfile, profile.maxTokenAge = none →
        ∃ now, validateTemporalClaims parsed.toClaimFields profile now = .ok ())

/--
The instants are apart as whole seconds: all can be read, a time before which the token is not
valid is before the expiry, and so is the emitted time of an issue that is not before it.
-/
structure SecondsApart (claims : TokenClaims) (profile : IssuanceProfile)
    (now expiresAt : Instant) : Prop where
  expiry_readable : expiresAt.wireSecond ≤ 253402300799
  notBefore_lt : ∀ notBefore ∈ claims.notBefore, notBefore.wireSecond < expiresAt.wireSecond
  issuedAt_readable : ∀ issuedAt ∈ emittedIssuedAt claims profile now,
    issuedAt.wireSecond ≤ 253402300799
  issuedAt_lt :
    (∀ notBefore ∈ claims.notBefore,
      notBefore.micros ≤ (effectiveTime claims now).micros) →
    ∀ issuedAt ∈ emittedIssuedAt claims profile now,
      issuedAt.wireSecond < expiresAt.wireSecond
  expiry_late : claims.notBefore = none → emittedIssuedAt claims profile now = none →
    -62135596800 < expiresAt.wireSecond

theorem Instant.le_wireSecond
    (t : Instant) :
    -62135596800 ≤ t.wireSecond := by
  have hrange := t.range
  have hsecond : t.second = t.micros / 1000000 := rfl
  unfold Instant.wireSecond
  split
  all_goals omega

/-- An instant that can be read comes back as its numeric date. -/
theorem onWire_some_eq_ok
    {t : Instant} {u : Option Instant} :
    onWire (some t) = .ok u ↔ ∃ v, u = some v ∧ v.micros = t.wireSecond * 1000000 := by
  rw [onWire]
  constructor
  · intro h
    cases hread : numericDateToDatetime (.int (datetimeToNumericDate t)) with
    | error e =>
        rw [hread] at h
        cases h
    | ok v =>
        rw [hread] at h
        exact ⟨v, (Except.ok.inj h).symm, numericDateToDatetime_eq_ok.mp hread⟩
  · rintro ⟨v, rfl, hv⟩
    rw [numericDateToDatetime_eq_ok.mpr hv]
    rfl

theorem onWire_readable
    {t : Instant}
    (h : t.wireSecond ≤ 253402300799) :
    ∃ v : Instant, v.micros = t.wireSecond * 1000000 ∧ onWire (some t) = .ok (some v) := by
  have hlow := t.le_wireSecond
  have hrange : -62135596800000000 ≤ t.wireSecond * 1000000 ∧
      t.wireSecond * 1000000 ≤ 253402300799999999 := by
    omega
  exact ⟨⟨_, hrange⟩, rfl, onWire_some_eq_ok.mpr ⟨_, rfl, rfl⟩⟩

theorem onWire_all_readable
    {t : Option Instant}
    (h : ∀ x ∈ t, x.wireSecond ≤ 253402300799) :
    ∃ u : Option Instant, onWire t = .ok u ∧ (u = none → t = none) ∧
      ∀ v ∈ u, ∃ x ∈ t, v.micros = x.wireSecond * 1000000 := by
  cases t with
  | none =>
      exact ⟨none, rfl, fun _ => rfl, by simp⟩
  | some x =>
      obtain ⟨v, hv, hread⟩ := onWire_readable (h x rfl)
      refine ⟨some v, hread, by simp, fun w hw => ⟨x, rfl, ?_⟩⟩
      rw [← Option.some.inj hw]
      exact hv

/-- The temporal checks of a policy that does not bound the age of tokens. -/
theorem validateTemporalClaims_iff
    {claims : ClaimFields JSONValue} {profile : ValidationProfile} {now : Instant}
    (hage : profile.maxTokenAge = none) :
    validateTemporalClaims claims profile now = .ok () ↔
      (∀ expiresAt ∈ claims.expiresAt, now.micros - expiresAt.micros < profile.clockSkew) ∧
      (∀ notBefore ∈ claims.notBefore, notBefore.micros - now.micros ≤ profile.clockSkew) ∧
      (∀ issuedAt ∈ claims.issuedAt, issuedAt.micros - now.micros ≤ profile.clockSkew) ∧
      ∀ expiresAt ∈ claims.expiresAt, ∀ notBefore ∈ claims.notBefore,
        ¬ expiresAt.micros ≤ notBefore.micros := by
  have hnone : validateTokenAge claims profile now = .ok () := by
    rw [validateTokenAge, hage]
  constructor
  · intro h
    simp only [validateTemporalClaims, except_bind_eq_ok, raiseIf_eq_ok] at h
    obtain ⟨-, hexpired, -, hearly, -, hfuture, -, horder, -⟩ := h
    refine ⟨fun e he => ?_, fun n hn => ?_, fun i hi => ?_, fun e he n hn hle => ?_⟩
    · exact not_le.mp fun hle => hexpired ⟨e, he, hle⟩
    · exact not_lt.mp fun hlt => hearly ⟨n, hn, hlt⟩
    · exact not_lt.mp fun hlt => hfuture ⟨i, hi, hlt⟩
    · exact horder ⟨e, he, n, hn, hle⟩
  · rintro ⟨hexpired, hearly, hfuture, horder⟩
    simp only [validateTemporalClaims, except_bind_eq_ok, raiseIf_eq_ok]
    refine ⟨(), ?_, (), ?_, (), ?_, (), ?_, hnone⟩
    · rintro ⟨e, he, hle⟩
      exact absurd (hexpired e he) (not_lt.mpr hle)
    · rintro ⟨n, hn, hlt⟩
      exact absurd (hearly n hn) (not_le.mpr hlt)
    · rintro ⟨i, hi, hlt⟩
      exact absurd (hfuture i hi) (not_le.mpr hlt)
    · rintro ⟨e, he, n, hn, hle⟩
      exact horder e he n hn hle

/-- There is a time from some instants on and before an expiry. -/
theorem exists_time
    {expiresAt : Instant} {notBefore issuedAt : Option Instant}
    (hnotBefore : ∀ x ∈ notBefore, x.micros < expiresAt.micros)
    (hissuedAt : ∀ x ∈ issuedAt, x.micros < expiresAt.micros)
    (hlate : notBefore = none → issuedAt = none → -62135596800000000 < expiresAt.micros) :
    ∃ now : Instant, now.micros < expiresAt.micros ∧ (∀ x ∈ notBefore, x.micros ≤ now.micros) ∧
      ∀ x ∈ issuedAt, x.micros ≤ now.micros := by
  cases notBefore with
  | none =>
      cases issuedAt with
      | none =>
          have hrange := expiresAt.range
          have hlate := hlate rfl rfl
          refine ⟨⟨expiresAt.micros - 1, by omega⟩, ?_, by simp, by simp⟩
          dsimp only
          omega
      | some i =>
          exact ⟨i, hissuedAt i rfl, by simp, by simp⟩
  | some n =>
      cases issuedAt with
      | none =>
          exact ⟨n, hnotBefore n rfl, by simp, by simp⟩
      | some i =>
          rcases Int.le_total n.micros i.micros with hle | hle
          · exact ⟨i, hissuedAt i rfl, by simpa using hle, by simp⟩
          · exact ⟨n, hnotBefore n rfl, by simp, by simpa using hle⟩

end Verifiable

/-! ## Which tokens can be verified -/

section Issued

variable {claims applied : TokenClaims} {profile : IssuanceProfile} {now expiresAt : Instant}

/-- Instants that are apart as whole seconds can be verified. -/
theorem verifiable_of_secondsApart
    (happlied : applied = claims.withInstants (some expiresAt) claims.notBefore
      (emittedIssuedAt claims profile now))
    (h : SecondsApart claims profile now expiresAt) :
    Verifiable applied (effectiveTime claims now) := by
  subst happlied
  obtain ⟨e, he, hreadExpiry⟩ := onWire_readable h.expiry_readable
  obtain ⟨n, hreadNotBefore, hnNone, hn⟩ := onWire_all_readable fun x hx =>
    (h.notBefore_lt x hx).le.trans h.expiry_readable
  obtain ⟨i, hreadIssuedAt, hiNone, hi⟩ := onWire_all_readable h.issuedAt_readable
  have horder : ∀ x ∈ n, x.micros < e.micros := by
    intro x hx
    obtain ⟨y, hy, hxy⟩ := hn x hx
    have := h.notBefore_lt y hy
    omega
  refine ⟨claims.withInstants (some e) n i,
    claimsFromPayload_eq_ok.mpr ⟨hreadExpiry, hreadNotBefore, hreadIssuedAt, rfl⟩, ?_, ?_⟩
  · intro x hx y hy
    obtain rfl := Option.some.inj hx
    exact not_le.mpr (horder y hy)
  · intro hbefore policy hage
    have hissued : ∀ x ∈ i, x.micros < e.micros := by
      intro x hx
      obtain ⟨y, hy, hxy⟩ := hi x hx
      have := h.issuedAt_lt hbefore y hy
      omega
    have hlate : n = none → i = none → -62135596800000000 < e.micros := by
      intro hnEq hiEq
      have := h.expiry_late (hnNone hnEq) (hiNone hiEq)
      omega
    obtain ⟨time, hexpiry, hnotBefore, hissuedAt⟩ := exists_time horder hissued hlate
    refine ⟨time, (validateTemporalClaims_iff hage).mpr ⟨fun x hx => ?_, fun x hx => ?_,
      fun x hx => ?_, fun x hx y hy => ?_⟩⟩
    · obtain rfl := Option.some.inj hx
      omega
    · have := hnotBefore x hx
      omega
    · have := hissuedAt x hx
      omega
    · obtain rfl := Option.some.inj hx
      exact not_le.mpr (horder y hy)

/-- Tokens that can be verified have instants that are apart as whole seconds. -/
theorem secondsApart_of_verifiable
    (happlied : applied = claims.withInstants (some expiresAt) claims.notBefore
      (emittedIssuedAt claims profile now))
    (h : Verifiable applied (effectiveTime claims now)) :
    SecondsApart claims profile now expiresAt := by
  subst happlied
  obtain ⟨parsed, hparsed, horder, htimes⟩ := h
  obtain ⟨hexpiry, hnotBefore, hissuedAt, -⟩ := claimsFromPayload_eq_ok.mp hparsed
  obtain ⟨e, heq, he⟩ := onWire_some_eq_ok.mp hexpiry
  have hread : ∀ {t u : Option Instant}, onWire t = .ok u → ∀ x ∈ t,
      ∃ v ∈ u, v.micros = x.wireSecond * 1000000 := by
    rintro t u hwire x rfl
    obtain ⟨v, rfl, hv⟩ := onWire_some_eq_ok.mp hwire
    exact ⟨v, rfl, hv⟩
  -- the earliest policy to look at has no clock skew
  have hstrict : (∀ notBefore ∈ claims.notBefore,
      notBefore.micros ≤ (effectiveTime claims now).micros) →
      ∃ time : Instant, time.micros < e.micros ∧
        ∀ i ∈ parsed.issuedAt, i.micros ≤ time.micros := by
    intro hbefore
    obtain ⟨time, htime⟩ := htimes hbefore strictProfile rfl
    obtain ⟨hexpired, -, hfuture, -⟩ := (validateTemporalClaims_iff rfl).mp htime
    refine ⟨time, ?_, fun i hi => ?_⟩
    · have := hexpired e heq
      simp only [strictProfile, Nat.cast_zero] at this
      omega
    · have := hfuture i hi
      simp only [strictProfile, Nat.cast_zero] at this
      omega
  have hrange := e.range
  refine ⟨by omega, fun x hx => ?_, fun x hx => ?_, fun hbefore x hx => ?_, fun hn hi => ?_⟩
  · obtain ⟨v, hv, hmicros⟩ := hread hnotBefore x hx
    have := horder e heq v hv
    omega
  · obtain ⟨v, hv, hmicros⟩ := hread hissuedAt x hx
    have := v.range
    omega
  · obtain ⟨v, hv, hmicros⟩ := hread hissuedAt x hx
    obtain ⟨time, hlt, hle⟩ := hstrict hbefore
    have := hle v hv
    omega
  · obtain ⟨time, hlt, -⟩ := hstrict (by simp [hn])
    have := time.range
    omega

/--
**An issued token with an expiry is verifiable** exactly when its instants are apart as whole
seconds.
-/
theorem issued_verifiable_iff
    (h : applyIssuanceProfile claims profile now = .ok applied)
    (hexpiry : issuedExpiry claims profile now = .ok (some expiresAt)) :
    Verifiable applied (effectiveTime claims now) ↔
      SecondsApart claims profile now expiresAt := by
  obtain ⟨hsame, happlied⟩ := applyIssuanceProfile_eq_ok h
  rw [hexpiry] at hsame
  rw [← Except.ok.inj hsame] at happlied
  exact ⟨secondsApart_of_verifiable happlied, verifiable_of_secondsApart happlied⟩

end Issued

/-! ### Two lifetimes -/

section Lifetimes

theorem newYear_range :
    -62135596800000000 ≤ (1767225600100000 : Int) ∧
      (1767225600100000 : Int) ≤ 253402300799999999 := by
  decide

/-- A tenth of a second into 2026. -/
def newYear : Instant :=
  ⟨1767225600100000, newYear_range⟩

theorem newYearSecond_range :
    -62135596800000000 ≤ (1767225600000000 : Int) ∧
      (1767225600000000 : Int) ≤ 253402300799999999 := by
  decide

def newYearSecond : Instant :=
  ⟨1767225600000000, newYearSecond_range⟩

theorem lifetime_range
    {lifetime : Nat}
    (h : lifetime ≤ 3600000000) :
    -62135596800000000 ≤ 1767225600100000 + (lifetime : Int) ∧
      1767225600100000 + (lifetime : Int) ≤ 253402300799999999 := by
  omega

/-- The expiry of a token that is issued then, after at most an hour. -/
def newYearPlus (lifetime : Nat) (h : lifetime ≤ 3600000000) : Instant :=
  ⟨1767225600100000 + lifetime, lifetime_range h⟩

theorem noFields_accepted :
    ClaimFields.accepted (J := JSONValue) ⟨none, none, [], none, none, none, none, []⟩ = true := by
  rfl

def noClaims : TokenClaims :=
  ⟨⟨none, none, [], none, none, none, none, []⟩, noFields_accepted, frozen_nil⟩

theorem defaultTtl_pos
    {lifetime : Nat}
    (h : 0 < lifetime) :
    ∀ ttl ∈ some lifetime, 0 < ttl := by
  rintro ttl ⟨⟩
  exact h

theorem noMaxTtl_pos :
    ∀ ttl ∈ (none : Option Nat), 0 < ttl := by
  simp

theorem le_noMaxTtl
    {lifetime : Nat} :
    ∀ ttl ∈ some lifetime, ∀ limit ∈ (none : Option Nat), ttl ≤ limit := by
  simp

/-- A profile with a default lifetime. -/
def lifetimeProfile (lifetime : Nat) (h : 0 < lifetime) : IssuanceProfile :=
  ⟨some lifetime, none, true, defaultTtl_pos h, noMaxTtl_pos, le_noMaxTtl⟩

/-- A token for an hour. -/
theorem issued_verifiable_hour :
    Verifiable (noClaims.withInstants (some (newYearPlus 3600000000 le_rfl)) none (some newYear))
        newYear ↔
      SecondsApart noClaims (lifetimeProfile 3600000000 (by decide)) newYear
        (newYearPlus 3600000000 le_rfl) := by
  have happlied : applyIssuanceProfile noClaims (lifetimeProfile 3600000000 (by decide)) newYear =
      .ok (noClaims.withInstants (some (newYearPlus 3600000000 le_rfl)) none (some newYear)) := by
    rfl
  have hexpiry : issuedExpiry noClaims (lifetimeProfile 3600000000 (by decide)) newYear =
      .ok (some (newYearPlus 3600000000 le_rfl)) := by
    rfl
  exact issued_verifiable_iff happlied hexpiry

/--
A token for half a second that no time is right for, and one whose expiry and start are the
same on the wire.
-/
theorem issued_unverifiable :
    (∃ applied parsed,
      applyIssuanceProfile noClaims (lifetimeProfile 500000 (by decide)) newYear = .ok applied ∧
      applied.expiresAt.isSome = true ∧ applied.notBefore = none ∧
      claimsFromPayload (claimsToPayload applied) = .ok parsed ∧
      ∀ time, validateTemporalClaims parsed.toClaimFields strictProfile time ≠ .ok ()) ∧
    ∃ applied parsed,
      applyIssuanceProfile
        (noClaims.withInstants (some (newYearPlus 500000 (by decide))) (some newYear)
          (some newYearSecond))
        (lifetimeProfile 500000 (by decide)) newYear = .ok applied ∧
      claimsFromPayload (claimsToPayload applied) = .ok parsed ∧
      ∃ expiresAt ∈ parsed.expiresAt, ∃ notBefore ∈ parsed.notBefore,
        expiresAt.micros ≤ notBefore.micros := by
  have hexpiry : onWire (some (newYearPlus 500000 (by decide))) = .ok (some newYearSecond) :=
    onWire_some_eq_ok.mpr ⟨_, rfl, by decide⟩
  have hissue : onWire (some newYear) = .ok (some newYearSecond) :=
    onWire_some_eq_ok.mpr ⟨_, rfl, by decide⟩
  have hsecond : onWire (some newYearSecond) = .ok (some newYearSecond) :=
    onWire_some_eq_ok.mpr ⟨_, rfl, by decide⟩
  constructor
  · refine ⟨noClaims.withInstants (some (newYearPlus 500000 (by decide))) none (some newYear),
      noClaims.withInstants (some newYearSecond) none (some newYearSecond), by rfl, rfl, rfl,
      claimsFromPayload_eq_ok.mpr ⟨hexpiry, rfl, hissue, rfl⟩, fun time h => ?_⟩
    obtain ⟨hexpired, -, hfuture, -⟩ := (validateTemporalClaims_iff rfl).mp h
    have hlate := hexpired newYearSecond rfl
    have hearly := hfuture newYearSecond rfl
    simp only [strictProfile, Nat.cast_zero] at hlate hearly
    omega
  · refine ⟨noClaims.withInstants (some (newYearPlus 500000 (by decide))) (some newYear)
      (some newYearSecond),
      noClaims.withInstants (some newYearSecond) (some newYearSecond) (some newYearSecond), by rfl,
      claimsFromPayload_eq_ok.mpr ⟨hexpiry, hissue, hsecond, rfl⟩, newYearSecond, rfl,
      newYearSecond, rfl, le_rfl⟩

end Lifetimes

end Jwt
end Bluetape
