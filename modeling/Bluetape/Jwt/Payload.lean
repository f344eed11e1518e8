import Bluetape.Jwt.NumericDate

/-!
# Payloads of claims

`_claims_to_payload`, and what `_claims_from_payload` makes of its payload: strings,
audiences and custom claims come back as they are, and every instant as its numeric date is
read.

* `claimsFromPayload_claimsToPayload`: the payload of claims, parsed;
* `payload_round_trip`: the claims come back, floored to whole seconds, exactly when every
  instant keeps its second.
-/

namespace Bluetape
namespace Jwt

open Base

/-! ## The payload -/

section Payload

/-- `payload[name] = value`, of a name that is not in the payload, when there is a value -/
def claimEntry (name : Text) (value : Option RawValue) : List (Text × RawValue) :=
  value.toList.map fun value => (name, value)

/-- The registered claims of a payload. -/
def registeredEntries (claims : ClaimFields JSONValue) : List (Text × RawValue) :=
  claimEntry (text "iss") (claims.issuer.map .str) ++
  claimEntry (text "sub") (claims.subject.map .str) ++
  claimEntry (text "aud")
    (if claims.audience = [] then none else some (.list (claims.audience.map .str))) ++
  claimEntry (text "exp") (claims.expiresAt.map fun t => .int (datetimeToNumericDate t)) ++
  claimEntry (text "nbf") (claims.notBefore.map fun t => .int (datetimeToNumericDate t)) ++
  claimEntry (text "iat") (claims.issuedAt.map fun t => .int (datetimeToNumericDate t)) ++
  claimEntry (text "jti") (claims.jwtId.map .str)

/-- `_claims_to_payload` -/
def claimsToPayload (claims : TokenClaims) : RawValue :=
  .dict (thawed claims.custom ++ registeredEntries claims.toClaimFields)

/-- An instant as its numeric date is read, if there is one. -/
def onWire : Option Instant → Except JWTError (Option Instant)
  | none => .ok none
  | some t => (numericDateToDatetime (.int (datetimeToNumericDate t))).map some

end Payload

/-! ## Custom claims -/

section Custom

/-- No custom claim has the name of a registered one. -/
theorem TokenClaims.custom_names
    (claims : TokenClaims) :
    ∀ name ∈ (thawed claims.custom).map Prod.fst, name ∉ registeredClaims := by
  have hvalid := claims.valid
  simp only [ClaimFields.accepted, Bool.and_eq_true, List.all_eq_true, decide_eq_true_eq]
    at hvalid
  rw [thawed, rebuildEntries_names]
  exact hvalid.2

theorem TokenClaims.custom_trimmed
    (claims : TokenClaims) :
    ((thawed claims.custom).all fun entry => isTrimmed entry.1) = true := by
  have hnames : ∀ name ∈ (thawed claims.custom).map Prod.fst, isTrimmed name = true := by
    rw [thawed, rebuildEntries_names, List.forall_mem_map]
    exact claims.frozen.trimmed
  rw [List.all_eq_true]
  exact List.forall_mem_map.mp hnames

end Custom

/-! ## Looking claims up -/

section Lookup

theorem lookup_claimEntry
    (name other : Text) (value : Option RawValue) :
    (claimEntry name value).lookup other = if other = name then value else none := by
  cases value with
  | none =>
      simp [claimEntry]
  | some value =>
      simp only [claimEntry, Option.toList_some, List.map_cons, List.map_nil, List.lookup_cons,
        List.lookup_nil]
      by_cases h : other = name
      · rw [if_pos h, beq_iff_eq.mpr h]
      · rw [if_neg h, beq_eq_false_iff_ne.mpr h]

theorem lookup_custom
    (claims : TokenClaims) {name : Text}
    (hname : name ∈ registeredClaims) :
    (thawed claims.custom).lookup name = none := by
  rw [List.lookup_eq_none_iff]
  intro entry hentry
  rw [bne_iff_ne]
  rintro rfl
  exact claims.custom_names _ (List.mem_map_of_mem hentry) hname

/-- A registered claim of the payload is the one of the claims. -/
theorem lookup_payload
    (claims : TokenClaims) {name : Text}
    (hname : name ∈ registeredClaims) :
    (thawed claims.custom ++ registeredEntries claims.toClaimFields).lookup name =
      (registeredEntries claims.toClaimFields).lookup name := by
  rw [List.lookup_append, lookup_custom claims hname]
  rfl

theorem lookup_registered
    (claims : ClaimFields JSONValue) :
    (registeredEntries claims).lookup (text "iss") = claims.issuer.map .str ∧
    (registeredEntries claims).lookup (text "sub") = claims.subject.map .str ∧
    (registeredEntries claims).lookup (text "aud") =
      (if claims.audience = [] then none else some (.list (claims.audience.map .str))) ∧
    (registeredEntries claims).lookup (text "exp") =
      claims.expiresAt.map (fun t => .int (datetimeToNumericDate t)) ∧
    (registeredEntries claims).lookup (text "nbf") =
      claims.notBefore.map (fun t => .int (datetimeToNumericDate t)) ∧
    (registeredEntries claims).lookup (text "iat") =
      claims.issuedAt.map (fun t => .int (datetimeToNumericDate t)) ∧
    (registeredEntries claims).lookup (text "jti") = claims.jwtId.map .str := by
  simp +decide only [registeredEntries, List.lookup_append, lookup_claimEntry]
  simp

/-! ### Converting them -/

variable {copied : List (Text × RawValue)} {name : Text}

theorem optionalClaim_string
    {value : Option Text}
    (hlookup : copied.lookup name = value.map .str)
    (hvalue : value.all isTrimmed = true) :
    optionalClaim copied name validateString = .ok value := by
  rw [optionalClaim, hlookup]
  cases value with
  | none =>
      rfl
  | some value =>
      have htrimmed : isTrimmed value = true := hvalue
      simp [validateString, htrimmed, Except.map]

theorem optionalClaim_instant
    {value : Option Instant}
    (hlookup : copied.lookup name = value.map fun t => .int (datetimeToNumericDate t)) :
    optionalClaim copied name numericDateToDatetime = onWire value := by
  rw [optionalClaim, hlookup]
  cases value with
  | none =>
      rfl
  | some t =>
      rfl

theorem mapM_validateString
    {values : List Text}
    (h : values.all isTrimmed = true) :
    (values.map RawValue.str).mapM validateString = .ok values := by
  induction values with
  | nil =>
      rfl
  | cons value values ih =>
      rw [List.all_cons, Bool.and_eq_true] at h
      rw [List.map_cons, List.mapM_cons, ih h.2]
      simp [validateString, h.1, bind, Except.bind, pure, Except.pure]

theorem optionalClaim_audience
    {audience : List Text}
    (hlookup : copied.lookup name =
      if audience = [] then none else some (.list (audience.map .str)))
    (haudience : audience.all isTrimmed = true) :
    ∃ value, optionalClaim copied name normalizeAudience = .ok value ∧
      value.getD [] = audience := by
  rw [optionalClaim, hlookup]
  by_cases h : audience = []
  · rw [if_pos h, h]
    exact ⟨none, rfl, rfl⟩
  · have hmembers := mapM_validateString haudience
    rw [if_neg h]
    refine ⟨some audience, ?_, rfl⟩
    simp [normalizeAudience, raiseIf, h, hmembers, bind, Except.bind, Except.map]

end Lookup

/-! ## The payload, parsed -/

section Parsed

theorem TokenClaims.registered_accepted
    (claims : TokenClaims) :
    claims.issuer.all isTrimmed = true ∧ claims.subject.all isTrimmed = true ∧
      claims.jwtId.all isTrimmed = true ∧ claims.audience.all isTrimmed = true := by
  have hvalid := claims.valid
  simp only [ClaimFields.accepted, Bool.and_eq_true] at hvalid
  exact ⟨hvalid.1.1.1.1, hvalid.1.1.1.2, hvalid.1.1.2, hvalid.1.2⟩

/-- Claims with other instants. -/
def TokenClaims.withInstants (claims : TokenClaims)
    (expiresAt notBefore issuedAt : Option Instant) : TokenClaims where
  issuer := claims.issuer
  subject := claims.subject
  audience := claims.audience
  expiresAt := expiresAt
  notBefore := notBefore
  issuedAt := issuedAt
  jwtId := claims.jwtId
  custom := claims.custom
  valid := claims.valid
  frozen := claims.frozen

theorem keys_trimmed
    (claims : TokenClaims) :
    ((thawed claims.custom ++ registeredEntries claims.toClaimFields).all
      fun entry => isTrimmed entry.1) = true := by
  have hentry : ∀ (name : Text) (value : Option RawValue), isTrimmed name = true →
      ((claimEntry name value).all fun entry => isTrimmed entry.1) = true := by
    intro name value hname
    cases value with
    | none =>
        rfl
    | some value =>
        simp [claimEntry, hname]
  have hnames : ∀ name ∈ registeredClaims, isTrimmed name = true := by
    decide
  simp only [registeredEntries, List.all_append, claims.custom_trimmed, Bool.true_and,
    Bool.and_eq_true]
  refine ⟨⟨⟨⟨⟨⟨?_, ?_⟩, ?_⟩, ?_⟩, ?_⟩, ?_⟩, ?_⟩
  all_goals exact hentry _ _ (hnames _ (by decide))

theorem custom_of_payload
    (claims : TokenClaims) :
    ((thawed claims.custom ++ registeredEntries claims.toClaimFields).filter
      fun entry => entry.1 ∉ registeredClaims) = thawed claims.custom := by
  have hregistered : ((registeredEntries claims.toClaimFields).filter
      fun entry => entry.1 ∉ registeredClaims) = [] := by
    rw [List.filter_eq_nil_iff]
    have hentry : ∀ (name : Text) (value : Option RawValue), name ∈ registeredClaims →
        ∀ entry ∈ claimEntry name value, entry.1 ∈ registeredClaims := by
      intro name value hname entry hentry
      obtain ⟨_, _, rfl⟩ := List.mem_map.mp hentry
      exact hname
    intro entry hmem
    simp only [registeredEntries, List.mem_append] at hmem
    rw [decide_eq_true_eq, not_not]
    rcases hmem with (((((h | h) | h) | h) | h) | h) | h
    all_goals exact hentry _ _ (by decide) _ h
  rw [List.filter_append, hregistered, List.append_nil, List.filter_eq_self]
  intro entry hentry
  rw [decide_eq_true_eq]
  exact claims.custom_names _ (List.mem_map_of_mem hentry)

/-- **The payload of claims, parsed**: the claims with their instants as they are read. -/
theorem claimsFromPayload_claimsToPayload
    (claims : TokenClaims) :
    claimsFromPayload (claimsToPayload claims) = do
      let expiresAt ← onWire claims.expiresAt
      let notBefore ← onWire claims.notBefore
      let issuedAt ← onWire claims.issuedAt
      return claims.withInstants expiresAt notBefore issuedAt := by
  obtain ⟨hiss, hsub, haud, hexp, hnbf, hiat, hjti⟩ := lookup_registered claims.toClaimFields
  obtain ⟨hissuer, hsubject, hjwtId, haudience⟩ := claims.registered_accepted
  have hlookup := fun {name} (hname : name ∈ registeredClaims) => lookup_payload claims hname
  have issuer := optionalClaim_string ((hlookup (by decide)).trans hiss) hissuer
  have subject := optionalClaim_string ((hlookup (by decide)).trans hsub) hsubject
  have jwtId := optionalClaim_string ((hlookup (by decide)).trans hjti) hjwtId
  obtain ⟨audience, haudience, hmembers⟩ :=
    optionalClaim_audience ((hlookup (by decide)).trans haud) haudience
  have expiresAt := optionalClaim_instant ((hlookup (by decide)).trans hexp)
  have notBefore := optionalClaim_instant ((hlookup (by decide)).trans hnbf)
  have issuedAt := optionalClaim_instant ((hlookup (by decide)).trans hiat)
  have hfreeze : orRaise JWTError.malformedTokenError (freezeDict (thawed claims.custom)) =
      .ok claims.custom :=
    orRaise_eq_ok.mpr claims.frozen.freezeDict_thawed
  have hmake : ∀ expiresAt notBefore issuedAt,
      TokenClaims.make
        { issuer := claims.issuer
          subject := claims.subject
          audience := audience.getD []
          expiresAt := expiresAt
          notBefore := notBefore
          issuedAt := issuedAt
          jwtId := claims.jwtId
          custom := passed claims.custom } =
        .ok (claims.withInstants expiresAt notBefore issuedAt) := by
    intro expiresAt notBefore issuedAt
    rw [hmembers]
    exact TokenClaims.make_fields (claims.withInstants expiresAt notBefore issuedAt)
  simp only [claimsFromPayload, claimsToPayload, keys_trimmed, custom_of_payload, issuer, subject,
    jwtId, haudience, expiresAt, notBefore, issuedAt, hfreeze]
  cases onWire claims.expiresAt with
  | error e =>
      rfl
  | ok expiresAt =>
      cases onWire claims.notBefore with
      | error e =>
          rfl
      | ok notBefore =>
          cases onWire claims.issuedAt with
          | error e =>
              rfl
          | ok issuedAt =>
              exact congrArg (Except.mapError fun _ => JWTError.malformedTokenError)
                (hmake expiresAt notBefore issuedAt)

theorem claimsFromPayload_eq_ok
    {claims parsed : TokenClaims} :
    claimsFromPayload (claimsToPayload claims) = .ok parsed ↔
      onWire claims.expiresAt = .ok parsed.expiresAt ∧
      onWire claims.notBefore = .ok parsed.notBefore ∧
      onWire claims.issuedAt = .ok parsed.issuedAt ∧
      parsed = claims.withInstants parsed.expiresAt parsed.notBefore parsed.issuedAt := by
  rw [claimsFromPayload_claimsToPayload]
  constructor
  · intro h
    obtain ⟨expiresAt, hexpiresAt, h⟩ := except_bind_eq_ok.mp h
    obtain ⟨notBefore, hnotBefore, h⟩ := except_bind_eq_ok.mp h
    obtain ⟨issuedAt, hissuedAt, h⟩ := except_bind_eq_ok.mp h
    obtain rfl := Except.ok.inj h
    exact ⟨hexpiresAt, hnotBefore, hissuedAt, rfl⟩
  · rintro ⟨hexpiresAt, hnotBefore, hissuedAt, hparsed⟩
    rw [hexpiresAt, hnotBefore, hissuedAt]
    exact congrArg Except.ok hparsed.symm

end Parsed

/-! ## The round trip -/

section RoundTrip

/-- Every instant floored to its whole second. -/
def TokenClaims.floored (claims : TokenClaims) : TokenClaims :=
  claims.withInstants (claims.expiresAt.map .floorSecond) (claims.notBefore.map .floorSecond)
    (claims.issuedAt.map .floorSecond)

theorem onWire_floored
    (t : Option Instant) :
    onWire t = .ok (t.map .floorSecond) ↔ ∀ instant ∈ t, instant.KeepsSecond := by
  cases t with
  | none =>
      simp [onWire]
  | some t =>
      have hread := numericDate_round_trip t
      simp only [onWire, Option.map_some, Option.mem_def, Option.some.injEq, forall_eq']
      rw [← hread]
      cases numericDateToDatetime (.int (datetimeToNumericDate t)) with
      | error e =>
          simp [Except.map]
      | ok u =>
          simp [Except.map]

/--
**The round trip of claims**: they come back with every instant floored to its whole second
exactly when the rounding of every timestamp keeps the second.
-/
theorem payload_round_trip
    (claims : TokenClaims) :
    claimsFromPayload (claimsToPayload claims) = .ok claims.floored ↔
      (∀ t ∈ claims.expiresAt, t.KeepsSecond) ∧ (∀ t ∈ claims.notBefore, t.KeepsSecond) ∧
        ∀ t ∈ claims.issuedAt, t.KeepsSecond := by
  rw [claimsFromPayload_eq_ok, ← onWire_floored, ← onWire_floored, ← onWire_floored]
  constructor
  · rintro ⟨hexpiresAt, hnotBefore, hissuedAt, -⟩
    exact ⟨hexpiresAt, hnotBefore, hissuedAt⟩
  · rintro ⟨hexpiresAt, hnotBefore, hissuedAt⟩
    exact ⟨hexpiresAt, hnotBefore, hissuedAt, rfl⟩

theorem onWire_error
    {t : Instant}
    (h : 253402300799 < t.wireSecond) :
    onWire (some t) = .error .malformedTokenError := by
  rw [onWire]
  cases hread : numericDateToDatetime (.int (datetimeToNumericDate t)) with
  | error e =>
      rw [numericDateToDatetime] at hread
      rw [(orRaise_eq_error.mp hread).2]
      rfl
  | ok u =>
      have hmicros := numericDateToDatetime_eq_ok.mp hread
      have hrange := u.range
      omega

end RoundTrip

/-! ### The last instant -/

section LastInstant

theorem lastInstant_range :
    -62135596800000000 ≤ (253402300799999999 : Int) ∧
      (253402300799999999 : Int) ≤ 253402300799999999 := by
  decide

/-- The last microsecond of the year 9999. -/
def lastInstant : Instant :=
  ⟨253402300799999999, lastInstant_range⟩

/-- No claims but an expiry. -/
def expiringFields (t : Instant) : ClaimFields JSONValue :=
  ⟨none, none, [], some t, none, none, none, []⟩

theorem expiringFields_accepted
    (t : Instant) :
    (expiringFields t).accepted = true := by
  rfl

def expiringClaims (t : Instant) : TokenClaims :=
  ⟨expiringFields t, expiringFields_accepted t, frozen_nil⟩

/-- The parser rejects the payload of an expiry that is rounded to the year 10000. -/
theorem payload_rejected :
    claimsFromPayload (claimsToPayload (expiringClaims lastInstant)) =
        .error .malformedTokenError ∧
      claimsFromPayload (claimsToPayload (expiringClaims lastInstant)) ≠
        .ok (expiringClaims lastInstant).floored := by
  have hwire : onWire (expiringClaims lastInstant).expiresAt = .error .malformedTokenError :=
    onWire_error (t := lastInstant) (by decide)
  rw [claimsFromPayload_claimsToPayload, hwire]
  constructor
  · rfl
  · rintro ⟨⟩

end LastInstant

end Jwt
end Bluetape
