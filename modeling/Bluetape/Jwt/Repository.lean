import Bluetape.Base.OrderedDict
import Bluetape.Jwt.Core

/-!
# The key repository

A repository publishes immutable snapshots.  Every successful mutation publishes the
next epoch, and a failing one leaves the repository alone.  A revoked key is a tombstone
without material: it stays revoked in every later snapshot.
-/

namespace Bluetape
namespace Jwt

open Base

variable {K : Type}

/-- `JWTKey`: key material of the provider library, selected for one algorithm -/
structure JWTKey (K : Type) where
  kid : Text
  algorithm : JWSAlgorithm
  canSign : Bool
  providerKey : K
  kid_valid : isKid kid = true

/-- `KeyStatus` -/
inductive KeyStatus
  | active
  | retired
  | revoked
deriving DecidableEq, Repr

/-- `KeyEntry`: only a revoked entry has no key -/
structure KeyEntry (K : Type) where
  status : KeyStatus
  key : Option (JWTKey K)
  valid : status = .revoked ↔ key = none

/-- An entry that holds a key. -/
def KeyEntry.holding (status : KeyStatus) (h : status ≠ .revoked) (key : JWTKey K) : KeyEntry K :=
  ⟨status, some key, by simp [h]⟩

/-- `KeyEntry(KeyStatus.RETIRED, entry.key)` of an entry that is not revoked -/
def KeyEntry.retire (entry : KeyEntry K) (h : entry.status ≠ .revoked) : KeyEntry K :=
  ⟨.retired, entry.key, by simpa [entry.valid] using h⟩

/-- `KeyEntry(KeyStatus.REVOKED, None)` -/
def KeyEntry.tombstone : KeyEntry K :=
  ⟨.revoked, none, by simp⟩

/-- Every key is stored under its own identifier. -/
def EntriesNamed (entries : OrderedDict Text (KeyEntry K)) : Prop :=
  ∀ item ∈ entries.items, isKid item.1 = true ∧ ∀ key ∈ item.2.key, key.kid = item.1

instance (entries : OrderedDict Text (KeyEntry K)) : Decidable (EntriesNamed entries) :=
  List.decidableBAll _ _

/-- At most one entry is active. -/
def OneActive (entries : OrderedDict Text (KeyEntry K)) : Prop :=
  (entries.items.filter fun item => item.2.status = .active).length ≤ 1

instance (entries : OrderedDict Text (KeyEntry K)) : Decidable (OneActive entries) :=
  Nat.decLe _ _

/-- `KeySnapshot` -/
structure KeySnapshot (K : Type) where
  entries : OrderedDict Text (KeyEntry K)
  epoch : Nat
  named : EntriesNamed entries
  oneActive : OneActive entries

/-- `_freeze_snapshot` -/
def freezeSnapshot (entries : OrderedDict Text (KeyEntry K)) (epoch : Nat) :
    Except JWTError (KeySnapshot K) :=
  if h : EntriesNamed entries ∧ OneActive entries then .ok ⟨entries, epoch, h.1, h.2⟩
  else .error .configurationError

theorem freezeSnapshot_eq_ok
    {entries : OrderedDict Text (KeyEntry K)} {epoch : Nat} {snapshot : KeySnapshot K}
    (h : freezeSnapshot entries epoch = .ok snapshot) :
    snapshot.entries = entries ∧ snapshot.epoch = epoch := by
  unfold freezeSnapshot at h
  split at h
  case isTrue =>
    cases h
    exact ⟨rfl, rfl⟩
  case isFalse =>
    cases h

/-- `InMemoryKeyRepository` -/
structure InMemoryKeyRepository (K : Type) where
  snapshot : KeySnapshot K
  algorithm : Option JWSAlgorithm

namespace InMemoryKeyRepository

/-- The active entry becomes a retired one. -/
def retireActive (entries : OrderedDict Text (KeyEntry K)) : OrderedDict Text (KeyEntry K) :=
  entries.mapValues fun entry =>
    if h : entry.status = .active then entry.retire (by simp [h]) else entry

/-- The entry of a new key. -/
def newEntry (active : Bool) (key : JWTKey K) : KeyEntry K :=
  if active then .holding .active (by decide) key else .holding .retired (by decide) key

/-- `_mutate_key`; a candidate of another type is none. -/
def mutateKey (repository : InMemoryKeyRepository K) (candidate : Option (JWTKey K))
    (active : Bool) : Except JWTError (InMemoryKeyRepository K) := do
  let key ← orRaise .configurationError candidate
  raiseIf (active = true ∧ key.canSign = false) JWTError.keyStateError
  raiseIf ((repository.snapshot.entries.lookup key.kid).isSome = true) JWTError.keyStateError
  raiseIf (∃ algorithm ∈ repository.algorithm, key.algorithm ≠ algorithm)
    JWTError.configurationError
  let entries :=
    if active then retireActive repository.snapshot.entries else repository.snapshot.entries
  let published ← freezeSnapshot (entries.assign key.kid (newEntry active key))
    (repository.snapshot.epoch + 1)
  return ⟨published, some (repository.algorithm.getD key.algorithm)⟩

/-- The two operations on an identifier. -/
inductive IdentifierOperation
  | retire
  | revoke
deriving DecidableEq, Repr

/-- What takes the place of an entry. -/
def replacement (operation : IdentifierOperation) (entry : KeyEntry K) :
    Except JWTError (KeyEntry K) :=
  match operation with
  | .retire =>
      if h : entry.status = .active then .ok (entry.retire (by simp [h]))
      else .error .keyStateError
  | .revoke =>
      if entry.status = .revoked then .error .keyStateError else .ok .tombstone

/-- `_mutate_identifier`; a candidate that is no string is none. -/
def mutateIdentifier (repository : InMemoryKeyRepository K) (operation : IdentifierOperation)
    (candidate : Option Text) : Except JWTError (InMemoryKeyRepository K) := do
  let kid ← orRaise .configurationError candidate
  raiseIf (isKid kid = false) JWTError.configurationError
  let entry ← orRaise .keyStateError (repository.snapshot.entries.lookup kid)
  let entry ← replacement operation entry
  let published ← freezeSnapshot (repository.snapshot.entries.assign kid entry)
    (repository.snapshot.epoch + 1)
  return { repository with snapshot := published }

/-- The mutations of a repository. -/
inductive Mutation (K : Type)
  | addVerificationKey (key : Option (JWTKey K))
  | rotate (key : Option (JWTKey K))
  | retire (kid : Option Text)
  | revoke (kid : Option Text)

/-- A mutation that returns the repository after it, whose snapshot is the result. -/
def mutate (repository : InMemoryKeyRepository K) :
    Mutation K → Except JWTError (InMemoryKeyRepository K)
  | .addVerificationKey key => repository.mutateKey key false
  | .rotate key => repository.mutateKey key true
  | .retire kid => repository.mutateIdentifier .retire kid
  | .revoke kid => repository.mutateIdentifier .revoke kid

/-! ## What a mutation does -/

/-- A successful mutation publishes the next epoch. -/
theorem epoch_of_mutate
    {repository next : InMemoryKeyRepository K} {mutation : Mutation K}
    (h : repository.mutate mutation = .ok next) :
    next.snapshot.epoch = repository.snapshot.epoch + 1 := by
  have hkey : ∀ {candidate active}, repository.mutateKey candidate active = .ok next →
      next.snapshot.epoch = repository.snapshot.epoch + 1 := by
    intro candidate active h
    simp only [mutateKey, except_bind_eq_ok] at h
    obtain ⟨key, -, -, -, -, -, -, -, published, hpublished, h⟩ := h
    cases h
    exact (freezeSnapshot_eq_ok hpublished).2
  have hidentifier : ∀ {operation candidate},
      repository.mutateIdentifier operation candidate = .ok next →
      next.snapshot.epoch = repository.snapshot.epoch + 1 := by
    intro operation candidate h
    simp only [mutateIdentifier, except_bind_eq_ok] at h
    obtain ⟨kid, -, -, -, entry, -, replaced, -, published, hpublished, h⟩ := h
    cases h
    exact (freezeSnapshot_eq_ok hpublished).2
  cases mutation with
  | addVerificationKey key =>
      exact hkey h
  | rotate key =>
      exact hkey h
  | retire kid =>
      exact hidentifier h
  | revoke kid =>
      exact hidentifier h

/-- The snapshot has a tombstone for the identifier. -/
def Revoked (snapshot : KeySnapshot K) (kid : Text) : Prop :=
  ∃ entry, snapshot.entries.lookup kid = some entry ∧ entry.status = .revoked

theorem revoked_of_mutateKey
    {repository next : InMemoryKeyRepository K} {candidate : Option (JWTKey K)}
    {active : Bool} {kid : Text}
    (h : repository.mutateKey candidate active = .ok next)
    (hrevoked : Revoked repository.snapshot kid) :
    Revoked next.snapshot kid := by
  obtain ⟨entry, hentry, hstatus⟩ := hrevoked
  simp only [mutateKey, except_bind_eq_ok, raiseIf_eq_ok] at h
  obtain ⟨key, -, -, -, -, hnew, -, -, published, hpublished, h⟩ := h
  cases h
  have hne : kid ≠ key.kid := by
    rintro rfl
    exact hnew (by rw [hentry]; rfl)
  refine ⟨entry, ?_, hstatus⟩
  rw [(freezeSnapshot_eq_ok hpublished).1, OrderedDict.lookup_assign, if_neg hne]
  split
  · rw [retireActive, OrderedDict.lookup_mapValues, hentry]
    simp [hstatus]
  · exact hentry

theorem revoked_of_mutateIdentifier
    {repository next : InMemoryKeyRepository K} {operation : IdentifierOperation}
    {candidate : Option Text} {kid : Text}
    (h : repository.mutateIdentifier operation candidate = .ok next)
    (hrevoked : Revoked repository.snapshot kid) :
    Revoked next.snapshot kid := by
  obtain ⟨entry, hentry, hstatus⟩ := hrevoked
  simp only [mutateIdentifier, except_bind_eq_ok, orRaise_eq_ok] at h
  obtain ⟨kid', -, -, -, entry', hentry', replaced, hreplaced, published, hpublished, h⟩ := h
  cases h
  have hne : kid ≠ kid' := by
    rintro rfl
    rw [hentry] at hentry'
    obtain rfl := Option.some.inj hentry'
    cases operation with
    | retire =>
        simp [replacement, hstatus] at hreplaced
    | revoke =>
        simp [replacement, hstatus] at hreplaced
  refine ⟨entry, ?_, hstatus⟩
  rw [(freezeSnapshot_eq_ok hpublished).1, OrderedDict.lookup_assign, if_neg hne]
  exact hentry

/-- **A revoked key stays revoked.** -/
theorem revoked_of_mutate
    {repository next : InMemoryKeyRepository K} {mutation : Mutation K} {kid : Text}
    (h : repository.mutate mutation = .ok next)
    (hrevoked : Revoked repository.snapshot kid) :
    Revoked next.snapshot kid := by
  cases mutation with
  | addVerificationKey key =>
      exact revoked_of_mutateKey h hrevoked
  | rotate key =>
      exact revoked_of_mutateKey h hrevoked
  | retire kid' =>
      exact revoked_of_mutateIdentifier h hrevoked
  | revoke kid' =>
      exact revoked_of_mutateIdentifier h hrevoked

/-- A revocation leaves a tombstone. -/
theorem revoked_of_revoke
    {repository next : InMemoryKeyRepository K} {kid : Text}
    (h : repository.mutate (.revoke (some kid)) = .ok next) :
    Revoked next.snapshot kid := by
  simp only [mutate, mutateIdentifier, except_bind_eq_ok, orRaise_eq_ok, Option.some.injEq] at h
  obtain ⟨kid', rfl, -, -, entry, -, replaced, hreplaced, published, hpublished, h⟩ := h
  cases h
  refine ⟨replaced, ?_, ?_⟩
  · rw [(freezeSnapshot_eq_ok hpublished).1, OrderedDict.lookup_assign, if_pos rfl]
  · simp only [replacement] at hreplaced
    split at hreplaced
    case isTrue =>
      cases hreplaced
    case isFalse =>
      cases hreplaced
      rfl

end InMemoryKeyRepository

end Jwt
end Bluetape
