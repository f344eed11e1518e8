import Bluetape.Base.Run
import Bluetape.Jwt.Provider

/-!
# The lifecycle of keys

The constructor of the repository and its operations statement by statement,
with the fields that each assignment has already changed when a later statement
raises.  The operations agree with `mutate`, and over every sequence of them
keys only move forward: from active over retired to revoked.
-/

namespace Bluetape
namespace Jwt

open Base

variable {K : Type}

/-! ## Statuses -/

/-- How far the life of a key has come. -/
def KeyStatus.stage : KeyStatus → Nat
  | .active => 0
  | .retired => 1
  | .revoked => 2

/-- An entry at an earlier and at a later time: the key goes only when it is revoked. -/
structure KeyEntry.Becomes (entry entry' : KeyEntry K) : Prop where
  status : entry.status.stage ≤ entry'.status.stage
  key : entry'.status ≠ .revoked → entry'.key = entry.key

theorem KeyEntry.Becomes.refl
    (entry : KeyEntry K) :
    entry.Becomes entry :=
  ⟨le_rfl, fun _ => rfl⟩

/-- A revoked entry stays revoked. -/
theorem KeyEntry.Becomes.revoked
    {entry entry' : KeyEntry K}
    (h : entry.Becomes entry')
    (hrevoked : entry.status = .revoked) :
    entry'.status = .revoked := by
  have hstage := h.status
  rw [hrevoked] at hstage
  cases hstatus : entry'.status with
  | active | retired =>
      simp [hstatus, KeyStatus.stage] at hstage
  | revoked =>
      rfl

theorem KeyEntry.Becomes.trans
    {entry entry' entry'' : KeyEntry K}
    (h : entry.Becomes entry')
    (h' : entry'.Becomes entry'') :
    entry.Becomes entry'' := by
  refine ⟨h.status.trans h'.status, fun hkept => ?_⟩
  have hkept' : entry'.status ≠ .revoked := fun hrevoked => hkept (h'.revoked hrevoked)
  rw [h'.key hkept, h.key hkept']

namespace InMemoryKeyRepository

/-! ## The constructor -/

/-- The loop of `__init__` over the candidates; a candidate of another type is none. -/
def addCandidates (entries : OrderedDict Text (KeyEntry K)) (algorithm : Option JWSAlgorithm) :
    List (Option (JWTKey K)) →
      Except JWTError (OrderedDict Text (KeyEntry K) × Option JWSAlgorithm)
  | [] => .ok (entries, algorithm)
  | candidate :: candidates => do
      let key ← orRaise .configurationError candidate
      raiseIf ((entries.lookup key.kid).isSome = true) JWTError.keyStateError
      raiseIf (∃ a ∈ algorithm, key.algorithm ≠ a) JWTError.configurationError
      addCandidates (entries.assign key.kid (newEntry false key))
        (some (algorithm.getD key.algorithm)) candidates

/-- The part of `__init__` for the active key. -/
def addActive : Option (Option (JWTKey K)) →
    Except JWTError (OrderedDict Text (KeyEntry K) × Option JWSAlgorithm)
  | none => .ok (.empty, none)
  | some active => do
      let key ← orRaise .configurationError active
      raiseIf (key.canSign = false) JWTError.keyStateError
      return (OrderedDict.empty.assign key.kid (newEntry true key), some key.algorithm)

/-- `InMemoryKeyRepository(...)`; verification keys that cannot be iterated are none. -/
def create (active : Option (Option (JWTKey K)))
    (verificationKeys : Option (List (Option (JWTKey K)))) :
    Except JWTError (InMemoryKeyRepository K) := do
  let (entries, algorithm) ← addActive active
  let candidates ← orRaise .configurationError verificationKeys
  let (entries, algorithm) ← addCandidates entries algorithm candidates
  return ⟨← freezeSnapshot entries 0, algorithm⟩

/-! ## The operations, statement by statement -/

/-- Statements on the fields of a repository; an exception keeps what was assigned before. -/
abbrev RepositoryM (K : Type) :=
  ExceptT JWTError (StateM (InMemoryKeyRepository K))

/-- An expression that may raise. -/
def evaluate {α : Type} (result : Except JWTError α) : RepositoryM K α :=
  ExceptT.mk (pure result)

/-- `self._snapshot = published` -/
def publish (published : KeySnapshot K) : RepositoryM K Unit :=
  modify fun repository => { repository with snapshot := published }

/-- `self._algorithm = ...` -/
def bindAlgorithm (algorithm : JWSAlgorithm) : RepositoryM K Unit :=
  modify fun repository => { repository with algorithm := some algorithm }

/-- The block of `_mutate_key` under the lock. -/
def mutateKeyLocked (candidate : Option (JWTKey K)) (active : Bool) :
    RepositoryM K (KeySnapshot K) := do
  let repository ← get
  let key ← evaluate (orRaise .configurationError candidate)
  evaluate (raiseIf (active = true ∧ key.canSign = false) JWTError.keyStateError)
  evaluate (raiseIf ((repository.snapshot.entries.lookup key.kid).isSome = true)
    JWTError.keyStateError)
  evaluate (raiseIf (∃ algorithm ∈ repository.algorithm, key.algorithm ≠ algorithm)
    JWTError.configurationError)
  let entries :=
    if active then retireActive repository.snapshot.entries else repository.snapshot.entries
  let published ← evaluate (freezeSnapshot (entries.assign key.kid (newEntry active key))
    (repository.snapshot.epoch + 1))
  publish published
  if repository.algorithm.isNone then
    bindAlgorithm key.algorithm
  return published

/-- The block of `_mutate_identifier` under the lock. -/
def mutateIdentifierLocked (operation : IdentifierOperation) (candidate : Option Text) :
    RepositoryM K (KeySnapshot K) := do
  let repository ← get
  let kid ← evaluate (orRaise .configurationError candidate)
  evaluate (raiseIf (isKid kid = false) JWTError.configurationError)
  let entry ← evaluate (orRaise .keyStateError (repository.snapshot.entries.lookup kid))
  let entry ← evaluate (replacement operation entry)
  let published ← evaluate (freezeSnapshot (repository.snapshot.entries.assign kid entry)
    (repository.snapshot.epoch + 1))
  publish published
  return published

/-- `add_verification_key`, `rotate`, `retire` and `revoke` -/
def perform : Mutation K → RepositoryM K (KeySnapshot K)
  | .addVerificationKey key => mutateKeyLocked key false
  | .rotate key => mutateKeyLocked key true
  | .retire kid => mutateIdentifierLocked .retire kid
  | .revoke kid => mutateIdentifierLocked .revoke kid

/-- The result of an operation and the repository after it. -/
def outcome (repository : InMemoryKeyRepository K) (mutation : Mutation K) :
    Except JWTError (KeySnapshot K) × InMemoryKeyRepository K :=
  (perform mutation).run.run repository

section Agreement

variable (repository : InMemoryKeyRepository K)

/-- What `mutate` returns, as an outcome. -/
def ofMutate :
    Except JWTError (InMemoryKeyRepository K) →
      Except JWTError (KeySnapshot K) × InMemoryKeyRepository K
  | .ok next => (.ok next.snapshot, next)
  | .error e => (.error e, repository)

theorem get_bind_run
    {α : Type} (next : InMemoryKeyRepository K → RepositoryM K α) :
    (get >>= next : RepositoryM K α).run.run repository = (next repository).run.run repository := by
  rfl

/-- Statements up to an assignment are a computation without fields. -/
theorem ofMutate_bind
    {α : Type} (result : Except JWTError α)
    (next : α → RepositoryM K (KeySnapshot K))
    (pureNext : α → Except JWTError (InMemoryKeyRepository K))
    (hnext : ∀ a, result = .ok a →
      ((next a).run.run repository : Except JWTError (KeySnapshot K) × _) =
        ofMutate repository (pureNext a)) :
    ((evaluate result >>= next).run.run repository : Except JWTError (KeySnapshot K) × _) =
      ofMutate repository (result >>= pureNext) := by
  cases result with
  | error e =>
      rfl
  | ok a =>
      exact hnext a rfl

theorem mutateKeyLocked_eq
    (candidate : Option (JWTKey K)) (active : Bool) :
    (mutateKeyLocked candidate active).run.run repository =
      ofMutate repository (repository.mutateKey candidate active) := by
  unfold mutateKeyLocked mutateKey
  rw [get_bind_run]
  refine ofMutate_bind repository _ _ _ fun key _ => ?_
  refine ofMutate_bind repository _ _ _ fun _ _ => ?_
  refine ofMutate_bind repository _ _ _ fun _ _ => ?_
  refine ofMutate_bind repository _ _ _ fun _ _ => ?_
  refine ofMutate_bind repository _ _ _ fun published _ => ?_
  obtain ⟨snapshot, algorithm⟩ := repository
  cases algorithm with
  | none =>
      rfl
  | some algorithm =>
      rfl

theorem mutateIdentifierLocked_eq
    (operation : IdentifierOperation) (candidate : Option Text) :
    (mutateIdentifierLocked operation candidate).run.run repository =
      ofMutate repository (repository.mutateIdentifier operation candidate) := by
  unfold mutateIdentifierLocked mutateIdentifier
  rw [get_bind_run]
  refine ofMutate_bind repository _ _ _ fun kid _ => ?_
  refine ofMutate_bind repository _ _ _ fun _ _ => ?_
  refine ofMutate_bind repository _ _ _ fun entry _ => ?_
  refine ofMutate_bind repository _ _ _ fun entry _ => ?_
  refine ofMutate_bind repository _ _ _ fun published _ => ?_
  rfl

/-- **Atomicity**: an operation does all of `mutate` or changes nothing. -/
theorem outcome_eq
    (mutation : Mutation K) :
    outcome repository mutation = ofMutate repository (repository.mutate mutation) := by
  cases mutation with
  | addVerificationKey key =>
      exact mutateKeyLocked_eq repository key false
  | rotate key =>
      exact mutateKeyLocked_eq repository key true
  | retire kid =>
      exact mutateIdentifierLocked_eq repository .retire kid
  | revoke kid =>
      exact mutateIdentifierLocked_eq repository .revoke kid

end Agreement

/-! ## One operation -/

/-- The mutation that installs a key. -/
def installing (active : Bool) (candidate : Option (JWTKey K)) : Mutation K :=
  if active then .rotate candidate else .addVerificationKey candidate

/-- The mutation that replaces the entry of an identifier. -/
def replacing (operation : IdentifierOperation) (candidate : Option Text) : Mutation K :=
  match operation with
  | .retire => .retire candidate
  | .revoke => .revoke candidate

section Steps

variable {repository next : InMemoryKeyRepository K}

/-- What a successful operation does to the entries and to the bound algorithm. -/
inductive Effect (repository next : InMemoryKeyRepository K) : Mutation K → Prop
  | installed (key : JWTKey K) (active : Bool)
      (signs : active = true → key.canSign = true)
      (new : repository.snapshot.entries.lookup key.kid = none)
      (compatible : ∀ algorithm ∈ repository.algorithm, key.algorithm = algorithm)
      (algorithm : next.algorithm = some (repository.algorithm.getD key.algorithm))
      (entries : next.snapshot.entries =
        (if active then retireActive repository.snapshot.entries
          else repository.snapshot.entries).assign key.kid (newEntry active key)) :
      Effect repository next (installing active (some key))
  | replaced (operation : IdentifierOperation) (kid : Text) (entry entry' : KeyEntry K)
      (old : repository.snapshot.entries.lookup kid = some entry)
      (replaces : replacement operation entry = .ok entry')
      (algorithm : next.algorithm = repository.algorithm)
      (entries : next.snapshot.entries = repository.snapshot.entries.assign kid entry') :
      Effect repository next (replacing operation (some kid))

theorem effect_of_mutateKey
    {candidate : Option (JWTKey K)} {active : Bool}
    (h : repository.mutateKey candidate active = .ok next) :
    Effect repository next (installing active candidate) := by
  simp only [mutateKey, except_bind_eq_ok, orRaise_eq_ok, raiseIf_eq_ok] at h
  obtain ⟨key, rfl, -, hsigns, -, hnew, -, hcompatible, published, hpublished, h⟩ := h
  cases h
  refine .installed key active ?_ ?_ ?_ rfl (freezeSnapshot_eq_ok hpublished).1
  · simpa using hsigns
  · simpa using hnew
  · simpa using hcompatible

theorem effect_of_mutateIdentifier
    {operation : IdentifierOperation} {candidate : Option Text}
    (h : repository.mutateIdentifier operation candidate = .ok next) :
    Effect repository next (replacing operation candidate) := by
  simp only [mutateIdentifier, except_bind_eq_ok, orRaise_eq_ok] at h
  obtain ⟨kid, rfl, -, -, entry, hentry, entry', hreplaces, published, hpublished, h⟩ := h
  cases h
  exact .replaced operation kid entry entry' hentry hreplaces rfl
    (freezeSnapshot_eq_ok hpublished).1

theorem effect_of_mutate
    {mutation : Mutation K}
    (h : repository.mutate mutation = .ok next) :
    Effect repository next mutation := by
  cases mutation with
  | addVerificationKey key =>
      exact effect_of_mutateKey h
  | rotate key =>
      exact effect_of_mutateKey h
  | retire kid =>
      exact effect_of_mutateIdentifier h
  | revoke kid =>
      exact effect_of_mutateIdentifier h

/-! ## What holds of a repository at any time -/

/-- An active key can sign, a revoked one is gone, and all material is of the bound algorithm. -/
structure Sound (repository : InMemoryKeyRepository K) : Prop where
  tombstone : ∀ kid entry, repository.snapshot.entries.lookup kid = some entry →
    entry.status = .revoked → entry.key = none
  signing : ∀ kid entry, repository.snapshot.entries.lookup kid = some entry →
    entry.status = .active → ∃ key, entry.key = some key ∧ key.canSign = true
  algorithm : ∀ kid entry key, repository.snapshot.entries.lookup kid = some entry →
    entry.key = some key → repository.algorithm = some key.algorithm

/-- Every entry of the next snapshot, of a key that was installed. -/
theorem lookup_installed
    {key : JWTKey K} {active : Bool}
    (hentries : next.snapshot.entries =
      (if active then retireActive repository.snapshot.entries
        else repository.snapshot.entries).assign key.kid (newEntry active key))
    (kid : Text) :
    next.snapshot.entries.lookup kid =
      if kid = key.kid then some (newEntry active key)
      else (repository.snapshot.entries.lookup kid).map fun entry =>
        if h : active = true ∧ entry.status = .active then entry.retire (by simp [h.2])
        else entry := by
  rw [hentries, OrderedDict.lookup_assign]
  split
  case isTrue =>
    rfl
  case isFalse =>
    cases active with
    | true =>
        simp [retireActive]
    | false =>
        simp

@[simp] theorem key_newEntry
    (active : Bool) (key : JWTKey K) :
    (newEntry active key).key = some key := by
  cases active <;> rfl

@[simp] theorem status_newEntry
    (active : Bool) (key : JWTKey K) :
    (newEntry active key).status = if active then .active else .retired := by
  cases active <;> rfl

/-- What takes the place of an entry is retired with the same key, or a tombstone. -/
theorem replacement_eq_ok
    {operation : IdentifierOperation} {entry entry' : KeyEntry K}
    (h : replacement operation entry = .ok entry') :
    (entry.status = .active ∧ entry'.status = .retired ∧ entry'.key = entry.key) ∨
      (entry'.status = .revoked ∧ entry'.key = none) := by
  cases operation with
  | retire =>
      simp only [replacement] at h
      split at h
      case isTrue hactive =>
          obtain rfl := Except.ok.inj h
          exact Or.inl ⟨hactive, rfl, rfl⟩
      case isFalse =>
          cases h
  | revoke =>
      simp only [replacement] at h
      split at h
      case isTrue =>
          cases h
      case isFalse =>
          obtain rfl := Except.ok.inj h
          exact Or.inr ⟨rfl, rfl⟩

/-- A repository at an earlier and at a later time. -/
structure Later (repository next : InMemoryKeyRepository K) : Prop where
  epoch : repository.snapshot.epoch ≤ next.snapshot.epoch
  algorithm : ∀ algorithm ∈ repository.algorithm, next.algorithm = some algorithm
  kept : ∀ kid entry, repository.snapshot.entries.lookup kid = some entry →
    ∃ entry', next.snapshot.entries.lookup kid = some entry' ∧ KeyEntry.Becomes entry entry'

theorem Later.refl
    (repository : InMemoryKeyRepository K) :
    Later repository repository :=
  ⟨le_rfl, fun _ h => h, fun _ entry h => ⟨entry, h, .refl entry⟩⟩

theorem Later.trans
    {last : InMemoryKeyRepository K}
    (h : Later repository next)
    (h' : Later next last) :
    Later repository last := by
  refine ⟨h.epoch.trans h'.epoch, fun a ha => h'.algorithm a (h.algorithm a ha), ?_⟩
  intro kid entry hentry
  obtain ⟨entry', hentry', hbecomes⟩ := h.kept kid entry hentry
  obtain ⟨entry'', hentry'', hbecomes'⟩ := h'.kept kid entry' hentry'
  exact ⟨entry'', hentry'', hbecomes.trans hbecomes'⟩

/-- The entries after a replacement. -/
theorem lookup_replaced
    {kid₀ : Text} {entry' : KeyEntry K}
    (hentries : next.snapshot.entries = repository.snapshot.entries.assign kid₀ entry')
    (kid : Text) :
    next.snapshot.entries.lookup kid =
      if kid = kid₀ then some entry' else repository.snapshot.entries.lookup kid := by
  rw [hentries, OrderedDict.lookup_assign]

/-- **Step lemma**: a successful operation keeps what holds at any time. -/
theorem Effect.sound
    {mutation : Mutation K}
    (h : Effect repository next mutation)
    (hsound : repository.Sound) :
    next.Sound := by
  cases h with
  | installed key active signs new compatible algorithm entries =>
      have hlookup := lookup_installed entries
      refine ⟨fun _ entry _ => entry.valid.mp, ?_, ?_⟩
      · intro kid entry hentry hstatus
        rw [hlookup] at hentry
        split at hentry
        case isTrue =>
          obtain rfl := Option.some.inj hentry
          refine ⟨key, key_newEntry active key, signs ?_⟩
          by_contra hactive
          simp [hactive] at hstatus
        case isFalse =>
          obtain ⟨old, hold, rfl⟩ := Option.map_eq_some_iff.mp hentry
          split at hstatus
          case isTrue =>
            cases hstatus
          case isFalse hkept =>
            simpa [hkept] using hsound.signing kid old hold hstatus
      · intro kid entry key' hentry hkey
        rw [hlookup] at hentry
        rw [algorithm]
        split at hentry
        case isTrue =>
          obtain rfl := Option.some.inj hentry
          rw [key_newEntry, Option.some.injEq] at hkey
          subst hkey
          cases halgorithm : repository.algorithm with
          | none =>
              rfl
          | some bound =>
              simp [compatible bound halgorithm]
        case isFalse =>
          obtain ⟨old, hold, rfl⟩ := Option.map_eq_some_iff.mp hentry
          have hkey' : old.key = some key' := by
            split at hkey
            case isTrue =>
              exact hkey
            case isFalse =>
              exact hkey
          rw [hsound.algorithm kid old key' hold hkey']
          rfl
  | replaced operation kid₀ entry₀ entry' old replaces algorithm entries =>
      have hlookup := lookup_replaced entries
      have hreplaced := replacement_eq_ok replaces
      refine ⟨fun _ entry _ => entry.valid.mp, ?_, ?_⟩
      · intro kid entry hentry hstatus
        rw [hlookup] at hentry
        split at hentry
        case isTrue =>
          obtain rfl := Option.some.inj hentry
          rcases hreplaced with ⟨-, hretired, -⟩ | ⟨hrevoked, -⟩
          · simp [hretired] at hstatus
          · simp [hrevoked] at hstatus
        case isFalse =>
          exact hsound.signing kid entry hentry hstatus
      · intro kid entry key hentry hkey
        rw [hlookup] at hentry
        rw [algorithm]
        split at hentry
        case isTrue =>
          obtain rfl := Option.some.inj hentry
          rcases hreplaced with ⟨-, -, hsame⟩ | ⟨-, hnone⟩
          · exact hsound.algorithm kid₀ entry₀ key old (hsame ▸ hkey)
          · simp [hnone] at hkey
        case isFalse =>
          exact hsound.algorithm kid entry key hentry hkey

/-- **Step lemma**: a successful operation moves keys forward only. -/
theorem Effect.later
    {mutation : Mutation K}
    (h : Effect repository next mutation)
    (hepoch : next.snapshot.epoch = repository.snapshot.epoch + 1) :
    Later repository next := by
  refine ⟨by omega, ?_, ?_⟩
  · cases h with
    | installed key active signs new compatible algorithm entries =>
        intro bound hbound
        rw [algorithm, Option.mem_def.mp hbound]
        rfl
    | replaced operation kid₀ entry₀ entry' old replaces algorithm entries =>
        intro bound hbound
        rw [algorithm, Option.mem_def.mp hbound]
  · cases h with
    | installed key active signs new compatible algorithm entries =>
        intro kid entry hentry
        have hne : kid ≠ key.kid := by
          rintro rfl
          simp [new] at hentry
        have hlookup := lookup_installed entries kid
        rw [if_neg hne, hentry, Option.map_some] at hlookup
        refine ⟨_, hlookup, ?_⟩
        split
        case isTrue hretired =>
          exact ⟨by simp [hretired.2, KeyStatus.stage], fun _ => rfl⟩
        case isFalse =>
          exact .refl entry
    | replaced operation kid₀ entry₀ entry' old replaces algorithm entries =>
        intro kid entry hentry
        have hlookup := lookup_replaced entries kid
        by_cases hkid : kid = kid₀
        · subst hkid
          obtain rfl := Option.some.inj (old.symm.trans hentry)
          rw [if_pos rfl] at hlookup
          refine ⟨entry', hlookup, ?_⟩
          rcases replacement_eq_ok replaces with ⟨hactive, hretired, hsame⟩ | ⟨hrevoked, -⟩
          · exact ⟨by simp [hactive, hretired, KeyStatus.stage], fun _ => hsame⟩
          · refine ⟨?_, fun hkept => absurd hrevoked hkept⟩
            rw [hrevoked]
            cases entry₀.status <;> simp [KeyStatus.stage]
        · rw [if_neg hkid, hentry] at hlookup
          exact ⟨entry, hlookup, .refl entry⟩

/-- A rotation keeps the key that was active for verification. -/
theorem Effect.verificationKey
    {key : JWTKey K}
    (h : Effect repository next (.rotate (some key))) {kid : Text} {entry : KeyEntry K}
    {previous : JWTKey K}
    (hentry : repository.snapshot.entries.lookup kid = some entry)
    (hactive : entry.status = .active)
    (hkey : entry.key = some previous) :
    next.snapshot.verificationKey kid = .ok previous := by
  have hstep : ∃ entry', next.snapshot.entries.lookup kid = some entry' ∧
      entry'.status = .retired ∧ entry'.key = some previous := by
    generalize hmutation : Mutation.rotate (some key) = mutation at h
    cases h with
    | installed key' active signs new compatible algorithm entries =>
        have hactive' : active = true := by
          by_contra hnot
          simp [installing, hnot] at hmutation
        have hne : kid ≠ key'.kid := by
          rintro rfl
          simp [new] at hentry
        have hlookup := lookup_installed entries kid
        rw [if_neg hne, hentry, Option.map_some, dif_pos ⟨hactive', hactive⟩] at hlookup
        exact ⟨_, hlookup, rfl, hkey⟩
    | replaced operation kid₀ entry₀ entry' old replaces algorithm entries =>
        cases operation <;> simp [replacing] at hmutation
  obtain ⟨entry', hentry', hstatus, hkey'⟩ := hstep
  refine except_bind_eq_ok.mpr ⟨entry', orRaise_eq_ok.mpr hentry', ?_⟩
  refine except_bind_eq_ok.mpr ⟨(), raiseIf_eq_ok.mpr (by simp [hstatus]), ?_⟩
  exact orRaise_eq_ok.mpr hkey'

end Steps

/-! ## Construction -/

/-- What the candidates installed so far have in common. -/
def Compatible (entries : OrderedDict Text (KeyEntry K)) (algorithm : Option JWSAlgorithm) :
    Prop :=
  ∀ kid entry, entries.lookup kid = some entry → ∃ key, entry.key = some key ∧
    (entry.status = .active → key.canSign = true) ∧ algorithm = some key.algorithm

theorem Compatible.assign
    {entries : OrderedDict Text (KeyEntry K)} {algorithm : Option JWSAlgorithm}
    (h : Compatible entries algorithm) {key : JWTKey K} {active : Bool}
    (hsigns : active = true → key.canSign = true)
    (hcompatible : ∀ a ∈ algorithm, key.algorithm = a) :
    Compatible (entries.assign key.kid (newEntry active key))
      (some (algorithm.getD key.algorithm)) := by
  have hbound : algorithm.getD key.algorithm = key.algorithm := by
    cases algorithm with
    | none =>
        rfl
    | some a =>
        exact (hcompatible a rfl).symm
  intro kid entry hentry
  rw [OrderedDict.lookup_assign] at hentry
  split at hentry
  case isTrue =>
    obtain rfl := Option.some.inj hentry
    refine ⟨key, key_newEntry active key, fun hstatus => hsigns ?_, by rw [hbound]⟩
    by_contra hactive
    simp [hactive] at hstatus
  case isFalse =>
    obtain ⟨key', hkey', hsigns', halgorithm⟩ := h kid entry hentry
    exact ⟨key', hkey', hsigns', by rw [halgorithm]; rfl⟩

theorem compatible_of_addCandidates
    {candidates : List (Option (JWTKey K))} {entries entries' : OrderedDict Text (KeyEntry K)}
    {algorithm algorithm' : Option JWSAlgorithm}
    (hstart : Compatible entries algorithm)
    (h : addCandidates entries algorithm candidates = .ok (entries', algorithm')) :
    Compatible entries' algorithm' := by
  induction candidates generalizing entries algorithm with
  | nil =>
      obtain ⟨rfl, rfl⟩ := Prod.mk.inj (Except.ok.inj h)
      exact hstart
  | cons candidate candidates ih =>
      simp only [addCandidates, except_bind_eq_ok, orRaise_eq_ok, raiseIf_eq_ok] at h
      obtain ⟨key, -, -, -, -, hcompatible, h⟩ := h
      have hnext : Compatible (entries.assign key.kid (newEntry false key))
          (some (algorithm.getD key.algorithm)) :=
        hstart.assign (by simp) (by simpa using hcompatible)
      exact ih hnext h

/-- The constructor builds a repository for which everything holds. -/
theorem sound_of_create
    {active : Option (Option (JWTKey K))}
    {verificationKeys : Option (List (Option (JWTKey K)))}
    {repository : InMemoryKeyRepository K}
    (h : create active verificationKeys = .ok repository) :
    repository.Sound ∧ repository.snapshot.epoch = 0 := by
  have hempty : Compatible (K := K) .empty none := by
    intro kid entry hentry
    simp at hentry
  have hactive : ∀ entries algorithm, addActive active = .ok (entries, algorithm) →
      Compatible entries algorithm := by
    intro entries algorithm hadd
    cases active with
    | none =>
        obtain ⟨rfl, rfl⟩ := Prod.mk.inj (Except.ok.inj hadd)
        exact hempty
    | some candidate =>
        simp only [addActive, except_bind_eq_ok, orRaise_eq_ok, raiseIf_eq_ok] at hadd
        obtain ⟨key, -, -, hsigns, hadd⟩ := hadd
        obtain ⟨rfl, rfl⟩ := Prod.mk.inj (Except.ok.inj hadd)
        exact hempty.assign (fun _ => by simpa using hsigns) (by simp)
  simp only [create, except_bind_eq_ok] at h
  obtain ⟨⟨entries, algorithm⟩, hadd, candidates, -, ⟨entries', algorithm'⟩, hrest, h⟩ := h
  obtain ⟨snapshot, hsnapshot, h⟩ := h
  have hcompatible := compatible_of_addCandidates (hactive entries algorithm hadd) hrest
  obtain ⟨hentries, hepoch⟩ := freezeSnapshot_eq_ok hsnapshot
  simp only at hentries
  cases h
  refine ⟨⟨fun _ entry _ => entry.valid.mp, ?_, ?_⟩, hepoch⟩
  · intro kid entry hentry hstatus
    obtain ⟨key, hkey, hsigns, -⟩ := hcompatible kid entry (by rwa [hentries] at hentry)
    exact ⟨key, hkey, hsigns hstatus⟩
  · intro kid entry key hentry hkey
    obtain ⟨key', hkey', -, halgorithm⟩ := hcompatible kid entry (by rwa [hentries] at hentry)
    obtain rfl := Option.some.inj (hkey.symm.trans hkey')
    exact halgorithm

/-! ## Sequences of operations -/

/-- An operation with its result. -/
def Operates (repository : InMemoryKeyRepository K)
    (call : Mutation K × Except JWTError (KeySnapshot K)) (next : InMemoryKeyRepository K) :
    Prop :=
  outcome repository call.1 = (call.2, next)

/--
An operation that raises changes nothing.  One that returns publishes the next
epoch, and a rotation keeps the key that was active for verification.
-/
structure Lawful (repository : InMemoryKeyRepository K)
    (call : Mutation K × Except JWTError (KeySnapshot K)) (next : InMemoryKeyRepository K) :
    Prop where
  atomic : ∀ e, call.2 = .error e → next = repository
  published : ∀ snapshot, call.2 = .ok snapshot → next.snapshot = snapshot ∧
    next.snapshot.epoch = repository.snapshot.epoch + 1
  retained : ∀ snapshot key kid entry previous, call.2 = .ok snapshot →
    call.1 = .rotate (some key) → repository.snapshot.entries.lookup kid = some entry →
    entry.status = .active → entry.key = some previous →
    snapshot.verificationKey kid = .ok previous

theorem operates
    (repository : InMemoryKeyRepository K) (mutation : Mutation K) :
    Operates repository (mutation, (outcome repository mutation).1)
      (outcome repository mutation).2 := by
  rfl

theorem Operates.cases
    {repository next : InMemoryKeyRepository K}
    {call : Mutation K × Except JWTError (KeySnapshot K)}
    (h : Operates repository call next) :
    (∃ e, call.2 = .error e ∧ next = repository) ∨
      (call.2 = .ok next.snapshot ∧ repository.mutate call.1 = .ok next) := by
  have houtcome := outcome_eq repository call.1
  rw [show outcome repository call.1 = (call.2, next) from h] at houtcome
  cases hmutate : repository.mutate call.1 with
  | error e =>
      rw [hmutate] at houtcome
      obtain ⟨hresult, rfl⟩ := Prod.mk.inj houtcome
      exact Or.inl ⟨e, hresult, rfl⟩
  | ok next' =>
      rw [hmutate] at houtcome
      obtain ⟨hresult, rfl⟩ := Prod.mk.inj houtcome
      exact Or.inr ⟨hresult, rfl⟩

/-- **Step lemma**: every operation is lawful and moves forward. -/
theorem Operates.step
    {repository next : InMemoryKeyRepository K}
    {call : Mutation K × Except JWTError (KeySnapshot K)}
    (h : Operates repository call next)
    (hsound : repository.Sound) :
    Lawful repository call next ∧ Later repository next ∧ next.Sound := by
  rcases h.cases with ⟨e, hresult, rfl⟩ | ⟨hresult, hmutate⟩
  · refine ⟨⟨fun _ _ => rfl, ?_, ?_⟩, .refl _, hsound⟩
    · intro snapshot hok
      rw [hresult] at hok
      cases hok
    · intro snapshot key kid entry previous hok
      rw [hresult] at hok
      cases hok
  · have heffect := effect_of_mutate hmutate
    have hepoch := epoch_of_mutate hmutate
    refine ⟨⟨?_, ?_, ?_⟩, heffect.later hepoch, heffect.sound hsound⟩
    · intro e herror
      rw [hresult] at herror
      cases herror
    · intro snapshot hok
      rw [hresult] at hok
      exact ⟨Except.ok.inj hok, hepoch⟩
    · intro snapshot key kid entry previous hok hrotate hentry hactive hkey
      rw [hresult] at hok
      obtain rfl := Except.ok.inj hok
      rw [hrotate] at heffect
      exact heffect.verificationKey hentry hactive hkey

/-- Two snapshots, at one time or at different times, hold material of one algorithm. -/
def SharesAlgorithm (repository next : InMemoryKeyRepository K) : Prop :=
  ∀ kid entry key kid' entry' key', repository.snapshot.entries.lookup kid = some entry →
    entry.key = some key → next.snapshot.entries.lookup kid' = some entry' →
    entry'.key = some key' → key.algorithm = key'.algorithm

theorem sharesAlgorithm
    {repository next : InMemoryKeyRepository K}
    (hsound : repository.Sound)
    (hlater : Later repository next)
    (hsound' : next.Sound) :
    SharesAlgorithm repository next := by
  intro kid entry key kid' entry' key' hentry hkey hentry' hkey'
  have hbound := hlater.algorithm _ (hsound.algorithm kid entry key hentry hkey)
  exact Option.some.inj (hbound.symm.trans (hsound'.algorithm kid' entry' key' hentry' hkey'))

/--
**Key lifecycle**: from every construction and through every sequence of
operations with any arguments, at most one key is active and it can sign, every
operation is lawful, and between an earlier and a later repository no identifier
disappears, statuses move forward, and all material is of one algorithm.
-/
theorem key_lifecycle
    {active : Option (Option (JWTKey K))}
    {verificationKeys : Option (List (Option (JWTKey K)))}
    {repository earlier later : InMemoryKeyRepository K}
    {calls calls' : List (Mutation K × Except JWTError (KeySnapshot K))}
    (hcreate : create active verificationKeys = .ok repository)
    (hearlier : Run Operates repository calls earlier)
    (hlater : Run Operates earlier calls' later) :
    (OneActive later.snapshot.entries ∧ later.Sound) ∧
      Run.EachStep Operates Lawful earlier calls' later ∧
      Later earlier later ∧ SharesAlgorithm earlier later := by
  have hstep : ∀ (s : InMemoryKeyRepository K) call t, s.Sound → Operates s call t → t.Sound :=
    fun _ _ _ hs h => (h.step hs).2.2
  have hsound := hearlier.invariant hstep (sound_of_create hcreate).1
  have hsound' := hlater.invariant hstep hsound
  have hmoves : Later earlier later := by
    have h := hlater.invariant (I := fun s => s.Sound ∧ Later earlier s)
      (fun s call t hs h => ⟨(h.step hs.1).2.2, hs.2.trans (h.step hs.1).2.1⟩)
      ⟨hsound, .refl earlier⟩
    exact h.2
  refine ⟨⟨later.snapshot.oneActive, hsound'⟩, ?_, hmoves, sharesAlgorithm hsound hmoves hsound'⟩
  exact hlater.eachStep (fun s call t hs h => ⟨(h.step hs).1, (h.step hs).2.2⟩) hsound

/-- A signing key for `HS256`. -/
def signingKey (kid : Text) (h : isKid kid = true) : JWTKey Unit :=
  ⟨kid, .HS256, true, (), h⟩

/-- The active key is rotated out, and the new one is revoked. -/
theorem key_lifecycle_rotation :
    ∃ repository : InMemoryKeyRepository Unit,
      create (some (some (signingKey (text "a") (by decide)))) (some []) =
        .ok repository ∧
      let rotation := Mutation.rotate (some (signingKey (text "b") (by decide)))
      let revocation := Mutation.revoke (some (text "b"))
      let rotated := outcome repository rotation
      let revoked := outcome rotated.2 revocation
      (OneActive revoked.2.snapshot.entries ∧ revoked.2.Sound) ∧
        Run.EachStep Operates Lawful rotated.2 [(revocation, revoked.1)] revoked.2 ∧
        Later rotated.2 revoked.2 ∧ SharesAlgorithm rotated.2 revoked.2 := by
  have hcreate : (create (some (some (signingKey (text "a") (by decide))))
      (some [])).isOk = true := by
    decide
  cases hresult : create (some (some (signingKey (text "a") (by decide)))) (some []) with
  | error e =>
      rw [hresult] at hcreate
      cases hcreate
  | ok repository =>
      exact ⟨repository, rfl, key_lifecycle hresult (.single (operates _ _))
        (.single (operates _ _))⟩

end InMemoryKeyRepository
end Jwt
end Bluetape
