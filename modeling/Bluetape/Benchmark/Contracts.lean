import Bluetape.Base.BinaryReader
import Bluetape.Base.Binary64

/-!
# Benchmark contracts

The immutable reports and comparisons, whose constructors check every field and copy what they
are given.  A value of `Constructed` is what a constructor returned, so that a report built from
such values is a valid one.  A float that is not finite is `none`.

* `rank`: the nearest-rank statistic that the timings and the deltas share;
* `TimingSpec`, `ScenarioSpec`: what the constructors guarantee.
-/

namespace Bluetape
namespace Benchmark

open Base

/-- The exceptions of the package, and of the operators it uses. -/
inductive ContractError
  | typeError (message : Text)
  | valueError (message : Text)
  | keyError
  | indexError
  | zeroDivision
  | overflow
deriving DecidableEq

/-- `BenchmarkScalar` -/
inductive BenchmarkScalar
  | text (value : Text)
  | int (value : Int)
  | float (value : Option ℚ)
  | bool (value : Bool)
  | none
deriving DecidableEq

/-- `FieldPairs` -/
abbrev FieldPairs := List (Text × BenchmarkScalar)

/-- What a constructor returned. -/
def Constructed {α : Type} (postInit : α → Except ContractError α) : Type :=
  { value : α // ∃ self, postInit self = .ok value }

instance instDecidableEqConstructed {α : Type} [DecidableEq α]
    (postInit : α → Except ContractError α) : DecidableEq (Constructed postInit) :=
  inferInstanceAs (DecidableEq (Subtype _))

/-! ## Texts -/

/-- A lower-case letter. -/
def isLower (p : CodePoint) : Bool :=
  decide (97 ≤ p.ord ∧ p.ord ≤ 122)

/-- A decimal digit. -/
def isDigit (p : CodePoint) : Bool :=
  decide (48 ≤ p.ord ∧ p.ord ≤ 57)

/-- A hexadecimal digit in lower case. -/
def isHex (p : CodePoint) : Bool :=
  isDigit p || decide (97 ≤ p.ord ∧ p.ord ≤ 102)

/-- A first character and at most so many others. -/
def isName (first other : CodePoint → Bool) (most : Nat) : Text → Bool
  | [] => false
  | p :: rest => first p && decide (rest.length ≤ most) && rest.all other

/-- `_FIELD_NAME` -/
def isFieldName (value : Text) : Bool :=
  isName isLower (fun p => isLower p || isDigit p || decide (p ∈ text "_.-")) 127 value

/-- `_IDENTIFIER` -/
def isIdentifier (value : Text) : Bool :=
  isName (fun p => isLower p || isDigit p)
    (fun p => isLower p || isDigit p || decide (p ∈ text "-")) 63 value

/-- `_SHA256` -/
def isSha256 (value : Text) : Bool :=
  decide (value.length = 64) && value.all isHex

/-- `_GIT_SHA` -/
def isGitSha (value : Text) : Bool :=
  decide (value.length = 40) && value.all isHex

/-- `<=` of strings -/
def TextLE (a b : Text) : Prop :=
  a.map CodePoint.ord ≤ b.map CodePoint.ord

instance (a b : Text) : Decidable (TextLE a b) :=
  inferInstanceAs (Decidable (_ ≤ _))

/-- `_exact_text` -/
def exactText (value : BenchmarkScalar) (field : Text) (maximum : Nat) :
    Except ContractError Text :=
  match value with
  | .text value => do
      raiseIf (value = [] ∨ maximum < value.length ∨ ∃ p ∈ value, p.ord < 32)
        (.valueError (field ++ text " is invalid"))
      return value
  | _ => .error (.typeError (field ++ text " must be an exact str"))

/-- `_identifier` -/
def identifier (value : BenchmarkScalar) (field : Text) : Except ContractError Text := do
  let value ← exactText value field 64
  raiseIf (isIdentifier value = false) (.valueError (field ++ text " is invalid"))
  return value

/-- `_sha256` -/
def sha256 (value field : Text) : Except ContractError Text := do
  raiseIf (isSha256 value = false)
    (.valueError (field ++ text " must be lowercase SHA-256 hex"))
  return value

/-- `_git_sha` -/
def gitSha (value field : Text) : Except ContractError Text := do
  raiseIf (isGitSha value = false)
    (.valueError (field ++ text " must be lowercase Git SHA-1 hex"))
  return value

/-! ## Fields -/

/-- `_validate_scalar` -/
def validateScalar (value : BenchmarkScalar) (field : Text) :
    Except ContractError BenchmarkScalar :=
  match value with
  | .none | .bool _ | .int _ => .ok value
  | .float x => do
      raiseIf (x = Option.none) (.valueError (field ++ text " must be finite"))
      return value
  | .text _ => do
      let value ← exactText value field 1024
      return .text value

/-- The loop of `_field_pairs`, with the names so far. -/
def normalizePairs (field : Text) : FieldPairs → List Text → Except ContractError FieldPairs
  | [], _ => .ok []
  | (name, raw) :: rest, names => do
      raiseIf (isFieldName name = false)
        (.valueError (field ++ text " contains an invalid name"))
      raiseIf (name ∈ names) (.valueError (field ++ text " contains a duplicate name"))
      let scalar ← validateScalar raw (field ++ text "." ++ name)
      let normalized ← normalizePairs field rest (name :: names)
      return (name, scalar) :: normalized

/-- `_field_pairs`; no two names are the same, so that the names decide the order. -/
def fieldPairs (value : FieldPairs) (field : Text) : Except ContractError FieldPairs := do
  let normalized ← normalizePairs field value []
  return normalized.insertionSort fun p q => TextLE p.1 q.1

/-- The checks of `_bool_pairs`. -/
def checkBools (field : Text) : FieldPairs → Except ContractError Unit
  | [] => .ok ()
  | (name, .bool item) :: rest => do
      raiseIf (item = false) (.valueError (field ++ text "." ++ name ++ text " must pass"))
      checkBools field rest
  | (name, _) :: _ =>
      .error (.typeError (field ++ text "." ++ name ++ text " must be an exact bool"))

/-- `_bool_pairs` -/
def boolPairs (value : FieldPairs) (field : Text) : Except ContractError FieldPairs := do
  let pairs ← fieldPairs value field
  raiseIf (pairs = []) (.valueError (field ++ text " must not be empty"))
  checkBools field pairs
  return pairs

/-- `dict(pairs)[name]` -/
def field? (pairs : FieldPairs) (name : Text) : Option BenchmarkScalar :=
  (pairs.find? fun p => decide (p.1 = name)).map Prod.snd

/-! ## Numbers -/

/-- `/` of integers -/
def trueDivide (a b : Int) : Except ContractError ℚ := do
  raiseIf (b = 0) .zeroDivision
  orRaise .overflow (Binary64.ofRat? (a / b))

/-- `math.isclose` with `rel_tol=1e-12`, of finite floats -/
def isClose (a b : ℚ) : Bool :=
  let relTol := Binary64.round (1 / 10 ^ 12)
  decide (a = b) ||
    match Binary64.ofRat? (b - a) with
    | none => false
    | some diff =>
        decide (|diff| ≤ |Binary64.round (relTol * b)|) ||
          decide (|diff| ≤ |Binary64.round (relTol * a)|) || decide (|diff| ≤ 0)

/-- `math.ceil(percentile / 100 * length) - 1` -/
def rankIndex (percentile length : Nat) : Int :=
  ⌈Binary64.round (Binary64.round (percentile / 100) * Binary64.round length)⌉ - 1

/-- The nearest-rank statistic of samples. -/
def rank (samples : List Int) (percentile : Nat) : Except ContractError Int :=
  let ordered := samples.insertionSort (· ≤ ·)
  orRaise .indexError ordered[(rankIndex percentile ordered.length).toNat]?

/-! ## Timings -/

/-- `TimingSummary` -/
structure TimingSummary where
  operationsPerSample : Int
  rawSamplesNs : List Int
  minNs : Int
  medianNs : Int
  p95Ns : Option Int
  p99Ns : Option Int
  maxNs : Int
  throughputOpsPerSec : Option ℚ
deriving DecidableEq

/-- A tail percentile, when there are enough samples for it. -/
def tailRank (samples : List Int) (least percentile : Nat) :
    Except ContractError (Option Int) :=
  if least ≤ samples.length then some <$> rank samples percentile else .ok none

/-- `TimingSummary.__post_init__` -/
def TimingSummary.postInit (self : TimingSummary) : Except ContractError TimingSummary := do
  raiseIf (self.operationsPerSample ≤ 0)
    (.valueError (text "operations_per_sample must be positive"))
  let samples := self.rawSamplesNs
  raiseIf (samples = []) (.valueError (text "raw_samples_ns must not be empty"))
  raiseIf ((∃ value ∈ samples, value < 0) ∨ samples.sum ≤ 0)
    (.valueError (text "raw_samples_ns must be non-negative with positive total"))
  raiseIf (some self.minNs ≠ samples.min? ∨ some self.maxNs ≠ samples.max?)
    (.valueError (text "min_ns and max_ns must match raw samples"))
  let median ← rank samples 50
  raiseIf (self.medianNs ≠ median) (.valueError (text "median_ns must match nearest-rank p50"))
  let expectedP95 ← tailRank samples 20 95
  let expectedP99 ← tailRank samples 100 99
  raiseIf (self.p95Ns ≠ expectedP95 ∨ self.p99Ns ≠ expectedP99)
    (.valueError (text "tail percentiles do not match sample-count gates"))
  let throughput ← orRaise
    (.valueError (text "throughput_ops_per_sec must be finite and positive"))
    self.throughputOpsPerSec
  raiseIf (throughput ≤ 0)
    (.valueError (text "throughput_ops_per_sec must be finite and positive"))
  let expected ← trueDivide (self.operationsPerSample * samples.length * 1000000000) samples.sum
  raiseIf (isClose throughput expected = false)
    (.valueError (text "throughput_ops_per_sec is inconsistent"))
  return self

/-- A timing that its constructor returned. -/
abbrev ValidTiming := Constructed TimingSummary.postInit

/-! ## Reports -/

/-- `BenchmarkEnvironment` -/
structure BenchmarkEnvironment where
  python : Text
  implementation : Text
  platform : Text
  processor : Text
  cpuCount : Option Int
  gitSha : Text
  seed : Int
  profileRegistryDigest : Text
  dependencyLockDigest : Text
  dependencies : FieldPairs
  extensions : FieldPairs
  sourceDirty : Bool
deriving DecidableEq

/-- `BenchmarkEnvironment.__post_init__` -/
def BenchmarkEnvironment.postInit (self : BenchmarkEnvironment) :
    Except ContractError BenchmarkEnvironment := do
  let _ ← exactText (.text self.python) (text "python") 1024
  let _ ← exactText (.text self.implementation) (text "implementation") 1024
  let _ ← exactText (.text self.platform) (text "platform") 1024
  let _ ← exactText (.text self.processor) (text "processor") 1024
  raiseIf (∃ count ∈ self.cpuCount, count ≤ 0) (.valueError (text "cpu_count must be positive"))
  let _ ← Benchmark.gitSha self.gitSha (text "git_sha")
  let _ ← sha256 self.profileRegistryDigest (text "profile_registry_digest")
  let _ ← sha256 self.dependencyLockDigest (text "dependency_lock_digest")
  let dependencies ← fieldPairs self.dependencies (text "dependencies")
  let extensions ← fieldPairs self.extensions (text "extensions")
  return { self with dependencies := dependencies, extensions := extensions }

/-- `BenchmarkRunIdentity` -/
structure BenchmarkRunIdentity where
  modeOrder : List Text
  role : Text
  runnerId : Option Text
  pairId : Option Text
  pairIndex : Option Int
  candidateOrder : Option Text
deriving DecidableEq

/-- The modes that a run supports. -/
def supportedModes : List Text :=
  [text "sync", text "async"]

/-- `BenchmarkRunIdentity.__post_init__` -/
def BenchmarkRunIdentity.postInit (self : BenchmarkRunIdentity) :
    Except ContractError BenchmarkRunIdentity := do
  raiseIf
    (self.modeOrder = [] ∨ ¬self.modeOrder.Nodup ∨
      ¬∀ mode ∈ self.modeOrder, mode ∈ supportedModes)
    (.valueError (text "mode_order must contain unique supported modes"))
  if self.role = text "snapshot" then
    raiseIf (self.runnerId ≠ none ∨ self.pairId ≠ none ∨ self.pairIndex ≠ none ∨
        self.candidateOrder ≠ none)
      (.valueError (text "snapshot runs cannot carry pairing fields"))
    return self
  else
    raiseIf (self.role ≠ text "baseline" ∧ self.role ≠ text "candidate")
      (.valueError (text "paired roles require every pairing field"))
    match self.runnerId, self.pairId, self.pairIndex, self.candidateOrder with
    | some runnerId, some pairId, some pairIndex, some candidateOrder =>
        let _ ← identifier (.text runnerId) (text "runner_id")
        let _ ← identifier (.text pairId) (text "pair_id")
        raiseIf (pairIndex < 0) (.valueError (text "pair_index must be non-negative"))
        let expected := if pairIndex % 2 = 0 then text "baseline-first" else text "candidate-first"
        raiseIf (candidateOrder ≠ expected)
          (.valueError (text "candidate_order does not match pair_index parity"))
        return self
    | _, _, _, _ => .error (.valueError (text "paired roles require every pairing field"))

/-- `BenchmarkScenarioResult` -/
structure BenchmarkScenarioResult where
  scenarioId : Text
  mode : Text
  parameters : FieldPairs
  timing : ValidTiming
  metrics : FieldPairs
  invariants : FieldPairs
deriving DecidableEq

/-- `BenchmarkScenarioResult.__post_init__` -/
def BenchmarkScenarioResult.postInit (self : BenchmarkScenarioResult) :
    Except ContractError BenchmarkScenarioResult := do
  let _ ← identifier (.text self.scenarioId) (text "scenario_id")
  raiseIf (self.mode ∉ supportedModes) (.valueError (text "mode is unsupported"))
  let parameters ← fieldPairs self.parameters (text "parameters")
  let caseId ← orRaise (.valueError (text "parameters must contain case_id"))
    (field? parameters (text "case_id"))
  let _ ← identifier caseId (text "case_id")
  let metrics ← fieldPairs self.metrics (text "metrics")
  let invariants ← boolPairs self.invariants (text "invariants")
  return { self with parameters := parameters, metrics := metrics, invariants := invariants }

/-- A scenario that its constructor returned. -/
abbrev ValidScenario := Constructed BenchmarkScenarioResult.postInit

/-- `BenchmarkReport` -/
structure BenchmarkReport where
  schemaVersion : Int
  profile : Text
  environment : Constructed BenchmarkEnvironment.postInit
  run : Constructed BenchmarkRunIdentity.postInit
  scenarios : List ValidScenario
  productionCapacityClaim : Bool
deriving DecidableEq

/-- The identities of scenarios; no two of them are the same. -/
def checkIdentities :
    List ValidScenario → List (Text × Text × BenchmarkScalar) → Except ContractError Unit
  | [], _ => .ok ()
  | ⟨item, _⟩ :: rest, identities => do
      let caseId ← orRaise .keyError (field? item.parameters (text "case_id"))
      let identity := (item.mode, item.scenarioId, caseId)
      raiseIf (identity ∈ identities) (.valueError (text "scenario identity must be unique"))
      checkIdentities rest (identity :: identities)

/-- `BenchmarkReport.__post_init__` -/
def BenchmarkReport.postInit (self : BenchmarkReport) :
    Except ContractError BenchmarkReport := do
  raiseIf (self.schemaVersion ≠ 1) (.valueError (text "schema_version must be 1"))
  let _ ← identifier (.text self.profile) (text "profile")
  raiseIf (self.scenarios = [])
    (.valueError (text "scenarios must contain benchmark scenario results"))
  checkIdentities self.scenarios []
  let modes := self.scenarios.map fun item => item.val.mode
  raiseIf (¬((∀ mode ∈ self.run.val.modeOrder, mode ∈ modes) ∧
      ∀ mode ∈ modes, mode ∈ self.run.val.modeOrder))
    (.valueError (text "mode_order must match scenario modes"))
  raiseIf (self.productionCapacityClaim = true)
    (.valueError (text "production capacity claims are forbidden"))
  return self

/-- A report that its constructor returned. -/
abbrev ValidReport := Constructed BenchmarkReport.postInit

/-! ## What the constructors guarantee -/

/-- The samples and the statistics of a timing. -/
structure TimingSpec (timing : TimingSummary) : Prop where
  samples : timing.rawSamplesNs ≠ []
  nonneg : ¬((∃ value ∈ timing.rawSamplesNs, value < 0) ∨ timing.rawSamplesNs.sum ≤ 0)
  median : rank timing.rawSamplesNs 50 = .ok timing.medianNs
  p95 : tailRank timing.rawSamplesNs 20 95 = .ok timing.p95Ns

theorem ValidTiming.spec
    (timing : ValidTiming) :
    TimingSpec timing.val := by
  obtain ⟨self, hself⟩ := timing.property
  simp only [TimingSummary.postInit, except_bind_eq_ok, raiseIf_eq_ok] at hself
  obtain ⟨_, -, _, hsamples, _, hnonneg, _, -, median, hmedian, _, hsame, p95, hp95, p99, -, _,
    htails, _, -, _, -, _, -, _, -, hreturn⟩ := hself
  rw [← Except.ok.inj hreturn]
  rw [not_or, not_not, not_not] at htails
  exact ⟨hsamples, hnonneg, hmedian.trans (congrArg _ (not_not.mp hsame).symm),
    hp95.trans (congrArg _ htails.1.symm)⟩

/-- The identity of a scenario. -/
structure ScenarioSpec (scenario : BenchmarkScenarioResult) : Prop where
  scenarioId : ∃ value, identifier (.text scenario.scenarioId) (text "scenario_id") = .ok value
  mode : scenario.mode ∈ supportedModes
  caseId : ∃ caseId value, field? scenario.parameters (text "case_id") = some caseId ∧
    identifier caseId (text "case_id") = .ok value

theorem ValidScenario.spec
    (scenario : ValidScenario) :
    ScenarioSpec scenario.val := by
  obtain ⟨self, hself⟩ := scenario.property
  simp only [BenchmarkScenarioResult.postInit, except_bind_eq_ok, raiseIf_eq_ok,
    orRaise_eq_ok] at hself
  obtain ⟨scenarioId, hscenarioId, _, hmode, parameters, -, caseId, hcaseId, value, hvalue, metrics,
    -, invariants, -, hreturn⟩ := hself
  rw [← Except.ok.inj hreturn]
  exact ⟨⟨scenarioId, hscenarioId⟩, not_not.mp hmode, ⟨caseId, value, hcaseId, hvalue⟩⟩

theorem gitSha_of_constructed
    (environment : Constructed BenchmarkEnvironment.postInit) (field : Text) :
    gitSha environment.val.gitSha field = .ok environment.val.gitSha := by
  obtain ⟨self, hself⟩ := environment.property
  simp only [BenchmarkEnvironment.postInit, except_bind_eq_ok] at hself
  obtain ⟨_, -, _, -, _, -, _, -, _, -, sha, hsha, _, -, _, -, _, -, _, -, hreturn⟩ := hself
  rw [← Except.ok.inj hreturn]
  simp only [gitSha, except_bind_eq_ok, raiseIf_eq_ok] at hsha ⊢
  obtain ⟨_, hvalid, -⟩ := hsha
  exact ⟨(), hvalid, rfl⟩

/-! ## Comparisons -/

/-- The statistics of a delta. -/
inductive Statistic
  | medianNs
  | p95Ns
deriving DecidableEq

/-- `getattr(timing, statistic)` -/
def TimingSummary.statistic (timing : TimingSummary) : Statistic → Option Int
  | .medianNs => some timing.medianNs
  | .p95Ns => timing.p95Ns

/-- `BenchmarkDelta` -/
structure BenchmarkDelta where
  mode : Text
  scenarioId : Text
  caseId : BenchmarkScalar
  statistic : Statistic
  baselineNs : Int
  candidateNs : Int
  baselineSamplesNs : List Int
  candidateSamplesNs : List Int
  absoluteDeltaNs : Int
  relativeDeltaPercent : Option ℚ
deriving DecidableEq

/-- `absolute / baseline_ns * 100`; none is infinity. -/
def relativePercent (absolute baselineNs : Int) : Except ContractError (Option ℚ) := do
  let ratio ← trueDivide absolute baselineNs
  return Binary64.ofRat? (ratio * 100)

/-- The checks of retained samples. -/
def checkSamples (samples : List Int) (field : Text) : Except ContractError Unit := do
  raiseIf (samples = []) (.typeError (field ++ text " must contain exact ints"))
  raiseIf ((∃ value ∈ samples, value < 0) ∨ samples.sum ≤ 0)
    (.valueError (field ++ text " must contain non-negative timings"))

/-- The statistic that retained samples give. -/
def expectedStatistic (statistic : Statistic) (samples : List Int) : Except ContractError Int :=
  match statistic with
  | .medianNs => rank samples 50
  | .p95Ns => do
      raiseIf (samples.length < 20)
        (.valueError (text "p95 deltas require at least 20 samples"))
      rank samples 95

/-- `BenchmarkDelta.__post_init__` -/
def BenchmarkDelta.postInit (self : BenchmarkDelta) : Except ContractError BenchmarkDelta := do
  raiseIf (self.mode ∉ supportedModes) (.valueError (text "mode is unsupported"))
  let _ ← identifier (.text self.scenarioId) (text "scenario_id")
  let _ ← identifier self.caseId (text "case_id")
  raiseIf (self.baselineNs ≤ 0 ∨ self.candidateNs ≤ 0)
    (.valueError (text "compared timings must be positive"))
  checkSamples self.baselineSamplesNs (text "baseline_samples_ns")
  checkSamples self.candidateSamplesNs (text "candidate_samples_ns")
  let expectedBaseline ← expectedStatistic self.statistic self.baselineSamplesNs
  let expectedCandidate ← expectedStatistic self.statistic self.candidateSamplesNs
  raiseIf (self.baselineNs ≠ expectedBaseline ∨ self.candidateNs ≠ expectedCandidate)
    (.valueError (text "compared timings must match retained raw samples"))
  raiseIf (self.absoluteDeltaNs ≠ self.candidateNs - self.baselineNs)
    (.valueError (text "absolute_delta_ns is inconsistent"))
  let relative ← orRaise (.valueError (text "relative_delta_percent must be finite"))
    self.relativeDeltaPercent
  let expectedRelative ← relativePercent self.absoluteDeltaNs self.baselineNs
  raiseIf (¬∃ expected ∈ expectedRelative, isClose relative expected = true)
    (.valueError (text "relative_delta_percent is inconsistent"))
  return self

/-- `BenchmarkComparison` -/
structure BenchmarkComparison where
  schemaVersion : Int
  comparable : Bool
  reasons : List Text
  baselineGitSha : Text
  candidateGitSha : Text
  deltas : List BenchmarkDelta
deriving DecidableEq

/-- `sorted` of strings -/
def sortedTexts (texts : List Text) : List Text :=
  texts.insertionSort TextLE

/-- `BenchmarkComparison.__post_init__` -/
def BenchmarkComparison.postInit (self : BenchmarkComparison) :
    Except ContractError BenchmarkComparison := do
  raiseIf (self.schemaVersion ≠ 1) (.valueError (text "schema_version must be exact int 1"))
  let reasons := sortedTexts self.reasons
  forM reasons fun reason => do
    let _ ← identifier (.text reason) (text "reason")
  raiseIf (¬reasons.Nodup) (.valueError (text "reasons must be unique"))
  let _ ← gitSha self.baselineGitSha (text "baseline_git_sha")
  let _ ← gitSha self.candidateGitSha (text "candidate_git_sha")
  raiseIf (self.comparable = true ∧ reasons ≠ [])
    (.valueError (text "comparable results cannot have reasons"))
  raiseIf (self.comparable = false ∧ (reasons = [] ∨ self.deltas ≠ []))
    (.valueError (text "non-comparable results require reasons and no deltas"))
  return { self with reasons := reasons }

end Benchmark
end Bluetape
