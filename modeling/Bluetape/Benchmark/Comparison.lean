import Bluetape.Benchmark.Contracts

/-!
# Comparison of benchmark reports

A baseline and a candidate are compared when nothing but their code differs; otherwise the
comparison has the reasons against it.

* `postInit_reasons`: a comparison with reasons is accepted;
* `delta_eq_ok_iff`: which timings have a delta;
* `compareReports_iff`: which reports are compared.
-/

namespace Bluetape
namespace Benchmark

open Base

/-! ## Equality -/

/-- The number that a scalar is equal to. -/
def BenchmarkScalar.number? : BenchmarkScalar → Option ℚ
  | .int value => some value
  | .bool value => some (if value then 1 else 0)
  | .float value => value
  | .text _ | .none => Option.none

/-- `==` of scalars -/
def BenchmarkScalar.same (a b : BenchmarkScalar) : Bool :=
  match a, b with
  | .text value, .text value' => decide (value = value')
  | .none, .none => true
  | a, b =>
      match a.number?, b.number? with
      | some x, some y => decide (x = y)
      | _, _ => false

/-- `==` of fields -/
def SameFields (a b : FieldPairs) : Prop :=
  List.Forall₂ (fun p q => p.1 = q.1 ∧ p.2.same q.2 = true) a b

instance (a b : FieldPairs) : Decidable (SameFields a b) :=
  inferInstanceAs (Decidable (List.Forall₂ _ a b))

/-- `==` of the tuples in `_scenario_contract` -/
structure SameContract (base current : BenchmarkScenarioResult) : Prop where
  mode : base.mode = current.mode
  scenarioId : base.scenarioId = current.scenarioId
  parameters : SameFields base.parameters current.parameters
  operations : base.timing.val.operationsPerSample = current.timing.val.operationsPerSample
  samples : base.timing.val.rawSamplesNs.length = current.timing.val.rawSamplesNs.length
  p95 : base.timing.val.p95Ns.isSome = current.timing.val.p95Ns.isSome

theorem sameContract_iff
    (base current : BenchmarkScenarioResult) :
    SameContract base current ↔ base.mode = current.mode ∧
      base.scenarioId = current.scenarioId ∧ SameFields base.parameters current.parameters ∧
      base.timing.val.operationsPerSample = current.timing.val.operationsPerSample ∧
      base.timing.val.rawSamplesNs.length = current.timing.val.rawSamplesNs.length ∧
      base.timing.val.p95Ns.isSome = current.timing.val.p95Ns.isSome :=
  ⟨fun h => ⟨h.mode, h.scenarioId, h.parameters, h.operations, h.samples, h.p95⟩,
    fun h => ⟨h.1, h.2.1, h.2.2.1, h.2.2.2.1, h.2.2.2.2.1, h.2.2.2.2.2⟩⟩

instance (base current : BenchmarkScenarioResult) : Decidable (SameContract base current) :=
  decidable_of_iff' _ (sameContract_iff base current)

/-- `==` of `_scenario_contract` -/
def SameContracts (baseline candidate : BenchmarkReport) : Prop :=
  List.Forall₂ (fun base current => SameContract base.val current.val)
    baseline.scenarios candidate.scenarios

instance (baseline candidate : BenchmarkReport) : Decidable (SameContracts baseline candidate) :=
  inferInstanceAs (Decidable (List.Forall₂ _ _ _))

/-! ## Reasons -/

/-- The reason for a difference. -/
def reasonIf (differs : Prop) [Decidable differs] (reason : String) : List Text :=
  if differs then [text reason] else []

/-- `_comparison_reasons` -/
def comparisonReasons (baseline candidate : BenchmarkReport) : List Text :=
  let env := baseline.environment.val
  let env' := candidate.environment.val
  let run := baseline.run.val
  let run' := candidate.run.val
  reasonIf (baseline.schemaVersion ≠ candidate.schemaVersion) "schema-mismatch" ++
  reasonIf (baseline.profile ≠ candidate.profile) "profile-mismatch" ++
  reasonIf (env.profileRegistryDigest ≠ env'.profileRegistryDigest) "registry-mismatch" ++
  reasonIf (env.seed ≠ env'.seed) "seed-mismatch" ++
  reasonIf (env.dependencyLockDigest ≠ env'.dependencyLockDigest) "dependency-lock-mismatch" ++
  reasonIf (¬SameFields env.dependencies env'.dependencies) "dependencies-mismatch" ++
  reasonIf ((env.python, env.implementation, env.platform, env.processor, env.cpuCount) ≠
    (env'.python, env'.implementation, env'.platform, env'.processor, env'.cpuCount))
    "runtime-mismatch" ++
  reasonIf (¬SameFields env.extensions env'.extensions) "environment-mismatch" ++
  reasonIf (env.sourceDirty = true ∨ env'.sourceDirty = true) "source-dirty" ++
  reasonIf (env.gitSha = env'.gitSha) "git-sha-match" ++
  reasonIf (run.role ≠ text "baseline" ∨ run'.role ≠ text "candidate") "role-mismatch" ++
  reasonIf (run.modeOrder ≠ run'.modeOrder) "mode-order-mismatch" ++
  reasonIf ((run.runnerId, run.pairId, run.pairIndex, run.candidateOrder) ≠
    (run'.runnerId, run'.pairId, run'.pairIndex, run'.candidateOrder)) "pairing-mismatch" ++
  reasonIf (¬SameContracts baseline candidate) "workload-mismatch"

/-! ## Deltas -/

/-- `_delta` -/
def delta (baseline candidate : BenchmarkScenarioResult) (statistic : Statistic) :
    Except ContractError BenchmarkDelta :=
  match baseline.timing.val.statistic statistic, candidate.timing.val.statistic statistic with
  | some baselineNs, some candidateNs => do
      let absolute := candidateNs - baselineNs
      let caseId ← orRaise .keyError (field? baseline.parameters (text "case_id"))
      let relative ← relativePercent absolute baselineNs
      BenchmarkDelta.postInit
        { mode := baseline.mode
          scenarioId := baseline.scenarioId
          caseId := caseId
          statistic := statistic
          baselineNs := baselineNs
          candidateNs := candidateNs
          baselineSamplesNs := baseline.timing.val.rawSamplesNs
          candidateSamplesNs := candidate.timing.val.rawSamplesNs
          absoluteDeltaNs := absolute
          relativeDeltaPercent := relative }
  | _, _ =>
      .error (.valueError (text "compared statistic must be available in both reports"))

/-- The statistics that a scenario has. -/
def availableStatistics (scenario : BenchmarkScenarioResult) : List Statistic :=
  [.medianNs, .p95Ns].filter fun statistic =>
    (scenario.timing.val.statistic statistic).isSome

/-- The paired scenarios with every statistic that the baseline has. -/
def pairedStatistics (baseline candidate : BenchmarkReport) :
    List (BenchmarkScenarioResult × BenchmarkScenarioResult × Statistic) :=
  (baseline.scenarios.zip candidate.scenarios).flatMap fun (base, current) =>
    (availableStatistics base.val).map fun statistic => (base.val, current.val, statistic)

/-- `compare_reports` -/
def compareReports (baseline candidate : ValidReport) :
    Except ContractError BenchmarkComparison := do
  let reasons := sortedTexts (comparisonReasons baseline.val candidate.val)
  if reasons ≠ [] then
    BenchmarkComparison.postInit
      { schemaVersion := 1
        comparable := false
        reasons := reasons
        baselineGitSha := baseline.val.environment.val.gitSha
        candidateGitSha := candidate.val.environment.val.gitSha
        deltas := [] }
  else
    let deltas ← (pairedStatistics baseline.val candidate.val).mapM
      fun (base, current, statistic) => delta base current statistic
    -- `zip(strict=True)`
    raiseIf (baseline.val.scenarios.length ≠ candidate.val.scenarios.length)
      (.valueError (text "zip() arguments have different lengths"))
    BenchmarkComparison.postInit
      { schemaVersion := 1
        comparable := true
        reasons := []
        baselineGitSha := baseline.val.environment.val.gitSha
        candidateGitSha := candidate.val.environment.val.gitSha
        deltas := deltas }

/-! ## Reasons are accepted -/

/-- The texts of all reasons. -/
def allReasons : List Text :=
  [text "schema-mismatch", text "profile-mismatch", text "registry-mismatch",
    text "seed-mismatch", text "dependency-lock-mismatch", text "dependencies-mismatch",
    text "runtime-mismatch", text "environment-mismatch", text "source-dirty",
    text "git-sha-match", text "role-mismatch", text "mode-order-mismatch",
    text "pairing-mismatch", text "workload-mismatch"]

theorem reasonIf_sublist
    (differs : Prop) [Decidable differs] (reason : String) :
    (reasonIf differs reason).Sublist [text reason] := by
  unfold reasonIf
  split
  · exact .refl _
  · exact List.nil_sublist _

theorem comparisonReasons_sublist
    (baseline candidate : BenchmarkReport) :
    (comparisonReasons baseline candidate).Sublist allReasons := by
  unfold comparisonReasons
  exact ((((((((((((((reasonIf_sublist _ _).append (reasonIf_sublist _ _)).append
    (reasonIf_sublist _ _)).append (reasonIf_sublist _ _)).append (reasonIf_sublist _ _)).append
    (reasonIf_sublist _ _)).append (reasonIf_sublist _ _)).append (reasonIf_sublist _ _)).append
    (reasonIf_sublist _ _)).append (reasonIf_sublist _ _)).append (reasonIf_sublist _ _)).append
    (reasonIf_sublist _ _)).append (reasonIf_sublist _ _)).append (reasonIf_sublist _ _))

theorem allReasons_nodup :
    allReasons.Nodup := by
  decide

theorem identifier_allReasons :
    ∀ reason ∈ allReasons, identifier (.text reason) (text "reason") = .ok reason := by
  decide

/-- **A comparison with reasons is accepted.** -/
theorem postInit_reasons
    (baseline candidate : BenchmarkReport)
    (hreasons : comparisonReasons baseline candidate ≠ []) :
    ∃ comparison, BenchmarkComparison.postInit
      { schemaVersion := 1
        comparable := false
        reasons := sortedTexts (comparisonReasons baseline candidate)
        baselineGitSha := baseline.environment.val.gitSha
        candidateGitSha := candidate.environment.val.gitSha
        deltas := [] } = .ok comparison ∧
      comparison.comparable = false ∧ comparison.deltas = [] ∧
        comparison.reasons.Perm (comparisonReasons baseline candidate) := by
  have hperm : (sortedTexts (sortedTexts (comparisonReasons baseline candidate))).Perm
      (comparisonReasons baseline candidate) :=
    (List.perm_insertionSort _ _).trans (List.perm_insertionSort _ _)
  have hsublist := comparisonReasons_sublist baseline candidate
  refine ⟨⟨1, false, sortedTexts (sortedTexts (comparisonReasons baseline candidate)),
    baseline.environment.val.gitSha, candidate.environment.val.gitSha, []⟩, ?_, rfl, rfl, hperm⟩
  simp only [BenchmarkComparison.postInit, except_bind_eq_ok, raiseIf_eq_ok, except_forM_eq_ok]
  refine ⟨(), by simp, (), fun reason hreason => ?_, (), ?_, _, gitSha_of_constructed _ _, _,
    gitSha_of_constructed _ _, (), by simp, (), ?_, rfl⟩
  · exact ⟨_, identifier_allReasons reason (hsublist.subset (hperm.mem_iff.mp hreason)), rfl⟩
  · exact not_not.mpr (hperm.nodup_iff.mpr (allReasons_nodup.sublist hsublist))
  · rintro ⟨-, hnone | hdeltas⟩
    · rw [hnone] at hperm
      exact hreasons hperm.symm.eq_nil
    · exact hdeltas rfl

theorem postInit_deltas
    (baseline candidate : BenchmarkReport) (deltas : List BenchmarkDelta) :
    BenchmarkComparison.postInit
      { schemaVersion := 1
        comparable := true
        reasons := []
        baselineGitSha := baseline.environment.val.gitSha
        candidateGitSha := candidate.environment.val.gitSha
        deltas := deltas } = .ok
      { schemaVersion := 1
        comparable := true
        reasons := []
        baselineGitSha := baseline.environment.val.gitSha
        candidateGitSha := candidate.environment.val.gitSha
        deltas := deltas } := by
  simp only [BenchmarkComparison.postInit, except_bind_eq_ok, raiseIf_eq_ok, except_forM_eq_ok]
  exact ⟨(), by simp, (), by simp [sortedTexts], (), by simp [sortedTexts], _,
    gitSha_of_constructed _ _, _, gitSha_of_constructed _ _, (), by simp [sortedTexts], (),
    by simp, rfl⟩

/-! ## Which timings have a delta -/

/-- The greatest ratio whose percentage is a double; of two halves the lower one is even. -/
def maxRatio : Int :=
  11529215046068469 * 2 ^ 964

/-- Both timings are positive, and the relative delta is a double. -/
def InRange (baselineNs candidateNs : Int) : Prop :=
  0 < baselineNs ∧ 0 < candidateNs ∧ candidateNs - baselineNs ≤ maxRatio * baselineNs

instance (baselineNs candidateNs : Int) : Decidable (InRange baselineNs candidateNs) :=
  inferInstanceAs (Decidable (_ ∧ _))

/-- The percentage of a ratio is a double up to the greatest one. -/
theorem percentage_iff
    {q : ℚ}
    (hq : -1 ≤ q) :
    (∃ x y, Binary64.ofRat? q = some x ∧ Binary64.ofRat? (x * 100) = some y) ↔
      q ≤ (5764607523034234 + 1 / 2) * 2 ^ (965 : Int) := by
  have htop : (2 : ℚ) ^ (971 : Int) = 64 * 2 ^ (965 : Int) := by
    rw [show (971 : Int) = 6 + 965 from rfl, zpow_add₀ (by norm_num)]
    norm_num
  rcases lt_or_ge q 0 with hneg | hpos
  · have habs : |q| ≤ 2 ^ (0 : Int) := by
      rw [zpow_zero, abs_le]
      exact ⟨hq, by linarith⟩
    have hround := Binary64.abs_round_le (by norm_num) habs
    have hpercent : |Binary64.round q * 100| ≤ 2 ^ (7 : Int) := by
      rw [zpow_zero] at hround
      rw [abs_mul]
      norm_num
      linarith
    have hlarge : 0 < ((5764607523034234 + 1 / 2) * 2 ^ (965 : Int) : ℚ) := by positivity
    refine iff_of_true ⟨_, _, Binary64.ofRat?_of_abs_le (by norm_num) (by norm_num) habs,
      Binary64.ofRat?_of_abs_le (by norm_num) (by norm_num) hpercent⟩ (hneg.le.trans hlarge.le)
  · have hcases := Binary64.round_cases (m := 5764607523034234) (e := 965) (by norm_num)
      (by norm_num) (by norm_num) q
    have hround := Binary64.round_nonneg hpos
    have hscaled : 0 ≤ Binary64.round q * 100 := by positivity
    have hunit := Binary64.pow_pos 965
    unfold Binary64.Below at hcases
    simp only [Binary64.ofRat?_eq_some_iff hpos]
    generalize (2 : ℚ) ^ (965 : Int) = unit at hunit htop hcases ⊢
    push_cast at hcases
    constructor
    · rintro ⟨x, y, ⟨-, rfl⟩, hy⟩
      have hlt := ((Binary64.ofRat?_eq_some_iff hscaled).mp hy).1
      rcases hcases with ⟨hless | ⟨htie, -⟩, -⟩ | ⟨-, habove⟩
      · exact hless.le
      · exact htie.le
      · -- the next double is too large already
        rw [htop] at hlt
        linarith only [hlt, habove, hunit]
    · intro hle
      rcases hcases with ⟨-, hbelow⟩ | ⟨hnot, -⟩
      · refine ⟨_, _, ⟨?_, rfl⟩, (Binary64.ofRat?_eq_some_iff hscaled).mpr ⟨?_, rfl⟩⟩
        · rw [htop]
          linarith only [hle, hunit]
        · rw [htop]
          linarith only [hbelow, hunit]
      · rcases hle.lt_or_eq with hless | htie
        · exact absurd (.inl hless) hnot
        · exact absurd (.inr ⟨htie, by norm_num⟩) hnot

theorem ratio_iff
    {baselineNs candidateNs : Int}
    (hbaseline : 0 < baselineNs) :
    ((candidateNs - baselineNs : Int) : ℚ) / baselineNs ≤
        (5764607523034234 + 1 / 2) * 2 ^ (965 : Int) ↔
      candidateNs - baselineNs ≤ maxRatio * baselineNs := by
  have hpos : (0 : ℚ) < baselineNs := by exact_mod_cast hbaseline
  have hmax : (5764607523034234 + 1 / 2) * (2 : ℚ) ^ (965 : Int) = maxRatio := by
    rw [show (965 : Int) = (964 : Nat) + 1 from rfl, zpow_add₀ (by norm_num), zpow_natCast,
      zpow_one, maxRatio, Int.cast_mul, Int.cast_pow]
    generalize ((2 : Int) : ℚ) ^ 964 = unit
    ring
  rw [hmax, div_le_iff₀ hpos]
  exact_mod_cast Iff.rfl

/-- **When the relative delta is a double.** -/
theorem relativePercent_iff
    {baselineNs candidateNs : Int}
    (hbaseline : 0 < baselineNs)
    (hcandidate : 0 < candidateNs) :
    (∃ relative, relativePercent (candidateNs - baselineNs) baselineNs = .ok (some relative)) ↔
      candidateNs - baselineNs ≤ maxRatio * baselineNs := by
  have hpos : (0 : ℚ) < baselineNs := by exact_mod_cast hbaseline
  have hratio : -1 ≤ ((candidateNs - baselineNs : Int) : ℚ) / baselineNs := by
    rw [le_div_iff₀ hpos]
    have hnonneg : (0 : ℚ) < candidateNs := by exact_mod_cast hcandidate
    push_cast
    linarith
  rw [← ratio_iff hbaseline, ← percentage_iff hratio]
  simp only [relativePercent, trueDivide, except_bind_eq_ok, raiseIf_eq_ok, orRaise_eq_ok]
  constructor
  · rintro ⟨relative, ratio, ⟨_, -, hdivide⟩, hpercent⟩
    exact ⟨ratio, relative, hdivide, Except.ok.inj hpercent⟩
  · rintro ⟨ratio, relative, hdivide, hpercent⟩
    exact ⟨relative, ratio, ⟨(), hbaseline.ne', hdivide⟩, congrArg _ hpercent⟩

theorem isClose_self
    (a : ℚ) :
    isClose a a = true := by
  simp [isClose]

theorem ValidTiming.expectedStatistic
    (timing : ValidTiming) {statistic : Statistic} {value : Int}
    (hvalue : timing.val.statistic statistic = some value) :
    Benchmark.expectedStatistic statistic timing.val.rawSamplesNs = .ok value := by
  have hspec := timing.spec
  cases statistic with
  | medianNs =>
      obtain rfl := Option.some.inj hvalue
      exact hspec.median
  | p95Ns =>
      have hp95 := hspec.p95
      rw [show timing.val.p95Ns = some value from hvalue] at hp95
      unfold tailRank at hp95
      split at hp95
      case isTrue henough =>
        simp only [Benchmark.expectedStatistic, except_bind_eq_ok, raiseIf_eq_ok]
        refine ⟨(), not_lt.mpr henough, ?_⟩
        cases hrank : rank timing.val.rawSamplesNs 95 with
        | error error =>
            rw [hrank] at hp95
            cases hp95
        | ok found =>
            rw [hrank] at hp95
            exact congrArg _ (Option.some.inj (Except.ok.inj hp95))
      case isFalse =>
        cases hp95

/-- A delta of one statistic of paired scenarios. -/
structure IsDelta (paired : BenchmarkScenarioResult × BenchmarkScenarioResult × Statistic)
    (d : BenchmarkDelta) : Prop where
  mode : d.mode = paired.1.mode
  scenarioId : d.scenarioId = paired.1.scenarioId
  caseId : field? paired.1.parameters (text "case_id") = some d.caseId
  statistic : d.statistic = paired.2.2
  baselineNs : paired.1.timing.val.statistic paired.2.2 = some d.baselineNs
  candidateNs : paired.2.1.timing.val.statistic paired.2.2 = some d.candidateNs
  absoluteDeltaNs : d.absoluteDeltaNs = d.candidateNs - d.baselineNs

/-- **Which timings have a delta.** -/
theorem delta_eq_ok_iff
    {base current : ValidScenario} {statistic : Statistic} {baselineNs candidateNs : Int}
    (hbaseline : base.val.timing.val.statistic statistic = some baselineNs)
    (hcandidate : current.val.timing.val.statistic statistic = some candidateNs) :
    (∃ d, delta base.val current.val statistic = .ok d) ↔ InRange baselineNs candidateNs := by
  simp only [delta, hbaseline, hcandidate, except_bind_eq_ok, orRaise_eq_ok]
  constructor
  · rintro ⟨d, caseId, -, relative, hrelative, hd⟩
    simp only [BenchmarkDelta.postInit, except_bind_eq_ok, raiseIf_eq_ok, orRaise_eq_ok,
      not_or, not_le] at hd
    obtain ⟨_, -, _, -, _, -, _, ⟨hb, hc⟩, _, -, _, -, _, -, _, -, _, -, _, -, finite, hfinite,
      -⟩ := hd
    rw [hfinite] at hrelative
    exact ⟨hb, hc, (relativePercent_iff hb hc).mp ⟨finite, hrelative⟩⟩
  · rintro ⟨hb, hc, hratio⟩
    obtain ⟨relative, hrelative⟩ := (relativePercent_iff hb hc).mpr hratio
    have hspec := base.spec
    obtain ⟨scenarioId, hscenarioId⟩ := hspec.scenarioId
    obtain ⟨caseId, value, hcaseId, hvalue⟩ := hspec.caseId
    let d : BenchmarkDelta := ⟨base.val.mode, base.val.scenarioId, caseId, statistic, baselineNs,
      candidateNs, base.val.timing.val.rawSamplesNs, current.val.timing.val.rawSamplesNs,
      candidateNs - baselineNs, some relative⟩
    refine ⟨d, caseId, hcaseId, some relative, hrelative, ?_⟩
    simp only [BenchmarkDelta.postInit, except_bind_eq_ok, raiseIf_eq_ok, orRaise_eq_ok,
      checkSamples]
    have hsamples := base.val.timing.spec
    have hsamples' := current.val.timing.spec
    refine ⟨(), not_not.mpr hspec.mode, scenarioId, hscenarioId, value, hvalue, (),
      not_or.mpr ⟨not_le.mpr hb, not_le.mpr hc⟩, (), ⟨(), hsamples.samples, hsamples.nonneg⟩, (),
      ⟨(), hsamples'.samples, hsamples'.nonneg⟩, baselineNs,
      base.val.timing.expectedStatistic hbaseline, candidateNs,
      current.val.timing.expectedStatistic hcandidate, (), by simp, (), by simp, relative, rfl,
      some relative, hrelative, (), ?_, rfl⟩
    exact not_not.mpr ⟨relative, rfl, isClose_self relative⟩

theorem isDelta_of_delta
    {base current : BenchmarkScenarioResult} {statistic : Statistic} {d : BenchmarkDelta}
    (hd : delta base current statistic = .ok d) :
    IsDelta (base, current, statistic) d := by
  unfold delta at hd
  split at hd
  case h_1 baselineNs candidateNs hbaseline hcandidate =>
    simp only [except_bind_eq_ok, orRaise_eq_ok] at hd
    obtain ⟨caseId, hcaseId, relative, -, hd⟩ := hd
    simp only [BenchmarkDelta.postInit, except_bind_eq_ok] at hd
    obtain ⟨_, -, _, -, _, -, _, -, _, -, _, -, _, -, _, -, _, -, _, -, _, -, _, -, _, -,
      hreturn⟩ := hd
    rw [← Except.ok.inj hreturn]
    exact ⟨rfl, rfl, hcaseId, rfl, hbaseline, hcandidate, rfl⟩
  case h_2 =>
    cases hd

/-! ## Which reports are compared -/

/-- A comparison of two reports: a delta for every available statistic, or the reasons. -/
def Compares (baseline candidate : BenchmarkReport) (comparison : BenchmarkComparison) : Prop :=
  (comparison.comparable = true ∧ comparison.reasons = [] ∧
    List.Forall₂ IsDelta (pairedStatistics baseline candidate) comparison.deltas) ∨
  (comparison.comparable = false ∧ comparison.reasons ≠ [] ∧
    comparison.reasons.Perm (comparisonReasons baseline candidate) ∧ comparison.deltas = [])

/-- Every statistic that is to be compared is in range. -/
def AllInRange (baseline candidate : BenchmarkReport) : Prop :=
  ∀ paired ∈ pairedStatistics baseline candidate,
    ∀ baselineNs ∈ paired.1.timing.val.statistic paired.2.2,
      ∀ candidateNs ∈ paired.2.1.timing.val.statistic paired.2.2, InRange baselineNs candidateNs

section Reports

variable {baseline candidate : BenchmarkReport}

/-- Without reasons the scenarios are the same. -/
theorem sameContracts_of_reasons
    (hreasons : comparisonReasons baseline candidate = []) :
    SameContracts baseline candidate := by
  by_contra hdiffers
  have hworkload : text "workload-mismatch" ∈ comparisonReasons baseline candidate := by
    refine List.mem_append_right _ ?_
    rw [reasonIf, if_pos hdiffers]
    exact List.mem_singleton_self _
  rw [hreasons] at hworkload
  cases hworkload

/-- A statistic of paired scenarios is available in both. -/
theorem mem_pairedStatistics
    (hcontracts : SameContracts baseline candidate)
    {paired : BenchmarkScenarioResult × BenchmarkScenarioResult × Statistic}
    (hpaired : paired ∈ pairedStatistics baseline candidate) :
    ∃ base current : ValidScenario, paired.1 = base.val ∧ paired.2.1 = current.val ∧
      ∃ baselineNs candidateNs, base.val.timing.val.statistic paired.2.2 = some baselineNs ∧
        current.val.timing.val.statistic paired.2.2 = some candidateNs := by
  obtain ⟨⟨base, current⟩, hzip, hmem⟩ := List.mem_flatMap.mp hpaired
  obtain ⟨statistic, hstatistic, rfl⟩ := List.mem_map.mp hmem
  have hsome := (List.mem_filter.mp hstatistic).2
  obtain ⟨baselineNs, hbaseline⟩ := Option.isSome_iff_exists.mp hsome
  have hcontract := List.forall₂_zip hcontracts hzip
  refine ⟨base, current, rfl, rfl, baselineNs, ?_⟩
  cases statistic with
  | medianNs =>
      exact ⟨_, hbaseline, rfl⟩
  | p95Ns =>
      have hp95 := hcontract.p95
      rw [show base.val.timing.val.p95Ns = some baselineNs from hbaseline] at hp95
      obtain ⟨candidateNs, hcandidate⟩ := Option.isSome_iff_exists.mp hp95.symm
      exact ⟨candidateNs, hbaseline, hcandidate⟩

/-- The loop over the statistics gives a delta for each, when all are in range. -/
theorem deltas_iff
    (hcontracts : SameContracts baseline candidate) :
    (∃ deltas, (pairedStatistics baseline candidate).mapM
        (fun (base, current, statistic) => delta base current statistic) = .ok deltas) ↔
      AllInRange baseline candidate := by
  rw [exists_except_mapM]
  constructor
  · rintro hdeltas ⟨base', current', statistic⟩ hpaired b hb c hc
    obtain ⟨base, current, rfl, rfl, -⟩ := mem_pairedStatistics hcontracts hpaired
    exact (delta_eq_ok_iff hb hc).mp (hdeltas _ hpaired)
  · rintro hrange ⟨base', current', statistic⟩ hpaired
    obtain ⟨base, current, rfl, rfl, b, c, hb, hc⟩ :=
      mem_pairedStatistics hcontracts hpaired
    exact (delta_eq_ok_iff hb hc).mpr (hrange _ hpaired b hb c hc)

end Reports

/-- **Which reports are compared.** -/
theorem compareReports_iff
    (baseline candidate : ValidReport) :
    (∃ comparison, compareReports baseline candidate = .ok comparison ∧
        Compares baseline.val candidate.val comparison) ↔
      comparisonReasons baseline.val candidate.val ≠ [] ∨
        AllInRange baseline.val candidate.val := by
  have hperm : (sortedTexts (comparisonReasons baseline.val candidate.val)).Perm
      (comparisonReasons baseline.val candidate.val) :=
    List.perm_insertionSort _ _
  unfold compareReports
  dsimp only
  by_cases hreasons : comparisonReasons baseline.val candidate.val = []
  · have hsorted : sortedTexts (comparisonReasons baseline.val candidate.val) = [] := by
      rw [hreasons]
      rfl
    have hcontracts := sameContracts_of_reasons hreasons
    rw [if_neg (not_not.mpr hsorted), or_iff_right (not_not.mpr hreasons),
      ← deltas_iff hcontracts]
    simp only [except_bind_eq_ok, raiseIf_eq_ok, postInit_deltas]
    constructor
    · rintro ⟨-, ⟨deltas, hdeltas, -⟩, -⟩
      exact ⟨deltas, hdeltas⟩
    · rintro ⟨deltas, hdeltas⟩
      refine ⟨_, ⟨deltas, hdeltas, (), not_not.mpr hcontracts.length_eq, rfl⟩, .inl ⟨rfl, rfl, ?_⟩⟩
      exact (except_mapM_eq_ok.mp hdeltas).imp fun _ _ => isDelta_of_delta
  · have hsorted : sortedTexts (comparisonReasons baseline.val candidate.val) ≠ [] := fun hnone =>
      hreasons (by rw [hnone] at hperm; exact hperm.symm.eq_nil)
    obtain ⟨comparison, haccepted, hcomparable, hdeltas, hsame⟩ :=
      postInit_reasons baseline.val candidate.val hreasons
    refine iff_of_true ⟨comparison, ?_, .inr ⟨hcomparable, ?_, hsame, hdeltas⟩⟩ (.inl hreasons)
    · rw [if_pos hsorted]
      exact haccepted
    · intro hnone
      rw [hnone] at hsame
      exact hreasons hsame.symm.eq_nil

/-! ## A pair without a comparison -/

/-- Two samples too short for the clock, so that the median is zero. -/
def shortTiming : TimingSummary where
  operationsPerSample := 1
  rawSamplesNs := [0, 0, 1]
  minNs := 0
  medianNs := 0
  p95Ns := none
  p99Ns := none
  maxNs := 1
  throughputOpsPerSec := some 3000000000

theorem postInit_shortTiming :
    shortTiming.postInit = .ok shortTiming := by
  decide +kernel

/-- The environment of a baseline, or of a candidate. -/
def pairEnvironment (candidate : Bool) : BenchmarkEnvironment where
  python := text "3.13.14"
  implementation := text "CPython"
  platform := text "darwin-arm64"
  processor := text "arm"
  cpuCount := some 10
  gitSha := List.replicate 40 (.scalar (if candidate then '2' else '1'))
  seed := 20260712
  profileRegistryDigest := List.replicate 64 (.scalar 'a')
  dependencyLockDigest := List.replicate 64 (.scalar 'b')
  dependencies := [(text "redis", .text (text "8.0.1"))]
  extensions := []
  sourceDirty := false

theorem postInit_pairEnvironment :
    ∀ candidate, (pairEnvironment candidate).postInit = .ok (pairEnvironment candidate) := by
  intro candidate
  cases candidate <;> rfl

/-- The run of a baseline, or of a candidate. -/
def pairRun (candidate : Bool) : BenchmarkRunIdentity where
  modeOrder := [text "sync"]
  role := if candidate then text "candidate" else text "baseline"
  runnerId := some (text "runner-a")
  pairId := some (text "pair-000")
  pairIndex := some 0
  candidateOrder := some (text "baseline-first")

theorem postInit_pairRun :
    ∀ candidate, (pairRun candidate).postInit = .ok (pairRun candidate) := by
  intro candidate
  cases candidate <;> rfl

/-- One scenario with that timing. -/
def shortScenario : BenchmarkScenarioResult where
  scenarioId := text "multi-coordinator"
  mode := text "sync"
  parameters := [(text "case_id", .text (text "small"))]
  timing := ⟨shortTiming, shortTiming, postInit_shortTiming⟩
  metrics := []
  invariants := [(text "loader_count", .bool true)]

theorem postInit_shortScenario :
    shortScenario.postInit = .ok shortScenario := by
  rfl

/-- The baseline, or the candidate. -/
def pairReport (candidate : Bool) : BenchmarkReport where
  schemaVersion := 1
  profile := text "smoke"
  environment := ⟨pairEnvironment candidate, _, postInit_pairEnvironment candidate⟩
  run := ⟨pairRun candidate, _, postInit_pairRun candidate⟩
  scenarios := [⟨shortScenario, shortScenario, postInit_shortScenario⟩]
  productionCapacityClaim := false

theorem postInit_pairReport :
    ∀ candidate, (pairReport candidate).postInit = .ok (pairReport candidate) := by
  intro candidate
  cases candidate <;> rfl

/-- The valid report. -/
def validPair (candidate : Bool) : ValidReport :=
  ⟨pairReport candidate, _, postInit_pairReport candidate⟩

theorem compareReports_zeroMedian :
    ¬∀ baseline candidate : ValidReport, ∃ comparison,
      compareReports baseline candidate = .ok comparison ∧
        Compares baseline.val candidate.val comparison := by
  intro hcompares
  obtain ⟨comparison, hcomparison, -⟩ := hcompares (validPair false) (validPair true)
  have hraises : compareReports (validPair false) (validPair true) = .error .zeroDivision := by
    decide
  rw [hraises] at hcomparison
  cases hcomparison

end Benchmark
end Bluetape
