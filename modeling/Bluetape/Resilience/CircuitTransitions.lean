import Bluetape.Resilience.CircuitCalls
import Bluetape.Resilience.CircuitHistory

/-!
# The transitions of a circuit breaker

An observer of the calls keeps what they were told, and the verdicts on the completed ones.
The few counters of a breaker summarise that history: it changes its state exactly where the
history says so, and a refused call never asks for its operation.

* `seen`: the history, from the labels of a run;
* `Summary`: what the counters say about it;
* `circuit_transitions_exact`: every step of every run.
-/

namespace Bluetape
namespace Resilience

open Base

/-! ## Histories -/

/-- What an observer of the calls has seen, latest completion first. -/
structure CircuitObserver (ν : Type) where
  told : CircuitCaller → Told ν
  completed : List (CircuitCaller × Verdict)

namespace CircuitBreaker

variable {ν : Type}

/-- The section that settles an admission completes its call; an answer is heard. -/
def observe (b : CircuitBreaker) (mode : Mode) (o : CircuitObserver ν) :
    CircuitLabel ν → CircuitObserver ν
  | .thread t (.atomic .settle) =>
      { o with completed := (t, b.verdict mode (o.told t)) :: o.completed }
  | l => { o with told := System.hear o.told l }

/-- What an observer has seen after a run. -/
def seen (b : CircuitBreaker) (mode : Mode) (ls : List (CircuitLabel ν)) :
    CircuitObserver ν :=
  ls.foldl (b.observe mode) ⟨fun _ => [], []⟩

/-- The caller was admitted in this generation. -/
def admittedIn (granted : List (CircuitCaller × Admission)) (generation : Nat)
    (t : CircuitCaller) : Bool :=
  granted.any fun e => decide (e.1 = t ∧ e.2.generation = generation)

/-- The verdicts that count in a generation, latest first. -/
def counted (granted : List (CircuitCaller × Admission)) (generation : Nat)
    (completed : List (CircuitCaller × Verdict)) : List Verdict :=
  (completed.filter fun e =>
    decide (e.2 ≠ .ignored) && admittedIn granted generation e.1).map Prod.snd

/-- A run of equal latest elements. -/
theorem take_eq_replicate_iff
    {α : Type} [DecidableEq α] {x : α} {l : List α} {n : Nat} :
    l.take n = List.replicate n x ↔ n ≤ (l.takeWhile fun y => decide (y = x)).length := by
  induction l generalizing n with
  | nil =>
      cases n with
      | zero => simp
      | succ n => simp [List.replicate_succ]
  | cons y l ih =>
      cases n with
      | zero => simp
      | succ n =>
          rw [List.take_succ_cons, List.replicate_succ, List.takeWhile_cons]
          by_cases hy : y = x
          · simp [hy, ih]
          · simp [hy]

/-! ## What the counters say -/

/-- The counters of the current generation summarise its history. -/
structure Summary (d : CircuitData) (granted : List (CircuitCaller × Admission))
    (completed : List (CircuitCaller × Verdict)) : Prop where
  old : ∀ e ∈ granted, e.2.generation ≤ d.generation
  known : ∀ e ∈ completed, e.1 ∈ granted.map Prod.fst
  failures : d.state = .closed → d.consecutiveFailures =
    ((counted granted d.generation completed).takeWhile fun v => decide (v = .failed)).length
  recoveries : d.state = .halfOpen → ∃ k : Nat, d.recoverySuccesses = k ∧
    counted granted d.generation completed = List.replicate k .succeeded

theorem summary_init :
    Summary .init [] [] where
  old := by
    rintro _ ⟨⟩
  known := by
    rintro _ ⟨⟩
  failures _ := rfl
  recoveries := by
    rintro ⟨⟩

section Steps

variable {b : CircuitBreaker} {d : CircuitData} {t : CircuitCaller} {a : Admission}
  {granted : List (CircuitCaller × Admission)} {completed : List (CircuitCaller × Verdict)}

/-- Nobody was admitted in a generation to come. -/
theorem counted_next
    (hold : ∀ e ∈ granted, e.2.generation ≤ d.generation) :
    counted granted (d.generation + 1) completed = [] := by
  have hnone : ∀ u, admittedIn granted (d.generation + 1) u = false := by
    intro u
    refine List.any_eq_false.mpr fun e he => ?_
    have hle := hold e he
    simp only [decide_eq_true_eq, not_and]
    omega
  unfold counted
  rw [List.filter_eq_nil_iff.mpr fun e _ => by simp [hnone]]
  rfl

/-- A transition starts with an empty history. -/
theorem summary_transition
    (hold : ∀ e ∈ granted, e.2.generation ≤ d.generation)
    (hknown : ∀ e ∈ completed, e.1 ∈ granted.map Prod.fst) (state : CircuitState) (now : ℚ) :
    Summary (b.transition d state now).2 granted completed where
  old e he := (hold e he).trans (Nat.le_succ _)
  known := hknown
  failures _ := by
    change (0 : Int) = ((counted granted (d.generation + 1) completed).takeWhile _).length
    rw [counted_next hold]
    rfl
  recoveries _ := ⟨0, rfl, counted_next hold⟩

/-- An admission of a new caller leaves the history alone. -/
theorem counted_grant
    (hknown : ∀ e ∈ completed, e.1 ∈ granted.map Prod.fst)
    (hnew : t ∉ granted.map Prod.fst) (a : Admission) (generation : Nat) :
    counted ((t, a) :: granted) generation completed = counted granted generation completed := by
  unfold counted
  congr 1
  refine List.filter_congr fun e he => ?_
  have hne : t ≠ e.1 := by
    intro heq
    exact hnew (heq ▸ hknown e he)
  simp [admittedIn, hne]

theorem Summary.grant
    (h : Summary d granted completed)
    (hnew : t ∉ granted.map Prod.fst)
    (ha : a.generation = d.generation) :
    Summary d ((t, a) :: granted) completed where
  old := by
    intro e he
    rcases List.mem_cons.mp he with rfl | he
    · exact ha.le
    · exact h.old e he
  known e he := List.mem_cons_of_mem _ (h.known e he)
  failures hclosed := by
    rw [counted_grant h.known hnew]
    exact h.failures hclosed
  recoveries hhalf := by
    rw [counted_grant h.known hnew]
    exact h.recoveries hhalf

/-- A completion counts in the generation of its admission. -/
theorem counted_complete
    (hnodup : (granted.map Prod.fst).Nodup)
    (hgranted : (t, a) ∈ granted) (v : Verdict) (generation : Nat) :
    counted granted generation ((t, v) :: completed) =
      if v ≠ .ignored ∧ a.generation = generation then
        v :: counted granted generation completed
      else counted granted generation completed := by
  have hadmitted : admittedIn granted generation t = decide (a.generation = generation) := by
    rw [Bool.eq_iff_iff, decide_eq_true_eq]
    constructor
    · intro hany
      obtain ⟨⟨t', a'⟩, he, hboth⟩ := List.any_eq_true.mp hany
      obtain ⟨rfl, hgeneration⟩ := of_decide_eq_true hboth
      obtain rfl : a = a' := by
        have hpairs := List.inj_on_of_nodup_map hnodup hgranted he rfl
        exact (Prod.mk.inj hpairs).2
      exact hgeneration
    · intro hgeneration
      exact List.any_eq_true.mpr ⟨(t, a), hgranted, by simp [hgeneration]⟩
  unfold counted
  rw [List.filter_cons]
  by_cases hv : v = .ignored
  · simp [hv]
  · by_cases hgeneration : a.generation = generation
    · simp [hv, hgeneration, hadmitted]
    · simp [hgeneration, hadmitted]

/-- What a completion does to the data, by the history with it. -/
structure Completes (b : CircuitBreaker) (d d' : CircuitData) (a : Admission) (v : Verdict)
    (granted : List (CircuitCaller × Admission)) (completed : List (CircuitCaller × Verdict)) :
    Prop where
  opens : d.state = .closed → (d'.state = .opened ↔
    (counted granted d.generation completed).take b.failureThreshold =
      List.replicate b.failureThreshold .failed)
  stays : d.state = .closed → d'.state ≠ .halfOpen
  reopens : d.state = .halfOpen →
    (d'.state = .opened ↔ a.generation = d.generation ∧ v = .failed)
  closes : d.state = .halfOpen → (d'.state = .closed ↔
    counted granted d.generation completed =
      List.replicate b.recoverySuccessThreshold .succeeded)
  rests : d.state = .opened → d'.state = .opened
  summary : Summary d' granted completed

/-- A completion that does not count. -/
theorem completes_of_same
    {d' : CircuitData} {v : Verdict}
    (hsummary : Summary d granted completed)
    (hthresholds : Thresholds b d)
    (hnodup : (granted.map Prod.fst).Nodup)
    (hgranted : (t, a) ∈ granted)
    (hnot : ¬ (v ≠ .ignored ∧ a.generation = d.generation))
    (hstate : d'.state = d.state)
    (hgeneration : d'.generation = d.generation)
    (hfailures : d'.consecutiveFailures = d.consecutiveFailures)
    (hrecoveries : d'.recoverySuccesses = d.recoverySuccesses) :
    Completes b d d' a v granted ((t, v) :: completed) := by
  have hcounted : counted granted d.generation ((t, v) :: completed) =
      counted granted d.generation completed := by
    rw [counted_complete hnodup hgranted, if_neg hnot]
  refine
    { opens := fun hclosed => ?_
      stays := fun hclosed => by rw [hstate, hclosed]; rintro ⟨⟩
      reopens := fun hhalf => ?_
      closes := fun hhalf => ?_
      rests := fun hopened => hstate.trans hopened
      summary := ⟨fun e he => hgeneration ▸ hsummary.old e he, fun e he => ?_,
        fun hclosed => ?_, fun hhalf => ?_⟩ }
  · have hlt := hthresholds.failures hclosed
    have hsum := hsummary.failures hclosed
    rw [hstate, hclosed, hcounted, take_eq_replicate_iff]
    refine iff_of_false (by rintro ⟨⟩) ?_
    omega
  · rw [hstate, hhalf]
    refine iff_of_false (by rintro ⟨⟩) ?_
    rintro ⟨hcurrent, rfl⟩
    exact hnot ⟨by rintro ⟨⟩, hcurrent⟩
  · have hlt := hthresholds.recoveries hhalf
    obtain ⟨k, hk, hlist⟩ := hsummary.recoveries hhalf
    rw [hstate, hhalf, hcounted, hlist]
    refine iff_of_false (by rintro ⟨⟩) fun heq => ?_
    have hlength := congrArg List.length heq
    simp only [List.length_replicate] at hlength
    omega
  · rcases List.mem_cons.mp he with rfl | he
    · exact List.mem_map_of_mem (f := Prod.fst) hgranted
    · exact hsummary.known e he
  · rw [hgeneration, hcounted, hfailures]
    exact hsummary.failures (hstate ▸ hclosed)
  · rw [hgeneration, hcounted, hrecoveries]
    exact hsummary.recoveries (hstate ▸ hhalf)

/-- The history with one more completion is known. -/
theorem known_complete
    (hsummary : Summary d granted completed)
    (hgranted : (t, a) ∈ granted) (v : Verdict) :
    ∀ e ∈ (t, v) :: completed, e.1 ∈ granted.map Prod.fst := by
  intro e he
  rcases List.mem_cons.mp he with rfl | he
  · exact List.mem_map_of_mem (f := Prod.fst) hgranted
  · exact hsummary.known e he

/-- A success of the current generation. -/
theorem completes_succeed
    (hsummary : Summary d granted completed)
    (hthresholds : Thresholds b d)
    (hnodup : (granted.map Prod.fst).Nodup)
    (hgranted : (t, a) ∈ granted)
    (hstamped : Stamped d a)
    (hcurrent : a.generation = d.generation) (now : ℚ) :
    Completes b d (b.succeed d a now).2 a .succeeded granted ((t, .succeeded) :: completed) := by
  have hknown := known_complete hsummary hgranted .succeeded
  have hcounted : counted granted d.generation ((t, .succeeded) :: completed) =
      .succeeded :: counted granted d.generation completed := by
    rw [counted_complete hnodup hgranted, if_pos ⟨by rintro ⟨⟩, hcurrent⟩]
  unfold succeed
  rw [if_neg (not_not.mpr hcurrent)]
  obtain ⟨state, failures, recoveries, inFlight, openUntil, generation⟩ := d
  cases state with
  | halfOpen =>
      have hslot : a.ownsHalfOpenSlot = true := (hstamped.2 hcurrent).mpr rfl
      obtain ⟨k, hk, hlist⟩ := hsummary.recoveries rfl
      have hlt := hthresholds.recoveries rfl
      rw [hlist, ← List.replicate_succ] at hcounted
      rw [if_pos ⟨hslot, rfl⟩]
      dsimp only at hk hlt ⊢
      split
      case isTrue henough =>
        refine
          { opens := by rintro ⟨⟩
            stays := by rintro ⟨⟩
            reopens := fun _ => iff_of_false (by rintro ⟨⟩) (by rintro ⟨-, ⟨⟩⟩)
            closes := fun _ => iff_of_true rfl ?_
            rests := by rintro ⟨⟩
            summary := summary_transition hsummary.old hknown .closed now }
        rw [hcounted, show k + 1 = b.recoverySuccessThreshold by omega]
      case isFalse hmore =>
        refine
          { opens := by rintro ⟨⟩
            stays := by rintro ⟨⟩
            reopens := fun _ => iff_of_false (by rintro ⟨⟩) (by rintro ⟨-, ⟨⟩⟩)
            closes := fun _ => iff_of_false (by rintro ⟨⟩) fun heq => ?_
            rests := by rintro ⟨⟩
            summary := ⟨hsummary.old, hknown, by rintro ⟨⟩, fun _ => ⟨k + 1, ?_, hcounted⟩⟩ }
        · rw [hcounted] at heq
          have hlength := congrArg List.length heq
          simp only [List.length_replicate] at hlength
          omega
        · push_cast
          exact congrArg (· + 1) hk
  | closed =>
      rw [if_neg (by rintro ⟨-, ⟨⟩⟩), if_pos rfl]
      refine
        { opens := fun _ => iff_of_false (by rintro ⟨⟩) fun heq => ?_
          stays := fun _ => by rintro ⟨⟩
          reopens := by rintro ⟨⟩
          closes := by rintro ⟨⟩
          rests := by rintro ⟨⟩
          summary := ⟨hsummary.old, hknown, fun _ => ?_, by rintro ⟨⟩⟩ }
      · rw [hcounted, take_eq_replicate_iff] at heq
        simp only [List.takeWhile_cons, reduceCtorEq, decide_false] at heq
        exact absurd heq (not_le.mpr b.failureThreshold_pos)
      · change (0 : Int) = ((counted granted generation _).takeWhile _).length
        rw [hcounted]
        rfl
  | opened =>
      rw [if_neg (by rintro ⟨-, ⟨⟩⟩), if_neg (by rintro ⟨⟩)]
      exact
        { opens := by rintro ⟨⟩
          stays := by rintro ⟨⟩
          reopens := by rintro ⟨⟩
          closes := by rintro ⟨⟩
          rests := fun _ => rfl
          summary := ⟨hsummary.old, hknown, by rintro ⟨⟩, by rintro ⟨⟩⟩ }

/-- A counted failure of the current generation. -/
theorem completes_fail
    (hsummary : Summary d granted completed)
    (hnodup : (granted.map Prod.fst).Nodup)
    (hgranted : (t, a) ∈ granted)
    (hstamped : Stamped d a)
    (hcurrent : a.generation = d.generation) (now : ℚ) :
    Completes b d (b.fail d a now).2 a .failed granted ((t, .failed) :: completed) := by
  have hknown := known_complete hsummary hgranted .failed
  have hcounted : counted granted d.generation ((t, .failed) :: completed) =
      .failed :: counted granted d.generation completed := by
    rw [counted_complete hnodup hgranted, if_pos ⟨by rintro ⟨⟩, hcurrent⟩]
  unfold fail
  rw [if_neg (not_not.mpr hcurrent)]
  obtain ⟨state, failures, recoveries, inFlight, openUntil, generation⟩ := d
  cases state with
  | halfOpen =>
      have hslot : a.ownsHalfOpenSlot = true := (hstamped.2 hcurrent).mpr rfl
      rw [if_pos ⟨hslot, rfl⟩]
      refine
        { opens := by rintro ⟨⟩
          stays := by rintro ⟨⟩
          reopens := fun _ => iff_of_true rfl ⟨hcurrent, rfl⟩
          closes := fun _ => iff_of_false (by rintro ⟨⟩) fun heq => ?_
          rests := by rintro ⟨⟩
          summary := summary_transition hsummary.old hknown .opened now }
      -- the failure is the latest completion, and the threshold is positive
      rw [hcounted] at heq
      have hhead := congrArg List.head? heq
      rw [List.head?_replicate, if_neg b.recoverySuccessThreshold_pos.ne'] at hhead
      cases hhead
  | closed =>
      have hsum := hsummary.failures rfl
      rw [if_neg (by rintro ⟨-, ⟨⟩⟩), if_pos rfl]
      dsimp only at hsum ⊢
      have hlength : ((counted granted generation ((t, .failed) :: completed)).takeWhile
          fun v => decide (v = .failed)).length =
          ((counted granted generation completed).takeWhile
            fun v => decide (v = .failed)).length + 1 := by
        rw [hcounted]
        rfl
      split
      case isTrue henough =>
        refine
          { opens := fun _ => iff_of_true rfl (take_eq_replicate_iff.mpr ?_)
            stays := fun _ => by rintro ⟨⟩
            reopens := by rintro ⟨⟩
            closes := by rintro ⟨⟩
            rests := by rintro ⟨⟩
            summary := summary_transition hsummary.old hknown .opened now }
        rw [hlength]
        omega
      case isFalse hmore =>
        refine
          { opens := fun _ => iff_of_false (by rintro ⟨⟩) fun heq => ?_
            stays := fun _ => by rintro ⟨⟩
            reopens := by rintro ⟨⟩
            closes := by rintro ⟨⟩
            rests := by rintro ⟨⟩
            summary := ⟨hsummary.old, hknown, fun _ => ?_, by rintro ⟨⟩⟩ }
        · have hle := take_eq_replicate_iff.mp heq
          rw [hlength] at hle
          omega
        · rw [hlength, hsum]
          push_cast
          rfl
  | opened =>
      rw [if_neg (by rintro ⟨-, ⟨⟩⟩), if_neg (by rintro ⟨⟩)]
      exact
        { opens := by rintro ⟨⟩
          stays := by rintro ⟨⟩
          reopens := by rintro ⟨⟩
          closes := by rintro ⟨⟩
          rests := fun _ => rfl
          summary := ⟨hsummary.old, hknown, by rintro ⟨⟩, by rintro ⟨⟩⟩ }

/-- A completion without a verdict takes its slot out of the account, and nothing else. -/
theorem ignore_same
    (d : CircuitData) (a : Admission) :
    (ignore d a).state = d.state ∧ (ignore d a).generation = d.generation ∧
      (ignore d a).consecutiveFailures = d.consecutiveFailures ∧
      (ignore d a).recoverySuccesses = d.recoverySuccesses := by
  unfold ignore
  split
  · exact ⟨rfl, rfl, rfl, rfl⟩
  · exact ⟨rfl, rfl, rfl, rfl⟩

/-- **A completion**, whatever its verdict. -/
theorem completes_apply
    (hsummary : Summary d granted completed)
    (hthresholds : Thresholds b d)
    (hnodup : (granted.map Prod.fst).Nodup)
    (hgranted : (t, a) ∈ granted)
    (hstamped : Stamped d a) (now : ℚ) (v : Verdict) :
    Completes b d (b.apply a now d v) a v granted ((t, v) :: completed) := by
  by_cases hcurrent : a.generation = d.generation
  · cases v with
    | succeeded =>
        exact completes_succeed hsummary hthresholds hnodup hgranted hstamped hcurrent now
    | failed =>
        exact completes_fail hsummary hnodup hgranted hstamped hcurrent now
    | ignored =>
        obtain ⟨hstate, hgeneration, hfailures, hrecoveries⟩ := ignore_same d a
        exact completes_of_same hsummary hthresholds hnodup hgranted (fun h => h.1 rfl)
          hstate hgeneration hfailures hrecoveries
  · have hsame : b.apply a now d v = d := by
      cases v with
      | succeeded => exact congrArg Prod.snd (if_pos hcurrent)
      | failed => exact congrArg Prod.snd (if_pos hcurrent)
      | ignored => exact if_neg fun h => hcurrent h.1
    rw [hsame]
    exact completes_of_same hsummary hthresholds hnodup hgranted (fun h => hcurrent h.2)
      rfl rfl rfl rfl

end Steps

/-! ## Admissions -/

section Admissions

variable {b : CircuitBreaker} {d : CircuitData} {t : CircuitCaller}
  {completed : List (CircuitCaller × Verdict)} {w : CircuitWorld}

/-- An admission without a transition leaves everything but a slot alone. -/
theorem summary_admitNow
    (hsummary : Summary d w.admissions.granted completed)
    (hnew : t ∉ w.admissions.names) :
    Summary (b.admitNow d).2
      (record t w (b.admitNow d).1 (b.admitNow d).2).admissions.granted completed := by
  unfold admitNow
  split
  case isTrue =>
    split
    case isTrue =>
      exact hsummary
    case isFalse =>
      have hgrant := hsummary.grant (a := ⟨d.generation, d.state, true⟩) hnew rfl
      exact ⟨hgrant.old, hgrant.known, hgrant.failures, hgrant.recoveries⟩
  case isFalse =>
    exact hsummary.grant hnew rfl

theorem state_admitNow
    (b : CircuitBreaker) (d : CircuitData) :
    (b.admitNow d).2.state = d.state := by
  unfold admitNow
  split
  · split
    · rfl
    · rfl
  · rfl

/-- What the section of an admission does to the state and the history. -/
theorem admitCall_moves
    (hsummary : Summary d w.admissions.granted completed)
    (hnew : t ∉ w.admissions.names) (now : ℚ) :
    Summary (b.admitCall d now).2
        (record t w (b.admitCall d now).1.1 (b.admitCall d now).2).admissions.granted completed ∧
      ((b.admitCall d now).2.state = d.state ∨
        d.state = .opened ∧ d.openUntil ≤ now ∧ (b.admitCall d now).2.state = .halfOpen) := by
  unfold admitCall
  split
  case isTrue hopened =>
    split
    case isTrue =>
      exact ⟨hsummary, .inl rfl⟩
    case isFalse hpast =>
      have hhalf : Summary (b.transition d .halfOpen now).2 w.admissions.granted completed :=
        summary_transition hsummary.old hsummary.known .halfOpen now
      exact ⟨summary_admitNow hhalf hnew,
        .inr ⟨hopened, not_lt.mp hpast, state_admitNow b _⟩⟩
  case isFalse =>
    exact ⟨summary_admitNow hsummary hnew, .inl (state_admitNow b d)⟩

/-- An admission that finds the breaker so is refused. -/
def Refuses (b : CircuitBreaker) (d : CircuitData) (now : ℚ) : Prop :=
  d.state = .opened ∧ now < d.openUntil ∨
    d.state = .halfOpen ∧ (b.halfOpenMaxCalls : Int) ≤ d.halfOpenInFlight

theorem settled_record
    (t : CircuitCaller) (w : CircuitWorld) (admission : Option Admission) (d : CircuitData) :
    (record t w admission d).admissions.settled = w.admissions.settled := by
  cases admission with
  | none => rfl
  | some a => rfl

theorem names_record
    (t : CircuitCaller) (w : CircuitWorld) {admission : Option Admission} {d : CircuitData}
    {u : CircuitCaller}
    (h : u ∈ (record t w admission d).admissions.names) :
    u = t ∨ u ∈ w.admissions.names := by
  cases admission with
  | none => exact .inr h
  | some a => exact List.mem_cons.mp h

theorem admitCall_of_refuses
    {now : ℚ}
    (h : Refuses b d now) :
    (b.admitCall d now).1.1 = none := by
  unfold admitCall
  rcases h with ⟨hstate, hearly⟩ | ⟨hstate, hfull⟩
  · rw [if_pos hstate, if_pos hearly]
  · have hopened : d.state ≠ .opened := by
      rw [hstate]
      rintro ⟨⟩
    rw [if_neg hopened]
    unfold admitNow
    rw [if_pos hstate, if_pos hfull]

end Admissions

/-! ## Runs -/

section Runs

variable {b : CircuitBreaker} {mode : Mode} {o : CircuitObserver ν} {c c' : CircuitPool ν}
  {l : CircuitLabel ν}

/-- The breaker, its calls and the history that an observer has seen. -/
structure Tracks (b : CircuitBreaker) (mode : Mode) (c : CircuitPool ν)
    (o : CircuitObserver ν) : Prop where
  sound : Sound b c
  traces : ∃ sections, System.Pool.Sound (recordedCircuit ν) (Reported.Traces b mode ν)
    (fun _ _ _ => True) ⟨⟨c.world, o.told, sections⟩, c.thread⟩
  summary : Summary c.world.data c.world.admissions.granted o.completed
  settled : c.world.admissions.settled = o.completed.map Prod.fst

/--
What a step is, by its label: the section of an admission, the section that settles one, or
one that leaves the breaker as it is.
-/
inductive Moves (b : CircuitBreaker) (mode : Mode) (o : CircuitObserver ν)
    (c c' : CircuitPool ν) : CircuitLabel ν → Prop
  | admission (t : CircuitCaller) (now : ℚ) (h : Told ν) :
      t ∉ c.world.admissions.names →
      sectionReading mode (o.told t) = some (now, h) →
      c'.world = (b.admitLocked t now c.world).2 →
      Moves b mode o c c' (.thread t (.atomic .admission))
  | settle (t : CircuitCaller) (a : Admission) (now : ℚ) :
      (t, a) ∈ c.world.admissions.granted →
      t ∉ c.world.admissions.settled →
      c'.world = ⟨b.apply a now c.world.data (b.verdict mode (o.told t)),
        c.world.admissions.settle t⟩ →
      Moves b mode o c c' (.thread t (.atomic .settle))
  | other (l : CircuitLabel ν) :
      (∀ t, l ≠ .thread t (.atomic .settle)) →
      (∀ t, l = .thread t (.asked .operation) → t ∈ c.world.admissions.names) →
      c'.world = c.world →
      Moves b mode o c c' l

/-- What a step does to the state of a breaker, by the history with it. -/
structure ExactStep (b : CircuitBreaker) (mode : Mode) (o : CircuitObserver ν)
    (c : CircuitPool ν) (l : CircuitLabel ν) (c' : CircuitPool ν) : Prop where
  opens : c.world.data.state = .closed → (c'.world.data.state = .opened ↔
    (counted c'.world.admissions.granted c.world.data.generation
        (b.observe mode o l).completed).take b.failureThreshold =
      List.replicate b.failureThreshold .failed)
  stays : c.world.data.state = .closed → c'.world.data.state ≠ .halfOpen
  reopens : c.world.data.state = .halfOpen → (c'.world.data.state = .opened ↔
    ∃ t a, l = .thread t (.atomic .settle) ∧ (t, a) ∈ c.world.admissions.granted ∧
      a.generation = c.world.data.generation ∧ a.ownsHalfOpenSlot = true ∧
      b.verdict mode (o.told t) = .failed)
  closes : c.world.data.state = .halfOpen → (c'.world.data.state = .closed ↔
    counted c'.world.admissions.granted c.world.data.generation
        (b.observe mode o l).completed =
      List.replicate b.recoverySuccessThreshold .succeeded)
  halfOpens : c.world.data.state = .opened → c'.world.data.state ≠ .opened →
    c'.world.data.state = .halfOpen ∧ ∃ t now h, l = .thread t (.atomic .admission) ∧
      sectionReading mode (o.told t) = some (now, h) ∧ c.world.data.openUntil ≤ now

theorem told_observe
    (b : CircuitBreaker) (mode : Mode) (o : CircuitObserver ν) (l : CircuitLabel ν) :
    (b.observe mode o l).told = System.hear o.told l := by
  unfold observe
  split
  · rfl
  · rfl

theorem completed_observe
    (hl : ∀ t, l ≠ .thread t (.atomic .settle)) :
    (b.observe mode o l).completed = o.completed := by
  unfold observe
  split
  case h_1 t => exact absurd rfl (hl t)
  case h_2 => rfl

/-- A step that completes no call and leaves the state. -/
theorem exactStep_of_same
    (htracks : Tracks b mode c o)
    (hl : ∀ t, l ≠ .thread t (.atomic .settle))
    (hstate : c'.world.data.state = c.world.data.state)
    (hcounted : counted c'.world.admissions.granted c.world.data.generation o.completed =
      counted c.world.admissions.granted c.world.data.generation o.completed) :
    ExactStep b mode o c l c' := by
  have hthresholds := htracks.sound.1.thresholds
  refine
    { opens := fun hclosed => ?_
      stays := fun hclosed => by rw [hstate, hclosed]; rintro ⟨⟩
      reopens := fun hhalf => ?_
      closes := fun hhalf => ?_
      halfOpens := fun hopened hne => absurd (hstate.trans hopened) hne }
  · have hlt := hthresholds.failures hclosed
    have hsum := htracks.summary.failures hclosed
    rw [completed_observe hl, hcounted, hstate, hclosed, take_eq_replicate_iff]
    refine iff_of_false (by rintro ⟨⟩) ?_
    omega
  · rw [hstate, hhalf]
    refine iff_of_false (by rintro ⟨⟩) ?_
    rintro ⟨t, a, rfl, -⟩
    exact hl t rfl
  · have hlt := hthresholds.recoveries hhalf
    obtain ⟨k, hk, hlist⟩ := htracks.summary.recoveries hhalf
    rw [completed_observe hl, hcounted, hstate, hhalf, hlist]
    refine iff_of_false (by rintro ⟨⟩) fun heq => ?_
    have hlength := congrArg List.length heq
    simp only [List.length_replicate] at hlength
    omega

/-- The section of an admission. -/
theorem exactStep_admission
    {t : CircuitCaller} {now : ℚ} {h : Told ν}
    (htracks : Tracks b mode c o)
    (hnew : t ∉ c.world.admissions.names)
    (hreading : sectionReading mode (o.told t) = some (now, h))
    (hworld : c'.world = (b.admitLocked t now c.world).2) :
    ExactStep b mode o c (.thread t (.atomic .admission)) c' ∧
      Summary c'.world.data c'.world.admissions.granted o.completed := by
  obtain ⟨hsummary, hstate⟩ := admitCall_moves (b := b) htracks.summary hnew now
  rw [hworld]
  refine ⟨?_, hsummary⟩
  rcases hstate with hsame | ⟨hopened, hpast, hhalf⟩
  · refine exactStep_of_same htracks (by rintro u ⟨⟩) (hworld ▸ hsame) ?_
    rw [hworld]
    change counted (record t c.world (b.admitCall c.world.data now).1.1 _).admissions.granted _ _ =
      _
    cases (b.admitCall c.world.data now).1.1 with
    | none => rfl
    | some a => exact counted_grant htracks.summary.known hnew a _
  · have hhalf' : c'.world.data.state = .halfOpen := hworld ▸ hhalf
    refine
      { opens := fun hclosed => ?_
        stays := fun hclosed => ?_
        reopens := fun hstate => ?_
        closes := fun hstate => ?_
        halfOpens := fun _ _ => ⟨hhalf', t, now, h, rfl, hreading, hpast⟩ }
    all_goals
      rw [hopened] at *
      contradiction

/-- The section that settles an admission. -/
theorem exactStep_settle
    {t : CircuitCaller} {a : Admission} {now : ℚ}
    (htracks : Tracks b mode c o)
    (hgranted : (t, a) ∈ c.world.admissions.granted)
    (hopen : t ∉ c.world.admissions.settled)
    (hworld : c'.world = ⟨b.apply a now c.world.data (b.verdict mode (o.told t)),
      c.world.admissions.settle t⟩) :
    ExactStep b mode o c (.thread t (.atomic .settle)) c' ∧
      Summary c'.world.data c'.world.admissions.granted
        ((t, b.verdict mode (o.told t)) :: o.completed) := by
  have hinv := htracks.sound.1
  have hstamped : Stamped c.world.data a :=
    hinv.accounted.stamped (t, a) (Ledger.mem_outstanding.mpr ⟨hgranted, hopen⟩)
  have hcompletes := completes_apply htracks.summary hinv.thresholds hinv.admissions.granted
    hgranted hstamped now (b.verdict mode (o.told t))
  rw [hworld]
  refine ⟨?_, hcompletes.summary⟩
  refine
    { opens := fun hclosed => hworld ▸ hcompletes.opens hclosed
      stays := fun hclosed => hworld ▸ hcompletes.stays hclosed
      reopens := fun hhalf => hworld ▸ (hcompletes.reopens hhalf).trans ?_
      closes := fun hhalf => hworld ▸ hcompletes.closes hhalf
      halfOpens := fun hopened hne => absurd (hworld ▸ hcompletes.rests hopened) hne }
  constructor
  · rintro ⟨hcurrent, hfailed⟩
    exact ⟨t, a, rfl, hgranted, hcurrent, (hstamped.2 hcurrent).mpr hhalf, hfailed⟩
  · rintro ⟨u, a', hlabel, hgranted', hcurrent, -, hfailed⟩
    cases hlabel
    obtain rfl : a = a' := (Prod.mk.inj
      (List.inj_on_of_nodup_map hinv.admissions.granted hgranted hgranted' rfl)).2
    exact ⟨hcurrent, hfailed⟩

/-- Every step is of one of the kinds. -/
theorem moves_of_step
    (htracks : Tracks b mode c o)
    (hstep : CircuitStep ν c l c') :
    Moves b mode o c c' l := by
  obtain ⟨sections, hpool⟩ := htracks.traces
  obtain ⟨sections', hrecorded⟩ := System.recorded_step hstep o.told sections
  obtain ⟨hguar, -⟩ := System.Pool.sound_step hpool hrecorded
  cases l with
  | env e => exact nomatch e
  | thread t act =>
      rcases hguar with hguar | ⟨rfl, hsame⟩
      case inr =>
        exact .other _ (by rintro u ⟨⟩) (by rintro u ⟨⟩)
          (congrArg System.Recorded.world hsame)
      have hdoes := hguar.does
      cases act with
      | asked q =>
          refine .other _ (by rintro u ⟨⟩) ?_ hdoes.1
          rintro u ⟨⟩
          exact hdoes.2 rfl
      | answered q r => exact .other _ (by rintro u ⟨⟩) (by rintro u ⟨⟩) hdoes
      | unrolled => exact .other _ (by rintro u ⟨⟩) (by rintro u ⟨⟩) hdoes
      | atomic label =>
          cases label with
          | admission =>
              obtain ⟨⟨-, hnew, -⟩, now, h, hreading, hworld⟩ := hdoes
              exact .admission t now h hnew hreading hworld
          | settle =>
              obtain ⟨a, now, ⟨-, hgranted, hopen⟩, hworld⟩ := hdoes
              exact .settle t a now hgranted hopen hworld

/-- **Step lemma**: a step does what the history says, and the history goes on. -/
theorem tracks_step
    (htracks : Tracks b mode c o)
    (hstep : CircuitStep ν c l c') :
    ExactStep b mode o c l c' ∧ Tracks b mode c' (b.observe mode o l) := by
  have hsound' := (sound_step htracks.sound hstep).2
  obtain ⟨sections, hpool⟩ := htracks.traces
  obtain ⟨sections', hrecorded⟩ := System.recorded_step hstep o.told sections
  obtain ⟨-, hpool'⟩ := System.Pool.sound_step hpool hrecorded
  rw [← told_observe b mode o l] at hpool'
  -- the rest of the proof is about the world, by what the step does
  suffices hmain : ExactStep b mode o c l c' ∧
      Summary c'.world.data c'.world.admissions.granted (b.observe mode o l).completed ∧
      c'.world.admissions.settled = (b.observe mode o l).completed.map Prod.fst from
    ⟨hmain.1, hsound', ⟨sections', hpool'⟩, hmain.2.1, hmain.2.2⟩
  cases moves_of_step htracks hstep with
  | admission t now h hnew hreading hworld =>
      obtain ⟨hexact, hsummary⟩ := exactStep_admission htracks hnew hreading hworld
      refine ⟨hexact, hsummary, ?_⟩
      rw [hworld]
      exact (settled_record t c.world _ _).trans htracks.settled
  | settle t a now hgranted hopen hworld =>
      obtain ⟨hexact, hsummary⟩ := exactStep_settle htracks hgranted hopen hworld
      refine ⟨hexact, hsummary, ?_⟩
      rw [hworld]
      exact congrArg (t :: ·) htracks.settled
  | other l hl _ hsame =>
      refine ⟨exactStep_of_same htracks hl (by rw [hsame]) (by rw [hsame]), ?_⟩
      rw [completed_observe hl, hsame]
      exact ⟨htracks.summary, htracks.settled⟩

theorem tracks_pool
    (b : CircuitBreaker) (mode : Mode) (ν : Type) :
    Tracks b mode (b.pool mode ν) ⟨fun _ => [], []⟩ where
  sound := ⟨inv_init b, sound_pool b mode ν⟩
  traces := ⟨fun _ => 0, Reported.traces_pool b mode ν⟩
  summary := summary_init
  settled := rfl

/-- The history goes on in every run. -/
theorem tracks_run
    {ls : List (CircuitLabel ν)}
    (hrun : Run (CircuitStep ν) c ls c')
    (htracks : Tracks b mode c o) :
    Tracks b mode c' (ls.foldl (b.observe mode) o) := by
  induction hrun generalizing o with
  | nil => exact htracks
  | cons hstep _ ih => exact ih (tracks_step htracks hstep).2

/-- A call is admitted by its section only. -/
theorem names_run
    {ls : List (CircuitLabel ν)} {t : CircuitCaller}
    (hrun : Run (CircuitStep ν) c ls c')
    (htracks : Tracks b mode c o)
    (h : t ∈ c'.world.admissions.names) :
    t ∈ c.world.admissions.names ∨ .thread t (.atomic .admission) ∈ ls := by
  induction hrun generalizing o with
  | nil => exact .inl h
  | cons hstep _ ih =>
      rcases ih (tracks_step htracks hstep).2 h with hmid | hlater
      case inr => exact .inr (List.mem_cons_of_mem _ hlater)
      cases moves_of_step htracks hstep with
      | admission u now _ _ _ hworld =>
          rw [hworld] at hmid
          change t ∈ (record u _ (b.admitCall _ now).1.1 _).admissions.names at hmid
          rcases names_record u _ hmid with rfl | hold
          · exact .inr List.mem_cons_self
          · exact .inl hold
      | settle u a now _ _ hworld =>
          rw [hworld] at hmid
          exact .inl hmid
      | other _ _ _ hsame =>
          rw [hsame] at hmid
          exact .inl hmid

/-! ## Refused calls -/

/-- The calls of a breaker with the record of what they were told. -/
abbrev RecordedPool (ν : Type) :=
  System.Pool CircuitCaller (CircuitRecord ν) CircuitWorld CircuitSection Question
    (Question.Answer ν) (Except Raised ν)

section Recorded

variable {r r' : RecordedPool ν} {t : CircuitCaller}

/-- The call was refused, or it stands before nothing else. -/
def Refused (t : CircuitCaller) (r : RecordedPool ν) : Prop :=
  Reported.Stands t r.world.world.admissions (r.world.sections t) .refused

/-- A refused call stays refused, and does not ask for its operation. -/
theorem refused_step
    (hguar : System.Pool.Guaranteed (recordedCircuit ν) (Reported.Traces b mode ν) r l r')
    (h : Refused t r) :
    l ≠ .thread t (.asked .operation) ∧ Refused t r' := by
  cases l with
  | env e => exact nomatch e
  | thread u act =>
      rcases hguar with hguar | ⟨rfl, hsame⟩
      case inr => exact ⟨by rintro ⟨⟩, by unfold Refused; rw [hsame]; exact h⟩
      by_cases hu : t = u
      · subst hu
        have hdoes := hguar.does
        have hpositive := lt_of_lt_of_le h.1 hguar.sections
        cases act with
        | asked q =>
            refine ⟨?_, hpositive, hdoes.1.symm ▸ h.2⟩
            rintro ⟨⟩
            exact h.2 (hdoes.2 rfl)
        | answered q a => exact ⟨by rintro ⟨⟩, hpositive, hdoes.symm ▸ h.2⟩
        | unrolled => exact ⟨by rintro ⟨⟩, hpositive, hdoes.symm ▸ h.2⟩
        | atomic label =>
            cases label with
            | admission => exact absurd hdoes.1.1 h.1.ne'
            | settle =>
                obtain ⟨a, -, ⟨-, hgranted, -⟩, -⟩ := hdoes
                exact absurd (List.mem_map_of_mem (f := Prod.fst) hgranted) h.2
      · obtain ⟨hsame, hsections, -⟩ := hguar.others t hu
        refine ⟨fun heq => hu ?_, ?_⟩
        · cases heq
          rfl
        · unfold Refused
          rw [hsections]
          exact h.same hsame

theorem refused_run
    {ls : List (CircuitLabel ν)}
    (hrun : Run (System.PoolStep (recordedCircuit ν)) r ls r')
    (hsound : System.Pool.Sound (recordedCircuit ν) (Reported.Traces b mode ν)
      (fun _ _ _ => True) r)
    (h : Refused t r) :
    .thread t (.asked .operation) ∉ ls := by
  induction hrun with
  | nil => exact List.not_mem_nil
  | cons hstep _ ih =>
      obtain ⟨hguar, hsound'⟩ := System.Pool.sound_step hsound hstep
      obtain ⟨hne, h'⟩ := refused_step hguar h
      exact List.not_mem_cons_of_ne_of_not_mem (Ne.symm hne) (ih hsound' h')

/-- A call that asks for its operation was admitted, and stays so. -/
theorem admitted_step
    (hguar : System.Pool.Guaranteed (recordedCircuit ν) (Reported.Traces b mode ν) r l r')
    (h : t ∈ r.world.world.admissions.names ∨ l = .thread t (.asked .operation)) :
    t ∈ r'.world.world.admissions.names := by
  cases l with
  | env e => exact nomatch e
  | thread u act =>
      rcases hguar with hguar | ⟨rfl, hsame⟩
      case inr =>
        rw [hsame]
        exact h.resolve_right (by rintro ⟨⟩)
      by_cases hu : t = u
      · subst hu
        have hdoes := hguar.does
        cases act with
        | asked q =>
            rw [hdoes.1]
            rcases h with h | h
            · exact h
            · cases h
              exact hdoes.2 rfl
        | answered q a =>
            rw [show r'.world.world = r.world.world from hdoes]
            exact h.resolve_right (by rintro ⟨⟩)
        | unrolled =>
            rw [show r'.world.world = r.world.world from hdoes]
            exact h.resolve_right (by rintro ⟨⟩)
        | atomic label =>
            have hmem := h.resolve_right (by rintro ⟨⟩)
            cases label with
            | admission => exact absurd hmem hdoes.1.2.1
            | settle =>
                obtain ⟨a, now, -, hworld⟩ := hdoes
                rw [hworld]
                exact hmem
      · refine ((hguar.others t hu).1.mem_names).mpr (h.resolve_right fun heq => hu ?_)
        cases heq
        rfl

theorem admitted_run
    {ls : List (CircuitLabel ν)}
    (hrun : Run (System.PoolStep (recordedCircuit ν)) r ls r')
    (hsound : System.Pool.Sound (recordedCircuit ν) (Reported.Traces b mode ν)
      (fun _ _ _ => True) r)
    (h : t ∈ r.world.world.admissions.names ∨ .thread t (.asked .operation) ∈ ls) :
    t ∈ r'.world.world.admissions.names := by
  induction hrun with
  | nil => exact h.resolve_right List.not_mem_nil
  | cons hstep _ ih =>
      obtain ⟨hguar, hsound'⟩ := System.Pool.sound_step hsound hstep
      refine ih hsound' ?_
      rcases h with h | h
      · exact .inl (admitted_step hguar (.inl h))
      · rcases List.mem_cons.mp h with heq | h
        · exact .inl (admitted_step hguar (.inr heq.symm))
        · exact .inr h

end Recorded

theorem told_foldl_observe
    (b : CircuitBreaker) (mode : Mode) (o : CircuitObserver ν) (ls : List (CircuitLabel ν)) :
    (ls.foldl (b.observe mode) o).told = ls.foldl System.hear o.told := by
  induction ls generalizing o with
  | nil => rfl
  | cons l ls ih => rw [List.foldl_cons, List.foldl_cons, ih, told_observe]

/--
The section of an admission is executed at a clock reading; if it refuses the call, the call
asks for its operation neither before nor after.
-/
theorem refused_call
    {ls : List (CircuitLabel ν)} {t : CircuitCaller}
    (hrun : Run (CircuitStep ν) (b.pool mode ν) ls c)
    (hstep : CircuitStep ν c (.thread t (.atomic .admission)) c') :
    ∃ now h, sectionReading mode ((b.seen mode ls).told t) = some (now, h) ∧
      (Refuses b c.world.data now → ∀ ls' c'', Run (CircuitStep ν) c' ls' c'' →
        .thread t (.asked .operation) ∉ ls ++ .thread t (.atomic .admission) :: ls') := by
  have hstart := Reported.traces_pool b mode ν
  have htold : (b.seen mode ls).told = ls.foldl System.hear fun _ => [] :=
    told_foldl_observe b mode ⟨fun _ => [], []⟩ ls
  obtain ⟨sections, hrecorded⟩ := System.recorded_run hrun (fun _ => []) fun _ => 0
  obtain ⟨-, hsound⟩ := System.Pool.sound_run hstart hrecorded
  obtain ⟨sections', hstep'⟩ := System.recorded_step hstep (b.seen mode ls).told sections
  rw [← htold] at hrecorded hsound
  obtain ⟨hguar, hsound'⟩ := System.Pool.sound_step hsound hstep'
  have hguar := hguar.resolve_right (by rintro ⟨⟨⟩, -⟩)
  obtain ⟨⟨-, hnew, -⟩, now, h, hreading, hworld⟩ := hguar.does
  refine ⟨now, h, hreading, fun hrefuses ls' c'' hrest hmem => ?_⟩
  obtain ⟨_, hrest'⟩ := System.recorded_run hrest (System.hear (b.seen mode ls).told
    (.thread t (.atomic CircuitSection.admission))) sections'
  have hnames : c'.world.admissions.names = c.world.admissions.names := by
    rw [show c'.world = (b.admitLocked t now c.world).2 from hworld]
    change (record t c.world (b.admitCall c.world.data now).1.1 _).admissions.names = _
    rw [admitCall_of_refuses hrefuses]
    rfl
  rcases List.mem_append.mp hmem with hbefore | hafter
  · exact hnew (admitted_run hrecorded hstart (.inr hbefore))
  · rcases List.mem_cons.mp hafter with heq | hlater
    · cases heq
    · refine refused_run hrest' hsound' ⟨hguar.progress _ rfl, ?_⟩ hlater
      rw [show (c'.world.admissions.names) = c.world.admissions.names from hnames]
      exact hnew

/-- The completions that were seen are those of the admitted calls, once each. -/
structure Completed (o : CircuitObserver ν) (c : CircuitPool ν) : Prop where
  admitted : ∀ e ∈ o.completed, e.1 ∈ c.world.admissions.names
  once : (o.completed.map Prod.fst).Nodup
  ended : ∀ t r, c.thread t = .running (.ret r) → t ∈ c.world.admissions.names →
    t ∈ o.completed.map Prod.fst

theorem Tracks.completed
    (h : Tracks b mode c o) :
    Completed o c where
  admitted := h.summary.known
  once := h.settled ▸ h.sound.slotAccount.once
  ended t r hret hmem := h.settled ▸ h.sound.slotAccount.settled t r hret hmem

end Runs

/-- The first call has failed, and its admission is about to be settled. -/
def failing : List (System.Choice CircuitCaller Question Empty (Question.Answer Unit)) :=
  [.run 0, .answer 0 .checkOperation (.ok ()), .run 0, .answer 0 .clock (.ok (.finite 0)),
    .run 0, .run 0, .answer 0 .operation (.error (.exception 0)), .run 0,
    .answer 0 .clock (.ok (.finite 1))]

end CircuitBreaker
end Resilience
end Bluetape
