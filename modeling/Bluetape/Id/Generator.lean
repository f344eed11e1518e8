import Bluetape.Id.Core

/-!
# Calls of one generator

A call of `new` reads the clock and the entropy source and then draws its
identifier in one section under the lock.  Calls of one generator run in
threads of a pool, one call for each name of `T`.

A generator whose draws go upwards (`Ascending`) issues upwards in lock order,
whatever the clock and the entropy source answer and however the calls
interleave; a call that raises leaves the generator alone
(`Generator.run_orderly`).
-/

namespace Bluetape
namespace Id

open Base

/-- What a call asks its caller's callbacks. -/
inductive Question
  | clock
  | randomBytes (count : Nat)
deriving DecidableEq, Repr

/-- The answers to a question. -/
abbrev Answer : Question → Type
  | .clock => ClockResult
  | .randomBytes _ => EntropyResult

/--
A generator with fields `σ` for identifiers `ι`: its fields after `__init__`,
and the section of `new` for an observed millisecond and ten bytes of entropy.
-/
structure Generator (σ ι : Type) where
  init : σ
  lastMs : σ → Option Nat
  draw : Nat → Bytes → σ → Except Raised ι × σ

/-- An identifier that a call has issued. -/
structure Issue (T ι : Type) where
  call : T
  observedMs : Nat
  logicalMs : Option Nat
  value : ι

/-- The fields of a generator with the list of what it has issued. -/
structure Shared (T σ ι : Type) where
  fields : σ
  issued : List (Issue T ι)

/-- A shared generator, and what the clock has answered to each call. -/
structure World (T σ ι : Type) where
  shared : Shared T σ ι
  reading : T → Option ClockResult

/-- Programs of a call. -/
abbrev Call (T σ ι α : Type) :=
  ExceptT Raised (Proc (Shared T σ ι) Unit Question Answer) α

section Programs

variable {T σ ι : Type} (G : Generator σ ι)

/-- A call of a callback. -/
def asks (q : Question) : Call T σ ι (Answer q) :=
  liftM (Proc.request q : Proc (Shared T σ ι) Unit Question Answer (Answer q))

/-- A check of what a callback answered. -/
def reads {α : Type} (result : Except Raised α) : Call T σ ι α :=
  ExceptT.mk (pure result)

/-- The section of a call, which notes what it issues. -/
def Generator.drawLocked (t : T) (observedMs : Nat) (entropy : Bytes)
    (s : Shared T σ ι) : Except Raised ι × Shared T σ ι :=
  let (result, fields) := G.draw observedMs entropy s.fields
  match result with
  | .error e => (.error e, { s with fields := fields })
  | .ok value =>
      (.ok value, ⟨fields, s.issued ++ [⟨t, observedMs, G.lastMs fields, value⟩]⟩)

/-- `new` -/
def Generator.new (t : T) : Call T σ ι ι := do
  let observedMs ← reads (readTimestamp (← asks .clock))
  let entropy ← reads (readEntropy (← asks (.randomBytes 10)))
  ExceptT.mk (Proc.atomically () (G.drawLocked t observedMs entropy))

/-- The pool of the calls: any answer at any time. -/
def calls (T σ ι : Type) [DecidableEq T] :
    System T (World T σ ι) (Shared T σ ι) Unit Question Empty Answer where
  view _ g := g.shared
  put _ s g := { g with shared := s }
  enabled _ _ _ := true
  issue _ _ g := some g
  answer t q a g :=
    match q, a with
    | .clock, reading => some { g with reading := Function.update g.reading t (some reading) }
    | .randomBytes _, _ => some g
  env e _ := e.elim

/-- A new generator, and every call before its first step. -/
def Generator.start :
    System.Pool T (World T σ ι) (Shared T σ ι) Unit Question Answer (Except Raised ι) where
  world := ⟨⟨G.init, []⟩, fun _ => none⟩
  thread t := .running (G.new t).run

end Programs

/-! ## Generators that ascend -/

/--
A generator whose draws go upwards.  `Follows` relates its fields to the last
identifier issued, and `Stamped` an identifier to its millisecond.
-/
structure Ascending {σ ι : Type} (G : Generator σ ι) (lt : ι → ι → Prop)
    (Stamped : ι → Nat → Prop) where
  Follows : σ → Option ι → Prop
  init : Follows G.init none
  raises : ∀ {ms entropy s e s'}, G.draw ms entropy s = (.error e, s') → s' = s
  issues : ∀ {ms entropy s last value s'}, ms ≤ maxTimestamp → entropy.length = 10 →
    Follows s last → G.draw ms entropy s = (.ok value, s') →
    Follows s' (some value) ∧
      ∃ logical, G.lastMs s' = some logical ∧ Stamped value logical ∧ ms ≤ logical ∧
        ∀ previous ∈ last, lt previous value ∧ ∀ m, G.lastMs s = some m → m ≤ logical
  trans : ∀ {u v w}, lt u v → lt v w → lt u w
  irrefl : ∀ v, ¬ lt v v

/-- An identifier is greater than an earlier one, and its millisecond is no smaller. -/
def Issue.Precedes {T ι : Type} (lt : ι → ι → Prop) (a b : Issue T ι) : Prop :=
  lt a.value b.value ∧ ∃ m n, a.logicalMs = some m ∧ b.logicalMs = some n ∧ m ≤ n

/-- An identifier carries its millisecond, which is no smaller than the one observed. -/
def Issue.Carries {T ι : Type} (Stamped : ι → Nat → Prop) (a : Issue T ι) : Prop :=
  ∃ ms, a.logicalMs = some ms ∧ Stamped a.value ms ∧ a.observedMs ≤ ms

section Runs

variable {T σ ι : Type} {G : Generator σ ι} {lt : ι → ι → Prop} {Stamped : ι → Nat → Prop}

/-- What holds of a shared generator at any time. -/
structure World.Orderly (A : Ascending G lt Stamped) (g : World T σ ι) : Prop where
  follows : A.Follows g.shared.fields (g.shared.issued.getLast?.map (·.value))
  last : ∀ a ∈ g.shared.issued.getLast?, a.logicalMs = G.lastMs g.shared.fields
  increasing : g.shared.issued.Pairwise (Issue.Precedes lt)
  carries : ∀ a ∈ g.shared.issued, a.Carries Stamped
  observed : ∀ a ∈ g.shared.issued, g.reading a.call = some (.int a.observedMs)

/-- The call has issued nothing yet. -/
def World.Fresh (t : T) (g : World T σ ι) : Prop :=
  ∀ a ∈ g.shared.issued, a.call ≠ t

/-- The generator stays as it is, or the call issues an identifier. -/
def Draws (t : T) (act : Act Unit Question Answer) (s s' : Shared T σ ι) : Prop :=
  s' = s ∨ ∃ a : Issue T ι, a.call = t ∧ act = .atomic () ∧ s'.issued = s.issued ++ [a]

/-- What a step of a call keeps. -/
structure Keeps (A : Ascending G lt Stamped) (t : T) (act : Act Unit Question Answer)
    (g g' : World T σ ι) : Prop where
  reading : ∀ u, u ≠ t → g'.reading u = g.reading u
  draws : Draws t act g.shared g'.shared
  orderly : g.Orderly A → g'.Orderly A

/-- A step that draws nothing and keeps what an earlier answer was. -/
theorem World.Orderly.answered
    {A : Ascending G lt Stamped} {g g' : World T σ ι} {t : T}
    (h : g.Orderly A)
    (hfresh : g.Fresh t)
    (hshared : g'.shared = g.shared)
    (hreading : ∀ u, u ≠ t → g'.reading u = g.reading u) :
    g'.Orderly A := by
  constructor
  · rw [hshared]
    exact h.follows
  · rw [hshared]
    exact h.last
  · rw [hshared]
    exact h.increasing
  · rw [hshared]
    exact h.carries
  · intro a ha
    rw [hshared] at ha
    rw [hreading _ (hfresh a ha)]
    exact h.observed a ha

/-- Issues only go upwards: the last one is greater than every earlier one. -/
theorem World.Orderly.precedes_last
    {A : Ascending G lt Stamped} {g : World T σ ι}
    (h : g.Orderly A) {a : Issue T ι}
    (ha : a ∈ g.shared.issued) :
    ∃ b ∈ g.shared.issued.getLast?, a = b ∨ a.Precedes lt b := by
  cases hlast : g.shared.issued.getLast? with
  | none =>
      rw [List.getLast?_eq_none_iff.mp hlast] at ha
      simp at ha
  | some b =>
      refine ⟨b, rfl, ?_⟩
      obtain ⟨front, hfront⟩ := List.getLast?_eq_some_iff.mp hlast
      have hpairs := h.increasing
      rw [hfront, List.pairwise_append] at hpairs
      rw [hfront, List.mem_append, List.mem_singleton] at ha
      rcases ha with ha | rfl
      · exact Or.inr (hpairs.2.2 a ha b (by simp))
      · exact Or.inl rfl

/-- **Step lemma**: a section that returns keeps the order. -/
theorem World.Orderly.issue
    {A : Ascending G lt Stamped} {g : World T σ ι}
    (h : g.Orderly A) {t : T} {ms : Nat} {entropy : Bytes} {value : ι} {fields : σ}
    (hreading : g.reading t = some (.int ms))
    (hms : ms ≤ maxTimestamp)
    (hentropy : entropy.length = 10)
    (hdraw : G.draw ms entropy g.shared.fields = (.ok value, fields)) :
    World.Orderly A
      { g with shared := ⟨fields, g.shared.issued ++ [⟨t, ms, G.lastMs fields, value⟩]⟩ } := by
  obtain ⟨hfollows, logical, hlogical, hstamped, hobserved, hlast⟩ :=
    A.issues hms hentropy h.follows hdraw
  constructor
  · simpa using hfollows
  · simp
  · refine List.pairwise_append.mpr ⟨h.increasing, List.pairwise_singleton _ _, ?_⟩
    intro a ha b hb
    obtain rfl := List.mem_singleton.mp hb
    obtain ⟨c, hc, hac⟩ := h.precedes_last ha
    obtain ⟨hlt, hle⟩ := hlast c.value (by rw [Option.mem_def.mp hc]; rfl)
    obtain ⟨m, hm, -, -⟩ := h.carries c (List.mem_of_getLast? hc)
    have hstep := hle m (by rw [← h.last c hc, hm])
    rcases hac with rfl | ⟨hac, m', n', hm', hn', hle'⟩
    · exact ⟨hlt, m, logical, hm, hlogical, hstep⟩
    · obtain rfl : n' = m := Option.some.inj (hn'.symm.trans hm)
      exact ⟨A.trans hac hlt, m', logical, hm', hlogical, hle'.trans hstep⟩
  · intro a ha
    rcases List.mem_append.mp ha with ha | ha
    · exact h.carries a ha
    · obtain rfl := List.mem_singleton.mp ha
      exact ⟨logical, hlogical, hstamped, hobserved⟩
  · intro a ha
    rcases List.mem_append.mp ha with ha | ha
    · exact h.observed a ha
    · obtain rfl := List.mem_singleton.mp ha
      exact hreading

/-! ## Calls -/

variable [DecidableEq T]

/-- A call before its section. -/
def World.Before (A : Ascending G lt Stamped) (t : T) (g : World T σ ι) : Prop :=
  g.Orderly A ∧ g.Fresh t

/-- A call that knows what its clock has answered. -/
def World.Knows (A : Ascending G lt Stamped) (t : T) (r : ClockResult) (g : World T σ ι) :
    Prop :=
  g.Before A t ∧ g.reading t = some r

/-- How a call ends: with the one identifier that it has issued, or with none. -/
def Ended (A : Ascending G lt Stamped) (t : T) : Except Raised ι → World T σ ι → Prop
  | .ok value, g => g.Orderly A ∧
      ∃ a, g.shared.issued.filter (·.call = t) = [a] ∧ a.value = value
  | .error _, g => g.Before A t

omit [DecidableEq T] in
theorem Draws.fresh
    {t u : T} {act : Act Unit Question Answer} {s s' : Shared T σ ι}
    (h : Draws u act s s')
    (hu : u ≠ t)
    (hfresh : ∀ a ∈ s.issued, a.call ≠ t) :
    ∀ a ∈ s'.issued, a.call ≠ t := by
  rcases h with rfl | ⟨b, hb, -, hissued⟩
  · exact hfresh
  · intro a ha
    rw [hissued, List.mem_append, List.mem_singleton] at ha
    rcases ha with ha | rfl
    · exact hfresh a ha
    · rwa [hb]

theorem Draws.filter
    {t u : T} {act : Act Unit Question Answer} {s s' : Shared T σ ι}
    (h : Draws u act s s')
    (hu : u ≠ t) :
    s'.issued.filter (·.call = t) = s.issued.filter (·.call = t) := by
  rcases h with rfl | ⟨b, hb, -, hissued⟩
  · rfl
  · rw [hissued, List.filter_append]
    simp [hb, hu]

section Stability

variable (A : Ascending G lt Stamped) (t : T)

theorem stable_before :
    System.Stable (calls T σ ι) (Keeps A) t (World.Before A t) :=
  .of_steps (fun e => nomatch e) fun _ _ _ _ hu hw hkeeps =>
    ⟨hkeeps.orderly hw.1, hkeeps.draws.fresh hu hw.2⟩

theorem stable_knows
    (r : ClockResult) :
    System.Stable (calls T σ ι) (Keeps A) t (World.Knows A t r) := by
  refine .of_steps (fun e => nomatch e) fun _ _ g g' hu hw hkeeps => ?_
  refine ⟨⟨hkeeps.orderly hw.1.1, hkeeps.draws.fresh hu hw.1.2⟩, ?_⟩
  rw [hkeeps.reading t (Ne.symm hu), hw.2]

theorem stable_ended
    (r : Except Raised ι) :
    System.Stable (calls T σ ι) (Keeps A) t (Ended A t r) := by
  cases r with
  | error e =>
      exact stable_before A t
  | ok value =>
      refine .of_steps (fun e => nomatch e) fun _ _ g g' hu hw hkeeps => ?_
      exact ⟨hkeeps.orderly hw.1, by rw [hkeeps.draws.filter hu]; exact hw.2⟩

end Stability

section Steps

variable {A : Ascending G lt Stamped} {t : T}

omit [DecidableEq T] in
theorem Keeps.refl
    (act : Act Unit Question Answer) (g : World T σ ι) :
    Keeps A t act g g :=
  ⟨fun _ _ => rfl, Or.inl rfl, id⟩

/-- A callback has answered. -/
theorem keeps_answer
    {q : Question} {r : Answer q} {g g' : World T σ ι}
    (hg : g.Before A t)
    (h : (calls T σ ι).answer t q r g = some g') :
    Keeps A t (.answered q r) g g' ∧ g'.Before A t := by
  cases q with
  | clock =>
      obtain rfl := Option.some.inj h
      have hreading : ∀ u, u ≠ t → Function.update g.reading t (some r) u = g.reading u :=
        fun u hu => Function.update_of_ne hu _ _
      have horderly : World.Orderly A
          { g with reading := Function.update g.reading t (some r) } :=
        hg.1.answered hg.2 rfl hreading
      exact ⟨⟨hreading, Or.inl rfl, fun _ => horderly⟩, horderly, hg.2⟩
  | randomBytes n =>
      obtain rfl := Option.some.inj h
      exact ⟨.refl _ _, hg⟩

/-- A callback is asked, and the call goes on with what is known of its answer. -/
theorem wp_asks_bind
    {q : Question} {next : Answer q → Call T σ ι ι} {P : World T σ ι → Prop}
    {R : Answer q → World T σ ι → Prop}
    (hstable : System.Stable (calls T σ ι) (Keeps A) t P)
    (hstableR : ∀ r, System.Stable (calls T σ ι) (Keeps A) t (R r))
    (hbefore : ∀ g, P g → g.Before A t)
    (hanswer : ∀ r g g', P g → (calls T σ ι).answer t q r g = some g' → R r g')
    (hnext : ∀ r g, R r g → (calls T σ ι).wp (Keeps A) t (next r).run (Ended A t) g)
    {g : World T σ ι}
    (hg : P g) :
    (calls T σ ι).wp (Keeps A) t (asks q >>= next).run (Ended A t) g := by
  refine System.wp_except_bind _ _ (System.wp_except_lift _
    (System.wp_ask hstable hstable ?_ ?_ hg))
  · intro g g' hg h
    obtain rfl := Option.some.inj h
    exact ⟨.refl _ _, hg⟩
  · intro r g g' hg h
    refine ⟨(keeps_answer (hbefore g hg) h).1, ?_⟩
    exact ((hstableR r).stably (hanswer r g g' hg h)).mono fun g₁ h₁ =>
      ((hstableR r).stably h₁).mono fun g₂ h₂ => hnext r g₂ h₂

/-- A check that fails ends the call. -/
theorem wp_reads_bind
    {α : Type} {result : Except Raised α} {next : α → Call T σ ι ι} {g : World T σ ι}
    (hg : g.Before A t)
    (hok : ∀ a, result = .ok a → (calls T σ ι).wp (Keeps A) t (next a).run (Ended A t) g) :
    (calls T σ ι).wp (Keeps A) t (reads result >>= next).run (Ended A t) g := by
  cases result with
  | error e =>
      exact (stable_before A t).stably hg
  | ok a =>
      exact hok a rfl

/-- The section of a call. -/
theorem wp_drawLocked
    {ms : Nat} {entropy : Bytes} {g : World T σ ι}
    (hms : ms ≤ maxTimestamp)
    (hentropy : entropy.length = 10)
    (hg : g.Knows A t (.int ms)) :
    (calls T σ ι).wp (Keeps A) t (Proc.atomically () (G.drawLocked t ms entropy)) (Ended A t)
      g := by
  refine System.wp_atomically (stable_knows A t (.int ms)) (fun g hg _ => ?_) hg
  obtain ⟨⟨horderly, hfresh⟩, hreading⟩ := hg
  cases hdraw : G.draw ms entropy g.shared.fields with
  | mk result fields =>
      cases result with
      | error e =>
          obtain rfl := A.raises hdraw
          have hsection : G.drawLocked t ms entropy g.shared = (.error e, g.shared) := by
            simp [Generator.drawLocked, hdraw]
          simp only [calls, hsection]
          exact ⟨.refl _ _, (stable_ended A t (.error e)).stably ⟨horderly, hfresh⟩⟩
      | ok value =>
          have hsection : G.drawLocked t ms entropy g.shared =
              (.ok value, ⟨fields, g.shared.issued ++ [⟨t, ms, G.lastMs fields, value⟩]⟩) := by
            simp [Generator.drawLocked, hdraw]
          have hissue := horderly.issue hreading hms hentropy hdraw
          simp only [calls, hsection]
          refine ⟨⟨fun _ _ => rfl, Or.inr ⟨_, rfl, rfl, rfl⟩, fun _ => hissue⟩,
            (stable_ended A t (.ok value)).stably
              ⟨hissue, ⟨t, ms, G.lastMs fields, value⟩, ?_, rfl⟩⟩
          have hnone : g.shared.issued.filter (·.call = t) = [] :=
            List.filter_eq_nil_iff.mpr fun a ha => by simpa using hfresh a ha
          simp [hnone]

/-- A call keeps the order and ends as it says. -/
theorem wp_new
    {g : World T σ ι}
    (hg : g.Before A t) :
    (calls T σ ι).wp (Keeps A) t (G.new t).run (Ended A t) g := by
  refine wp_asks_bind (stable_before A t) (stable_knows A t) (fun _ => id) ?_ ?_ hg
  · intro r g g' hg h
    refine ⟨(keeps_answer hg h).2, ?_⟩
    obtain rfl := Option.some.inj h
    exact Function.update_self t (some r) g.reading
  intro reading g hg
  refine wp_reads_bind hg.1 fun ms hreading => ?_
  obtain ⟨rfl, hms⟩ := readTimestamp_eq_ok hreading
  refine wp_asks_bind (stable_knows A t (.int ms)) (fun _ => stable_knows A t (.int ms))
    (fun _ h => h.1) ?_ ?_ hg
  · intro r g g' hg h
    obtain rfl := Option.some.inj h
    exact hg
  intro entropy g hg
  refine wp_reads_bind hg.1 fun bytes hbytes => ?_
  exact wp_drawLocked hms (readEntropy_eq_ok hbytes).2 hg

end Steps

/-! ## Runs -/

/-- A step leaves the generator as it is, or it is the section of a call that issues. -/
def Changes (c : System.Pool T (World T σ ι) (Shared T σ ι) Unit Question Answer (Except Raised ι))
    (l : System.PoolLabel T Unit Question Empty Answer)
    (c' : System.Pool T (World T σ ι) (Shared T σ ι) Unit Question Answer (Except Raised ι)) :
    Prop :=
  c'.world.shared = c.world.shared ∨ ∃ a : Issue T ι, l = .thread a.call (.atomic ()) ∧
    c'.world.shared.issued = c.world.shared.issued ++ [a]

/-- What the calls of a generator have done after a run, in lock order. -/
structure OrderlyRun (G : Generator σ ι) (lt : ι → ι → Prop) (Stamped : ι → Nat → Prop)
    (ls : List (System.PoolLabel T Unit Question Empty Answer))
    (c : System.Pool T (World T σ ι) (Shared T σ ι) Unit Question Answer (Except Raised ι)) :
    Prop where
  steps : Run.EachStep (System.PoolStep (calls T σ ι)) Changes G.start ls c
  increasing : c.world.shared.issued.Pairwise (Issue.Precedes lt)
  distinct : (c.world.shared.issued.map (·.value)).Nodup
  carries : ∀ a ∈ c.world.shared.issued, a.Carries Stamped
  observed : ∀ a ∈ c.world.shared.issued, c.world.reading a.call = some (.int a.observedMs)
  returned : ∀ t value, c.thread t = .running (.ret (.ok value)) →
    ∃ a, c.world.shared.issued.filter (·.call = t) = [a] ∧ a.value = value
  raised : ∀ t e, c.thread t = .running (.ret (.error e)) →
    ∀ a ∈ c.world.shared.issued, a.call ≠ t

/-- Every call keeps its guarantee from here on, and the order holds now. -/
def OrderlyPool (A : Ascending G lt Stamped)
    (c : System.Pool T (World T σ ι) (Shared T σ ι) Unit Question Answer (Except Raised ι)) :
    Prop :=
  System.Pool.Sound (calls T σ ι) (Keeps A) (Ended A) c ∧ c.world.Orderly A

theorem orderlyPool_start
    (A : Ascending G lt Stamped) :
    OrderlyPool A (G.start : System.Pool T _ _ _ _ _ _) := by
  have horderly : World.Orderly A (G.start : System.Pool T _ _ _ _ _ _).world := by
    constructor
    · exact A.init
    all_goals simp [Generator.start]
  refine ⟨fun t => wp_new ⟨horderly, ?_⟩, horderly⟩
  intro a ha
  simp [Generator.start] at ha

/-- **Step lemma**: a step of the pool changes the generator by an issue only. -/
theorem OrderlyPool.step
    {A : Ascending G lt Stamped}
    {c c' : System.Pool T (World T σ ι) (Shared T σ ι) Unit Question Answer (Except Raised ι)}
    {l : System.PoolLabel T Unit Question Empty Answer}
    (h : OrderlyPool A c)
    (hstep : System.PoolStep (calls T σ ι) c l c') :
    Changes c l c' ∧ OrderlyPool A c' := by
  obtain ⟨hguar, hsound⟩ := System.Pool.sound_step h.1 hstep
  cases l with
  | env e =>
      exact e.elim
  | thread t act =>
      rcases hguar with hkeeps | ⟨-, hworld⟩
      · refine ⟨?_, hsound, hkeeps.orderly h.2⟩
        rcases hkeeps.draws with hsame | ⟨a, rfl, rfl, hissued⟩
        · exact Or.inl hsame
        · exact Or.inr ⟨a, rfl, hissued⟩
      · refine ⟨Or.inl (by rw [hworld]), hsound, ?_⟩
        rw [hworld]
        exact h.2

/-- **Run lemma**: the calls of an ascending generator run orderly. -/
theorem Ascending.run_orderly
    (A : Ascending G lt Stamped)
    {ls : List (System.PoolLabel T Unit Question Empty Answer)}
    {c : System.Pool T (World T σ ι) (Shared T σ ι) Unit Question Answer (Except Raised ι)}
    (hrun : Run (System.PoolStep (calls T σ ι)) G.start ls c) :
    OrderlyRun G lt Stamped ls c := by
  have hfinal : OrderlyPool A c :=
    hrun.invariant (fun _ _ _ h hstep => (h.step hstep).2) (orderlyPool_start A)
  have hdistinct : ∀ {a b : Issue T ι}, a.Precedes lt b → a.value ≠ b.value :=
    fun hab heq => A.irrefl _ (heq ▸ hab.1)
  exact {
    steps := hrun.eachStep (fun _ _ _ h hstep => h.step hstep) (orderlyPool_start A)
    increasing := hfinal.2.increasing
    distinct := List.pairwise_map.mpr (hfinal.2.increasing.imp hdistinct)
    carries := hfinal.2.carries
    observed := hfinal.2.observed
    returned := fun _ _ hret => (hfinal.1.post hret).2
    raised := fun _ _ hret => (hfinal.1.post hret).2 }

end Runs

end Id
end Bluetape
