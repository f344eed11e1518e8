import Bluetape.Serde.JsonCompact
import Mathlib.Data.Finset.Basic

/-!
# The preflight walk

The walk keeps the containers around the current value on a stack and their identities in
a set.  Every visit raises the lower bound of the encoded size, so that the walk ends; the
bound and what is left to visit add up to no more than the size of the text.

* `Walk.Sound`: what holds whenever a value is about to be visited;
* `preflight_sound`: what the outcomes of the walk say about the graph.
-/

namespace Bluetape
namespace Serde

open Base Base.Json

variable {F : Type}

/-! ## Paths -/

/-- The values that an iterator has left to yield. -/
def TraversalIterator.values : TraversalIterator F → List (PyValue F)
  | listValues items => items
  | dictValues entries => entries.map Prod.snd

/-- The way from a root to a value: the containers that were opened, innermost first. -/
inductive Path (h : Heap F) (root : PyValue F) : List Nat → PyValue F → Prop
  | root : Path h root [] root
  | child {ids : List Nat} {id : Nat} {item : PyValue F}
      (hpath : Path h root ids (.ref id))
      (hitem : item ∈ (h id).iterator.values) :
      Path h root (id :: ids) item

theorem TraversalIterator.values_of_next
    {it rest : TraversalIterator F} {item : PyValue F} {lower : Nat}
    (h : it.next = .ok (some ((item, lower), rest))) :
    it.values = item :: rest.values := by
  unfold next at h
  split at h
  · cases h
  · cases h
    rfl
  · cases h
  · cases h
  · simp only [except_bind_eq_ok] at h
    obtain ⟨keyLower, -, h⟩ := h
    cases h
    rfl

theorem validateUnicodeScalarString_eq_error
    {t : Text} {e : SerdeError}
    (h : validateUnicodeScalarString t = .error e) :
    e = .encode .unsupportedValue := by
  have hfold : ∀ (t : Text) (start : Nat),
      t.foldlM (fun bound character => do return bound + (← encodedLowerBound character)) start =
        Except.error e → e = .encode .unsupportedValue := by
    intro t
    induction t with
    | nil =>
        intro start h
        cases h
    | cons p t ih =>
        intro start h
        rw [List.foldlM_cons] at h
        rcases except_bind_eq_error.mp h with hstep | ⟨next, -, h⟩
        · rcases except_bind_eq_error.mp hstep with hlower | ⟨lower, -, hdone⟩
          · unfold encodedLowerBound at hlower
            split_ifs at hlower
            exact (Except.error.inj hlower).symm
          · cases hdone
        · exact ih next h
  exact hfold t 2 h

theorem TraversalIterator.next_eq_error
    {it : TraversalIterator F} {e : SerdeError}
    (h : it.next = .error e) :
    e = .encode .unsupportedValue := by
  unfold next at h
  split at h
  · cases h
  · cases h
  · cases h
  · cases h
    rfl
  · rcases except_bind_eq_error.mp h with hkey | ⟨keyLower, -, h⟩
    · exact validateUnicodeScalarString_eq_error hkey
    · cases h

/-- The identities of the containers on a stack. -/
def stackIds (stack : List (TraversalFrame F)) : List Nat :=
  stack.map (·.containerId)

/-- Every frame iterates over the container at the end of the path below it. -/
def StackPath (h : Heap F) (root : PyValue F) : List (TraversalFrame F) → Prop
  | [] => True
  | frame :: stack =>
      Path h root (stackIds stack) (.ref frame.containerId) ∧
        (∀ item ∈ frame.iterator.values, item ∈ (h frame.containerId).iterator.values) ∧
        StackPath h root stack

/-- The stack is a path, and the set holds its containers, each of them once. -/
structure OnPath (h : Heap F) (root : PyValue F) (stack : List (TraversalFrame F))
    (active : Finset Nat) : Prop where
  path : StackPath h root stack
  nodup : (stackIds stack).Nodup
  active_eq : active = (stackIds stack).toFinset

theorem onPath_nil
    (h : Heap F) (root : PyValue F) :
    OnPath h root [] ∅ :=
  ⟨trivial, List.nodup_nil, rfl⟩

theorem OnPath.push
    {h : Heap F} {root : PyValue F} {stack : List (TraversalFrame F)} {active : Finset Nat}
    {id : Nat}
    (hon : OnPath h root stack active)
    (hpath : Path h root (stackIds stack) (.ref id))
    (hnew : id ∉ active) :
    OnPath h root (⟨id, (h id).iterator⟩ :: stack) (insert id active) where
  path := ⟨hpath, fun _ hitem => hitem, hon.path⟩
  nodup := by
    rw [hon.active_eq, List.mem_toFinset] at hnew
    exact List.nodup_cons.mpr ⟨hnew, hon.nodup⟩
  active_eq := by
    rw [hon.active_eq]
    simp [stackIds]

theorem OnPath.pop
    {h : Heap F} {root : PyValue F} {frame : TraversalFrame F} {stack : List (TraversalFrame F)}
    {active : Finset Nat}
    (hon : OnPath h root (frame :: stack) active) :
    OnPath h root stack (active.erase frame.containerId) where
  path := hon.path.2.2
  nodup := (List.nodup_cons.mp hon.nodup).2
  active_eq := by
    have hnew := (List.nodup_cons.mp hon.nodup).1
    rw [hon.active_eq]
    simp only [stackIds, List.map_cons, List.toFinset_cons]
    exact Finset.erase_insert (by rwa [List.mem_toFinset])

/-- The iterator on top has yielded an item. -/
theorem OnPath.yield
    {h : Heap F} {root : PyValue F} {frame : TraversalFrame F} {stack : List (TraversalFrame F)}
    {active : Finset Nat} {item : PyValue F} {rest : TraversalIterator F}
    (hon : OnPath h root (frame :: stack) active)
    (hvalues : frame.iterator.values = item :: rest.values) :
    OnPath h root ({ frame with iterator := rest } :: stack) active ∧
      Path h root (stackIds (frame :: stack)) item := by
  obtain ⟨hpath, hsub, hbelow⟩ := hon.path
  rw [hvalues] at hsub
  exact ⟨⟨⟨hpath, fun item hitem => hsub item (List.mem_cons_of_mem _ hitem), hbelow⟩,
    hon.nodup, hon.active_eq⟩, .child hpath (hsub item List.mem_cons_self)⟩

/-! ## One visit -/

section Visit

variable {floats : Floats F} {h : Heap F} {root : PyValue F}
  {maxNestingDepth maxOutputSize : Nat} {w : Walk F}

/-- The stack and the set once the value has been entered, if it is a container. -/
def Walk.enter (h : Heap F) (w : Walk F) : Option Nat → List (TraversalFrame F) × Finset Nat
  | none => (w.stack, w.activeContainerIds)
  | some id => (⟨id, (h id).iterator⟩ :: w.stack, insert id w.activeContainerIds)

/-- The lower bound of the size with the current value. -/
def Walk.bound (w : Walk F) (valueLowerBound : Nat) : Nat :=
  w.validatedOutputLowerBound + (w.pendingLowerBound + valueLowerBound)

/-- What one visit does. -/
theorem Walk.visit_eq
    (floats : Floats F) (h : Heap F) (maxNestingDepth maxOutputSize : Nat) (w : Walk F) :
    w.visit floats h maxNestingDepth maxOutputSize = do
      let (valueLowerBound, containerId) ← w.check floats maxNestingDepth
      raiseIf (maxOutputSize < w.bound valueLowerBound) (SerdeError.payloadLimit .outputLimit)
      let next ← advance (w.enter h containerId).1 (w.enter h containerId).2
      return next.map fun ((current, pending), stack, active) =>
        ⟨current, pending, stack, active, w.bound valueLowerBound⟩ := by
  unfold visit
  refine bind_congr fun checked => ?_
  obtain ⟨lower, containerId⟩ := checked
  refine bind_congr fun _ => ?_
  cases containerId with
  | none =>
      refine bind_congr fun next => ?_
      cases next <;> rfl
  | some id =>
      refine bind_congr fun next => ?_
      cases next <;> rfl

/-- Why a value is refused. -/
theorem Walk.check_eq_error
    {e : SerdeError}
    (hcheck : w.check floats maxNestingDepth = .error e) :
    e = .payloadLimit .integerDigitLimit ∨ e = .encode .encodeNonFiniteNumber ∨
      e = .encode .unsupportedValue ∨
      (∃ id, w.current = .ref id ∧ maxNestingDepth < w.stack.length + 1 ∧
        e = .payloadLimit .nestingLimit) ∨
      ∃ id, w.current = .ref id ∧ id ∈ w.activeContainerIds ∧ e = .encode .circularReference := by
  unfold check at hcheck
  split at hcheck
  case h_1 =>
    cases hcheck
  case h_2 =>
    cases hcheck
  case h_3 =>
    rcases except_bind_eq_error.mp hcheck with hraise | ⟨_, -, hdone⟩
    · exact Or.inl (raiseIf_eq_error.mp hraise).2.symm
    · cases hdone
  case h_4 t _ =>
    rcases except_bind_eq_error.mp hcheck with hraise | ⟨_, -, hdone⟩
    · exact Or.inr (Or.inr (Or.inl (validateUnicodeScalarString_eq_error hraise)))
    · cases hdone
  case h_5 =>
    rcases except_bind_eq_error.mp hcheck with hraise | ⟨_, -, hdone⟩
    · exact Or.inr (Or.inl (raiseIf_eq_error.mp hraise).2.symm)
    · cases hdone
  case h_6 id hcurrent =>
    rcases except_bind_eq_error.mp hcheck with hraise | ⟨_, -, hcheck⟩
    · obtain ⟨hdepth, rfl⟩ := raiseIf_eq_error.mp hraise
      exact Or.inr (Or.inr (Or.inr (Or.inl ⟨id, hcurrent, hdepth, rfl⟩)))
    · rcases except_bind_eq_error.mp hcheck with hraise | ⟨_, -, hdone⟩
      · obtain ⟨hactive, rfl⟩ := raiseIf_eq_error.mp hraise
        exact Or.inr (Or.inr (Or.inr (Or.inr ⟨id, hcurrent, hactive, rfl⟩)))
      · cases hdone
  case h_7 =>
    cases hcheck
    exact Or.inr (Or.inr (Or.inl rfl))

theorem intText_ne_nil
    (n : Int) :
    intText n ≠ [] := by
  have hdecimal : decimal n.natAbs ≠ [] := by
    rw [decimal_eq_if]
    split <;> simp
  unfold intText asciiText
  simp [hdecimal]

/-- What the checks say of a value that passes them. -/
theorem Walk.check_eq_ok
    {lower : Nat} {containerId : Option Nat}
    (hrepr : ∀ x, floats.isFinite x = true → floats.repr x ≠ [])
    (hcheck : w.check floats maxNestingDepth = .ok (lower, containerId)) :
    1 ≤ lower ∧
    ((containerId = none ∧ ∀ n, lower ≤ textSize (spell floats h n w.current)) ∨
      ∃ id, containerId = some id ∧ w.current = .ref id ∧ lower = 1 ∧
        w.stack.length + 1 ≤ maxNestingDepth ∧ id ∉ w.activeContainerIds) := by
  unfold check at hcheck
  split at hcheck
  case h_1 hcurrent =>
    cases hcheck
    refine ⟨le_rfl, Or.inl ⟨rfl, fun n => ?_⟩⟩
    rw [hcurrent]
    cases n <;> exact one_le_textSize nofun
  case h_2 b hcurrent =>
    cases hcheck
    refine ⟨le_rfl, Or.inl ⟨rfl, fun n => ?_⟩⟩
    rw [hcurrent]
    cases n <;> cases b <;> exact one_le_textSize nofun
  case h_3 i hcurrent =>
    simp only [except_bind_eq_ok] at hcheck
    obtain ⟨-, -, hcheck⟩ := hcheck
    cases hcheck
    refine ⟨le_rfl, Or.inl ⟨rfl, fun n => ?_⟩⟩
    rw [hcurrent]
    cases n <;> exact one_le_textSize (intText_ne_nil i)
  case h_4 t hcurrent =>
    simp only [except_bind_eq_ok] at hcheck
    obtain ⟨bound, hbound, hcheck⟩ := hcheck
    cases hcheck
    have hquote := textSize_le_quote t
    rw [validateUnicodeScalarString_eq_ok hbound]
    refine ⟨by omega, Or.inl ⟨rfl, fun n => ?_⟩⟩
    rw [hcurrent]
    cases n <;> exact hquote
  case h_5 x hcurrent =>
    simp only [except_bind_eq_ok, raiseIf_eq_ok, not_not] at hcheck
    obtain ⟨-, hfinite, hcheck⟩ := hcheck
    cases hcheck
    refine ⟨le_rfl, Or.inl ⟨rfl, fun n => ?_⟩⟩
    rw [hcurrent]
    cases n <;> exact one_le_textSize (hrepr x hfinite)
  case h_6 id hcurrent =>
    simp only [except_bind_eq_ok, raiseIf_eq_ok, not_lt] at hcheck
    obtain ⟨-, hdepth, -, hnew, hcheck⟩ := hcheck
    cases hcheck
    exact ⟨le_rfl, Or.inr ⟨id, rfl, hcurrent, rfl, hdepth, hnew⟩⟩
  case h_7 =>
    cases hcheck

/-! ## What is left to visit -/

/-- The size of what the frames have left, with so many containers followed from the root. -/
def stackWeight (floats : Floats F) (h : Heap F) (n : Nat) : List (TraversalFrame F) → Nat
  | [] => 0
  | frame :: stack =>
      frame.iterator.weight (spell floats h (n - (stack.length + 1))) +
        stackWeight floats h n stack

/-- The bound with the size of all that is left. -/
def Walk.weight (floats : Floats F) (h : Heap F) (n : Nat) (w : Walk F) : Nat :=
  w.validatedOutputLowerBound + w.pendingLowerBound +
    textSize (spell floats h (n - w.stack.length) w.current) + stackWeight floats h n w.stack

/-- What the walk knows whenever a value is about to be visited. -/
structure Walk.Sound (h : Heap F) (root : PyValue F) (maxNestingDepth : Nat) (w : Walk F) :
    Prop where
  onPath : OnPath h root w.stack w.activeContainerIds
  path : Path h root (stackIds w.stack) w.current
  depth : w.stack.length ≤ maxNestingDepth

/-- The frames that are exhausted are dropped, and the next value is below the others. -/
theorem OnPath.advance
    (floats : Floats F) {stack stack' : List (TraversalFrame F)} {active active' : Finset Nat}
    {item : PyValue F} {pending : Nat}
    (hon : OnPath h root stack active)
    (hadvance : Serde.advance stack active = .ok (some ((item, pending), stack', active'))) :
    OnPath h root stack' active' ∧ Path h root (stackIds stack') item ∧
      stack'.length ≤ stack.length ∧
      ∀ n, pending + textSize (spell floats h (n - stack'.length) item) +
        stackWeight floats h n stack' ≤ stackWeight floats h n stack := by
  induction stack generalizing active with
  | nil =>
      cases hadvance
  | cons frame stack ih =>
      simp only [Serde.advance, except_bind_eq_ok] at hadvance
      obtain ⟨next, hnext, hadvance⟩ := hadvance
      cases next with
      | none =>
          obtain ⟨hon', hpath, hle, hweight⟩ := ih hon.pop hadvance
          refine ⟨hon', hpath, hle.trans (Nat.le_succ _), fun n => ?_⟩
          exact (hweight n).trans (Nat.le_add_left _ _)
      | some next =>
          obtain ⟨⟨item', pending'⟩, rest⟩ := next
          cases hadvance
          obtain ⟨hon', hpath⟩ := hon.yield (TraversalIterator.values_of_next hnext)
          refine ⟨hon', hpath, le_rfl, fun n => ?_⟩
          have hitem := TraversalIterator.weight_of_next
            (spell floats h (n - (stack.length + 1))) hnext
          simp only [stackWeight, List.length_cons]
          omega

theorem advance_eq_error
    {stack : List (TraversalFrame F)} {active : Finset Nat} {e : SerdeError}
    (hadvance : advance stack active = .error e) :
    e = .encode .unsupportedValue := by
  induction stack generalizing active with
  | nil =>
      cases hadvance
  | cons frame stack ih =>
      rcases except_bind_eq_error.mp hadvance with hnext | ⟨next, -, hadvance⟩
      · exact TraversalIterator.next_eq_error hnext
      · cases next with
        | none =>
            exact ih hadvance
        | some next =>
            cases hadvance

/-- Entering a value keeps the path, and takes its bound off what is left. -/
theorem Walk.Sound.enter
    {lower : Nat} {containerId : Option Nat}
    (hrepr : ∀ x, floats.isFinite x = true → floats.repr x ≠ [])
    (hsound : w.Sound h root maxNestingDepth)
    (hcheck : w.check floats maxNestingDepth = .ok (lower, containerId)) :
    OnPath h root (w.enter h containerId).1 (w.enter h containerId).2 ∧
      (w.enter h containerId).1.length ≤ maxNestingDepth ∧
      ∀ n, maxNestingDepth ≤ n →
        w.bound lower + stackWeight floats h n (w.enter h containerId).1 ≤
          w.weight floats h n := by
  obtain ⟨-, ⟨rfl, hlower⟩ | ⟨id, rfl, hcurrent, rfl, hdepth, hnew⟩⟩ :=
    check_eq_ok (h := h) hrepr hcheck
  · refine ⟨hsound.onPath, hsound.depth, fun n _ => ?_⟩
    have hsize := hlower (n - w.stack.length)
    simp only [Walk.enter, Walk.bound, Walk.weight]
    omega
  · have hpath := hsound.path
    rw [hcurrent] at hpath
    refine ⟨hsound.onPath.push hpath hnew, hdepth, fun n hn => ?_⟩
    have hroom : n - w.stack.length = n - (w.stack.length + 1) + 1 := by
      omega
    have hcontainer := weight_lt_spellContainer (spell floats h (n - (w.stack.length + 1))) (h id)
    simp only [Walk.enter, Walk.bound, Walk.weight, stackWeight, hcurrent, hroom, spell]
    omega

/-- **One visit** keeps to the paths, raises the bound and adds nothing to what is left. -/
theorem Walk.Sound.visit
    {w' : Walk F}
    (hrepr : ∀ x, floats.isFinite x = true → floats.repr x ≠ [])
    (hsound : w.Sound h root maxNestingDepth)
    (hvisit : w.visit floats h maxNestingDepth maxOutputSize = .ok (some w')) :
    w'.Sound h root maxNestingDepth ∧
      w.validatedOutputLowerBound + 1 ≤ w'.validatedOutputLowerBound ∧
      w'.validatedOutputLowerBound ≤ maxOutputSize ∧
      ∀ n, maxNestingDepth ≤ n → w'.weight floats h n ≤ w.weight floats h n := by
  rw [visit_eq] at hvisit
  obtain ⟨⟨lower, containerId⟩, hcheck, hvisit⟩ := except_bind_eq_ok.mp hvisit
  obtain ⟨_, hlimit, hvisit⟩ := except_bind_eq_ok.mp hvisit
  obtain ⟨next, hadvance, hvisit⟩ := except_bind_eq_ok.mp hvisit
  have hlimit : ¬ maxOutputSize < w.bound lower := raiseIf_eq_ok.mp hlimit
  cases next with
  | none =>
      cases hvisit
  | some next =>
      obtain ⟨⟨item, pending⟩, stack, active⟩ := next
      cases hvisit
      have hlower := (check_eq_ok (h := h) hrepr hcheck).1
      obtain ⟨hon, hdepth, hentered⟩ := hsound.enter hrepr hcheck
      obtain ⟨hon', hpath, hle, hweight⟩ := hon.advance floats hadvance
      refine ⟨⟨hon', hpath, hle.trans hdepth⟩, ?_, Nat.le_of_not_lt hlimit, fun n hn => ?_⟩
      · show w.validatedOutputLowerBound + 1 ≤ w.bound lower
        unfold bound
        omega
      · have hbefore := hentered n hn
        have hafter := hweight n
        simp only [Walk.weight] at hbefore ⊢
        omega

/-- **A visit that fails**, by the error. -/
theorem Walk.Sound.visit_eq_error
    {e : SerdeError}
    (hrepr : ∀ x, floats.isFinite x = true → floats.repr x ≠ [])
    (hsound : w.Sound h root maxNestingDepth)
    (hvisit : w.visit floats h maxNestingDepth maxOutputSize = .error e) :
    (e = .payloadLimit .outputLimit →
      ∀ n, maxNestingDepth ≤ n → maxOutputSize < w.weight floats h n) ∧
    (e = .encode .circularReference →
      ∃ ids id, Path h root ids (.ref id) ∧ id ∈ ids) ∧
    (e = .payloadLimit .nestingLimit →
      ∃ ids id, Path h root ids (.ref id) ∧ maxNestingDepth < ids.length + 1) := by
  rw [visit_eq] at hvisit
  rcases except_bind_eq_error.mp hvisit with hcheck | ⟨⟨lower, containerId⟩, hcheck, hvisit⟩
  · have hpath := hsound.path
    rcases check_eq_error hcheck with rfl | rfl | rfl | ⟨id, hcurrent, hdepth, rfl⟩ |
      ⟨id, hcurrent, hactive, rfl⟩
    · exact ⟨nofun, nofun, nofun⟩
    · exact ⟨nofun, nofun, nofun⟩
    · exact ⟨nofun, nofun, nofun⟩
    · rw [hcurrent] at hpath
      refine ⟨nofun, nofun, fun _ => ⟨stackIds w.stack, id, hpath, ?_⟩⟩
      simpa [stackIds] using hdepth
    · rw [hcurrent] at hpath
      rw [hsound.onPath.active_eq, List.mem_toFinset] at hactive
      exact ⟨nofun, fun _ => ⟨stackIds w.stack, id, hpath, hactive⟩, nofun⟩
  · rcases except_bind_eq_error.mp hvisit with hlimit | ⟨_, -, hvisit⟩
    · obtain ⟨hlimit, rfl⟩ := raiseIf_eq_error.mp hlimit
      refine ⟨fun _ n hn => ?_, nofun, nofun⟩
      have hentered := (hsound.enter hrepr hcheck).2.2 n hn
      omega
    · rcases except_bind_eq_error.mp hvisit with hadvance | ⟨next, -, hdone⟩
      · obtain rfl := advance_eq_error hadvance
        exact ⟨nofun, nofun, nofun⟩
      · cases hdone

end Visit

/-! ## The walk as a whole -/

section Run

variable (floats : Floats F) (h : Heap F) (root : PyValue F)
  (maxNestingDepth maxOutputSize : Nat)

/-- The states in which a value is about to be visited, after so many visits. -/
inductive Visits : Nat → Walk F → Prop
  | start : Visits 0 ⟨root, 0, [], ∅, 0⟩
  | next {k : Nat} {w w' : Walk F}
      (hvisits : Visits k w)
      (hvisit : w.visit floats h maxNestingDepth maxOutputSize = .ok (some w')) :
      Visits (k + 1) w'

/-- The stack and the set whenever one of the two loops of the walk goes round. -/
inductive Moment : List (TraversalFrame F) → Finset Nat → Prop
  | visiting {k : Nat} {w : Walk F}
      (hvisits : Visits floats h root maxNestingDepth maxOutputSize k w) :
      Moment w.stack w.activeContainerIds
  | entered {k : Nat} {w : Walk F} {lower : Nat} {containerId : Option Nat}
      (hvisits : Visits floats h root maxNestingDepth maxOutputSize k w)
      (hcheck : w.check floats maxNestingDepth = .ok (lower, containerId))
      (hlimit : w.bound lower ≤ maxOutputSize) :
      Moment (w.enter h containerId).1 (w.enter h containerId).2
  | exhausted {frame : TraversalFrame F} {stack : List (TraversalFrame F)} {active : Finset Nat}
      (hmoment : Moment (frame :: stack) active)
      (hnext : frame.iterator.next = .ok none) :
      Moment stack (active.erase frame.containerId)

variable {floats h root maxNestingDepth maxOutputSize}
variable (hrepr : ∀ x, floats.isFinite x = true → floats.repr x ≠ [])

include hrepr

theorem Visits.sound
    {k : Nat} {w : Walk F}
    (hvisits : Visits floats h root maxNestingDepth maxOutputSize k w) :
    w.Sound h root maxNestingDepth := by
  induction hvisits with
  | start =>
      exact ⟨onPath_nil h root, .root, Nat.zero_le _⟩
  | next _ hvisit ih =>
      exact (ih.visit hrepr hvisit).1

/-- Every visit raises the bound. -/
theorem Visits.le_bound
    {k : Nat} {w : Walk F}
    (hvisits : Visits floats h root maxNestingDepth maxOutputSize k w) :
    k ≤ w.validatedOutputLowerBound ∧ w.validatedOutputLowerBound ≤ maxOutputSize := by
  induction hvisits with
  | start =>
      exact ⟨le_rfl, Nat.zero_le _⟩
  | next hvisits hvisit ih =>
      obtain ⟨-, hraised, hlimit, -⟩ := (hvisits.sound hrepr).visit hrepr hvisit
      exact ⟨by omega, hlimit⟩

/-- The bound and what is left stay below the size of the root. -/
theorem Visits.weight_le
    {k : Nat} {w : Walk F}
    (hvisits : Visits floats h root maxNestingDepth maxOutputSize k w)
    {n : Nat}
    (hn : maxNestingDepth ≤ n) :
    w.weight floats h n ≤ textSize (spell floats h n root) := by
  induction hvisits with
  | start =>
      simp [Walk.weight, stackWeight]
  | next hvisits hvisit ih =>
      obtain ⟨-, -, -, hweight⟩ := (hvisits.sound hrepr).visit hrepr hvisit
      exact (hweight n hn).trans ih

theorem Moment.onPath
    {stack : List (TraversalFrame F)} {active : Finset Nat}
    (hmoment : Moment floats h root maxNestingDepth maxOutputSize stack active) :
    OnPath h root stack active := by
  induction hmoment with
  | visiting hvisits =>
      exact (hvisits.sound hrepr).onPath
  | entered hvisits hcheck _ =>
      exact ((hvisits.sound hrepr).enter hrepr hcheck).1
  | exhausted _ _ ih =>
      exact ih.pop

/-- The walk ends in one of its visits, with fuel to spare. -/
theorem Walk.run_ends
    {fuel k : Nat} {w : Walk F}
    (hvisits : Visits floats h root maxNestingDepth maxOutputSize k w)
    (hfuel : fuel + k = maxOutputSize + 1) :
    ∃ k' w', Visits floats h root maxNestingDepth maxOutputSize k' w' ∧
      (w'.visit floats h maxNestingDepth maxOutputSize).map (fun next => next.isNone) =
        (w.run floats h maxNestingDepth maxOutputSize fuel).map (fun _ => true) := by
  induction fuel generalizing k w with
  | zero =>
      obtain ⟨hk, hlimit⟩ := hvisits.le_bound hrepr
      omega
  | succ fuel ih =>
      cases hvisit : w.visit floats h maxNestingDepth maxOutputSize with
      | error e =>
          refine ⟨k, w, hvisits, ?_⟩
          rw [Walk.run, hvisit]
          rfl
      | ok next =>
          cases next with
          | none =>
              refine ⟨k, w, hvisits, ?_⟩
              rw [Walk.run, hvisit]
              rfl
          | some w' =>
              obtain ⟨k', w'', hvisits', hend⟩ := ih (hvisits.next hvisit) (by omega)
              refine ⟨k', w'', hvisits', ?_⟩
              rw [hend, Walk.run, hvisit]
              rfl

end Run

/-! ## Paths of a value that fits -/

section Fits

variable {floats : Floats F} {h : Heap F} {root : PyValue F}

theorem TraversalIterator.All.of_mem
    {it : TraversalIterator F} {P : PyValue F → Prop} {item : PyValue F}
    (hall : it.All P)
    (hitem : item ∈ it.values) :
    P item := by
  cases it with
  | listValues items =>
      exact hall item hitem
  | dictValues entries =>
      obtain ⟨entry, hentry, rfl⟩ := List.mem_map.mp hitem
      exact (hall entry hentry).2

/-- A path goes no deeper than the value nests. -/
theorem Fits.of_path
    {n : Nat} {ids : List Nat} {item : PyValue F}
    (hpath : Path h root ids item)
    (hfits : Fits floats h n root) :
    ids.length ≤ n ∧ Fits floats h (n - ids.length) item := by
  induction hpath with
  | root =>
      exact ⟨Nat.zero_le n, hfits⟩
  | @child ids id item hpath hitem ih =>
      obtain ⟨hle, hcontainer⟩ := ih
      cases hroom : n - ids.length with
      | zero =>
          rw [hroom] at hcontainer
          exact hcontainer.elim
      | succ m =>
          rw [hroom] at hcontainer
          have hdepth : n - (id :: ids).length = m := by
            rw [List.length_cons]
            omega
          rw [hdepth]
          exact ⟨by rw [List.length_cons]; omega, hcontainer.of_mem hitem⟩

/-- A path from a container on the path to the end of the path. -/
theorem Path.from_mem
    {ids : List Nat} {id : Nat} {item : PyValue F}
    (hpath : Path h root ids item)
    (hid : id ∈ ids) :
    ∃ ids', ids' ≠ [] ∧ Path h (.ref id) ids' item := by
  induction hpath with
  | root =>
      cases hid
  | @child ids id' item hpath hitem ih =>
      rcases List.mem_cons.mp hid with rfl | hid
      · exact ⟨[id], List.cons_ne_nil _ _, .child .root hitem⟩
      · obtain ⟨ids', -, hpath'⟩ := ih hid
        exact ⟨id' :: ids', List.cons_ne_nil _ _, .child hpath' hitem⟩

/-- A container that fits does not contain itself. -/
theorem Fits.not_cyclic
    {n id : Nat} {ids : List Nat}
    (hfits : Fits floats h n (.ref id))
    (hpath : Path h (.ref id) ids (.ref id)) :
    ids = [] := by
  induction n using Nat.strongRecOn with
  | _ n ih =>
      by_contra hne
      obtain ⟨hle, hfits'⟩ := hfits.of_path hpath
      have hpos := List.length_pos_iff.mpr hne
      exact hne (ih (n - ids.length) (by omega) hfits')

theorem Fits.path_ref
    {n id : Nat} {ids : List Nat}
    (hfits : Fits floats h n root)
    (hpath : Path h root ids (.ref id)) :
    id ∉ ids ∧ ids.length + 1 ≤ n := by
  obtain ⟨hle, hcontainer⟩ := hfits.of_path hpath
  refine ⟨fun hid => ?_, ?_⟩
  · obtain ⟨ids', hne, hcycle⟩ := hpath.from_mem hid
    exact hne (hcontainer.not_cyclic hcycle)
  · cases hroom : n - ids.length with
    | zero =>
        rw [hroom] at hcontainer
        exact hcontainer.elim
    | succ m =>
        omega

end Fits

/-- What the outcome of the preflight says of a graph and its limits. -/
structure PreflightSound (floats : Floats F) (h : Heap F) (root : PyValue F)
    (maxNestingDepth maxOutputSize : Nat) : Prop where
  visits : ∀ {k w}, Visits floats h root maxNestingDepth maxOutputSize k w →
    k + 1 ≤ maxOutputSize + 1
  ends : ∃ k w, Visits floats h root maxNestingDepth maxOutputSize k w ∧
    (w.visit floats h maxNestingDepth maxOutputSize).map (fun next => next.isNone) =
      (preflightJsonValue floats h root maxNestingDepth maxOutputSize).map (fun _ => true)
  exceeds : preflightJsonValue floats h root maxNestingDepth maxOutputSize =
      .error (.payloadLimit .outputLimit) →
    ∀ n, maxNestingDepth ≤ n → maxOutputSize < textSize (spell floats h n root)
  encoding : preflightJsonValue floats h root maxNestingDepth maxOutputSize =
      .error (.payloadLimit .outputLimit) →
    ∀ frames encoded, (iterencode floats h frames [] [] root).failure = none →
      encodeUtf8 (iterencode floats h frames [] [] root).text = some encoded →
      maxOutputSize < encoded.length
  circular : preflightJsonValue floats h root maxNestingDepth maxOutputSize =
      .error (.encode .circularReference) →
    ∃ ids id, Path h root ids (.ref id) ∧ id ∈ ids
  nesting : preflightJsonValue floats h root maxNestingDepth maxOutputSize =
      .error (.payloadLimit .nestingLimit) →
    ∃ ids id, Path h root ids (.ref id) ∧ maxNestingDepth < ids.length + 1
  accepted : preflightJsonValue floats h root maxNestingDepth maxOutputSize = .ok () →
    ∀ ids id, Path h root ids (.ref id) → id ∉ ids ∧ ids.length + 1 ≤ maxNestingDepth
  active : ∀ {stack active}, Moment floats h root maxNestingDepth maxOutputSize stack active →
    OnPath h root stack active

/--
**The preflight is sound and terminates**, for every graph and all limits.  Of the floats
it is assumed that a finite one is not written as the empty text.
-/
theorem preflight_sound
    {floats : Floats F}
    (hrepr : ∀ x, floats.isFinite x = true → floats.repr x ≠ [])
    (h : Heap F) (root : PyValue F) (maxNestingDepth maxOutputSize : Nat) :
    PreflightSound floats h root maxNestingDepth maxOutputSize := by
  have hstart : Visits floats h root maxNestingDepth maxOutputSize 0 ⟨root, 0, [], ∅, 0⟩ :=
    .start
  obtain ⟨k, w, hvisits, hend⟩ := Walk.run_ends hrepr hstart rfl
  have hfails : ∀ e, preflightJsonValue floats h root maxNestingDepth maxOutputSize = .error e →
      w.visit floats h maxNestingDepth maxOutputSize = .error e := by
    intro e he
    rw [show Walk.run _ _ _ _ _ _ = _ from he] at hend
    cases hvisit : w.visit floats h maxNestingDepth maxOutputSize with
    | error e' =>
        rw [hvisit] at hend
        exact congrArg _ (Except.error.inj hend)
    | ok next =>
        rw [hvisit] at hend
        cases hend
  have hexceeds : preflightJsonValue floats h root maxNestingDepth maxOutputSize =
      .error (.payloadLimit .outputLimit) →
      ∀ n, maxNestingDepth ≤ n → maxOutputSize < textSize (spell floats h n root) := by
    intro he n hn
    have hweight := ((hvisits.sound hrepr).visit_eq_error hrepr (hfails _ he)).1 rfl n hn
    exact hweight.trans_le (hvisits.weight_le hrepr hn)
  exact
    { visits := by
        intro k w hvisits
        obtain ⟨hk, hlimit⟩ := hvisits.le_bound hrepr
        omega
      ends := ⟨k, w, hvisits, hend⟩
      exceeds := hexceeds
      encoding := by
        intro he frames encoded hfailure hencoded
        -- the encoder has room for its own containers and for those of the walk
        have htext := iterencode_spell (n := max frames maxNestingDepth)
          (le_max_left _ _) [] root [] hfailure
        rw [length_of_encodeUtf8 hencoded, htext]
        exact hexceeds he _ (le_max_right _ _)
      circular := fun he =>
        ((hvisits.sound hrepr).visit_eq_error hrepr (hfails _ he)).2.1 rfl
      nesting := fun he =>
        ((hvisits.sound hrepr).visit_eq_error hrepr (hfails _ he)).2.2 rfl
      accepted := fun hok _ _ hpath => (preflight_fits hok).path_ref hpath
      active := fun hmoment => hmoment.onPath hrepr }

/-- The sample heap, where a dict is shared, and a limit of ten bytes. -/
theorem preflight_sound_sharedDict :
    (∀ x, sampleFloats.isFinite x = true → sampleFloats.repr x ≠ []) ∧
      PreflightSound sampleFloats sampleHeap (.ref 0) 3 10 := by
  have hrepr : ∀ x, sampleFloats.isFinite x = true → sampleFloats.repr x ≠ [] := by
    decide
  exact ⟨hrepr, preflight_sound hrepr sampleHeap (.ref 0) 3 10⟩

end Serde
end Bluetape
