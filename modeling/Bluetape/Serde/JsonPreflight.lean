import Bluetape.Serde.Json

/-!
# What the preflight accepts

A value that the preflight walk accepts obeys the rules of the writer throughout:
`preflight_fits`.  The walk keeps the containers around the current value on a
stack, so that the height of the stack is the depth of the value, and every frame
holds the values of its container that are still to be visited.
-/

namespace Bluetape
namespace Serde

open Base Base.Json

/-- A text without surrogates. -/
def IsScalarText (t : Text) : Prop :=
  ∀ p ∈ t, ¬(0xD800 ≤ p.ord ∧ p.ord ≤ 0xDFFF)

section Preflight

variable {F : Type}

/-- What an iterator has left to yield satisfies a property, and the keys are texts. -/
def TraversalIterator.All (P : PyValue F → Prop) : TraversalIterator F → Prop
  | listValues items => ∀ item ∈ items, P item
  | dictValues entries =>
      ∀ entry ∈ entries, (∃ key, entry.1 = .str key ∧ IsScalarText key) ∧ P entry.2

/-- The value obeys the rules of the writer and nests at most so many containers. -/
def Fits (floats : Floats F) (h : Heap F) : Nat → PyValue F → Prop
  | _, .none => True
  | _, .bool _ => True
  | _, .int n => n.natAbs < 10 ^ maxJsonIntegerDigits
  | _, .float x => floats.isFinite x = true
  | _, .str t => IsScalarText t
  | 0, .ref _ => False
  | n + 1, .ref id => (h id).iterator.All (Fits floats h n)
  | _, .other => False

theorem isScalarText_of_validate
    {t : Text} {bound : Nat}
    (h : validateUnicodeScalarString t = .ok bound) :
    IsScalarText t := by
  have hfold : ∀ (t : Text) (start bound : Nat),
      t.foldlM (fun bound character => do return bound + (← encodedLowerBound character)) start =
        Except.ok (ε := SerdeError) bound → IsScalarText t := by
    intro t
    induction t with
    | nil =>
        intro start bound _ p hp
        cases hp
    | cons p t ih =>
        intro start bound h
        simp only [List.foldlM_cons, except_bind_eq_ok] at h
        obtain ⟨next, ⟨lower, hlower, -⟩, h⟩ := h
        intro q hq
        rcases List.mem_cons.mp hq with rfl | hq
        · unfold encodedLowerBound at hlower
          split at hlower
          case isTrue =>
            cases hlower
          case isFalse hscalar =>
            exact hscalar
        · exact ih next bound h q hq
  exact hfold t 2 bound h

/-! ## Frames -/

/-- An iterator that is exhausted has nothing left to yield. -/
theorem TraversalIterator.all_of_next_none
    {it : TraversalIterator F} {P : PyValue F → Prop}
    (h : it.next = .ok none) :
    it.All P := by
  unfold next at h
  split at h
  · simp [All]
  · cases h
  · simp [All]
  · cases h
  · simp only [except_bind_eq_ok] at h
    obtain ⟨lower, -, h⟩ := h
    cases h

/-- What an iterator yields comes before what it has left. -/
theorem TraversalIterator.all_of_next_some
    {it rest : TraversalIterator F} {item : PyValue F} {lower : Nat} {P : PyValue F → Prop}
    (h : it.next = .ok (some ((item, lower), rest)))
    (hitem : P item) (hrest : rest.All P) :
    it.All P := by
  unfold next at h
  split at h
  · cases h
  · cases h
    simpa [All] using And.intro hitem hrest
  · cases h
  · cases h
  · simp only [except_bind_eq_ok] at h
    obtain ⟨keyLower, hkey, h⟩ := h
    cases h
    have hscalar := isScalarText_of_validate hkey
    intro entry hentry
    rcases List.mem_cons.mp hentry with rfl | hentry
    · exact ⟨⟨_, rfl, hscalar⟩, hitem⟩
    · exact hrest entry hentry

variable {floats : Floats F} {h : Heap F} {maxNestingDepth maxOutputSize : Nat}

/-- What the frames have left to visit fits; a frame is as deep as the frames below it. -/
def StackFits (floats : Floats F) (h : Heap F) (maxNestingDepth : Nat) :
    List (TraversalFrame F) → Prop
  | [] => True
  | frame :: stack =>
      frame.iterator.All (Fits floats h (maxNestingDepth - (stack.length + 1))) ∧
        StackFits floats h maxNestingDepth stack

/-- The state fits when its value does and what its frames have left. -/
def Walk.Fits (floats : Floats F) (h : Heap F) (maxNestingDepth : Nat) (w : Walk F) : Prop :=
  Serde.Fits floats h (maxNestingDepth - w.stack.length) w.current ∧
    StackFits floats h maxNestingDepth w.stack

theorem stackFits_of_advance_none
    {stack : List (TraversalFrame F)} {active : Finset Nat}
    (hadvance : advance stack active = .ok none) :
    StackFits floats h maxNestingDepth stack := by
  induction stack generalizing active with
  | nil =>
      trivial
  | cons frame stack ih =>
      simp only [advance, except_bind_eq_ok] at hadvance
      obtain ⟨next, hnext, hadvance⟩ := hadvance
      cases next with
      | none =>
          exact ⟨TraversalIterator.all_of_next_none hnext, ih hadvance⟩
      | some next =>
          cases hadvance

theorem stackFits_of_advance_some
    {stack stack' : List (TraversalFrame F)} {active active' : Finset Nat}
    {item : PyValue F} {lower : Nat}
    (hadvance : advance stack active = .ok (some ((item, lower), stack', active')))
    (hitem : Fits floats h (maxNestingDepth - stack'.length) item)
    (hstack : StackFits floats h maxNestingDepth stack') :
    StackFits floats h maxNestingDepth stack := by
  induction stack generalizing active with
  | nil =>
      cases hadvance
  | cons frame stack ih =>
      simp only [advance, except_bind_eq_ok] at hadvance
      obtain ⟨next, hnext, hadvance⟩ := hadvance
      cases next with
      | none =>
          exact ⟨TraversalIterator.all_of_next_none hnext, ih hadvance⟩
      | some next =>
          obtain ⟨⟨item', lower'⟩, rest⟩ := next
          cases hadvance
          exact ⟨TraversalIterator.all_of_next_some hnext hitem hstack.1, hstack.2⟩

/-! ## Visits -/

/-- The value of a visit that is no container fits, and one that is has room for its own. -/
theorem Walk.fits_of_check
    {w : Walk F} {lower : Nat} {containerId : Option Nat}
    (hcheck : w.check floats maxNestingDepth = .ok (lower, containerId)) :
    (containerId = none ∧ ∀ n, Serde.Fits floats h n w.current) ∨
      ∃ id, containerId = some id ∧ w.current = .ref id ∧
        w.stack.length + 1 ≤ maxNestingDepth := by
  unfold check at hcheck
  split at hcheck
  case h_1 hcurrent =>
    cases hcheck
    refine Or.inl ⟨rfl, fun n => ?_⟩
    rw [hcurrent]
    cases n <;> trivial
  case h_2 hcurrent =>
    cases hcheck
    refine Or.inl ⟨rfl, fun n => ?_⟩
    rw [hcurrent]
    cases n <;> trivial
  case h_3 i hcurrent =>
    simp only [except_bind_eq_ok, raiseIf_eq_ok] at hcheck
    obtain ⟨-, hbound, hcheck⟩ := hcheck
    cases hcheck
    have hlt : i.natAbs < 10 ^ maxJsonIntegerDigits := by
      have hcast : ((10 ^ maxJsonIntegerDigits : Nat) : Int) = 10 ^ maxJsonIntegerDigits := by
        push_cast
        rfl
      rw [← hcast] at hbound
      omega
    refine Or.inl ⟨rfl, fun n => ?_⟩
    rw [hcurrent]
    cases n <;> exact hlt
  case h_4 t hcurrent =>
    simp only [except_bind_eq_ok] at hcheck
    obtain ⟨bound, hscalar, hcheck⟩ := hcheck
    cases hcheck
    refine Or.inl ⟨rfl, fun n => ?_⟩
    rw [hcurrent]
    cases n <;> exact isScalarText_of_validate hscalar
  case h_5 x hcurrent =>
    simp only [except_bind_eq_ok, raiseIf_eq_ok, not_not] at hcheck
    obtain ⟨-, hfinite, hcheck⟩ := hcheck
    cases hcheck
    refine Or.inl ⟨rfl, fun n => ?_⟩
    rw [hcurrent]
    cases n <;> exact hfinite
  case h_6 id hcurrent =>
    simp only [except_bind_eq_ok, raiseIf_eq_ok, not_lt] at hcheck
    obtain ⟨-, hdepth, -, -, hcheck⟩ := hcheck
    cases hcheck
    exact Or.inr ⟨id, rfl, hcurrent, hdepth⟩
  case h_7 =>
    cases hcheck

/-- **A visit accepts nothing that does not fit.** -/
theorem Walk.fits_of_visit
    {w : Walk F} {next : Option (Walk F)}
    (hvisit : w.visit floats h maxNestingDepth maxOutputSize = .ok next)
    (hnext : ∀ w' ∈ next, w'.Fits floats h maxNestingDepth) :
    w.Fits floats h maxNestingDepth := by
  simp only [visit, except_bind_eq_ok, Prod.exists] at hvisit
  obtain ⟨lower, containerId, hcheck, -, -, after, hadvance, hvisit⟩ := hvisit
  have hstack : ∀ stack active, advance stack active = .ok after →
      StackFits floats h maxNestingDepth stack := by
    intro stack active hadvance
    cases after with
    | none =>
        exact stackFits_of_advance_none hadvance
    | some after =>
        obtain ⟨⟨item, lower⟩, stack', active'⟩ := after
        cases hvisit
        obtain ⟨hitem, hstack'⟩ := hnext _ rfl
        exact stackFits_of_advance_some hadvance hitem hstack'
  rcases fits_of_check (h := h) hcheck with ⟨rfl, hfits⟩ | ⟨id, rfl, hcurrent, hdepth⟩
  · exact ⟨hfits _, hstack _ _ hadvance⟩
  · obtain ⟨hitems, hbelow⟩ := hstack _ _ hadvance
    refine ⟨?_, hbelow⟩
    have hroom : maxNestingDepth - w.stack.length =
        maxNestingDepth - (w.stack.length + 1) + 1 := by
      omega
    rw [hcurrent, hroom]
    exact hitems

theorem Walk.fits_of_run
    {fuel : Nat} {w : Walk F}
    (hrun : w.run floats h maxNestingDepth maxOutputSize fuel = .ok ()) :
    w.Fits floats h maxNestingDepth := by
  induction fuel generalizing w with
  | zero =>
      cases hrun
  | succ fuel ih =>
      simp only [run, except_bind_eq_ok] at hrun
      obtain ⟨next, hvisit, hrun⟩ := hrun
      refine fits_of_visit hvisit ?_
      rintro w' hw'
      cases hw'
      exact ih hrun

/-- **The preflight accepts only values that obey the rules of the writer.** -/
theorem preflight_fits
    {value : PyValue F}
    (hpreflight : preflightJsonValue floats h value maxNestingDepth maxOutputSize = .ok ()) :
    Fits floats h maxNestingDepth value :=
  (Walk.fits_of_run hpreflight).1

end Preflight

end Serde
end Bluetape
