import Bluetape.Base.AsciiDecimal

/-!
# Anchored Lua patterns over single-byte classes

The fragment of `string.match` with both anchors, single-byte classes, the
greedy repetitions `*` and `+`, and captures that are not nested.  A repetition
takes the longest run first and gives bytes back one by one while the rest of
the pattern fails, as the Lua matcher does.
-/

namespace Bluetape
namespace Base
namespace LuaPattern

/-- One item of a pattern. -/
inductive Item
  | single (cls : UInt8 → Bool)
  | star (cls : UInt8 → Bool)
  | plus (cls : UInt8 → Bool)
  | openCapture
  | closeCapture

/-- The class of one literal byte. -/
def literal (c : Char) : Item :=
  .single (· == byte c)

/-- Number of leading bytes in a class. -/
def runLength (cls : UInt8 → Bool) (s : Bytes) : Nat :=
  (s.takeWhile cls).length

/-- The lengths a repetition tries, longest first. -/
def attempts (longest shortest : Nat) : List Nat :=
  ((List.range (longest + 1)).filter (fun k => shortest ≤ k)).reverse

/--
Match items against the whole of a subject.  `start` is the subject at the
open capture, `caps` the captures closed so far, last first.
-/
def matchItems : List Item → Bytes → Bytes → List Bytes → Option (List Bytes)
  | [], s, _, caps => if s = [] then some caps.reverse else none
  | .single cls :: ps, s, start, caps =>
      match s with
      | [] => none
      | b :: rest => if cls b then matchItems ps rest start caps else none
  | .star cls :: ps, s, start, caps =>
      (attempts (runLength cls s) 0).findSome?
        (fun k => matchItems ps (s.drop k) start caps)
  | .plus cls :: ps, s, start, caps =>
      (attempts (runLength cls s) 1).findSome?
        (fun k => matchItems ps (s.drop k) start caps)
  | .openCapture :: ps, s, _, caps => matchItems ps s s caps
  | .closeCapture :: ps, s, start, caps =>
      matchItems ps s [] (start.take (start.length - s.length) :: caps)

/-- `string.match` with both anchors: the captures of a match of the subject. -/
def matchAnchored (pattern : List Item) (s : Bytes) : Option (List Bytes) :=
  matchItems pattern s s []

theorem attempts_eq_cons
    {longest shortest : Nat}
    (h : shortest ≤ longest) :
    ∃ rest, attempts longest shortest = longest :: rest ∧
      ∀ k ∈ rest, k < longest := by
  refine ⟨((List.range longest).filter (fun k => shortest ≤ k)).reverse, ?_, ?_⟩
  · simp [attempts, List.range_succ, List.filter_append, h]
  · intro k hk
    simp only [List.mem_reverse, List.mem_filter, List.mem_range] at hk
    exact hk.1

/-- When no shorter run lets the rest match, only the longest run counts. -/
theorem findSome_attempts
    {β : Type} {longest shortest : Nat} {f : Nat → Option β}
    (h : shortest ≤ longest)
    (hshort : ∀ k, k < longest → f k = none) :
    (attempts longest shortest).findSome? f = f longest := by
  obtain ⟨rest, hrest, hlt⟩ := attempts_eq_cons h
  have hnone : rest.findSome? f = none := by
    rw [List.findSome?_eq_none_iff]
    intro k hk
    exact hshort k (hlt k hk)
  rw [hrest, List.findSome?_cons, hnone]
  cases f longest <;> rfl

/-- The bytes of the longest run are in the class. -/
theorem drop_of_lt_runLength
    {cls : UInt8 → Bool} {s : Bytes} {k : Nat}
    (h : k < runLength cls s) :
    ∃ b rest, s.drop k = b :: rest ∧ cls b = true := by
  induction s generalizing k with
  | nil =>
      simp [runLength] at h
  | cons b s ih =>
      unfold runLength at h
      rw [List.takeWhile_cons] at h
      split at h
      case isTrue hb =>
          cases k with
          | zero =>
              exact ⟨b, s, rfl, hb⟩
          | succ k =>
              exact ih (by simpa [runLength] using h)
      case isFalse =>
          simp at h

/-- A repetition of a class cannot stop early before a byte outside it. -/
theorem matchItems_single_eq_none_of_run
    (cls : UInt8 → Bool) {next : UInt8 → Bool} {ps : List Item} {s start : Bytes}
    {caps : List Bytes} {k : Nat}
    (hdisj : ∀ b, cls b = true → next b = false)
    (h : k < runLength cls s) :
    matchItems (.single next :: ps) (s.drop k) start caps = none := by
  obtain ⟨b, rest, hdrop, hb⟩ := drop_of_lt_runLength h
  rw [hdrop]
  simp [matchItems, hdisj b hb]

theorem runLength_le
    (cls : UInt8 → Bool) (s : Bytes) :
    runLength cls s ≤ s.length :=
  (List.takeWhile_prefix cls).length_le

theorem runLength_append_of_all
    {cls : UInt8 → Bool} {s t : Bytes}
    (hs : s.all cls = true) :
    runLength cls (s ++ t) = s.length + runLength cls t := by
  induction s with
  | nil =>
      simp
  | cons b s ih =>
      simp only [List.all_cons, Bool.and_eq_true] at hs
      have h := ih hs.2
      unfold runLength at h ⊢
      simp only [List.cons_append, List.takeWhile_cons, hs.1, if_true,
        List.length_cons, h]
      omega

theorem runLength_cons_of_false
    {cls : UInt8 → Bool} {b : UInt8} {s : Bytes}
    (hb : cls b = false) :
    runLength cls (b :: s) = 0 := by
  simp [runLength, hb]

theorem runLength_of_all
    {cls : UInt8 → Bool} {s : Bytes}
    (hs : s.all cls = true) :
    runLength cls s = s.length := by
  have h := runLength_append_of_all (t := []) hs
  simpa [runLength] using h

/-- A class is exhausted exactly when all bytes are in it. -/
theorem all_of_drop_runLength_eq_nil
    {cls : UInt8 → Bool} {s : Bytes}
    (h : s.drop (runLength cls s) = []) :
    s.all cls = true := by
  have htake : s.takeWhile cls = s := by
    rw [List.drop_eq_nil_iff] at h
    have hpre := List.takeWhile_prefix (p := cls) (l := s)
    exact hpre.eq_of_length_le h
  rw [← htake]
  exact List.all_takeWhile

/-! ## What a match says about its subject -/

theorem mem_attempts
    {longest shortest k : Nat}
    (h : k ∈ attempts longest shortest) :
    shortest ≤ k ∧ k ≤ longest := by
  simp only [attempts, List.mem_reverse, List.mem_filter, List.mem_range,
    decide_eq_true_eq] at h
  omega

/-- A prefix no longer than the run is in the class. -/
theorem all_take_of_le_runLength
    {cls : UInt8 → Bool} {s : Bytes} {k : Nat}
    (h : k ≤ runLength cls s) :
    (s.take k).all cls = true := by
  have hinit : s.take k <+: s.takeWhile cls :=
    List.prefix_of_prefix_length_le (List.take_prefix k s) (List.takeWhile_prefix cls)
      (by
        rw [List.length_take]
        exact (min_le_left _ _).trans h)
  rw [List.all_eq_true]
  intro b hb
  exact List.all_eq_true.mp List.all_takeWhile b (hinit.subset hb)

theorem matchItems_single_some
    {cls : UInt8 → Bool} {ps : List Item} {s start : Bytes} {caps out : List Bytes}
    (h : matchItems (.single cls :: ps) s start caps = some out) :
    ∃ b rest, s = b :: rest ∧ cls b = true ∧ matchItems ps rest start caps = some out := by
  cases s with
  | nil =>
      cases h
  | cons b rest =>
      simp only [matchItems] at h
      split at h
      case isTrue hb =>
          exact ⟨b, rest, rfl, hb, h⟩
      case isFalse =>
          cases h

/-- A repetition, of either kind, has taken bytes of its class. -/
theorem exists_of_attempts
    {cls : UInt8 → Bool} {ps : List Item} {s start : Bytes} {caps out : List Bytes}
    {shortest : Nat}
    (h : (attempts (runLength cls s) shortest).findSome?
      (fun k => matchItems ps (s.drop k) start caps) = some out) :
    ∃ taken rest, s = taken ++ rest ∧ shortest ≤ taken.length ∧ taken.all cls = true ∧
      matchItems ps rest start caps = some out := by
  obtain ⟨k, hk, hmatch⟩ := List.exists_of_findSome?_eq_some h
  obtain ⟨hshortest, hlongest⟩ := mem_attempts hk
  have hlength : k ≤ s.length := hlongest.trans (runLength_le cls s)
  refine ⟨s.take k, s.drop k, (List.take_append_drop k s).symm, ?_,
    all_take_of_le_runLength hlongest, hmatch⟩
  rw [List.length_take]
  omega

/-! ## `string.sub` -/

/-- A position of a string; negative ones count from the end. -/
def relative (position : Int) (size : Nat) : Int :=
  max 0 (if position < 0 then position + (size + 1) else position)

/-- `string.sub`: positions count from one and both ends are included. -/
def sub (s : Bytes) (first last : Int) : Bytes :=
  let start := max 1 (relative first s.length)
  let stop := min (s.length : Int) (relative last s.length)
  if start ≤ stop then (s.drop (start - 1).toNat).take (stop - start + 1).toNat else []

/-- The substring from the first position is a prefix. -/
theorem sub_one
    (s : Bytes) (n : Nat) :
    sub s 1 n = s.take n := by
  have hlast : ¬ (n : Int) < 0 := by
    omega
  have hstop : min (s.length : Int) (max 0 (n : Int)) = ((min s.length n : Nat) : Int) := by
    omega
  have hsize : (((min s.length n : Nat) : Int) - 1 + 1).toNat = min s.length n := by
    omega
  have hone : max (1 : Int) (max 0 1) = 1 := by
    decide
  simp only [sub, relative, hlast, if_false, hstop, hone, Int.reduceLT, hsize, Int.sub_self,
    Int.toNat_zero, List.drop_zero]
  split
  · rw [List.take_eq_take_iff]
    omega
  · rename_i hempty
    have hzero : min s.length n = 0 := by
      omega
    rw [eq_comm, List.take_eq_nil_iff]
    rcases Nat.min_eq_zero_iff.mp hzero with hs | hn
    · exact Or.inr (List.length_eq_zero_iff.mp hs)
    · exact Or.inl hn

end LuaPattern
end Base
end Bluetape
