import Mathlib.Data.List.Nodup
import Mathlib.Data.List.Count
import Mathlib.Tactic

/-!
# Ledgers of grants and returns

A ledger records what was granted to whom, and who has given a grant back.
Both lists only grow, so that a grant returned twice, or returned by somebody
who never held it, stays visible.

* `Balanced`: nobody was granted or returned anything twice, and nobody
  returned what he was not granted;
* `outstanding_grant`, `countP_outstanding_settle`: how the grants that are
  still out change.
-/

namespace Bluetape
namespace Base

universe u v

/-- What was granted, latest first, and who has returned it. -/
structure Ledger (ι : Type u) (α : Type v) where
  granted : List (ι × α)
  settled : List ι

namespace Ledger

variable {ι : Type u} {α : Type v}

/-- Nothing was granted yet. -/
def empty : Ledger ι α :=
  ⟨[], []⟩

/-- Everybody who was ever granted anything. -/
def names (l : Ledger ι α) : List ι :=
  l.granted.map Prod.fst

/-- One more grant. -/
def grant (l : Ledger ι α) (i : ι) (a : α) : Ledger ι α :=
  { l with granted := (i, a) :: l.granted }

/-- One more return. -/
def settle (l : Ledger ι α) (i : ι) : Ledger ι α :=
  { l with settled := i :: l.settled }

@[simp] theorem settled_grant
    (l : Ledger ι α) (i : ι) (a : α) :
    (l.grant i a).settled = l.settled := by
  rfl

@[simp] theorem settled_settle
    (l : Ledger ι α) (i : ι) :
    (l.settle i).settled = i :: l.settled := by
  rfl

/-- Grants and returns match. -/
structure Balanced (l : Ledger ι α) : Prop where
  granted : l.names.Nodup
  settled : l.settled.Nodup
  returned : ∀ i ∈ l.settled, i ∈ l.names

theorem balanced_empty :
    (empty : Ledger ι α).Balanced :=
  ⟨List.nodup_nil, List.nodup_nil, fun _ hi => hi⟩

variable [DecidableEq ι]

/-- The grants that have not been returned. -/
def outstanding (l : Ledger ι α) : List (ι × α) :=
  l.granted.filter fun e => !decide (e.1 ∈ l.settled)

theorem mem_outstanding
    {l : Ledger ι α} {i : ι} {a : α} :
    (i, a) ∈ l.outstanding ↔ (i, a) ∈ l.granted ∧ i ∉ l.settled := by
  simp [outstanding]

section

variable {l : Ledger ι α} {i : ι} {a : α}

theorem mem_names_of_mem_outstanding
    (h : (i, a) ∈ l.outstanding) :
    i ∈ l.names :=
  List.mem_map_of_mem (f := Prod.fst) (mem_outstanding.mp h).1

theorem not_mem_settled_of_mem_outstanding
    (h : (i, a) ∈ l.outstanding) :
    i ∉ l.settled :=
  (mem_outstanding.mp h).2

theorem outstanding_grant
    (h : l.Balanced)
    (hnew : i ∉ l.names) :
    (l.grant i a).outstanding = (i, a) :: l.outstanding := by
  have hopen : i ∉ l.settled := fun hsettled => hnew (h.returned i hsettled)
  exact List.filter_cons_of_pos (by simpa using hopen)

theorem countP_filter_settle
    {granted : List (ι × α)} {settled : List ι}
    (hnames : (granted.map Prod.fst).Nodup)
    (hgranted : (i, a) ∈ granted)
    (hopen : i ∉ settled)
    (p : ι × α → Bool) :
    (granted.filter fun e => !decide (e.1 ∈ settled)).countP p =
      (granted.filter fun e => !decide (e.1 ∈ i :: settled)).countP p +
        if p (i, a) then 1 else 0 := by
  induction granted with
  | nil =>
      cases hgranted
  | cons e rest ih =>
      obtain ⟨hfresh, hrest⟩ := List.nodup_cons.mp hnames
      rcases List.mem_cons.mp hgranted with rfl | hmem
      · -- the other grants do not carry this name
        have hsame : rest.filter (fun e => !decide (e.1 ∈ i :: settled)) =
            rest.filter fun e => !decide (e.1 ∈ settled) := by
          refine List.filter_congr fun e he => ?_
          have hne : e.1 ≠ i := by
            intro heq
            exact hfresh (List.mem_map.mpr ⟨e, he, heq⟩)
          simp [hne]
        rw [List.filter_cons_of_pos (by simpa using hopen),
          List.filter_cons_of_neg (by simp), hsame, List.countP_cons]
      · have hne : e.1 ≠ i := by
          intro heq
          exact hfresh (List.mem_map.mpr ⟨(i, a), hmem, heq.symm⟩)
        have hstep := ih hrest hmem
        by_cases hout : e.1 ∈ settled
        · rw [List.filter_cons_of_neg (by simpa using hout),
            List.filter_cons_of_neg (by simp [hout])]
          exact hstep
        · rw [List.filter_cons_of_pos (by simpa using hout),
            List.filter_cons_of_pos (by simp [hout, hne]), List.countP_cons,
            List.countP_cons, hstep]
          omega

/-- A return takes exactly one grant out of the outstanding ones. -/
theorem countP_outstanding_settle
    (h : l.Balanced)
    (hmem : (i, a) ∈ l.outstanding)
    (p : ι × α → Bool) :
    l.outstanding.countP p =
      (l.settle i).outstanding.countP p + if p (i, a) then 1 else 0 :=
  countP_filter_settle h.granted (mem_outstanding.mp hmem).1 (mem_outstanding.mp hmem).2 p

theorem length_outstanding_settle
    (h : l.Balanced)
    (hmem : (i, a) ∈ l.outstanding) :
    l.outstanding.length = (l.settle i).outstanding.length + 1 := by
  simpa using countP_outstanding_settle h hmem fun _ => true

end

omit [DecidableEq ι] in
theorem Balanced.grant
    {l : Ledger ι α} {i : ι}
    (h : l.Balanced)
    (hnew : i ∉ l.names) (a : α) :
    (l.grant i a).Balanced where
  granted := List.nodup_cons.mpr ⟨hnew, h.granted⟩
  settled := h.settled
  returned := fun j hj => List.mem_cons_of_mem i (h.returned j hj)

theorem Balanced.settle
    {l : Ledger ι α} {i : ι} {a : α}
    (h : l.Balanced)
    (hmem : (i, a) ∈ l.outstanding) :
    (l.settle i).Balanced where
  granted := h.granted
  settled := List.nodup_cons.mpr ⟨not_mem_settled_of_mem_outstanding hmem, h.settled⟩
  returned := by
    intro j hj
    rcases List.mem_cons.mp hj with hj | hj
    · rw [hj]
      exact mem_names_of_mem_outstanding (l := l) hmem
    · exact h.returned j hj

theorem mem_outstanding_grant_self
    {l : Ledger ι α} {i : ι} {a : α}
    (h : l.Balanced)
    (hnew : i ∉ l.names) :
    (i, a) ∈ (l.grant i a).outstanding := by
  rw [outstanding_grant h hnew]
  exact List.mem_cons_self

/-! ## Where one participant stands -/

/-- Nothing that concerns one participant differs between two ledgers. -/
structure SameFor (i : ι) (l l' : Ledger ι α) : Prop where
  granted : ∀ a, (i, a) ∈ l'.granted ↔ (i, a) ∈ l.granted
  settled : i ∈ l'.settled ↔ i ∈ l.settled

omit [DecidableEq ι] in
theorem SameFor.refl
    (i : ι) (l : Ledger ι α) :
    SameFor i l l :=
  ⟨fun _ => Iff.rfl, Iff.rfl⟩

omit [DecidableEq ι] in
theorem SameFor.grant
    {i j : ι}
    (hne : i ≠ j) (l : Ledger ι α) (a : α) :
    SameFor i l (l.grant j a) where
  granted := by
    intro a'
    simp [Ledger.grant, hne]
  settled := Iff.rfl

omit [DecidableEq ι] in
theorem SameFor.settle
    {i j : ι}
    (hne : i ≠ j) (l : Ledger ι α) :
    SameFor i l (l.settle j) where
  granted := fun _ => Iff.rfl
  settled := by
    simp [Ledger.settle, hne]

omit [DecidableEq ι] in
theorem SameFor.mem_names
    {i : ι} {l l' : Ledger ι α}
    (h : SameFor i l l') :
    i ∈ l'.names ↔ i ∈ l.names := by
  constructor
  · intro hmem
    obtain ⟨⟨j, a⟩, hgranted, rfl⟩ := List.mem_map.mp hmem
    exact List.mem_map_of_mem (f := Prod.fst) ((h.granted a).mp hgranted)
  · intro hmem
    obtain ⟨⟨j, a⟩, hgranted, rfl⟩ := List.mem_map.mp hmem
    exact List.mem_map_of_mem (f := Prod.fst) ((h.granted a).mpr hgranted)

theorem SameFor.mem_outstanding
    {i : ι} {l l' : Ledger ι α}
    (h : SameFor i l l') (a : α) :
    (i, a) ∈ l'.outstanding ↔ (i, a) ∈ l.outstanding := by
  rw [Ledger.mem_outstanding, Ledger.mem_outstanding, h.granted, h.settled]

end Ledger
end Base
end Bluetape
