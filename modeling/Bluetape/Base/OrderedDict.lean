import Mathlib.Data.List.Basic
import Mathlib.Data.List.Nodup
import Mathlib.Tactic

/-!
# Ordered dictionaries

A finite map that remembers an order of its keys, as an ordered dictionary
with recency operations does: an assignment may move its key to the end, and
the first item can be popped.  Mathlib's `AList` has the map operations but
promises nothing about the order, which decides evictions.

Keys occur once, by construction.
-/

namespace Bluetape
namespace Base

universe u v w

/-- Items in order, with distinct keys. -/
@[ext]
structure OrderedDict (κ : Type u) (ν : Type v) where
  items : List (κ × ν)
  nodup : (items.map Prod.fst).Nodup

namespace OrderedDict

variable {κ : Type u} {ν : Type v} {μ : Type w}

/-- The number of keys. -/
def size (d : OrderedDict κ ν) : Nat :=
  d.items.length

/-- No keys. -/
def empty : OrderedDict κ ν where
  items := []
  nodup := List.nodup_nil

/-- Keep the items that satisfy `p`. -/
def filter (p : κ × ν → Bool) (d : OrderedDict κ ν) : OrderedDict κ ν where
  items := d.items.filter p
  nodup := d.nodup.sublist (List.filter_sublist.map Prod.fst)

/-- Drop the first `n` items. -/
def drop (n : Nat) (d : OrderedDict κ ν) : OrderedDict κ ν where
  items := d.items.drop n
  nodup := d.nodup.sublist ((List.drop_sublist n d.items).map Prod.fst)

/-- Change every value and keep keys and order. -/
def mapValues (f : ν → μ) (d : OrderedDict κ ν) : OrderedDict κ μ where
  items := d.items.map (fun x => (x.1, f x.2))
  nodup := by
    have h := d.nodup
    simpa [List.map_map, Function.comp_def] using h

variable [DecidableEq κ]

/-- The value of a key. -/
def lookup (k : κ) (d : OrderedDict κ ν) : Option ν :=
  (d.items.find? (fun x => x.1 = k)).map Prod.snd

/-- Remove a key. -/
def erase (k : κ) (d : OrderedDict κ ν) : OrderedDict κ ν :=
  d.filter (fun x => x.1 ≠ k)

/-- Assign a key and move it to the end. -/
def setLast (k : κ) (v : ν) (d : OrderedDict κ ν) : OrderedDict κ ν where
  items := (d.erase k).items ++ [(k, v)]
  nodup := by
    have h := (d.erase k).nodup
    rw [List.map_append, List.nodup_append]
    refine ⟨h, by simp, ?_⟩
    rintro a ha b hb rfl
    simp only [List.map_cons, List.map_nil, List.mem_singleton] at hb
    obtain ⟨x, hx, rfl⟩ := List.mem_map.mp ha
    simp [erase, filter, hb] at hx

/-- Assign a key: a new key goes to the end, and an old one stays in its place. -/
def assign (k : κ) (v : ν) (d : OrderedDict κ ν) : OrderedDict κ ν where
  items :=
    if k ∈ d.items.map Prod.fst then d.items.map fun x => if x.1 = k then (k, v) else x
    else d.items ++ [(k, v)]
  nodup := by
    have h := d.nodup
    split
    · have hkeys : (d.items.map fun x => if x.1 = k then (k, v) else x).map Prod.fst =
          d.items.map Prod.fst := by
        rw [List.map_map]
        refine List.map_congr_left fun x _ => ?_
        by_cases hx : x.1 = k
        · simp [hx]
        · simp [hx]
      rw [hkeys]
      exact h
    · rw [List.map_append, List.nodup_append]
      refine ⟨h, by simp, ?_⟩
      rintro a ha b hb rfl
      simp only [List.map_cons, List.map_nil, List.mem_singleton] at hb
      exact absurd (hb ▸ ha) ‹k ∉ d.items.map Prod.fst›

/-! ## Lookup -/

@[simp] theorem lookup_empty
    (k : κ) :
    (empty : OrderedDict κ ν).lookup k = none := by
  rfl

omit [DecidableEq κ] in
/-- A key has one value. -/
theorem eq_of_mem
    {d : OrderedDict κ ν} {k : κ} {v v' : ν}
    (h : (k, v) ∈ d.items)
    (h' : (k, v') ∈ d.items) :
    v = v' := by
  have hinj := List.inj_on_of_nodup_map d.nodup h h' rfl
  simpa using hinj

theorem lookup_eq_some
    {d : OrderedDict κ ν} {k : κ} {v : ν} :
    d.lookup k = some v ↔ (k, v) ∈ d.items := by
  constructor
  · intro h
    obtain ⟨⟨k', v'⟩, hfind, rfl⟩ := Option.map_eq_some_iff.mp h
    have hk : k' = k := by
      simpa using List.find?_some hfind
    subst hk
    exact List.mem_of_find?_eq_some hfind
  · intro h
    unfold lookup
    cases hfind : d.items.find? (fun x => x.1 = k) with
    | none =>
        have hnone := List.find?_eq_none.mp hfind (k, v) h
        simp at hnone
    | some x =>
        obtain ⟨k', v'⟩ := x
        have hk : k' = k := by
          simpa using List.find?_some hfind
        subst hk
        rw [Option.map_some, eq_of_mem (List.mem_of_find?_eq_some hfind) h]

theorem lookup_eq_none
    {d : OrderedDict κ ν} {k : κ} :
    d.lookup k = none ↔ ∀ v, (k, v) ∉ d.items := by
  rw [← not_iff_not, not_forall, ← Ne, Option.ne_none_iff_exists']
  simp only [lookup_eq_some, not_not]

@[simp] theorem lookup_mapValues
    (f : ν → μ) (d : OrderedDict κ ν) (k : κ) :
    (d.mapValues f).lookup k = (d.lookup k).map f := by
  simp [lookup, mapValues, List.find?_map, Function.comp_def]

@[simp] theorem lookup_erase
    (d : OrderedDict κ ν) (k k' : κ) :
    (d.erase k).lookup k' = if k' = k then none else d.lookup k' := by
  split
  · subst k'
    rw [lookup_eq_none]
    simp [erase, filter]
  · refine Option.ext fun v => ?_
    rw [lookup_eq_some, lookup_eq_some]
    simpa [erase, filter] using fun _ => ‹¬ k' = k›

@[simp] theorem lookup_setLast
    (d : OrderedDict κ ν) (k k' : κ) (v : ν) :
    (d.setLast k v).lookup k' = if k' = k then some v else d.lookup k' := by
  refine Option.ext fun v' => ?_
  rw [lookup_eq_some]
  by_cases hk : k' = k
  · subst hk
    simp [setLast, erase, filter, eq_comm]
  · simp [setLast, erase, filter, hk, lookup_eq_some]

@[simp] theorem lookup_assign
    (d : OrderedDict κ ν) (k k' : κ) (v : ν) :
    (d.assign k v).lookup k' = if k' = k then some v else d.lookup k' := by
  refine Option.ext fun v' => ?_
  rw [lookup_eq_some]
  by_cases hmem : k ∈ d.items.map Prod.fst
  · obtain ⟨⟨k₀, v₀⟩, hx, rfl⟩ := List.mem_map.mp hmem
    simp only [assign, hmem, if_true, List.mem_map]
    by_cases hk : k' = k₀
    · subst hk
      simp only [if_true, Option.some.injEq]
      constructor
      · rintro ⟨⟨k, v''⟩, -, hitem⟩
        split at hitem
        case isTrue =>
          exact (Prod.mk.inj hitem).2
        case isFalse hne =>
          exact absurd (Prod.mk.inj hitem).1 hne
      · rintro rfl
        exact ⟨(k', v₀), hx, by simp⟩
    · rw [if_neg hk, lookup_eq_some]
      constructor
      · rintro ⟨⟨k, v''⟩, hitem, heq⟩
        split at heq
        case isTrue =>
          exact absurd (Prod.mk.inj heq).1.symm hk
        case isFalse =>
          exact heq ▸ hitem
      · intro hitem
        exact ⟨(k', v'), hitem, by simp [hk]⟩
  · simp only [assign, hmem, if_false, List.mem_append, List.mem_singleton, Prod.mk.injEq]
    by_cases hk : k' = k
    · subst hk
      have hnone : ∀ v, (k', v) ∉ d.items :=
        fun v hv => hmem (List.mem_map_of_mem (f := Prod.fst) hv)
      simp [hnone, eq_comm]
    · simp [hk, lookup_eq_some]

/-! ## Changing values commutes with the operations -/

omit [DecidableEq κ] in
@[simp] theorem size_mapValues
    (f : ν → μ) (d : OrderedDict κ ν) :
    (d.mapValues f).size = d.size := by
  simp [size, mapValues]

omit [DecidableEq κ] in
theorem filter_mapValues
    (f : ν → μ) (p : κ × μ → Bool) (d : OrderedDict κ ν) :
    (d.mapValues f).filter p =
      (d.filter (fun x => p (x.1, f x.2))).mapValues f := by
  ext1
  simp [filter, mapValues, List.filter_map, Function.comp_def]

omit [DecidableEq κ] in
theorem drop_mapValues
    (f : ν → μ) (n : Nat) (d : OrderedDict κ ν) :
    (d.mapValues f).drop n = (d.drop n).mapValues f := by
  ext1
  simp [drop, mapValues, List.map_drop]

theorem erase_mapValues
    (f : ν → μ) (k : κ) (d : OrderedDict κ ν) :
    (d.mapValues f).erase k = (d.erase k).mapValues f :=
  filter_mapValues f _ d

theorem setLast_mapValues
    (f : ν → μ) (k : κ) (v : ν) (d : OrderedDict κ ν) :
    (d.mapValues f).setLast k (f v) = (d.setLast k v).mapValues f := by
  ext1
  have h := congrArg OrderedDict.items (erase_mapValues f k d)
  simp only [setLast, h]
  simp [mapValues]

/-! ## Size and filters -/

omit [DecidableEq κ] in
theorem filter_eq_self
    {d : OrderedDict κ ν} {p : κ × ν → Bool}
    (h : ∀ x ∈ d.items, p x = true) :
    d.filter p = d := by
  ext1
  exact List.filter_eq_self.mpr h

/-- A key that a filter removes may be removed first. -/
theorem filter_erase
    {d : OrderedDict κ ν} {k : κ} {v : ν} {p : κ × ν → Bool}
    (hmem : d.lookup k = some v)
    (hp : p (k, v) = false) :
    (d.erase k).filter p = d.filter p := by
  ext1
  simp only [erase, filter, List.filter_filter]
  refine List.filter_congr fun x hx => ?_
  by_cases hk : x.1 = k
  · obtain ⟨k', v'⟩ := x
    obtain rfl : k' = k := hk
    have hv : v' = v := eq_of_mem hx (lookup_eq_some.mp hmem)
    simp [hv, hp]
  · simp [hk]

theorem size_erase
    {d : OrderedDict κ ν} {k : κ} {v : ν}
    (hmem : d.lookup k = some v) :
    (d.erase k).size + 1 = d.size := by
  have hitem := lookup_eq_some.mp hmem
  obtain ⟨l₁, l₂, hl⟩ := List.append_of_mem hitem
  have hnodup := d.nodup
  rw [hl] at hnodup
  simp only [List.map_append, List.map_cons, List.nodup_append, List.nodup_cons,
    List.mem_map, List.mem_cons, ne_eq] at hnodup
  obtain ⟨-, ⟨hright, -⟩, hleft⟩ := hnodup
  have h₁ : l₁.filter (fun x => decide (x.1 ≠ k)) = l₁ := by
    refine List.filter_eq_self.mpr fun x hx => ?_
    simpa using hleft x.1 ⟨x, hx, rfl⟩ k (Or.inl rfl)
  have h₂ : l₂.filter (fun x => decide (x.1 ≠ k)) = l₂ := by
    refine List.filter_eq_self.mpr fun x hx => ?_
    simpa using fun heq => hright ⟨x, hx, heq⟩
  have hitems : (d.erase k).items = l₁ ++ l₂ := by
    simp only [erase, filter, hl, List.filter_append, List.filter_cons, h₁, h₂]
    simp
  simp only [size, hitems, hl, List.length_append, List.length_cons]
  omega

theorem erase_of_lookup_none
    {d : OrderedDict κ ν} {k : κ}
    (hnone : d.lookup k = none) :
    d.erase k = d := by
  ext1
  refine List.filter_eq_self.mpr fun x hx => decide_eq_true ?_
  rintro rfl
  exact lookup_eq_none.mp hnone x.2 hx

/-- An assignment adds a key, or takes the place of its value. -/
theorem size_setLast
    (d : OrderedDict κ ν) (k : κ) (v : ν) :
    (d.setLast k v).size = d.size + if (d.lookup k).isSome then 0 else 1 := by
  have hlast : (d.setLast k v).size = (d.erase k).size + 1 := by
    simp [size, setLast]
  rw [hlast]
  cases hlookup : d.lookup k with
  | some old =>
      exact size_erase hlookup
  | none =>
      rw [erase_of_lookup_none hlookup]
      rfl

omit [DecidableEq κ] in
theorem size_drop
    (n : Nat) (d : OrderedDict κ ν) :
    (d.drop n).size = d.size - n :=
  List.length_drop

omit [DecidableEq κ] in
theorem size_filter_le
    (p : κ × ν → Bool) (d : OrderedDict κ ν) :
    (d.filter p).size ≤ d.size :=
  List.length_filter_le p d.items

theorem mem_setLast
    {d : OrderedDict κ ν} {k : κ} {v : ν} {x : κ × ν} :
    x ∈ (d.setLast k v).items ↔ x ∈ d.items ∧ x.1 ≠ k ∨ x = (k, v) := by
  simp [setLast, erase, filter]

omit [DecidableEq κ] in
theorem mem_of_mem_drop
    {d : OrderedDict κ ν} {n : Nat} {x : κ × ν}
    (h : x ∈ (d.drop n).items) :
    x ∈ d.items :=
  List.mem_of_mem_drop h

omit [DecidableEq κ] in
theorem mem_filter
    {d : OrderedDict κ ν} {p : κ × ν → Bool} {x : κ × ν} :
    x ∈ (d.filter p).items ↔ x ∈ d.items ∧ p x = true :=
  List.mem_filter

/-- The last item survives every drop that leaves an item. -/
theorem mem_drop_setLast
    {d : OrderedDict κ ν} {k : κ} {v : ν} {n : Nat}
    (h : n < (d.setLast k v).size) :
    (k, v) ∈ ((d.setLast k v).drop n).items := by
  have hle : n ≤ (d.erase k).items.length := by
    simp only [size, setLast, List.length_append, List.length_singleton] at h
    omega
  simp [drop, setLast, List.drop_append_of_le_length hle]

end OrderedDict
end Base
end Bluetape
