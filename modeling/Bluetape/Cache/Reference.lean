import Bluetape.Base.Mealy
import Bluetape.Cache.Expiry

/-!
# The reference cache

A bounded map with an expiry per entry and least recently used eviction, as a
user of the cache understands it: there is no heap and there are no versions.
An entry leaves when it is overwritten, invalidated, cleared or evicted, and
when the clock reads its expiry or more.

`refines_reference_iff` compares it with `CacheState` over whole sequences of
calls.  The state agrees with the reference as long as every store is fresh;
right after a store that is not, a get between the stale expiry and the real
one tells the two apart.
-/

namespace Bluetape
namespace Cache

open Base

universe u v

/-- An operation with its clock reading. -/
inductive CacheOp (κ : Type u) (ν : Type v)
  | get (key : κ) (now : Nat)
  | store (key : κ) (value : ν) (ttlNs now : Nat)
  | invalidate (key : κ) (now : Nat)
  | clear
  | size (now : Nat)
  | stats (now inflight abandoned superseded : Nat)

/-- An operation with the keys that flights own when it runs. -/
structure CacheCall (κ : Type u) (ν : Type v) where
  op : CacheOp κ ν
  owned : Finset κ

/-- What an operation returns. -/
inductive CacheReply (ν : Type v)
  | value (found : Option ν)
  | stored
  | invalidated (present : Bool)
  | cleared
  | size (n : Nat)
  | stats (snapshot : CacheStats)
deriving DecidableEq

/-- The clock reading of an operation; `clear` takes none. -/
def CacheOp.reading {κ : Type u} {ν : Type v} : CacheOp κ ν → Option Nat
  | get _ now | store _ _ _ now | invalidate _ now | size now
  | stats now _ _ _ => some now
  | clear => none

/-- The clock never runs backwards. -/
def Nondecreasing {κ : Type u} {ν : Type v} (calls : List (CacheCall κ ν)) : Prop :=
  (calls.filterMap (fun c => c.op.reading)).Pairwise (· ≤ ·)

instance {κ : Type u} {ν : Type v} (calls : List (CacheCall κ ν)) :
    Decidable (Nondecreasing calls) :=
  inferInstanceAs (Decidable (List.Pairwise _ _))

/-- Keys and values with expiries, from least to most recently used. -/
structure ReferenceMap (κ : Type u) (ν : Type v) where
  maxSize : Nat
  entries : OrderedDict κ (ν × Nat)
  counters : Counters

namespace ReferenceMap

variable {κ : Type u} {ν : Type v}

/-- No entries. -/
def init (maxSize : Nat) : ReferenceMap κ ν :=
  ⟨maxSize, OrderedDict.empty, Counters.zero⟩

/-- Remove and count the entries whose expiry the clock has reached. -/
def purge (a : ReferenceMap κ ν) (now : Nat) : ReferenceMap κ ν :=
  let kept := a.entries.filter (fun x => decide (now < x.2.2))
  { a with
    entries := kept
    counters := a.counters.addExpirations (a.entries.size - kept.size) }

variable [DecidableEq κ]

/-- The reply of the reference, and the map after it. -/
def perform (a : ReferenceMap κ ν) (c : CacheCall κ ν) :
    CacheReply ν × ReferenceMap κ ν :=
  match c.op with
  | .get key now =>
      let a := a.purge now
      match a.entries.lookup key with
      | none =>
          (.value none,
            { a with counters := { a.counters with misses := a.counters.misses + 1 } })
      | some x =>
          (.value (some x.1),
            { a with
              entries := a.entries.setLast key x
              counters := { a.counters with hits := a.counters.hits + 1 } })
  | .store key value ttlNs now =>
      let a := a.purge now
      let entries := a.entries.setLast key (value, now + ttlNs)
      let excess := entries.size - a.maxSize
      (.stored,
        { a with
          entries := entries.drop excess
          counters := a.counters.addEvictions excess })
  | .invalidate key now =>
      let a := a.purge now
      let present := (a.entries.lookup key).isSome
      (.invalidated present,
        { a with
          entries := a.entries.erase key
          counters :=
            if present then
              { a.counters with invalidations := a.counters.invalidations + 1 }
            else a.counters })
  | .clear => (.cleared, { a with entries := OrderedDict.empty })
  | .size now =>
      let a := a.purge now
      (.size a.entries.size, a)
  | .stats now inflight abandoned superseded =>
      let a := a.purge now
      (.stats (a.counters.snapshot inflight abandoned superseded), a)

end ReferenceMap

namespace CacheState

variable {κ : Type u} {ν : Type v} [DecidableEq κ]

/-- The reply of the cache state, and the state after it. -/
def perform (s : CacheState κ ν) (c : CacheCall κ ν) :
    CacheReply ν × CacheState κ ν :=
  match c.op with
  | .get key now =>
      let (found, t) := s.get key now c.owned
      (.value found, t)
  | .store key value ttlNs now => (.stored, s.store key value ttlNs now c.owned)
  | .invalidate key now =>
      let (present, t) := s.invalidate key now c.owned
      (.invalidated present, t)
  | .clear => (.cleared, s.clear c.owned)
  | .size now =>
      let (n, t) := s.size now c.owned
      (.size n, t)
  | .stats now inflight abandoned superseded =>
      let (snapshot, t) := s.stats now c.owned inflight abandoned superseded
      (.stats snapshot, t)

/-- A call that keeps the expiry heap sound: any but a store that is not fresh. -/
def KeepsRecords (s : CacheState κ ν) (c : CacheCall κ ν) : Prop :=
  match c.op with
  | .store key _ ttlNs now => s.FreshStore key ttlNs now c.owned
  | _ => True

instance (s : CacheState κ ν) (key : κ) (ttlNs now : Nat) (owned : Finset κ) :
    Decidable (s.FreshStore key ttlNs now owned) :=
  inferInstanceAs (Decidable (_ ∨ _))

instance (s : CacheState κ ν) : ∀ c, Decidable (s.KeepsRecords c)
  | ⟨.store key _ ttlNs now, owned⟩ =>
      inferInstanceAs (Decidable (s.FreshStore key ttlNs now owned))
  | ⟨.get .., _⟩ | ⟨.invalidate .., _⟩ | ⟨.clear, _⟩ | ⟨.size .., _⟩
  | ⟨.stats .., _⟩ => isTrue trivial

/-- What an entry means to the reference. -/
def shown (entry : Entry ν) : ν × Nat :=
  (entry.value, entry.expiresAt)

/-- The reference map that a state stands for. -/
def reference (s : CacheState κ ν) : ReferenceMap κ ν :=
  ⟨s.maxSize, s.entries.mapValues shown, s.counters⟩

omit [DecidableEq κ] in
theorem reference_of_purged
    {s t : CacheState κ ν} {now : Nat}
    (h : Purged now s t) :
    t.reference = s.reference.purge now := by
  have hfilter : (s.entries.mapValues shown).filter (fun x => decide (now < x.2.2)) =
      (s.entries.filter (unexpired now)).mapValues shown :=
    OrderedDict.filter_mapValues shown _ s.entries
  simp only [reference, ReferenceMap.purge, hfilter, OrderedDict.size_mapValues,
    h.entries, h.counters, h.maxSize]

/-! ## One call -/

section OneCall

variable {s : CacheState κ ν}

theorem invalidate_spec
    (s : CacheState κ ν) (key : κ) (now : Nat) (owned : Finset κ) :
    (s.invalidate key now owned).1 =
      ((s.purgeExpired now owned).entries.lookup key).isSome ∧
    (s.invalidate key now owned).2.entries =
      (s.purgeExpired now owned).entries.erase key ∧
    (s.invalidate key now owned).2.expiryHeap =
      (s.purgeExpired now owned).expiryHeap ∧
    (s.invalidate key now owned).2.maxSize = (s.purgeExpired now owned).maxSize ∧
    (s.invalidate key now owned).2.counters =
      if ((s.purgeExpired now owned).entries.lookup key).isSome then
        { (s.purgeExpired now owned).counters with
          invalidations := (s.purgeExpired now owned).counters.invalidations + 1 }
      else (s.purgeExpired now owned).counters := by
  unfold invalidate
  by_cases hpresent : ((s.purgeExpired now owned).entries.lookup key).isSome = true
  · simp [hpresent, bumpVersion]
  · simp [hpresent, bumpVersion]

theorem get_spec
    (s : CacheState κ ν) (key : κ) (now : Nat) (owned : Finset κ) :
    (s.get key now owned).1 =
      ((s.purgeExpired now owned).entries.lookup key).map Entry.value ∧
    (s.get key now owned).2.expiryHeap = (s.purgeExpired now owned).expiryHeap ∧
    (∀ x ∈ (s.get key now owned).2.entries.items,
      x ∈ (s.purgeExpired now owned).entries.items) := by
  unfold get
  cases hlookup : (s.purgeExpired now owned).entries.lookup key with
  | none =>
      simp [hlookup]
  | some entry =>
      refine ⟨by simp [hlookup], by simp [hlookup], ?_⟩
      intro x hx
      simp only [hlookup] at hx
      rcases OrderedDict.mem_setLast.mp hx with ⟨hold, -⟩ | rfl
      · exact hold
      · exact OrderedDict.lookup_eq_some.mp hlookup

/-- The reply and the entries follow the reference while the heap is sound. -/
theorem perform_reference
    (h : Recorded s.entries s.expiryHeap) (c : CacheCall κ ν) :
    (s.perform c).1 = (s.reference.perform c).1 ∧
      (s.perform c).2.reference = (s.reference.perform c).2 := by
  obtain ⟨op, owned⟩ := c
  cases op with
  | get key now =>
      have hpurge := reference_of_purged (purgeExpired_spec now owned h)
      simp only [perform, get, ReferenceMap.perform, ← hpurge]
      cases hlookup : (s.purgeExpired now owned).entries.lookup key with
      | none =>
          simp [reference, hlookup]
      | some entry =>
          have hset := OrderedDict.setLast_mapValues shown key entry
            (s.purgeExpired now owned).entries
          simp [reference, hlookup, ← hset, shown]
  | store key value ttlNs now =>
      have hpurge := reference_of_purged (purgeExpired_spec now owned h)
      obtain ⟨hentries, hcounters, hmax, -⟩ :=
        store_spec s key value ttlNs now owned
      have hset : (s.purgeExpired now owned).reference.entries.setLast key
          (value, now + ttlNs) =
          (withNewEntry s key value ttlNs now owned).mapValues shown :=
        OrderedDict.setLast_mapValues shown key
          (newEntry s key value ttlNs now owned) (s.purgeExpired now owned).entries
      refine ⟨rfl, ?_⟩
      simp only [perform, ReferenceMap.perform, ← hpurge, hset,
        OrderedDict.size_mapValues]
      simp [reference, hentries, hcounters, hmax, excess,
        OrderedDict.drop_mapValues]
  | invalidate key now =>
      have hpurge := reference_of_purged (purgeExpired_spec now owned h)
      obtain ⟨hreply, hentries, -, hmax, hcounters⟩ :=
        invalidate_spec s key now owned
      have herase := OrderedDict.erase_mapValues shown key
        (s.purgeExpired now owned).entries
      simp only [perform, ReferenceMap.perform, ← hpurge]
      simp [reference, hreply, hentries, hmax, hcounters, herase]
  | clear =>
      exact ⟨rfl, rfl⟩
  | size now =>
      have hpurge := reference_of_purged (purgeExpired_spec now owned h)
      simp only [perform, size, ReferenceMap.perform, ← hpurge]
      simp [reference]
  | stats now inflight abandoned superseded =>
      have hpurge := reference_of_purged (purgeExpired_spec now owned h)
      simp only [perform, stats, ReferenceMap.perform, ← hpurge]
      simp [reference]

/-- Every call but a store that is not fresh keeps the heap sound. -/
theorem recorded_perform
    (h : Recorded s.entries s.expiryHeap) {c : CacheCall κ ν}
    (hkeeps : s.KeepsRecords c) :
    Recorded (s.perform c).2.entries (s.perform c).2.expiryHeap := by
  obtain ⟨op, owned⟩ := c
  cases op with
  | get key now =>
      obtain ⟨-, hheap, hsub⟩ := get_spec s key now owned
      simp only [perform, hheap]
      exact (purgeExpired_spec now owned h).recorded.of_subset hsub
  | store key value ttlNs now =>
      exact recorded_store s key value ttlNs now owned h hkeeps
  | invalidate key now =>
      obtain ⟨-, hentries, hheap, -, -⟩ := invalidate_spec s key now owned
      simp only [perform, hheap, hentries]
      exact (purgeExpired_spec now owned h).recorded.of_subset
        fun x hx => (OrderedDict.mem_filter.mp hx).1
  | clear =>
      exact Recorded.empty [] List.Pairwise.nil
  | size now =>
      exact (purgeExpired_spec now owned h).recorded
  | stats now inflight abandoned superseded =>
      exact (purgeExpired_spec now owned h).recorded

theorem perform_get
    (s : CacheState κ ν) (key : κ) (now : Nat) (owned : Finset κ) :
    (s.perform ⟨.get key now, owned⟩).1 = .value (s.get key now owned).1 := by
  rfl

theorem perform_get_reference
    (a : ReferenceMap κ ν) (key : κ) (now : Nat) (owned : Finset κ) :
    (a.perform ⟨.get key now, owned⟩).1 =
      .value (((a.purge now).entries.lookup key).map Prod.fst) := by
  unfold ReferenceMap.perform
  cases hlookup : (a.purge now).entries.lookup key <;> simp [hlookup]

/-- A get that exposes a store that was not fresh. -/
theorem exposed_of_not_fresh
    (h : Recorded s.entries s.expiryHeap)
    {key : κ} (value : ν) {ttlNs now : Nat} {owned : Finset κ}
    (hnot : ¬ s.FreshStore key ttlNs now owned) :
    ∃ later, now < later ∧
      ((s.perform ⟨.store key value ttlNs now, owned⟩).2.perform
        ⟨.get key later, ∅⟩).1 = .value none ∧
      ((s.reference.perform ⟨.store key value ttlNs now, owned⟩).2.perform
        ⟨.get key later, ∅⟩).1 = .value (some value) := by
  obtain ⟨r, hr, rfl, hlate, hearly, hversion, hmem, hsorted⟩ :=
    stale_of_not_fresh s key value ttlNs now owned h hnot
  refine ⟨r.expiresAt, hlate, ?_, ?_⟩
  · have hnone : ((s.store r.key value ttlNs now owned).purgeExpired r.expiresAt
        ∅).entries.lookup r.key = none := by
      rw [Option.eq_none_iff_forall_ne_some]
      intro entry hlookup
      have hbefore := OrderedDict.lookup_eq_some.mp (lookup_of_purgeLoop hlookup)
      have hnew := OrderedDict.eq_of_mem hbefore hmem
      have hne := purgeLoop_removes hsorted hr (le_refl _) hlookup
      rw [hnew] at hne
      exact hne hversion.symm
    have hget := (get_spec (s.store r.key value ttlNs now owned) r.key r.expiresAt ∅).1
    rw [hnone] at hget
    exact (perform_get _ r.key r.expiresAt ∅).trans (congrArg CacheReply.value hget)
  · have href := (perform_reference h ⟨.store r.key value ttlNs now, owned⟩).2
    have hkept : (((s.reference.perform ⟨.store r.key value ttlNs now, owned⟩).2.purge
        r.expiresAt).entries.lookup r.key) = some (value, now + ttlNs) := by
      rw [← href, OrderedDict.lookup_eq_some]
      refine OrderedDict.mem_filter.mpr ⟨?_, by simpa using hearly⟩
      exact List.mem_map.mpr ⟨_, hmem, rfl⟩
    rw [perform_get_reference, hkept]
    rfl

end OneCall

/-! ## Sequences of calls -/

omit [DecidableEq κ] in
theorem recorded_init
    (maxSize : Nat) (hpos : 0 < maxSize) :
    Recorded (init maxSize hpos : CacheState κ ν).entries
      (init maxSize hpos : CacheState κ ν).expiryHeap :=
  Recorded.empty [] List.Pairwise.nil

/-- Soundness of the heap together with agreement with the reference. -/
def Agrees (s : CacheState κ ν) (a : ReferenceMap κ ν) : Prop :=
  Recorded s.entries s.expiryHeap ∧ s.reference = a

/-- A get call, with whatever keys are owned. -/
def IsGet (c : CacheCall κ ν) : Prop :=
  ∃ key now, c.op = .get key now

omit [DecidableEq κ] in
theorem nondecreasing_append_get
    {pre : List (CacheCall κ ν)} {key key' : κ} {value : ν} {ttlNs now later : Nat}
    {owned owned' : Finset κ}
    (h : Nondecreasing (pre ++ [⟨.store key value ttlNs now, owned⟩]))
    (hlater : now ≤ later) :
    Nondecreasing (pre ++
      [⟨.store key value ttlNs now, owned⟩, ⟨.get key' later, owned'⟩]) := by
  simp only [Nondecreasing, List.filterMap_append, List.filterMap_cons,
    List.filterMap_nil, CacheOp.reading, List.pairwise_append] at h ⊢
  obtain ⟨hpre, -, hbound⟩ := h
  refine ⟨hpre, by simpa using hlater, ?_⟩
  intro n hn m hm
  have hle := hbound n hn now (by simp)
  simp only [List.mem_cons, List.not_mem_nil, or_false] at hm
  rcases hm with rfl | rfl
  · exact hle
  · exact le_trans hle hlater

/--
**When the cache state refines the reference.**  For every sequence of calls
with nondecreasing clock readings: after every prefix every further get is
answered as by the reference, with the same entries, recency and counters,
exactly when every store of the sequence is fresh.
-/
theorem refines_reference_iff
    (maxSize : Nat) (hpos : 0 < maxSize) (calls : List (CacheCall κ ν))
    (hclock : Nondecreasing calls) :
    (∀ pre c, pre <+: calls → IsGet c → Nondecreasing (pre ++ [c]) →
      Mealy.outputs perform (init maxSize hpos : CacheState κ ν) (pre ++ [c]) =
        Mealy.outputs ReferenceMap.perform (ReferenceMap.init maxSize) (pre ++ [c]) ∧
      (Mealy.after perform (init maxSize hpos : CacheState κ ν) (pre ++ [c])).reference =
        Mealy.after ReferenceMap.perform (ReferenceMap.init maxSize) (pre ++ [c])) ↔
      Mealy.Meets perform KeepsRecords (init maxSize hpos : CacheState κ ν) calls := by
  have hinit : Agrees (init maxSize hpos : CacheState κ ν)
      (ReferenceMap.init maxSize) :=
    ⟨recorded_init maxSize hpos, rfl⟩
  have hsim : ∀ (s : CacheState κ ν) (a : ReferenceMap κ ν) (c : CacheCall κ ν),
      Agrees s a → KeepsRecords s c →
      (s.perform c).1 = (a.perform c).1 ∧ Agrees (s.perform c).2 (a.perform c).2 := by
    rintro s _ c ⟨hrec, rfl⟩ hkeeps
    obtain ⟨hreply, hstate⟩ := perform_reference hrec c
    exact ⟨hreply, recorded_perform hrec hkeeps, hstate⟩
  refine Mealy.refines_iff hsim (fun s a h => h.2) ?_ hinit ?_
  · rintro s ⟨op, owned⟩ ⟨key, now, hop⟩
    obtain rfl : op = .get key now := hop
    trivial
  · rintro pre ⟨op, owned⟩ hpre hmeets hnot
    obtain ⟨hout, hrec, href⟩ := Mealy.refines hsim hinit hmeets
    cases op with
    | store key value ttlNs now =>
        obtain ⟨later, hlt, hcode, hmap⟩ := exposed_of_not_fresh hrec value
          hnot
        refine ⟨⟨.get key later, ∅⟩, ⟨key, later, rfl⟩, ?_, ?_⟩
        · refine nondecreasing_append_get ?_ hlt.le
          exact hclock.sublist (hpre.sublist.filterMap _)
        · rw [Mealy.outputs_append, Mealy.outputs_append, hout, ← href]
          intro heq
          have hlast := List.append_cancel_left heq
          simp only [Mealy.outputs_cons, Mealy.outputs_nil, List.cons.injEq] at hlast
          rw [hcode, hmap] at hlast
          simp at hlast
    | get key now =>
        exact absurd trivial hnot
    | invalidate key now =>
        exact absurd trivial hnot
    | clear =>
        exact absurd trivial hnot
    | size now =>
        exact absurd trivial hnot
    | stats now inflight abandoned superseded =>
        exact absurd trivial hnot

/-- Two keys, one of them overwritten while its entry is alive. -/
def overwritten : List (CacheCall Nat Nat) :=
  [⟨.store 0 10 5 0, ∅⟩, ⟨.store 0 11 9 1, ∅⟩, ⟨.store 1 12 3 2, {1}⟩]

theorem refines_reference_overwritten :
    Mealy.Meets perform KeepsRecords (init 2 (by decide)) overwritten ∧
    Mealy.outputs perform (init 2 (by decide)) (overwritten ++ [⟨.get 0 7, ∅⟩]) =
      Mealy.outputs ReferenceMap.perform (ReferenceMap.init 2)
        (overwritten ++ [⟨.get 0 7, ∅⟩]) := by
  have hmeets : Mealy.Meets perform KeepsRecords (init 2 (by decide)) overwritten := by
    decide
  have hall := (refines_reference_iff 2 (by decide) overwritten
    (by decide)).mpr hmeets
  exact ⟨hmeets, (hall overwritten ⟨.get 0 7, ∅⟩ (List.prefix_refl _)
    ⟨0, 7, rfl⟩ (by decide)).1⟩

/-- A key is stored, invalidated and stored again with a later expiry. -/
def restarted : List (CacheCall Nat Nat) :=
  [⟨.store 0 10 10 0, ∅⟩, ⟨.invalidate 0 0, ∅⟩, ⟨.store 0 11 100 0, ∅⟩,
    ⟨.get 0 10, ∅⟩]

theorem restarted_version_loses_entry :
    Nondecreasing restarted ∧
    Mealy.outputs perform (init 2 (by decide)) restarted =
      [.stored, .invalidated true, .stored, .value none] ∧
    Mealy.outputs ReferenceMap.perform (ReferenceMap.init 2) restarted =
      [.stored, .invalidated true, .stored, .value (some 11)] := by
  decide

end CacheState
end Cache
end Bluetape
