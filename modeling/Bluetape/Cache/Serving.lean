import Bluetape.Cache.Reference

/-!
# No expired value is served

A stale heap record can remove an entry too early, but never too late: every
entry keeps a record of its own, with its own expiry, through overwrites,
evictions, invalidations and rebuilds of the heap.  This half of the
soundness of the heap needs no fresh versions.

* `serve_indexed`: every call keeps it;
* `never_serves_expired`: what it means for `get`, `size` and evictions, with
  arbitrary clock readings.
-/

namespace Bluetape
namespace Cache

open Base

universe u v

/-- Every entry has a record with exactly its expiry, key and version. -/
structure Indexed {κ : Type u} {ν : Type v} (entries : OrderedDict κ (Entry ν))
    (heap : List (HeapRecord κ)) : Prop where
  sorted : heap.Pairwise (fun r r' => r.expiresAt ≤ r'.expiresAt)
  own : ∀ key entry, (key, entry) ∈ entries.items →
    ∃ r ∈ heap, r.key = key ∧ r.version = entry.version ∧
      r.expiresAt = entry.expiresAt

/-- What is asked of the cache, up to the clock reading. -/
inductive Request (κ : Type u) (ν : Type v)
  | get (key : κ)
  | store (key : κ) (value : ν) (ttlNs : Nat)
  | invalidate (key : κ)
  | clear
  | size
  | stats (inflight abandoned superseded : Nat)

/-- A request with what the clock reads and the keys that flights own. -/
structure TickedRequest (κ : Type u) (ν : Type v) where
  request : Request κ ν
  tick : Int
  owned : Finset κ

/-- The operation of a request at a clamped reading. -/
def Request.at {κ : Type u} {ν : Type v} (now : Nat) : Request κ ν → CacheOp κ ν
  | get key => .get key now
  | store key value ttlNs => .store key value ttlNs now
  | invalidate key => .invalidate key now
  | clear => .clear
  | size => .size now
  | stats inflight abandoned superseded => .stats now inflight abandoned superseded

namespace Indexed

variable {κ : Type u} {ν : Type v} {entries : OrderedDict κ (Entry ν)}
  {heap : List (HeapRecord κ)}

theorem empty :
    Indexed (OrderedDict.empty : OrderedDict κ (Entry ν)) [] where
  sorted := List.Pairwise.nil
  own := by simp [OrderedDict.empty]

/-- Removing or reordering entries needs no change of the heap. -/
theorem of_subset
    {entries' : OrderedDict κ (Entry ν)}
    (h : Indexed entries heap)
    (hsub : ∀ x ∈ entries'.items, x ∈ entries.items) :
    Indexed entries' heap where
  sorted := h.sorted
  own := fun key entry hmem => h.own key entry (hsub _ hmem)

/-- A rebuilt heap indexes every entry. -/
theorem rebuilt
    (entries : OrderedDict κ (Entry ν)) (sequence : Nat) :
    Indexed entries (heapify (CacheState.rebuiltRecords sequence entries.items)) where
  sorted := (Recorded.rebuilt entries sequence).sorted
  own := (Recorded.rebuilt entries sequence).own

/-- A new entry comes with its record, whatever else the heap holds. -/
theorem insert [DecidableEq κ]
    (h : Indexed entries heap)
    (key : κ) (value : ν) (expiresAt version sequence : Nat) :
    Indexed (entries.setLast key ⟨value, expiresAt, version⟩)
      (heappush heap ⟨expiresAt, sequence, key, version⟩) where
  sorted := sorted_heappush h.sorted _
  own := by
    intro key' entry hmem
    rcases OrderedDict.mem_setLast.mp hmem with ⟨hold, -⟩ | hnew
    · obtain ⟨r, hr, heq⟩ := h.own key' entry hold
      exact ⟨r, mem_heappush.mpr (Or.inr hr), heq⟩
    · obtain ⟨rfl, rfl⟩ := Prod.mk.inj hnew
      exact ⟨_, mem_heappush.mpr (Or.inl rfl), rfl, rfl, rfl⟩

end Indexed

namespace CacheState

variable {κ : Type u} {ν : Type v} [DecidableEq κ]

/-! ## The purge -/

section Purge

variable {s : CacheState κ ν} {heap : List (HeapRecord κ)}

/-- A popped record takes with it the entry that it was the record of. -/
theorem purgeRecord_indexed
    {r : HeapRecord κ} (owned : Finset κ)
    (h : Indexed s.entries (r :: heap)) :
    Indexed (s.purgeRecord r owned).entries heap ∧
      List.Sublist (s.purgeRecord r owned).entries.items s.entries.items := by
  have hsorted := (List.pairwise_cons.mp h.sorted).2
  rcases s.purgeRecord_cases r owned with ⟨_, _, _, hentries, -⟩ | ⟨hnone, hsame⟩
  · rw [hentries]
    refine ⟨⟨hsorted, ?_⟩, List.filter_sublist⟩
    intro key entry hmem
    obtain ⟨hold, hne⟩ := OrderedDict.mem_filter.mp hmem
    obtain ⟨r', hr', hkey, heq⟩ := h.own key entry hold
    rcases List.mem_cons.mp hr' with rfl | hr'
    · simp [hkey] at hne
    · exact ⟨r', hr', hkey, heq⟩
  · rw [hsame]
    refine ⟨⟨hsorted, ?_⟩, List.Sublist.refl _⟩
    intro key entry hmem
    obtain ⟨r', hr', hkey, hversion, hexp⟩ := h.own key entry hmem
    rcases List.mem_cons.mp hr' with rfl | hr'
    · rw [← hkey] at hmem
      exact absurd hversion.symm (hnone entry (OrderedDict.lookup_eq_some.mpr hmem))
    · exact ⟨r', hr', hkey, hversion, hexp⟩

theorem purgeLoop_indexed
    (now : Nat) (owned : Finset κ)
    (h : Indexed s.entries heap) :
    Indexed (purgeLoop now owned heap s).entries (purgeLoop now owned heap s).expiryHeap ∧
      (∀ r ∈ (purgeLoop now owned heap s).expiryHeap, now < r.expiresAt) ∧
      List.Sublist (purgeLoop now owned heap s).entries.items s.entries.items := by
  induction heap generalizing s with
  | nil =>
      exact ⟨h, by simp [purgeLoop], List.Sublist.refl _⟩
  | cons r rest ih =>
      unfold purgeLoop
      split
      case isTrue =>
          obtain ⟨hindexed, hsub⟩ := purgeRecord_indexed owned h
          obtain ⟨hrest, hlater, hsub'⟩ := ih hindexed
          exact ⟨hrest, hlater, hsub'.trans hsub⟩
      case isFalse hdue =>
          refine ⟨h, ?_, List.Sublist.refl _⟩
          intro r' hr'
          rcases List.mem_cons.mp hr' with rfl | hr'
          · omega
          · have hle := (List.pairwise_cons.mp h.sorted).1 r' hr'
            omega

/-- **After a purge no entry is expired.** -/
theorem purgeExpired_indexed
    (now : Nat) (owned : Finset κ)
    (h : Indexed s.entries s.expiryHeap) :
    Indexed (s.purgeExpired now owned).entries (s.purgeExpired now owned).expiryHeap ∧
      (∀ x ∈ (s.purgeExpired now owned).entries.items, now < x.2.expiresAt) ∧
      List.Sublist (s.purgeExpired now owned).entries.items s.entries.items := by
  obtain ⟨hindexed, hlater, hsub⟩ := purgeLoop_indexed now owned h
  refine ⟨hindexed, ?_, hsub⟩
  rintro ⟨key, entry⟩ hx
  obtain ⟨r, hr, -, -, hexp⟩ := hindexed.own key entry hx
  exact hexp ▸ hlater r hr

end Purge

/-! ## Calls -/

section Calls

variable {s : CacheState κ ν}

/-- Every call keeps the index. -/
theorem perform_indexed
    (h : Indexed s.entries s.expiryHeap) (c : CacheCall κ ν) :
    Indexed (s.perform c).2.entries (s.perform c).2.expiryHeap := by
  obtain ⟨op, owned⟩ := c
  cases op with
  | get key now =>
      obtain ⟨-, hheap, hsub⟩ := get_spec s key now owned
      simp only [perform, hheap]
      exact (purgeExpired_indexed now owned h).1.of_subset hsub
  | store key value ttlNs now =>
      obtain ⟨hentries, -, -, hcase⟩ := store_spec s key value ttlNs now owned
      simp only [perform]
      rcases hcase with ⟨-, sequence, hheap⟩ | ⟨-, hheap⟩
      · rw [hheap]
        exact Indexed.rebuilt _ sequence
      · rw [hheap, hentries]
        exact ((purgeExpired_indexed now owned h).1.insert key value _ _ _).of_subset
          fun _ => OrderedDict.mem_of_mem_drop
  | invalidate key now =>
      obtain ⟨-, hentries, hheap, -, -⟩ := invalidate_spec s key now owned
      simp only [perform, hheap, hentries]
      exact (purgeExpired_indexed now owned h).1.of_subset
        fun x hx => (OrderedDict.mem_filter.mp hx).1
  | clear =>
      exact Indexed.empty
  | size now =>
      exact (purgeExpired_indexed now owned h).1
  | stats now inflight abandoned superseded =>
      exact (purgeExpired_indexed now owned h).1

/-- A request at a clock reading, which is clamped first. -/
def serve (s : CacheState κ ν) (c : TickedRequest κ ν) : CacheReply ν × CacheState κ ν :=
  let (now, s) := s.clampTick c.tick
  s.perform ⟨c.request.at now, c.owned⟩

theorem serve_indexed
    (h : Indexed s.entries s.expiryHeap) (c : TickedRequest κ ν) :
    Indexed (s.serve c).2.entries (s.serve c).2.expiryHeap :=
  perform_indexed (s := (s.clampTick c.tick).2) h _

theorem get_unexpired
    (h : Indexed s.entries s.expiryHeap)
    {key : κ} {now : Nat} {owned : Finset κ} {value : ν}
    (hget : (s.get key now owned).1 = some value) :
    ∃ entry, (key, entry) ∈ s.entries.items ∧ entry.value = value ∧
      now < entry.expiresAt := by
  obtain ⟨-, hlater, hsub⟩ := purgeExpired_indexed now owned h
  rw [(get_spec s key now owned).1] at hget
  obtain ⟨entry, hlookup, rfl⟩ := Option.map_eq_some_iff.mp hget
  have hmem := OrderedDict.lookup_eq_some.mp hlookup
  exact ⟨entry, hsub.subset hmem, rfl, hlater _ hmem⟩

theorem size_le_unexpired
    (h : Indexed s.entries s.expiryHeap) (now : Nat) (owned : Finset κ) :
    (s.size now owned).1 ≤ (s.entries.items.filter (unexpired now)).length := by
  obtain ⟨-, hlater, hsub⟩ := purgeExpired_indexed now owned h
  have hself : (s.purgeExpired now owned).entries.items.filter (unexpired now) =
      (s.purgeExpired now owned).entries.items :=
    List.filter_eq_self.mpr fun x hx => decide_eq_true (hlater x hx)
  have hle := (hsub.filter (unexpired now)).length_le
  rwa [hself] at hle

/-- A purge evicts nothing. -/
theorem purgeLoop_evictions
    (now : Nat) (owned : Finset κ) (heap : List (HeapRecord κ)) (s : CacheState κ ν) :
    (purgeLoop now owned heap s).counters.evictions = s.counters.evictions := by
  induction heap generalizing s with
  | nil =>
      rfl
  | cons r rest ih =>
      unfold purgeLoop
      split
      · rw [ih]
        rcases s.purgeRecord_cases r owned with ⟨_, _, _, -, hcounters⟩ | ⟨-, hsame⟩
        · rw [hcounters]
          rfl
        · rw [hsame]
      · rfl

/--
What a `store` evicts was stored before under another key and is gone after it; there are as
many such entries as evictions are counted, and with those that are kept they are all
unexpired.  It evicts only down to the size of a full cache.
-/
theorem store_evicted
    (h : Indexed s.entries s.expiryHeap) (key : κ) (value : ν) (now : Nat)
    (owned : Finset κ) {ttlNs : Nat} (httl : 0 < ttlNs) :
    ∃ evicted,
      (s.store key value ttlNs now owned).counters.evictions =
        s.counters.evictions + evicted.length ∧
      (∀ x ∈ evicted, x ∈ s.entries.items ∧ x.1 ≠ key ∧
        x ∉ (s.store key value ttlNs now owned).entries.items) ∧
      (∀ x ∈ evicted ++ (s.store key value ttlNs now owned).entries.items,
        now < x.2.expiresAt) ∧
      (evicted ≠ [] → (s.store key value ttlNs now owned).entries.size = s.maxSize) := by
  obtain ⟨-, hlater, hsub⟩ := purgeExpired_indexed now owned h
  obtain ⟨hentries, hcounters, -, -⟩ := store_spec s key value ttlNs now owned
  have hpos := s.maxSize_pos
  have hlength : (withNewEntry s key value ttlNs now owned).items.length =
      (withNewEntry s key value ttlNs now owned).size := rfl
  have hexcess : excess s key value ttlNs now owned =
      (withNewEntry s key value ttlNs now owned).size - s.maxSize := rfl
  have hsize : 0 < (withNewEntry s key value ttlNs now owned).size := by
    simp [withNewEntry, OrderedDict.size, OrderedDict.setLast]
  have hnew : (key, newEntry s key value ttlNs now owned) ∈
      ((withNewEntry s key value ttlNs now owned).drop
        (excess s key value ttlNs now owned)).items :=
    OrderedDict.mem_drop_setLast
      (show _ < (withNewEntry s key value ttlNs now owned).size by omega)
  have hgone : ∀ x ∈ (withNewEntry s key value ttlNs now owned).items.take
      (excess s key value ttlNs now owned),
      x ∉ ((withNewEntry s key value ttlNs now owned).drop
        (excess s key value ttlNs now owned)).items :=
    fun x hx hkept => List.disjoint_take_drop
      (withNewEntry s key value ttlNs now owned).nodup.of_map (le_refl _) hx hkept
  refine ⟨(withNewEntry s key value ttlNs now owned).items.take
    (excess s key value ttlNs now owned), ?_, ?_, ?_, ?_⟩
  · rw [hcounters, List.length_take, hlength, Nat.min_eq_left (by omega)]
    exact congrArg (· + _) (purgeLoop_evictions now owned s.expiryHeap s)
  · intro x hx
    rw [hentries]
    refine ⟨?_, ?_, hgone x hx⟩
    all_goals rcases OrderedDict.mem_setLast.mp (List.mem_of_mem_take hx) with ⟨hold, hne⟩ | rfl
    · exact hsub.subset hold
    · exact absurd hnew (hgone _ hx)
    · exact hne
    · exact absurd hnew (hgone _ hx)
  · rw [hentries]
    intro x hx
    have hmem : x ∈ (withNewEntry s key value ttlNs now owned).items := by
      rw [← List.take_append_drop (excess s key value ttlNs now owned)
        (withNewEntry s key value ttlNs now owned).items]
      exact hx
    rcases OrderedDict.mem_setLast.mp hmem with ⟨hold, -⟩ | rfl
    · exact hlater x hold
    · exact Nat.lt_add_of_pos_right httl
  · intro hne
    have hsome : excess s key value ttlNs now owned ≠ 0 := by
      intro hzero
      rw [hzero] at hne
      exact hne List.take_zero
    rw [hentries, OrderedDict.size_drop]
    omega

end Calls

/--
**No expired value is ever served.**  After every sequence of requests, with
arbitrary clock readings, each entry has its own record; a further `get` at
the clamped reading returns only the value of an entry that expires later,
`size` counts only such entries, and the entries that a `store` evicts and those that
it keeps are all unexpired: whenever it evicts one, no expired one is stored.
-/
theorem never_serves_expired
    (maxSize : Nat) (hpos : 0 < maxSize) (requests : List (TickedRequest κ ν))
    (s : CacheState κ ν)
    (hs : Mealy.after serve (init maxSize hpos) requests = s) :
    (∀ key entry, (key, entry) ∈ s.entries.items →
      ∃ r ∈ s.expiryHeap, r.key = key ∧ r.version = entry.version ∧
        r.expiresAt = entry.expiresAt) ∧
    ∀ tick owned,
      (∀ key value, (s.serve ⟨.get key, tick, owned⟩).1 = .value (some value) →
        ∃ entry, (key, entry) ∈ s.entries.items ∧ entry.value = value ∧
          (s.clampTick tick).1 < entry.expiresAt) ∧
      (∀ n, (s.serve ⟨.size, tick, owned⟩).1 = .size n →
        n ≤ (s.entries.items.filter (unexpired (s.clampTick tick).1)).length) ∧
      ∀ key value ttlNs, 0 < ttlNs →
        ∀ s', (s.serve ⟨.store key value ttlNs, tick, owned⟩).2 = s' →
          ∃ evicted,
            s'.counters.evictions = s.counters.evictions + evicted.length ∧
            (∀ x ∈ evicted, x ∈ s.entries.items ∧ x.1 ≠ key ∧ x ∉ s'.entries.items) ∧
            (∀ x ∈ evicted ++ s'.entries.items, (s.clampTick tick).1 < x.2.expiresAt) ∧
            (evicted ≠ [] → s'.entries.size = s.maxSize) := by
  have hindexed : Indexed s.entries s.expiryHeap := by
    rw [← hs]
    exact Mealy.after_invariant (I := fun s : CacheState κ ν => Indexed s.entries s.expiryHeap)
      (fun s c h => serve_indexed h c) Indexed.empty requests
  have hclamped : ∀ tick, Indexed (s.clampTick tick).2.entries
      (s.clampTick tick).2.expiryHeap := fun _ => hindexed
  refine ⟨hindexed.own, fun tick owned => ⟨?_, ?_, ?_⟩⟩
  · intro key value hget
    exact get_unexpired (hclamped tick) (CacheReply.value.inj hget)
  · intro n hsize
    obtain rfl := CacheReply.size.inj hsize
    exact size_le_unexpired (hclamped tick) _ owned
  · rintro key value ttlNs httl _ rfl
    exact store_evicted (hclamped tick) key value (s.clampTick tick).1 owned httl

/-- The clock runs from 10 back to 3, where 10 still counts, and on to 14. -/
def backwardClock : List (TickedRequest Nat Nat) :=
  [⟨.store 0 10 5, 10, ∅⟩, ⟨.store 1 11 2, 3, ∅⟩, ⟨.get 0, 14, ∅⟩]

theorem never_serves_expired_backwardClock :
    ∃ s, Mealy.after serve (init 2 (by decide)) backwardClock = s ∧
      (s.serve ⟨.get 0, 14, ∅⟩).1 = .value (some 10) ∧
      ∃ entry, (0, entry) ∈ s.entries.items ∧ entry.value = 10 ∧
        (s.clampTick 14).1 < entry.expiresAt := by
  refine ⟨_, rfl, by decide, ?_⟩
  exact ((never_serves_expired 2 (by decide) backwardClock _ rfl).2 14 ∅).1 0 10
    (by decide)

end CacheState
end Cache
end Bluetape
