import Bluetape.Cache.Core

/-!
# Expiry with lazily deleted heap records

`Recorded entries heap` is the invariant that makes lazy deletion sound: every
entry has its own record, and no record that matches an entry is earlier than
it.  Under it `purge_expired` removes exactly the entries whose expiry was
reached (`purgeLoop_spec`), and every operation but `store` keeps it.

A `store` keeps it unless the version it hands out is one that a record left
behind by an earlier entry of the key already carries (`FreshStore`).
-/

namespace Bluetape
namespace Cache

open Base

universe u v

/-- Every entry has its record, and none that matches it is earlier. -/
structure Recorded {κ : Type u} {ν : Type v} (entries : OrderedDict κ (Entry ν))
    (heap : List (HeapRecord κ)) : Prop where
  sorted : heap.Pairwise (fun r r' => r.expiresAt ≤ r'.expiresAt)
  own : ∀ key entry, (key, entry) ∈ entries.items →
    ∃ r ∈ heap, r.key = key ∧ r.version = entry.version ∧
      r.expiresAt = entry.expiresAt
  notEarlier : ∀ key entry, (key, entry) ∈ entries.items → ∀ r ∈ heap,
    r.key = key → r.version = entry.version → entry.expiresAt ≤ r.expiresAt

/-- The entries whose expiry lies after `now`. -/
def unexpired {κ : Type u} {ν : Type v} (now : Nat) (x : κ × Entry ν) : Bool :=
  decide (now < x.2.expiresAt)

/-- More expirations. -/
def Counters.addExpirations (c : Counters) (n : Nat) : Counters :=
  { c with expirations := c.expirations + n }

/-- More evictions. -/
def Counters.addEvictions (c : Counters) (n : Nat) : Counters :=
  { c with evictions := c.evictions + n }

theorem Counters.addExpirations_addExpirations
    (c : Counters) (m n : Nat) :
    (c.addExpirations m).addExpirations n = c.addExpirations (m + n) := by
  simp [addExpirations, Nat.add_assoc]

theorem Counters.addEvictions_addEvictions
    (c : Counters) (m n : Nat) :
    (c.addEvictions m).addEvictions n = c.addEvictions (m + n) := by
  simp [addEvictions, Nat.add_assoc]

/-! ## The heap -/

section Heap

variable {κ : Type u}

instance : Std.Total (HeapRecord.Le (κ := κ)) :=
  ⟨fun r r' => by unfold HeapRecord.Le; omega⟩

instance : IsTrans (HeapRecord κ) HeapRecord.Le :=
  ⟨fun r r' r'' h h' => by unfold HeapRecord.Le at *; omega⟩

theorem HeapRecord.Le.expiresAt_le
    {r r' : HeapRecord κ}
    (h : r.Le r') :
    r.expiresAt ≤ r'.expiresAt := by
  unfold HeapRecord.Le at h
  omega

theorem mem_heappush
    {heap : List (HeapRecord κ)} {r r' : HeapRecord κ} :
    r' ∈ heappush heap r ↔ r' = r ∨ r' ∈ heap :=
  List.mem_orderedInsert _

theorem length_heappush
    (heap : List (HeapRecord κ)) (r : HeapRecord κ) :
    (heappush heap r).length = heap.length + 1 :=
  List.orderedInsert_length _ heap r

theorem sorted_heappush
    {heap : List (HeapRecord κ)}
    (h : heap.Pairwise (fun r r' => r.expiresAt ≤ r'.expiresAt))
    (r : HeapRecord κ) :
    (heappush heap r).Pairwise (fun r r' => r.expiresAt ≤ r'.expiresAt) := by
  induction heap with
  | nil =>
      simp [heappush]
  | cons r' rest ih =>
      obtain ⟨hhead, hrest⟩ := List.pairwise_cons.mp h
      unfold heappush
      rw [List.orderedInsert_cons]
      split
      case isTrue hle =>
          refine List.pairwise_cons.mpr ⟨?_, h⟩
          intro x hx
          have hr := hle.expiresAt_le
          rcases List.mem_cons.mp hx with rfl | hx
          · exact hr
          · exact le_trans hr (hhead x hx)
      case isFalse hle =>
          refine List.pairwise_cons.mpr ⟨?_, ih hrest⟩
          intro x hx
          rcases mem_heappush.mp hx with rfl | hx
          · unfold HeapRecord.Le at hle
            omega
          · exact hhead x hx

theorem sorted_heapify
    (records : List (HeapRecord κ)) :
    (heapify records).Pairwise (fun r r' => r.expiresAt ≤ r'.expiresAt) :=
  (List.pairwise_insertionSort HeapRecord.Le records).imp
    HeapRecord.Le.expiresAt_le

end Heap

namespace CacheState

variable {κ : Type u} {ν : Type v}

theorem mem_rebuiltRecords
    {sequence : Nat} {items : List (κ × Entry ν)} {r : HeapRecord κ}
    (h : r ∈ rebuiltRecords sequence items) :
    ∃ entry, (r.key, entry) ∈ items ∧ r.version = entry.version ∧
      r.expiresAt = entry.expiresAt := by
  induction items generalizing sequence with
  | nil =>
      simp [rebuiltRecords] at h
  | cons x rest ih =>
      rcases List.mem_cons.mp h with rfl | hrest
      · exact ⟨x.2, by simp, rfl, rfl⟩
      · obtain ⟨entry, hmem, heq⟩ := ih hrest
        exact ⟨entry, List.mem_cons_of_mem _ hmem, heq⟩

theorem exists_rebuiltRecord
    (sequence : Nat) {items : List (κ × Entry ν)} {key : κ} {entry : Entry ν}
    (h : (key, entry) ∈ items) :
    ∃ r ∈ rebuiltRecords sequence items, r.key = key ∧
      r.version = entry.version ∧ r.expiresAt = entry.expiresAt := by
  induction items generalizing sequence with
  | nil =>
      simp at h
  | cons x rest ih =>
      rcases List.mem_cons.mp h with rfl | hrest
      · exact ⟨_, List.mem_cons_self, rfl, rfl, rfl⟩
      · obtain ⟨r, hr, heq⟩ := ih (sequence + 1) hrest
        exact ⟨r, List.mem_cons_of_mem _ hr, heq⟩

end CacheState

/-! ## Keeping the invariant -/

namespace Recorded

variable {κ : Type u} {ν : Type v} {entries : OrderedDict κ (Entry ν)}
  {heap : List (HeapRecord κ)}

theorem empty
    (heap : List (HeapRecord κ))
    (h : heap.Pairwise (fun r r' => r.expiresAt ≤ r'.expiresAt)) :
    Recorded (OrderedDict.empty : OrderedDict κ (Entry ν)) heap where
  sorted := h
  own := by simp [OrderedDict.empty]
  notEarlier := by simp [OrderedDict.empty]

/-- Removing or reordering entries needs no change of the heap. -/
theorem of_subset
    {entries' : OrderedDict κ (Entry ν)}
    (h : Recorded entries heap)
    (hsub : ∀ x ∈ entries'.items, x ∈ entries.items) :
    Recorded entries' heap where
  sorted := h.sorted
  own := fun key entry hmem => h.own key entry (hsub _ hmem)
  notEarlier := fun key entry hmem => h.notEarlier key entry (hsub _ hmem)

/-- A rebuilt heap records every entry, whatever the old heap was. -/
theorem rebuilt
    (entries : OrderedDict κ (Entry ν)) (sequence : Nat) :
    Recorded entries
      (heapify (CacheState.rebuiltRecords sequence entries.items)) where
  sorted := sorted_heapify _
  own := by
    intro key entry hmem
    obtain ⟨r, hr, heq⟩ := CacheState.exists_rebuiltRecord sequence hmem
    exact ⟨r, (List.mem_insertionSort _).mpr hr, heq⟩
  notEarlier := by
    intro key entry hmem r hr hkey hversion
    obtain ⟨entry', hmem', -, hexp⟩ :=
      CacheState.mem_rebuiltRecords ((List.mem_insertionSort _).mp hr)
    rw [hkey] at hmem'
    rw [hexp, OrderedDict.eq_of_mem hmem hmem']

variable [DecidableEq κ]

/-- A new entry is recorded if no matching record is earlier. -/
theorem insert
    (h : Recorded entries heap)
    {key : κ} {value : ν} {expiresAt version sequence : Nat}
    (hfresh : ∀ r ∈ heap, r.key = key → r.version = version →
      expiresAt ≤ r.expiresAt) :
    Recorded (entries.setLast key ⟨value, expiresAt, version⟩)
      (heappush heap ⟨expiresAt, sequence, key, version⟩) where
  sorted := sorted_heappush h.sorted _
  own := by
    intro key' entry hmem
    rcases OrderedDict.mem_setLast.mp hmem with ⟨hold, -⟩ | hnew
    · obtain ⟨r, hr, heq⟩ := h.own key' entry hold
      exact ⟨r, mem_heappush.mpr (Or.inr hr), heq⟩
    · obtain ⟨rfl, rfl⟩ := Prod.mk.inj hnew
      exact ⟨_, mem_heappush.mpr (Or.inl rfl), rfl, rfl, rfl⟩
  notEarlier := by
    intro key' entry hmem r hr hkey hversion
    rcases OrderedDict.mem_setLast.mp hmem with ⟨hold, hne⟩ | hnew
    · rcases mem_heappush.mp hr with rfl | hr
      · exact absurd hkey.symm hne
      · exact h.notEarlier key' entry hold r hr hkey hversion
    · obtain ⟨rfl, rfl⟩ := Prod.mk.inj hnew
      rcases mem_heappush.mp hr with rfl | hr
      · exact le_refl _
      · exact hfresh r hr hkey hversion

end Recorded

/-! ## `purge_expired` -/

namespace CacheState

variable {κ : Type u} {ν : Type v} [DecidableEq κ]

section Frame

variable (s : CacheState κ ν) (key : κ) (owned : Finset κ)

@[simp] theorem dropUnusedVersion_entries :
    (s.dropUnusedVersion key owned).entries = s.entries := by
  unfold dropUnusedVersion
  split <;> rfl

@[simp] theorem dropUnusedVersion_expiryHeap :
    (s.dropUnusedVersion key owned).expiryHeap = s.expiryHeap := by
  unfold dropUnusedVersion
  split <;> rfl

@[simp] theorem dropUnusedVersion_counters :
    (s.dropUnusedVersion key owned).counters = s.counters := by
  unfold dropUnusedVersion
  split <;> rfl

@[simp] theorem dropUnusedVersion_maxSize :
    (s.dropUnusedVersion key owned).maxSize = s.maxSize := by
  unfold dropUnusedVersion
  split <;> rfl

end Frame

/-- A popped record removes the entry it matches, and nothing otherwise. -/
theorem purgeRecord_cases
    (s : CacheState κ ν) (r : HeapRecord κ) (owned : Finset κ) :
    (∃ entry, s.entries.lookup r.key = some entry ∧ entry.version = r.version ∧
      (s.purgeRecord r owned).entries = s.entries.erase r.key ∧
      (s.purgeRecord r owned).counters = s.counters.addExpirations 1) ∨
    ((∀ entry, s.entries.lookup r.key = some entry → entry.version ≠ r.version) ∧
      s.purgeRecord r owned = s) := by
  unfold purgeRecord
  cases hlookup : s.entries.lookup r.key with
  | none =>
      exact Or.inr ⟨by simp, rfl⟩
  | some entry =>
      by_cases hversion : entry.version = r.version
      · refine Or.inl ⟨entry, rfl, hversion, by simp [hversion], ?_⟩
        simp [hversion, Counters.addExpirations]
      · refine Or.inr ⟨?_, by simp [hversion]⟩
        rintro _ ⟨rfl⟩
        exact hversion

@[simp] theorem purgeRecord_maxSize
    (s : CacheState κ ν) (r : HeapRecord κ) (owned : Finset κ) :
    (s.purgeRecord r owned).maxSize = s.maxSize := by
  unfold purgeRecord
  split
  · rfl
  · split <;> simp

/-- What a purge does to the entries and counters of a recorded state. -/
structure Purged (now : Nat) (s t : CacheState κ ν) : Prop where
  entries : t.entries = s.entries.filter (unexpired now)
  recorded : Recorded t.entries t.expiryHeap
  counters : t.counters = s.counters.addExpirations
    (s.entries.size - (s.entries.filter (unexpired now)).size)
  maxSize : t.maxSize = s.maxSize
  later : ∀ r ∈ t.expiryHeap, now < r.expiresAt

omit [DecidableEq κ] in
/-- When no record is due no entry is, and nothing needs to be purged. -/
theorem purged_of_later
    {s : CacheState κ ν} {heap : List (HeapRecord κ)} {now : Nat}
    (h : Recorded s.entries heap)
    (hlater : ∀ r ∈ heap, now < r.expiresAt) :
    Purged now s { s with expiryHeap := heap } := by
  have hself : s.entries.filter (unexpired now) = s.entries := by
    refine OrderedDict.filter_eq_self fun x hx => ?_
    obtain ⟨r, hr, -, -, hexp⟩ := h.own x.1 x.2 hx
    have hlt := hlater r hr
    simp only [unexpired, decide_eq_true_eq]
    omega
  exact ⟨hself.symm, h, by simp [hself, Counters.addExpirations], rfl, hlater⟩

/-- One round of the purge loop keeps what the remaining rounds need. -/
theorem purgeRecord_step
    {s : CacheState κ ν} {r : HeapRecord κ} {rest : List (HeapRecord κ)}
    {now : Nat} (owned : Finset κ)
    (h : Recorded s.entries (r :: rest))
    (hdue : r.expiresAt ≤ now) :
    Recorded (s.purgeRecord r owned).entries rest ∧
    (s.purgeRecord r owned).entries.filter (unexpired now) =
      s.entries.filter (unexpired now) ∧
    (s.purgeRecord r owned).counters = s.counters.addExpirations
      (s.entries.size - (s.purgeRecord r owned).entries.size) ∧
    (s.purgeRecord r owned).entries.size ≤ s.entries.size := by
  have hsorted := (List.pairwise_cons.mp h.sorted).2
  rcases s.purgeRecord_cases r owned with
    ⟨entry, hlookup, hversion, hentries, hcounters⟩ | ⟨hnone, hsame⟩
  · have hmem := OrderedDict.lookup_eq_some.mp hlookup
    have hexp : entry.expiresAt ≤ now :=
      le_trans (h.notEarlier r.key entry hmem r (by simp) rfl hversion.symm) hdue
    have hsize := OrderedDict.size_erase hlookup
    rw [hentries, hcounters]
    refine ⟨?_, ?_, ?_, by omega⟩
    · refine ⟨hsorted, ?_, ?_⟩
      · intro key entry' hmem'
        obtain ⟨hold, hne⟩ := OrderedDict.mem_filter.mp hmem'
        obtain ⟨r', hr', hkey, heq⟩ := h.own key entry' hold
        rcases List.mem_cons.mp hr' with rfl | hr'
        · simp [hkey] at hne
        · exact ⟨r', hr', hkey, heq⟩
      · intro key entry' hmem' r' hr'
        exact h.notEarlier key entry' (OrderedDict.mem_filter.mp hmem').1 r'
          (List.mem_cons_of_mem r hr')
    · refine OrderedDict.filter_erase hlookup ?_
      simp [unexpired, hexp]
    · have hone : s.entries.size - (s.entries.erase r.key).size = 1 := by
        omega
      rw [hone]
  · rw [hsame]
    refine ⟨⟨hsorted, ?_, ?_⟩, rfl, by simp [Counters.addExpirations], le_refl _⟩
    · intro key entry hmem
      obtain ⟨r', hr', hkey, hversion, hexp⟩ := h.own key entry hmem
      rcases List.mem_cons.mp hr' with rfl | hr'
      · rw [← hkey] at hmem
        exact absurd hversion.symm (hnone entry (OrderedDict.lookup_eq_some.mpr hmem))
      · exact ⟨r', hr', hkey, hversion, hexp⟩
    · exact fun key entry hmem r' hr' =>
        h.notEarlier key entry hmem r' (List.mem_cons_of_mem r hr')

/-- **The purge loop removes exactly the entries whose expiry was reached.** -/
theorem purgeLoop_spec
    {s : CacheState κ ν} {heap : List (HeapRecord κ)}
    (now : Nat) (owned : Finset κ)
    (h : Recorded s.entries heap) :
    Purged now s (purgeLoop now owned heap s) := by
  induction heap generalizing s with
  | nil =>
      exact purged_of_later h (by simp)
  | cons r rest ih =>
      unfold purgeLoop
      split
      case isTrue hdue =>
          obtain ⟨hrec, hfilter, hcounters, hsize⟩ := purgeRecord_step owned h hdue
          have hrest := ih hrec
          refine ⟨?_, hrest.recorded, ?_, ?_, hrest.later⟩
          · rw [hrest.entries, hfilter]
          · have hle := OrderedDict.size_filter_le (unexpired now)
              (s.purgeRecord r owned).entries
            rw [hfilter] at hle
            rw [hrest.counters, hfilter, hcounters,
              Counters.addExpirations_addExpirations]
            congr 1
            omega
          · rw [hrest.maxSize, purgeRecord_maxSize]
      case isFalse hdue =>
          refine purged_of_later h ?_
          intro r' hr'
          rcases List.mem_cons.mp hr' with rfl | hr'
          · omega
          · have hle := (List.pairwise_cons.mp h.sorted).1 r' hr'
            omega

theorem purgeExpired_spec
    {s : CacheState κ ν} (now : Nat) (owned : Finset κ)
    (h : Recorded s.entries s.expiryHeap) :
    Purged now s (s.purgeExpired now owned) :=
  purgeLoop_spec now owned h

theorem lookup_of_purgeRecord
    {s : CacheState κ ν} {r : HeapRecord κ} {owned : Finset κ} {key : κ}
    {entry : Entry ν}
    (h : (s.purgeRecord r owned).entries.lookup key = some entry) :
    s.entries.lookup key = some entry := by
  rcases s.purgeRecord_cases r owned with ⟨_, _, _, hentries, -⟩ | ⟨-, hsame⟩
  · rw [hentries, OrderedDict.lookup_erase] at h
    split at h
    · simp at h
    · exact h
  · rwa [hsame] at h

theorem lookup_of_purgeLoop
    {s : CacheState κ ν} {heap : List (HeapRecord κ)} {now : Nat}
    {owned : Finset κ} {key : κ} {entry : Entry ν}
    (h : (purgeLoop now owned heap s).entries.lookup key = some entry) :
    s.entries.lookup key = some entry := by
  induction heap generalizing s with
  | nil =>
      exact h
  | cons r rest ih =>
      unfold purgeLoop at h
      split at h
      · exact lookup_of_purgeRecord (ih h)
      · exact h

/-- A due record removes the entry it matches, whose expiry it need not be. -/
theorem purgeLoop_removes
    {s : CacheState κ ν} {heap : List (HeapRecord κ)} {now : Nat}
    {owned : Finset κ} {r : HeapRecord κ} {entry : Entry ν}
    (hsorted : heap.Pairwise (fun r r' => r.expiresAt ≤ r'.expiresAt))
    (hr : r ∈ heap)
    (hdue : r.expiresAt ≤ now)
    (h : (purgeLoop now owned heap s).entries.lookup r.key = some entry) :
    entry.version ≠ r.version := by
  induction heap generalizing s with
  | nil =>
      simp at hr
  | cons r₀ rest ih =>
      obtain ⟨hhead, hrest⟩ := List.pairwise_cons.mp hsorted
      unfold purgeLoop at h
      split at h
      case isTrue =>
          rcases List.mem_cons.mp hr with rfl | hr
          · have hkept := lookup_of_purgeLoop h
            rcases s.purgeRecord_cases r owned with
              ⟨_, _, _, hentries, -⟩ | ⟨hnone, hsame⟩
            · simp [hentries] at hkept
            · rw [hsame] at hkept
              exact hnone entry hkept
          · exact ih hrest hr h
      case isFalse hnot =>
          rcases List.mem_cons.mp hr with rfl | hr
          · exact absurd hdue hnot
          · have hle := hhead r hr
            omega

/-! ## `store` -/

/-- The eviction loop drops the least recently used entries over the bound. -/
theorem evictLoop_spec
    (owned : Finset κ) (rounds : Nat) (s : CacheState κ ν)
    (hrounds : s.entries.size ≤ rounds) :
    (evictLoop owned rounds s).entries =
      s.entries.drop (s.entries.size - s.maxSize) ∧
    (evictLoop owned rounds s).counters =
      s.counters.addEvictions (s.entries.size - s.maxSize) ∧
    (evictLoop owned rounds s).expiryHeap = s.expiryHeap ∧
    (evictLoop owned rounds s).maxSize = s.maxSize := by
  induction rounds generalizing s with
  | zero =>
      have hzero : s.entries.size - s.maxSize = 0 := by
        omega
      simp [evictLoop, hzero, OrderedDict.drop, Counters.addEvictions]
  | succ rounds ih =>
      unfold evictLoop
      split
      case isFalse hle =>
          have hzero : s.entries.size - s.maxSize = 0 := by
            omega
          simp [hzero, OrderedDict.drop, Counters.addEvictions]
      case isTrue hlt =>
          split
          case h_1 hitems =>
              simp [OrderedDict.size, hitems] at hlt
          case h_2 evictedKey entry rest hitems =>
              have hsize : (s.entries.drop 1).size = s.entries.size - 1 := by
                simp [OrderedDict.size, OrderedDict.drop]
              obtain ⟨hentries, hcounters, hheap, hmax⟩ := ih
                ({ s with
                  entries := s.entries.drop 1
                  counters := { s.counters with
                    evictions := s.counters.evictions + 1 } }.dropUnusedVersion
                  evictedKey owned) (by simp [hsize]; omega)
              simp only [dropUnusedVersion_entries, dropUnusedVersion_counters,
                dropUnusedVersion_expiryHeap, dropUnusedVersion_maxSize, hsize]
                at hentries hcounters hheap hmax
              refine ⟨?_, ?_, hheap, hmax⟩
              · rw [hentries]
                ext1
                simp only [OrderedDict.drop, List.drop_drop]
                congr 1
                omega
              · rw [hcounters]
                have hone := s.counters.addEvictions_addEvictions 1
                  (s.entries.size - 1 - s.maxSize)
                refine hone.trans ?_
                congr 1
                omega

/--
The version that a store hands out is not one that a record left behind by an
earlier entry of the key carries with an earlier expiry, unless the store
rebuilds the heap.
-/
def FreshStore (s : CacheState κ ν) (key : κ) (ttlNs now : Nat)
    (owned : Finset κ) : Prop :=
  2 * s.maxSize ≤ (s.purgeExpired now owned).expiryHeap.length ∨
    ∀ r ∈ (s.purgeExpired now owned).expiryHeap, r.key = key →
      r.version = (s.purgeExpired now owned).version key + 1 →
      now + ttlNs ≤ r.expiresAt

section Store

variable (s : CacheState κ ν) (key : κ) (value : ν) (ttlNs now : Nat)
  (owned : Finset κ)

/-- The entry that a store writes. -/
def newEntry : Entry ν :=
  ⟨value, now + ttlNs, (s.purgeExpired now owned).version key + 1⟩

/-- The heap that the store pushes onto. -/
def pushedHeap : List (HeapRecord κ) :=
  heappush (s.purgeExpired now owned).expiryHeap
    ⟨now + ttlNs, (s.purgeExpired now owned).sequence + 1, key,
      (s.purgeExpired now owned).version key + 1⟩

theorem insertEntry_spec
    (s : CacheState κ ν) (key : κ) (value : ν) (expiresAt : Nat) :
    (s.insertEntry key value expiresAt).entries =
      s.entries.setLast key ⟨value, expiresAt, s.version key + 1⟩ ∧
    (s.insertEntry key value expiresAt).expiryHeap =
      heappush s.expiryHeap
        ⟨expiresAt, s.sequence + 1, key, s.version key + 1⟩ ∧
    (s.insertEntry key value expiresAt).counters = s.counters ∧
    (s.insertEntry key value expiresAt).maxSize = s.maxSize := by
  simp [insertEntry, bumpVersion, version]

/-- The entries with the new one, before evictions. -/
def withNewEntry : OrderedDict κ (Entry ν) :=
  (s.purgeExpired now owned).entries.setLast key
    (newEntry s key value ttlNs now owned)

/-- How many entries the store evicts. -/
def excess : Nat :=
  (withNewEntry s key value ttlNs now owned).size - s.maxSize

@[simp] theorem purgeLoop_maxSize
    (s : CacheState κ ν) (heap : List (HeapRecord κ)) :
    (purgeLoop now owned heap s).maxSize = s.maxSize := by
  induction heap generalizing s with
  | nil =>
      rfl
  | cons r rest ih =>
      unfold purgeLoop
      split
      · rw [ih, purgeRecord_maxSize]
      · rfl

@[simp] theorem purgeExpired_maxSize :
    (s.purgeExpired now owned).maxSize = s.maxSize :=
  purgeLoop_maxSize now owned s s.expiryHeap

/-- A store: the purge, the new entry, the evictions, and perhaps a rebuild. -/
theorem store_spec :
    (s.store key value ttlNs now owned).entries =
      (withNewEntry s key value ttlNs now owned).drop
        (excess s key value ttlNs now owned) ∧
    (s.store key value ttlNs now owned).counters =
      (s.purgeExpired now owned).counters.addEvictions
        (excess s key value ttlNs now owned) ∧
    (s.store key value ttlNs now owned).maxSize = s.maxSize ∧
    ((2 * s.maxSize ≤ (s.purgeExpired now owned).expiryHeap.length ∧
      ∃ sequence, (s.store key value ttlNs now owned).expiryHeap =
        heapify (rebuiltRecords sequence
          (s.store key value ttlNs now owned).entries.items)) ∨
    ((s.purgeExpired now owned).expiryHeap.length < 2 * s.maxSize ∧
      (s.store key value ttlNs now owned).expiryHeap =
        pushedHeap s key ttlNs now owned)) := by
  obtain ⟨hentries, hheap, hcounters, hmax⟩ :=
    insertEntry_spec (s.purgeExpired now owned) key value (now + ttlNs)
  obtain ⟨heentries, hecounters, heheap, hemax⟩ := evictLoop_spec owned _
    ((s.purgeExpired now owned).insertEntry key value (now + ttlNs)) (le_refl _)
  rw [hmax, purgeExpired_maxSize] at hemax
  rw [hheap] at heheap
  have hexcess :
      ((s.purgeExpired now owned).insertEntry key value (now + ttlNs)).entries.size -
        ((s.purgeExpired now owned).insertEntry key value (now + ttlNs)).maxSize =
      excess s key value ttlNs now owned := by
    rw [hentries, hmax, purgeExpired_maxSize]
    rfl
  rw [hexcess] at heentries hecounters
  have hnew : ((s.purgeExpired now owned).insertEntry key value (now + ttlNs)).entries =
      withNewEntry s key value ttlNs now owned := hentries
  have hdrop := heentries.trans (congrArg (OrderedDict.drop _) hnew)
  rw [hcounters] at hecounters
  have hlength := congrArg List.length heheap
  rw [length_heappush] at hlength
  unfold store
  simp only
  split
  case isTrue hfull =>
      refine ⟨hdrop, hecounters, hemax, Or.inl ⟨?_, _, rfl⟩⟩
      rw [hlength, hemax] at hfull
      exact Nat.lt_succ_iff.mp hfull
  case isFalse hfull =>
      refine ⟨hdrop, hecounters, hemax, Or.inr ⟨?_, heheap⟩⟩
      rw [hlength, hemax] at hfull
      exact Nat.lt_of_not_le fun hle => hfull (Nat.lt_succ_of_le hle)

/-- The new entry is not among the evicted ones. -/
theorem newEntry_mem_store :
    (key, newEntry s key value ttlNs now owned) ∈
      (s.store key value ttlNs now owned).entries.items := by
  rw [(store_spec s key value ttlNs now owned).1]
  refine OrderedDict.mem_drop_setLast ?_
  have hpos := s.maxSize_pos
  have hsize : 0 < (withNewEntry s key value ttlNs now owned).size := by
    simp [withNewEntry, OrderedDict.size, OrderedDict.setLast]
  unfold excess
  exact Nat.sub_lt hsize hpos

/-- A fresh store keeps the invariant. -/
theorem recorded_store
    (h : Recorded s.entries s.expiryHeap)
    (hfresh : s.FreshStore key ttlNs now owned) :
    Recorded (s.store key value ttlNs now owned).entries
      (s.store key value ttlNs now owned).expiryHeap := by
  obtain ⟨hentries, -, -, hcase⟩ := store_spec s key value ttlNs now owned
  rcases hcase with ⟨-, sequence, hheap⟩ | ⟨hlt, hheap⟩
  · rw [hheap]
    exact Recorded.rebuilt _ sequence
  · rw [hheap, hentries]
    have hnone := hfresh.resolve_left (by omega)
    have hpurged := purgeExpired_spec now owned h
    exact (hpurged.recorded.insert hnone).of_subset
      fun _ => OrderedDict.mem_of_mem_drop

/--
After a store that is not fresh the key still has a record that matches the
new entry and is due before it.
-/
theorem stale_of_not_fresh
    (h : Recorded s.entries s.expiryHeap)
    (hnot : ¬ s.FreshStore key ttlNs now owned) :
    ∃ r ∈ (s.store key value ttlNs now owned).expiryHeap,
      r.key = key ∧ now < r.expiresAt ∧ r.expiresAt < now + ttlNs ∧
      r.version = (newEntry s key value ttlNs now owned).version ∧
      (key, newEntry s key value ttlNs now owned) ∈
        (s.store key value ttlNs now owned).entries.items ∧
      (s.store key value ttlNs now owned).expiryHeap.Pairwise
        (fun r r' => r.expiresAt ≤ r'.expiresAt) := by
  obtain ⟨-, -, -, hcase⟩ := store_spec s key value ttlNs now owned
  have hpurged := purgeExpired_spec now owned h
  obtain ⟨hlt, hstale⟩ := not_or.mp hnot
  push Not at hstale
  obtain ⟨r, hr, hkey, hversion, hearlier⟩ := hstale
  rcases hcase with ⟨hge, -⟩ | ⟨-, hheap⟩
  · omega
  · rw [hheap]
    exact ⟨r, mem_heappush.mpr (Or.inr hr), hkey, hpurged.later r hr, hearlier,
      hversion, newEntry_mem_store s key value ttlNs now owned,
      sorted_heappush hpurged.recorded.sorted _⟩

end Store

end CacheState
end Cache
end Bluetape
