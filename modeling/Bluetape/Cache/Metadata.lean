import Bluetape.Cache.Reference

/-!
# Bounds of the cache metadata

What the operations of `CacheState` keep about the sizes of its tables: the
entries and the heap are bounded by the capacity, a key has a version only
while an entry or a flight uses it, and the records of the heap carry
different sequence numbers, so that their order never compares keys.

* `store_bounded`, `invalidate_bounded`, `get_bounded`, `clear_bounded`: every operation keeps
  the bounds.
-/

namespace Bluetape
namespace Cache

open Base

universe u v

namespace CacheState

variable {κ : Type u} {ν : Type v} [DecidableEq κ]

/-- Every version in the table is in use, but perhaps that of one key. -/
def VersionsUsed (s : CacheState κ ν) (owned : Finset κ) (but : κ → Prop) : Prop :=
  ∀ key, s.keyVersions key ≠ none → but key ∨ s.entries.lookup key ≠ none ∨ key ∈ owned

/-- The sequence numbers of the heap are distinct and have been handed out. -/
structure Sequenced (heap : List (HeapRecord κ)) (sequence : Nat) : Prop where
  distinct : (heap.map HeapRecord.sequence).Nodup
  handed : ∀ r ∈ heap, r.sequence ≤ sequence

/-- The bounds of all tables of a state. -/
structure Bounded (s : CacheState κ ν) (owned : Finset κ) : Prop where
  entries : s.entries.size ≤ s.maxSize
  heap : s.expiryHeap.length ≤ 2 * s.maxSize
  versions : s.VersionsUsed owned (fun _ => False)
  sequences : Sequenced s.expiryHeap s.sequence

/-! ## Versions in use -/

section Versions

variable {s : CacheState κ ν} {owned : Finset κ} {but : κ → Prop}

theorem dropUnusedVersion_keyVersions
    (s : CacheState κ ν) (key k : κ) (owned : Finset κ) :
    (s.dropUnusedVersion key owned).keyVersions k =
      if k = key ∧ s.entries.lookup key = none ∧ key ∉ owned then none
      else s.keyVersions k := by
  unfold dropUnusedVersion
  by_cases hunused : s.entries.lookup key = none ∧ key ∉ owned
  · by_cases hkey : k = key
    · simp [hunused, hkey]
    · simp [hunused, hkey]
  · simp [hunused]

/-- Dropping the version of a key that lost its entry completes the table. -/
theorem VersionsUsed.drop
    {key : κ}
    (h : s.VersionsUsed owned (fun k => but k ∨ k = key)) :
    (s.dropUnusedVersion key owned).VersionsUsed owned but := by
  intro k hk
  rw [dropUnusedVersion_keyVersions] at hk
  split at hk
  case isTrue =>
    exact absurd rfl hk
  case isFalse hused =>
    rw [dropUnusedVersion_entries]
    rcases h k hk with (hbut | rfl) | hrest
    · exact Or.inl hbut
    · by_cases hlookup : s.entries.lookup k = none
      · by_cases howned : k ∈ owned
        · exact Or.inr (Or.inr howned)
        · exact absurd ⟨rfl, hlookup, howned⟩ hused
      · exact Or.inr (Or.inl hlookup)
    · exact Or.inr hrest

theorem VersionsUsed.mono
    {owned' : Finset κ} {but' : κ → Prop}
    (h : s.VersionsUsed owned but)
    (himp : ∀ key, but key ∨ key ∈ owned → but' key ∨ key ∈ owned') :
    s.VersionsUsed owned' but' := by
  intro key hkey
  rcases h key hkey with hbut | hlookup | howned
  · rcases himp key (Or.inl hbut) with h | h
    · exact Or.inl h
    · exact Or.inr (Or.inr h)
  · exact Or.inr (Or.inl hlookup)
  · rcases himp key (Or.inr howned) with h | h
    · exact Or.inl h
    · exact Or.inr (Or.inr h)

/-- Removing the entry of a key takes at most its own version out of use. -/
theorem VersionsUsed.erase
    (h : s.VersionsUsed owned but)
    {entries : OrderedDict κ (Entry ν)} {key : κ}
    (hlookup : ∀ k, k ≠ key → entries.lookup k = s.entries.lookup k)
    (t : CacheState κ ν)
    (ht : t.entries = entries ∧ t.keyVersions = s.keyVersions) :
    t.VersionsUsed owned (fun k => but k ∨ k = key) := by
  intro k hk
  rw [ht.2] at hk
  rw [ht.1]
  by_cases hkey : k = key
  · exact Or.inl (Or.inr hkey)
  · rw [hlookup k hkey]
    rcases h k hk with hbut | hrest
    · exact Or.inl (Or.inl hbut)
    · exact Or.inr hrest

theorem VersionsUsed.bump
    (h : s.VersionsUsed owned but) (key : κ) :
    (s.bumpVersion key).VersionsUsed owned (fun k => but k ∨ k = key) := by
  intro k hk
  by_cases hkey : k = key
  · exact Or.inl (Or.inr hkey)
  · have hold : s.keyVersions k ≠ none := by
      simpa [bumpVersion, hkey] using hk
    rcases h k hold with hbut | hrest
    · exact Or.inl (Or.inl hbut)
    · exact Or.inr hrest

end Versions

/-! ## Sequence numbers -/

section Sequences

omit [DecidableEq κ]

variable {heap : List (HeapRecord κ)} {sequence : Nat}

theorem Sequenced.suffix
    {heap' : List (HeapRecord κ)}
    (h : Sequenced heap sequence)
    (hsuffix : heap' <:+ heap) :
    Sequenced heap' sequence where
  distinct := h.distinct.sublist (hsuffix.sublist.map _)
  handed := fun r hr => h.handed r (hsuffix.subset hr)

theorem Sequenced.push
    (h : Sequenced heap sequence) (expiresAt version : Nat) (key : κ) :
    Sequenced (heappush heap ⟨expiresAt, sequence + 1, key, version⟩) (sequence + 1) where
  distinct := by
    have hperm := List.perm_orderedInsert HeapRecord.Le
      (⟨expiresAt, sequence + 1, key, version⟩ : HeapRecord κ) heap
    refine (hperm.map HeapRecord.sequence).nodup_iff.mpr ?_
    rw [List.map_cons, List.nodup_cons]
    refine ⟨?_, h.distinct⟩
    intro hmem
    obtain ⟨r, hr, hseq⟩ := List.mem_map.mp hmem
    have hle := h.handed r hr
    dsimp only at hseq
    omega
  handed := by
    intro r hr
    rcases mem_heappush.mp hr with rfl | hr
    · exact le_refl _
    · exact (h.handed r hr).trans (Nat.le_succ _)

theorem map_sequence_rebuiltRecords
    (sequence : Nat) (items : List (κ × Entry ν)) :
    (rebuiltRecords sequence items).map HeapRecord.sequence =
      List.range' (sequence + 1) items.length := by
  induction items generalizing sequence with
  | nil =>
      rfl
  | cons x rest ih =>
      simp [rebuiltRecords, ih, List.range'_succ]

theorem length_rebuiltRecords
    (sequence : Nat) (items : List (κ × Entry ν)) :
    (rebuiltRecords sequence items).length = items.length := by
  have h := congrArg List.length (map_sequence_rebuiltRecords sequence items)
  simpa using h

theorem sequenced_rebuilt
    (sequence : Nat) (items : List (κ × Entry ν)) :
    Sequenced (heapify (rebuiltRecords sequence items)) (sequence + items.length) where
  distinct := by
    have hperm := List.perm_insertionSort HeapRecord.Le (rebuiltRecords sequence items)
    refine (hperm.map HeapRecord.sequence).nodup_iff.mpr ?_
    rw [map_sequence_rebuiltRecords]
    exact List.nodup_range'
  handed := by
    intro r hr
    have hmem := List.mem_map_of_mem (f := HeapRecord.sequence)
      ((List.mem_insertionSort _).mp hr)
    rw [map_sequence_rebuiltRecords, List.mem_range'_1] at hmem
    omega

end Sequences

/-! ## The operations -/

section Operations

variable {s : CacheState κ ν} {owned : Finset κ}

/-- What a purge changes, as far as the bounds go. -/
structure Pruned (s t : CacheState κ ν) (owned : Finset κ) : Prop where
  entries : t.entries.size ≤ s.entries.size
  suffix : t.expiryHeap <:+ s.expiryHeap
  sequence : t.sequence = s.sequence
  versions : s.VersionsUsed owned (fun _ => False) → t.VersionsUsed owned (fun _ => False)

@[simp] theorem dropUnusedVersion_sequence
    (s : CacheState κ ν) (key : κ) (owned : Finset κ) :
    (s.dropUnusedVersion key owned).sequence = s.sequence := by
  unfold dropUnusedVersion
  split <;> rfl

/-- A popped record removes at most its entry, and then the entry's version. -/
theorem purgeRecord_bounds
    (s : CacheState κ ν) (r : HeapRecord κ) (owned : Finset κ) :
    (s.purgeRecord r owned).entries.size ≤ s.entries.size ∧
      (s.purgeRecord r owned).sequence = s.sequence ∧
      (s.VersionsUsed owned (fun _ => False) →
        (s.purgeRecord r owned).VersionsUsed owned (fun _ => False)) := by
  unfold purgeRecord
  split
  case h_1 =>
    exact ⟨le_refl _, rfl, id⟩
  case h_2 entry _ =>
    split
    case isTrue =>
      exact ⟨le_refl _, rfl, id⟩
    case isFalse =>
      refine ⟨?_, by simp, fun h => VersionsUsed.drop ?_⟩
      · rw [dropUnusedVersion_entries]
        exact OrderedDict.size_filter_le _ s.entries
      · exact h.erase (fun k hk => by simp [hk]) _ ⟨rfl, rfl⟩

theorem purgeLoop_pruned
    (now : Nat) (owned : Finset κ) (heap : List (HeapRecord κ)) (s : CacheState κ ν) :
    (purgeLoop now owned heap s).entries.size ≤ s.entries.size ∧
      (purgeLoop now owned heap s).expiryHeap <:+ heap ∧
      (purgeLoop now owned heap s).sequence = s.sequence ∧
      (s.VersionsUsed owned (fun _ => False) →
        (purgeLoop now owned heap s).VersionsUsed owned (fun _ => False)) := by
  induction heap generalizing s with
  | nil =>
      exact ⟨le_refl _, List.suffix_refl _, rfl, id⟩
  | cons r rest ih =>
      unfold purgeLoop
      split
      case isTrue =>
          obtain ⟨hsize, hsequence, hversions⟩ := s.purgeRecord_bounds r owned
          obtain ⟨hsize', hsuffix, hsequence', hversions'⟩ := ih (s.purgeRecord r owned)
          exact ⟨hsize'.trans hsize, hsuffix.trans (List.suffix_cons _ _),
            hsequence'.trans hsequence, fun h => hversions' (hversions h)⟩
      case isFalse =>
          exact ⟨le_refl _, List.suffix_refl _, rfl, id⟩

theorem purgeExpired_pruned
    (s : CacheState κ ν) (now : Nat) (owned : Finset κ) :
    Pruned s (s.purgeExpired now owned) owned := by
  obtain ⟨hsize, hsuffix, hsequence, hversions⟩ := purgeLoop_pruned now owned s.expiryHeap s
  exact ⟨hsize, hsuffix, hsequence, hversions⟩

theorem purgeExpired_bounded
    (h : s.Bounded owned) (now : Nat) :
    (s.purgeExpired now owned).Bounded owned := by
  have hpruned := s.purgeExpired_pruned now owned
  refine ⟨?_, ?_, hpruned.versions h.versions, ?_⟩
  · rw [purgeExpired_maxSize]
    exact hpruned.entries.trans h.entries
  · rw [purgeExpired_maxSize]
    exact hpruned.suffix.length_le.trans h.heap
  · rw [hpruned.sequence]
    exact h.sequences.suffix hpruned.suffix

/-- The eviction loop drops the versions of the keys that it evicts. -/
theorem evictLoop_versions
    (owned : Finset κ) (rounds : Nat) (s : CacheState κ ν)
    (h : s.VersionsUsed owned (fun _ => False)) :
    (evictLoop owned rounds s).VersionsUsed owned (fun _ => False) ∧
      (evictLoop owned rounds s).sequence = s.sequence := by
  induction rounds generalizing s with
  | zero =>
      exact ⟨h, rfl⟩
  | succ rounds ih =>
      unfold evictLoop
      split
      case isTrue =>
          split
          case h_1 =>
              exact ⟨h, rfl⟩
          case h_2 evictedKey entry rest hitems =>
              have hdrop : ∀ k, k ≠ evictedKey →
                  (s.entries.drop 1).lookup k = s.entries.lookup k := by
                intro k hk
                simp [OrderedDict.lookup, OrderedDict.drop, hitems,
                  List.find?_cons_of_neg, Ne.symm hk]
              have hround := VersionsUsed.drop (h.erase hdrop
                { s with
                  entries := s.entries.drop 1
                  counters := { s.counters with
                    evictions := s.counters.evictions + 1 } } ⟨rfl, rfl⟩)
              obtain ⟨hversions, hsequence⟩ := ih _ hround
              exact ⟨hversions, by rw [hsequence]; simp⟩
      case isFalse =>
          exact ⟨h, rfl⟩

theorem insertEntry_versions
    (h : s.VersionsUsed owned (fun _ => False)) (key : κ) (value : ν) (expiresAt : Nat) :
    (s.insertEntry key value expiresAt).VersionsUsed owned (fun _ => False) := by
  intro k hk
  rw [(insertEntry_spec s key value expiresAt).1]
  by_cases hkey : k = key
  · simp [hkey]
  · have hold : s.keyVersions k ≠ none := by
      simpa [insertEntry, bumpVersion, hkey] using hk
    simpa [hkey] using h k hold

/-- A rebuilt heap has one record for each entry. -/
theorem rebuildExpiryHeap_bounded
    (hentries : s.entries.size ≤ s.maxSize)
    (hversions : s.VersionsUsed owned (fun _ => False)) :
    s.rebuildExpiryHeap.Bounded owned where
  entries := hentries
  heap := by
    have hlength : (rebuildExpiryHeap s).expiryHeap.length = s.entries.size :=
      (List.length_insertionSort HeapRecord.Le _).trans (length_rebuiltRecords _ _)
    have hmax : (rebuildExpiryHeap s).maxSize = s.maxSize := rfl
    omega
  versions := hversions
  sequences := sequenced_rebuilt s.sequence s.entries.items

theorem store_bounded
    (h : s.Bounded owned) (key : κ) (value : ν) (ttlNs now : Nat) :
    (s.store key value ttlNs now owned).Bounded owned := by
  have hpurged := purgeExpired_bounded h now
  obtain ⟨hversions, hsequence⟩ := evictLoop_versions owned
    ((s.purgeExpired now owned).insertEntry key value (now + ttlNs)).entries.size _
    (insertEntry_versions hpurged.versions key value (now + ttlNs))
  obtain ⟨hevicted, -, hheap, hmax⟩ := evictLoop_spec owned _
    ((s.purgeExpired now owned).insertEntry key value (now + ttlNs)) (le_refl _)
  have hsequences : Sequenced
      ((s.purgeExpired now owned).insertEntry key value (now + ttlNs)).expiryHeap
      ((s.purgeExpired now owned).insertEntry key value (now + ttlNs)).sequence := by
    rw [(insertEntry_spec _ key value _).2.1]
    exact hpurged.sequences.push _ _ key
  rw [← hheap, ← hsequence] at hsequences
  have hentries := congrArg OrderedDict.size hevicted
  rw [← hmax, OrderedDict.size_drop] at hentries
  unfold store
  dsimp only
  split
  case isTrue =>
    exact rebuildExpiryHeap_bounded (by omega) hversions
  case isFalse hsmall =>
    exact ⟨by omega, not_lt.mp hsmall, hversions, hsequences⟩

theorem invalidate_bounded
    (h : s.Bounded owned) (key : κ) (now : Nat) :
    (s.invalidate key now owned).2.Bounded owned := by
  have hpurged := purgeExpired_bounded h now
  obtain ⟨-, hentries, hheap, hmax, -⟩ := invalidate_spec s key now owned
  refine ⟨?_, ?_, ?_, ?_⟩
  · rw [hentries, hmax]
    exact (OrderedDict.size_filter_le _ _).trans hpurged.entries
  · rw [hheap, hmax]
    exact hpurged.heap
  · unfold invalidate
    refine VersionsUsed.drop ?_
    have hlookup : ∀ k, k ≠ key →
        ((s.purgeExpired now owned).entries.erase key).lookup k =
          (s.purgeExpired now owned).entries.lookup k := fun k hk => by simp [hk]
    have herased := (hpurged.versions.erase hlookup
      { s.purgeExpired now owned with
        entries := (s.purgeExpired now owned).entries.erase key }
      ⟨rfl, rfl⟩).bump key
    have himp : ∀ k, ((False ∨ k = key) ∨ k = key) ∨ k ∈ owned →
        (False ∨ k = key) ∨ k ∈ owned := by tauto
    split
    case isTrue =>
      exact herased.mono himp
    case isFalse =>
      exact herased.mono himp
  · rw [hheap]
    have hsequence : (s.invalidate key now owned).2.sequence =
        (s.purgeExpired now owned).sequence := by
      unfold invalidate
      rw [dropUnusedVersion_sequence]
      split <;> rfl
    rw [hsequence]
    exact hpurged.sequences

theorem get_bounded
    (h : s.Bounded owned) (key : κ) (now : Nat) :
    (s.get key now owned).2.Bounded owned := by
  have hpurged := purgeExpired_bounded h now
  unfold get
  cases hlookup : (s.purgeExpired now owned).entries.lookup key with
  | none =>
      simp only [hlookup]
      exact ⟨hpurged.entries, hpurged.heap, hpurged.versions, hpurged.sequences⟩
  | some entry =>
      simp only [hlookup]
      refine ⟨?_, hpurged.heap, ?_, hpurged.sequences⟩
      · have herase := OrderedDict.size_erase hlookup
        have hle := hpurged.entries
        simp only [OrderedDict.size, OrderedDict.setLast, List.length_append,
          List.length_singleton] at herase hle ⊢
        omega
      · intro k hk
        rcases hpurged.versions k hk with hfalse | hsome | howned
        · exact Or.inl hfalse
        · by_cases hkey : k = key
          · simp [hkey]
          · simpa [hkey] using Or.inl hsome
        · exact Or.inr (Or.inr howned)

theorem clear_bounded
    (s : CacheState κ ν) (owned : Finset κ) :
    (s.clear owned).Bounded owned where
  entries := Nat.zero_le _
  heap := Nat.zero_le _
  versions := by
    intro key hkey
    simp only [clear, ne_eq, ite_eq_right_iff, Classical.not_imp] at hkey
    exact Or.inr (Or.inr hkey.1)
  sequences := ⟨List.nodup_nil, by simp [clear]⟩

/-- More owned keys allow more versions. -/
theorem Bounded.mono
    {owned' : Finset κ}
    (h : s.Bounded owned)
    (hsub : owned ⊆ owned') :
    s.Bounded owned' :=
  ⟨h.entries, h.heap, h.versions.mono (fun _ hkey => hkey.imp id fun hmem => hsub hmem),
    h.sequences⟩

/-- A key that is not owned any more needs its version dropped. -/
theorem Bounded.release
    {owned' : Finset κ} {key : κ}
    (h : s.Bounded owned)
    (hsub : ∀ k ∈ owned, k = key ∨ k ∈ owned') :
    (s.dropUnusedVersion key owned').Bounded owned' where
  entries := by
    rw [dropUnusedVersion_entries, dropUnusedVersion_maxSize]
    exact h.entries
  heap := by
    rw [dropUnusedVersion_expiryHeap, dropUnusedVersion_maxSize]
    exact h.heap
  versions := by
    refine VersionsUsed.drop (h.versions.mono ?_)
    rintro k (hfalse | hmem)
    · exact hfalse.elim
    · exact (hsub k hmem).imp Or.inr id
  sequences := by
    rw [dropUnusedVersion_expiryHeap, dropUnusedVersion_sequence]
    exact h.sequences

/-- The version of an owned key may be bumped at any time. -/
theorem Bounded.bump
    {key : κ}
    (h : s.Bounded owned)
    (howned : key ∈ owned) :
    (s.bumpVersion key).Bounded owned where
  entries := h.entries
  heap := h.heap
  versions := by
    refine (h.versions.bump key).mono ?_
    rintro k ((hfalse | rfl) | hmem)
    · exact hfalse.elim
    · exact Or.inr howned
    · exact Or.inr hmem
  sequences := h.sequences

end Operations

end CacheState
end Cache
end Bluetape
