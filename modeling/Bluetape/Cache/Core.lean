import Bluetape.Base.OrderedDict
import Mathlib.Data.List.Sort
import Mathlib.Data.Finset.Basic

/-!
# The pure cache state

The entries, the expiry heap, the key versions and the counters of a cache.
Every removal from the expiry heap is lazy: a record stays when its entry is
overwritten, invalidated or evicted, and it is matched to an entry by key and
version when it is popped.  A key's version is forgotten when neither an entry
nor a flight uses the key, and restarts from zero.

A heap is the list of its records in the order in which they are popped.
Sequence numbers are distinct, so this order is the heap's.
-/

namespace Bluetape
namespace Cache

open Base

universe u v

/-- `_Entry` -/
structure Entry (ν : Type v) where
  value : ν
  expiresAt : Nat
  version : Nat
deriving DecidableEq, Repr

/-- A tuple of the expiry heap. -/
structure HeapRecord (κ : Type u) where
  expiresAt : Nat
  sequence : Nat
  key : κ
  version : Nat
deriving DecidableEq, Repr

/-- The order of the tuples; the sequence decides before key and version do. -/
def HeapRecord.Le {κ : Type u} (r r' : HeapRecord κ) : Prop :=
  r.expiresAt < r'.expiresAt ∨
    r.expiresAt = r'.expiresAt ∧ r.sequence ≤ r'.sequence

instance {κ : Type u} : DecidableRel (HeapRecord.Le (κ := κ)) :=
  fun r r' => inferInstanceAs (Decidable (r.expiresAt < r'.expiresAt ∨
    r.expiresAt = r'.expiresAt ∧ r.sequence ≤ r'.sequence))

/-- `heapq.heappush` -/
def heappush {κ : Type u} (heap : List (HeapRecord κ)) (r : HeapRecord κ) :
    List (HeapRecord κ) :=
  heap.orderedInsert HeapRecord.Le r

/-- `heapq.heapify` -/
def heapify {κ : Type u} (records : List (HeapRecord κ)) : List (HeapRecord κ) :=
  records.insertionSort HeapRecord.Le

/-- The activity counters of `_CacheState`. -/
structure Counters where
  hits : Nat
  misses : Nat
  loads : Nat
  loadFailures : Nat
  loadRejections : Nat
  coalescedWaiters : Nat
  evictions : Nat
  expirations : Nat
  invalidations : Nat
  abandonedLoads : Nat
  supersededLoads : Nat
deriving DecidableEq, Repr

/-- All counters at zero. -/
def Counters.zero : Counters :=
  ⟨0, 0, 0, 0, 0, 0, 0, 0, 0, 0, 0⟩

/-- `CacheStats` -/
structure CacheStats where
  hits : Nat
  misses : Nat
  loads : Nat
  loadFailures : Nat
  loadRejections : Nat
  coalescedWaiters : Nat
  evictions : Nat
  expirations : Nat
  invalidations : Nat
  inflightLoads : Nat
  abandonedLoads : Nat
  supersededLoads : Nat
deriving DecidableEq, Repr

/-- The snapshot that `stats` returns; its last arguments come from the caller. -/
def Counters.snapshot (c : Counters) (inflight abandoned superseded : Nat) :
    CacheStats where
  hits := c.hits
  misses := c.misses
  loads := c.loads
  loadFailures := c.loadFailures
  loadRejections := c.loadRejections
  coalescedWaiters := c.coalescedWaiters
  evictions := c.evictions
  expirations := c.expirations
  invalidations := c.invalidations
  inflightLoads := inflight
  abandonedLoads := abandoned
  supersededLoads := superseded

/-- `_CacheState`; entries are ordered from least to most recently used. -/
structure CacheState (κ : Type u) (ν : Type v) where
  maxSize : Nat
  maxSize_pos : 0 < maxSize
  entries : OrderedDict κ (Entry ν)
  expiryHeap : List (HeapRecord κ)
  keyVersions : κ → Option Nat
  clearEpoch : Nat
  lastTick : Nat
  sequence : Nat
  counters : Counters

namespace CacheState

variable {κ : Type u} {ν : Type v}

/-- `_CacheState.__init__` -/
def init (maxSize : Nat) (hpos : 0 < maxSize) : CacheState κ ν where
  maxSize := maxSize
  maxSize_pos := hpos
  entries := OrderedDict.empty
  expiryHeap := []
  keyVersions := fun _ => none
  clearEpoch := 0
  lastTick := 0
  sequence := 0
  counters := Counters.zero

/-- `clamp_tick`: the clock never runs backwards, whatever it reads. -/
def clampTick (s : CacheState κ ν) (tick : Int) : Nat × CacheState κ ν :=
  let last := max s.lastTick tick.toNat
  (last, { s with lastTick := last })

variable [DecidableEq κ]

/-- `version` -/
def version (s : CacheState κ ν) (key : κ) : Nat :=
  (s.keyVersions key).getD 0

/-- `bump_version`; the new version is the `version` of the new state. -/
def bumpVersion (s : CacheState κ ν) (key : κ) : CacheState κ ν :=
  { s with keyVersions :=
      Function.update s.keyVersions key (some (s.version key + 1)) }

/-- `drop_unused_version` -/
def dropUnusedVersion (s : CacheState κ ν) (key : κ) (owned : Finset κ) :
    CacheState κ ν :=
  if s.entries.lookup key = none ∧ key ∉ owned then
    { s with keyVersions := Function.update s.keyVersions key none }
  else s

/-- The body of the loop in `purge_expired`, on a popped record. -/
def purgeRecord (s : CacheState κ ν) (r : HeapRecord κ) (owned : Finset κ) :
    CacheState κ ν :=
  match s.entries.lookup r.key with
  | none => s
  | some entry =>
      if entry.version ≠ r.version then s
      else
        { s with
          entries := s.entries.erase r.key
          counters := { s.counters with
            expirations := s.counters.expirations + 1 } }.dropUnusedVersion
          r.key owned

/-- The loop of `purge_expired` over the heap. -/
def purgeLoop (now : Nat) (owned : Finset κ) :
    List (HeapRecord κ) → CacheState κ ν → CacheState κ ν
  | [], s => { s with expiryHeap := [] }
  | r :: rest, s =>
      if r.expiresAt ≤ now then purgeLoop now owned rest (s.purgeRecord r owned)
      else { s with expiryHeap := r :: rest }

/-- `purge_expired` -/
def purgeExpired (s : CacheState κ ν) (now : Nat) (owned : Finset κ) :
    CacheState κ ν :=
  purgeLoop now owned s.expiryHeap s

/-- `get`; no value stands for the `KeyError`. -/
def get (s : CacheState κ ν) (key : κ) (now : Nat) (owned : Finset κ) :
    Option ν × CacheState κ ν :=
  let s := s.purgeExpired now owned
  match s.entries.lookup key with
  | none =>
      (none, { s with counters := { s.counters with misses := s.counters.misses + 1 } })
  | some entry =>
      (some entry.value,
        { s with
          entries := s.entries.setLast key entry
          counters := { s.counters with hits := s.counters.hits + 1 } })

/-- The records of `rebuild_expiry_heap`, before `heapify`. -/
def rebuiltRecords (sequence : Nat) :
    List (κ × Entry ν) → List (HeapRecord κ)
  | [] => []
  | (key, entry) :: rest =>
      ⟨entry.expiresAt, sequence + 1, key, entry.version⟩ ::
        rebuiltRecords (sequence + 1) rest

/-- `rebuild_expiry_heap` -/
def rebuildExpiryHeap (s : CacheState κ ν) : CacheState κ ν :=
  { s with
    expiryHeap := heapify (rebuiltRecords s.sequence s.entries.items)
    sequence := s.sequence + s.entries.size }

/-- The eviction loop of `store`; every round pops one entry. -/
def evictLoop (owned : Finset κ) : Nat → CacheState κ ν → CacheState κ ν
  | 0, s => s
  | rounds + 1, s =>
      if s.maxSize < s.entries.size then
        match s.entries.items with
        | [] => s
        | (evictedKey, _) :: _ =>
            evictLoop owned rounds
              ({ s with
                entries := s.entries.drop 1
                counters := { s.counters with
                  evictions := s.counters.evictions + 1 } }.dropUnusedVersion
                evictedKey owned)
      else s

/-- `store` up to the eviction loop: the new entry and its heap record. -/
def insertEntry (s : CacheState κ ν) (key : κ) (value : ν) (expiresAt : Nat) :
    CacheState κ ν :=
  let s := s.bumpVersion key
  let version := s.version key
  { s with
    entries := s.entries.setLast key ⟨value, expiresAt, version⟩
    sequence := s.sequence + 1
    expiryHeap := heappush s.expiryHeap ⟨expiresAt, s.sequence + 1, key, version⟩ }

/-- `store` -/
def store (s : CacheState κ ν) (key : κ) (value : ν) (ttlNs now : Nat)
    (owned : Finset κ) : CacheState κ ν :=
  let s := (s.purgeExpired now owned).insertEntry key value (now + ttlNs)
  let s := evictLoop owned s.entries.size s
  if 2 * s.maxSize < s.expiryHeap.length then s.rebuildExpiryHeap else s

/-- `invalidate`, with the owned keys that `on_supersede` returned. -/
def invalidate (s : CacheState κ ν) (key : κ) (now : Nat) (owned : Finset κ) :
    Bool × CacheState κ ν :=
  let s := s.purgeExpired now owned
  let present := (s.entries.lookup key).isSome
  let s := { s with entries := s.entries.erase key }.bumpVersion key
  let s :=
    if present then
      { s with counters := { s.counters with
          invalidations := s.counters.invalidations + 1 } }
    else s
  (present, s.dropUnusedVersion key owned)

/-- `clear` -/
def clear (s : CacheState κ ν) (owned : Finset κ) : CacheState κ ν :=
  { s with
    clearEpoch := s.clearEpoch + 1
    entries := OrderedDict.empty
    expiryHeap := []
    keyVersions := fun key => if key ∈ owned then s.keyVersions key else none }

/-- `size` -/
def size (s : CacheState κ ν) (now : Nat) (owned : Finset κ) :
    Nat × CacheState κ ν :=
  let s := s.purgeExpired now owned
  (s.entries.size, s)

/-- `stats` -/
def stats (s : CacheState κ ν) (now : Nat) (owned : Finset κ)
    (inflight abandoned superseded : Nat) : CacheStats × CacheState κ ν :=
  let s := s.purgeExpired now owned
  (s.counters.snapshot inflight abandoned superseded, s)

end CacheState
end Cache
end Bluetape
