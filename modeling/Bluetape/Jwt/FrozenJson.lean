import Bluetape.Jwt.Core

/-!
# Frozen JSON

The values of custom claims: as a caller or a payload gives them, and as they are frozen
within the limits on depth and nodes.

* `freeze_rebuild`: a frozen value that is built again, of lists and dicts or of its own
  tuples and mappings, is frozen to itself.
-/

namespace Bluetape
namespace Jwt

open Base

/--
A value before it is frozen, without cycles and with strings as keys.  A float is its value,
none when it is not finite; `other` is a value of any other type.
-/
inductive RawValue
  | none
  | bool (b : Bool)
  | int (n : Int)
  | float (x : Option ℚ)
  | str (t : Text)
  | list (items : List RawValue)
  | tuple (items : List RawValue)
  | dict (entries : List (Text × RawValue))
  | mapping (entries : List (Text × RawValue))
  | other

/-- `JSONValue`, a frozen value: finite, of tuples and read-only mappings -/
inductive JSONValue
  | none
  | bool (b : Bool)
  | int (n : Int)
  | float (x : ℚ)
  | str (t : Text)
  | tuple (items : List JSONValue)
  | mapping (entries : List (Text × JSONValue))

/-- `_MAX_JSON_DEPTH` -/
def maxJsonDepth : Nat := 32

/-- `_MAX_JSON_NODES` -/
def maxJsonNodes : Nat := 10000

/-! ## Freezing -/

section Freeze

mutual

/-- `freeze` of `_freeze_json`, with the number of nodes after it, none when it rejects -/
def freeze (depth nodes : Nat) (item : RawValue) : Option (JSONValue × Nat) :=
  if nodes + 1 > maxJsonNodes ∨ depth > maxJsonDepth then Option.none
  else
    match item with
    | .none => some (.none, nodes + 1)
    | .bool b => some (.bool b, nodes + 1)
    | .int n => some (.int n, nodes + 1)
    | .float Option.none => Option.none
    | .float (some x) => some (.float x, nodes + 1)
    | .str t => some (.str t, nodes + 1)
    | .list items => (freezeItems (depth + 1) (nodes + 1) items).map frozenTuple
    | .tuple items => (freezeItems (depth + 1) (nodes + 1) items).map frozenTuple
    | .dict entries => (freezeEntries (depth + 1) (nodes + 1) entries).map frozenMapping
    | .mapping entries => (freezeEntries (depth + 1) (nodes + 1) entries).map frozenMapping
    | .other => Option.none
where
  /-- `copied_sequence` -/
  frozenTuple (copied : List JSONValue × Nat) : JSONValue × Nat :=
    (.tuple copied.1, copied.2)
  /-- `MappingProxyType(copied)` -/
  frozenMapping (copied : List (Text × JSONValue) × Nat) : JSONValue × Nat :=
    (.mapping copied.1, copied.2)

def freezeItems (depth nodes : Nat) : List RawValue → Option (List JSONValue × Nat)
  | [] => some ([], nodes)
  | item :: items =>
      match freeze depth nodes item with
      | Option.none => Option.none
      | some (copied, nodes) =>
          (freezeItems depth nodes items).map fun rest => (copied :: rest.1, rest.2)

def freezeEntry (depth nodes : Nat) : Text × RawValue → Option ((Text × JSONValue) × Nat)
  | (key, nested) =>
      if isTrimmed key then
        (freeze depth nodes nested).map fun copied => ((key, copied.1), copied.2)
      else Option.none

def freezeEntries (depth nodes : Nat) :
    List (Text × RawValue) → Option (List (Text × JSONValue) × Nat)
  | [] => some ([], nodes)
  | entry :: entries =>
      match freezeEntry depth nodes entry with
      | Option.none => Option.none
      | some (copied, nodes) =>
          (freezeEntries depth nodes entries).map fun rest => (copied :: rest.1, rest.2)

end

/-- `_freeze_json`, none when it rejects the value -/
def freezeJson (value : RawValue) : Option JSONValue :=
  (freeze 0 0 value).map Prod.fst

/-- The entries of a read-only mapping. -/
def JSONValue.entries? : JSONValue → Option (List (Text × JSONValue))
  | mapping entries => some entries
  | _ => Option.none

/-- The entries of a dict, frozen. -/
def freezeDict (entries : List (Text × RawValue)) : Option (List (Text × JSONValue)) :=
  (freezeJson (.dict entries)).bind JSONValue.entries?

/-- Entries that were frozen. -/
def Frozen (entries : List (Text × JSONValue)) : Prop :=
  ∃ raw, freezeDict raw = some entries

end Freeze

/-! ## Frozen values built again -/

section Rebuild

variable (sequence : List RawValue → RawValue) (mapping : List (Text × RawValue) → RawValue)

mutual

/-- A frozen value with these sequences and mappings. -/
def JSONValue.rebuild : JSONValue → RawValue
  | .none => .none
  | .bool b => .bool b
  | .int n => .int n
  | .float x => .float (some x)
  | .str t => .str t
  | .tuple items => sequence (rebuildItems items)
  | .mapping entries => mapping (rebuildEntries entries)

def rebuildItems : List JSONValue → List RawValue
  | [] => []
  | item :: items => item.rebuild :: rebuildItems items

def rebuildEntry : Text × JSONValue → Text × RawValue
  | (key, value) => (key, value.rebuild)

def rebuildEntries : List (Text × JSONValue) → List (Text × RawValue)
  | [] => []
  | entry :: entries => rebuildEntry entry :: rebuildEntries entries

end

end Rebuild

/-- `_thaw_json` of every entry -/
def thawed : List (Text × JSONValue) → List (Text × RawValue) :=
  rebuildEntries .list .dict

/-- The entries of a frozen mapping that is passed on as it is. -/
def passed : List (Text × JSONValue) → List (Text × RawValue) :=
  rebuildEntries .tuple .mapping

/-! ## Freezing again -/

section Again

variable {sequence : List RawValue → RawValue} {mapping : List (Text × RawValue) → RawValue}

/-- A value within the limits is counted and copied. -/
theorem freeze_eq_some
    {depth nodes : Nat} {item : RawValue} {frozen : JSONValue × Nat}
    (h : freeze depth nodes item = some frozen) :
    ¬ (nodes + 1 > maxJsonNodes ∨ depth > maxJsonDepth) := by
  intro hover
  rw [freeze.eq_def, if_pos hover] at h
  cases h

/-- The containers are frozen as tuples and mappings are. -/
structure Containers (sequence : List RawValue → RawValue)
    (mapping : List (Text × RawValue) → RawValue) : Prop where
  sequence : ∀ depth nodes items,
    freeze depth nodes (sequence items) = freeze depth nodes (.tuple items)
  mapping : ∀ depth nodes entries,
    freeze depth nodes (mapping entries) = freeze depth nodes (.mapping entries)

theorem containers_plain :
    Containers .list .dict :=
  ⟨fun depth nodes items => by rw [freeze, freeze], fun depth nodes entries => by
    rw [freeze, freeze]⟩

theorem containers_frozen :
    Containers .tuple .mapping :=
  ⟨fun _ _ _ => rfl, fun _ _ _ => rfl⟩

theorem freeze_tuple
    {depth nodes nodes' : Nat} {items : List RawValue} {copied : List JSONValue}
    (hroom : ¬ (nodes + 1 > maxJsonNodes ∨ depth > maxJsonDepth))
    (hitems : freezeItems (depth + 1) (nodes + 1) items = some (copied, nodes')) :
    freeze depth nodes (.tuple items) = some (.tuple copied, nodes') := by
  rw [freeze, if_neg hroom, hitems]
  rfl

theorem freeze_mapping
    {depth nodes nodes' : Nat} {entries : List (Text × RawValue)}
    {copied : List (Text × JSONValue)}
    (hroom : ¬ (nodes + 1 > maxJsonNodes ∨ depth > maxJsonDepth))
    (hentries : freezeEntries (depth + 1) (nodes + 1) entries = some (copied, nodes')) :
    freeze depth nodes (.mapping entries) = some (.mapping copied, nodes') := by
  rw [freeze, if_neg hroom, hentries]
  rfl

mutual

/-- **A frozen value that is built again is frozen to itself**, with the same nodes. -/
theorem freeze_rebuild
    (hcontainers : Containers sequence mapping)
    (item : RawValue) {depth nodes nodes' : Nat} {frozen : JSONValue}
    (h : freeze depth nodes item = some (frozen, nodes')) :
    freeze depth nodes (frozen.rebuild sequence mapping) = some (frozen, nodes') := by
  have hroom := freeze_eq_some h
  have hsequence : ∀ items, (freezeItems (depth + 1) (nodes + 1) items).map freeze.frozenTuple =
      some (frozen, nodes') →
      (∀ copied, freezeItems (depth + 1) (nodes + 1) items = some (copied, nodes') →
        freezeItems (depth + 1) (nodes + 1) (rebuildItems sequence mapping copied) =
          some (copied, nodes')) →
      freeze depth nodes (frozen.rebuild sequence mapping) = some (frozen, nodes') := by
    intro items hitems ih
    obtain ⟨⟨copied, count⟩, hcopied, heq⟩ := Option.map_eq_some_iff.mp hitems
    obtain ⟨rfl, rfl⟩ := Prod.mk.inj heq
    rw [JSONValue.rebuild, hcontainers.sequence]
    exact freeze_tuple hroom (ih copied hcopied)
  have hmapping : ∀ entries,
      (freezeEntries (depth + 1) (nodes + 1) entries).map freeze.frozenMapping =
      some (frozen, nodes') →
      (∀ copied, freezeEntries (depth + 1) (nodes + 1) entries = some (copied, nodes') →
        freezeEntries (depth + 1) (nodes + 1) (rebuildEntries sequence mapping copied) =
          some (copied, nodes')) →
      freeze depth nodes (frozen.rebuild sequence mapping) = some (frozen, nodes') := by
    intro entries hentries ih
    obtain ⟨⟨copied, count⟩, hcopied, heq⟩ := Option.map_eq_some_iff.mp hentries
    obtain ⟨rfl, rfl⟩ := Prod.mk.inj heq
    rw [JSONValue.rebuild, hcontainers.mapping]
    exact freeze_mapping hroom (ih copied hcopied)
  rw [freeze.eq_def, if_neg hroom] at h
  cases item with
  | list items =>
      exact hsequence items h fun copied => freezeItems_rebuild hcontainers items
  | tuple items =>
      exact hsequence items h fun copied => freezeItems_rebuild hcontainers items
  | dict entries =>
      exact hmapping entries h fun copied => freezeEntries_rebuild hcontainers entries
  | mapping entries =>
      exact hmapping entries h fun copied => freezeEntries_rebuild hcontainers entries
  | none | bool b | int n | str t =>
      obtain ⟨rfl, rfl⟩ := Prod.mk.inj (Option.some.inj h)
      rw [JSONValue.rebuild, freeze, if_neg hroom]
  | float x =>
      cases x with
      | none =>
          cases h
      | some x =>
          obtain ⟨rfl, rfl⟩ := Prod.mk.inj (Option.some.inj h)
          rw [JSONValue.rebuild, freeze, if_neg hroom]
  | other =>
      cases h

theorem freezeItems_rebuild
    (hcontainers : Containers sequence mapping)
    (items : List RawValue) {depth nodes nodes' : Nat} {copied : List JSONValue}
    (h : freezeItems depth nodes items = some (copied, nodes')) :
    freezeItems depth nodes (rebuildItems sequence mapping copied) = some (copied, nodes') := by
  cases items with
  | nil =>
      cases h
      rfl
  | cons item items =>
      rw [freezeItems] at h
      split at h
      · cases h
      · next frozen count hitem =>
          obtain ⟨⟨rest, count'⟩, hrest, heq⟩ := Option.map_eq_some_iff.mp h
          obtain ⟨rfl, rfl⟩ := Prod.mk.inj heq
          rw [rebuildItems, freezeItems, freeze_rebuild hcontainers item hitem]
          dsimp only
          rw [freezeItems_rebuild hcontainers items hrest]
          rfl

theorem freezeEntry_rebuild
    (hcontainers : Containers sequence mapping)
    (entry : Text × RawValue) {depth nodes nodes' : Nat} {copied : Text × JSONValue}
    (h : freezeEntry depth nodes entry = some (copied, nodes')) :
    freezeEntry depth nodes (rebuildEntry sequence mapping copied) = some (copied, nodes') := by
  obtain ⟨key, nested⟩ := entry
  rw [freezeEntry] at h
  split at h
  case isTrue hkey =>
    obtain ⟨⟨frozen, count⟩, hnested, heq⟩ := Option.map_eq_some_iff.mp h
    obtain ⟨rfl, rfl⟩ := Prod.mk.inj heq
    rw [rebuildEntry, freezeEntry, if_pos hkey, freeze_rebuild hcontainers nested hnested]
    rfl
  case isFalse =>
    cases h

theorem freezeEntries_rebuild
    (hcontainers : Containers sequence mapping)
    (entries : List (Text × RawValue)) {depth nodes nodes' : Nat}
    {copied : List (Text × JSONValue)}
    (h : freezeEntries depth nodes entries = some (copied, nodes')) :
    freezeEntries depth nodes (rebuildEntries sequence mapping copied) =
      some (copied, nodes') := by
  cases entries with
  | nil =>
      cases h
      rfl
  | cons entry entries =>
      rw [freezeEntries] at h
      split at h
      · cases h
      · next frozen count hentry =>
          obtain ⟨⟨rest, count'⟩, hrest, heq⟩ := Option.map_eq_some_iff.mp h
          obtain ⟨rfl, rfl⟩ := Prod.mk.inj heq
          rw [rebuildEntries, freezeEntries, freezeEntry_rebuild hcontainers entry hentry]
          dsimp only
          rw [freezeEntries_rebuild hcontainers entries hrest]
          rfl

end

/-- A dict is the first node, and its entries stand one level below. -/
theorem freezeDict_eq_some
    {raw : List (Text × RawValue)} {entries : List (Text × JSONValue)} :
    freezeDict raw = some entries ↔ ∃ nodes, freezeEntries 1 1 raw = some (entries, nodes) := by
  have hroom : ¬ (0 + 1 > maxJsonNodes ∨ 0 > maxJsonDepth) := by
    decide
  rw [freezeDict, freezeJson, freeze, if_neg hroom]
  cases freezeEntries (0 + 1) (0 + 1) raw with
  | none =>
      simp
  | some copied =>
      obtain ⟨copied, nodes⟩ := copied
      simp [freeze.frozenMapping, JSONValue.entries?]

theorem Frozen.freezeDict_rebuild
    {entries : List (Text × JSONValue)}
    (h : Frozen entries)
    (hcontainers : Containers sequence mapping) :
    freezeDict (rebuildEntries sequence mapping entries) = some entries := by
  obtain ⟨raw, hraw⟩ := h
  obtain ⟨nodes, hnodes⟩ := freezeDict_eq_some.mp hraw
  exact freezeDict_eq_some.mpr ⟨nodes, freezeEntries_rebuild hcontainers raw hnodes⟩

/-- **What was frozen and thawed is frozen to itself.** -/
theorem Frozen.freezeDict_thawed
    {entries : List (Text × JSONValue)}
    (h : Frozen entries) :
    freezeDict (thawed entries) = some entries :=
  h.freezeDict_rebuild containers_plain

/-- What was frozen is frozen to itself. -/
theorem Frozen.freezeDict_passed
    {entries : List (Text × JSONValue)}
    (h : Frozen entries) :
    freezeDict (passed entries) = some entries :=
  h.freezeDict_rebuild containers_frozen

theorem frozen_nil :
    Frozen [] :=
  ⟨[], rfl⟩

theorem trimmed_of_freezeEntries
    {depth nodes nodes' : Nat} {raw : List (Text × RawValue)}
    {entries : List (Text × JSONValue)}
    (h : freezeEntries depth nodes raw = some (entries, nodes')) :
    ∀ entry ∈ entries, isTrimmed entry.1 = true := by
  induction raw generalizing nodes entries with
  | nil =>
      cases h
      simp
  | cons entry raw ih =>
      rw [freezeEntries] at h
      split at h
      · cases h
      · next frozen count hentry =>
          obtain ⟨⟨rest, count'⟩, hrest, heq⟩ := Option.map_eq_some_iff.mp h
          obtain ⟨rfl, rfl⟩ := Prod.mk.inj heq
          refine List.forall_mem_cons.mpr ⟨?_, ih hrest⟩
          obtain ⟨key, nested⟩ := entry
          rw [freezeEntry] at hentry
          split at hentry
          case isTrue hkey =>
            obtain ⟨copied, -, heq⟩ := Option.map_eq_some_iff.mp hentry
            cases heq
            exact hkey
          case isFalse =>
            cases hentry

/-- Frozen entries have names without blanks around them. -/
theorem Frozen.trimmed
    {entries : List (Text × JSONValue)}
    (h : Frozen entries) :
    ∀ entry ∈ entries, isTrimmed entry.1 = true := by
  obtain ⟨raw, hraw⟩ := h
  obtain ⟨nodes, hnodes⟩ := freezeDict_eq_some.mp hraw
  exact trimmed_of_freezeEntries hnodes

/-- Names stay what they are. -/
theorem rebuildEntries_names
    (entries : List (Text × JSONValue)) :
    (rebuildEntries sequence mapping entries).map Prod.fst = entries.map Prod.fst := by
  induction entries with
  | nil =>
      rfl
  | cons entry entries ih =>
      obtain ⟨key, value⟩ := entry
      rw [rebuildEntries, List.map_cons, List.map_cons, ih, rebuildEntry]

end Again

end Jwt
end Bluetape
