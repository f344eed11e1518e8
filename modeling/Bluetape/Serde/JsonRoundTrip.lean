import Bluetape.Serde.JsonPreflight
import Bluetape.Serde.JsonScan

/-!
# The round trip of strict JSON

What `json_serialize` writes, `json_deserialize` reads, and the value that it
returns is the value that was written: `strict_json_round_trip`.

The text of an accepted value is the compact text of a syntax tree, and `Spells`
relates a value, the value to be read and this tree.  The writer and the reader
are then compared on the tree: the encoder writes its text, the depth scanner
passes over it, the hooks give the value and the normalisation leaves it alone.
-/

namespace Bluetape
namespace Serde

open Base Base.Json

section Lists

variable {α β γ : Type}

/-- A list whose elements are values of a function is the image of a list. -/
theorem exists_rows
    {f : β → α} {P : β → Prop} {l : List α}
    (h : ∀ a ∈ l, ∃ b, f b = a ∧ P b) :
    ∃ rows : List β, rows.map f = l ∧ ∀ row ∈ rows, P row := by
  induction l with
  | nil =>
      exact ⟨[], rfl, by simp⟩
  | cons a l ih =>
      obtain ⟨rows, hrows, hP⟩ := ih fun a ha => h a (List.mem_cons_of_mem _ ha)
      obtain ⟨b, rfl, hb⟩ := h _ List.mem_cons_self
      exact ⟨b :: rows, by rw [List.map_cons, hrows], by simpa using And.intro hb hP⟩

theorem mapM_map_eq
    {m : Type → Type} [Monad m] [LawfulMonad m] {f : β → α} {g : α → m γ} {k : β → γ}
    {rows : List β} (h : ∀ row ∈ rows, g (f row) = pure (k row)) :
    (rows.map f).mapM g = pure (rows.map k) := by
  induction rows with
  | nil =>
      rfl
  | cons row rows ih =>
      rw [List.map_cons, List.mapM_cons, h row List.mem_cons_self,
        ih fun row hrow => h row (List.mem_cons_of_mem _ hrow)]
      simp

end Lists

variable {F : Type}

/-- What the language promises of floats: a finite float is written as a number and read back. -/
structure Floats.Standard (floats : Floats F) : Prop where
  repr_number : ∀ x, floats.isFinite x = true →
    ∃ n : Number, n.parts.text = floats.repr x ∧ n.parts.isInteger = false
  parse_repr : ∀ x, floats.isFinite x = true → floats.parse (floats.repr x) = x

/--
The value with its references followed; there is none when it nests more than so many
containers.
-/
def Heap.valueOf (h : Heap F) : Nat → PyValue F → Option (JsonValue F)
  | _, .none => some .none
  | _, .bool b => some (.bool b)
  | _, .int n => some (.int n)
  | _, .float x => some (.float x)
  | _, .str t => some (.str t)
  | 0, .ref _ => none
  | n + 1, .ref id =>
      match h id with
      | .list items => do
          return .list (← items.mapM (Heap.valueOf h n))
      | .dict entries _ => do
          return .dict (← entries.mapM fun entry => do
            return (← entry.1.str?, ← Heap.valueOf h n entry.2))
  | _, .other => none

/-- A value, the value that a reader gives for it and the tree of its text. -/
structure Spelling (F : Type) where
  value : PyValue F
  read : JsonValue F
  tree : Tree

/-- The tree spells the value, which obeys the rules of the writer. -/
inductive Spells (floats : Floats F) (h : Heap F) : Spelling F → Prop
  | none :
      Spells floats h ⟨.none, .none, .null⟩
  | bool (b : Bool) :
      Spells floats h ⟨.bool b, .bool b, .bool b⟩
  | int (n : Int) (hn : n.natAbs < 10 ^ maxJsonIntegerDigits) :
      Spells floats h ⟨.int n, .int n, .number ⟨⟨intText n, [], []⟩, by
        simpa [NumberText.text] using scanNumber_intText n⟩⟩
  | float (x : F) (number : Number) (hfinite : floats.isFinite x = true)
      (htext : number.parts.text = floats.repr x) (hfloat : number.parts.isInteger = false) :
      Spells floats h ⟨.float x, .float x, .number number⟩
  | str (t : Text) (ht : IsScalarText t) :
      Spells floats h ⟨.str t, .str t, .string t⟩
  | list (id : Nat) (rows : List (Spelling F))
      (hid : h id = .list (rows.map Spelling.value))
      (hrows : ∀ row ∈ rows, Spells floats h row) :
      Spells floats h
        ⟨.ref id, .list (rows.map Spelling.read), .array (rows.map Spelling.tree)⟩
  | dict (id : Nat) (rows : List (Text × Spelling F)) (hnodup)
      (hid : h id = .dict (rows.map fun row => (.str row.1, row.2.value)) hnodup)
      (hkeys : ∀ row ∈ rows, IsScalarText row.1)
      (hrows : ∀ row ∈ rows, Spells floats h row.2) :
      Spells floats h
        ⟨.ref id, .dict (rows.map fun row => (row.1, row.2.read)),
          .object (rows.map fun row => (row.1, row.2.tree))⟩

section Spelling

variable {floats : Floats F} {h : Heap F}

theorem nestingItems_le
    {items : List Tree} {n : Nat} (hitems : ∀ item ∈ items, nesting item ≤ n) :
    nestingItems items ≤ n := by
  induction items with
  | nil =>
      exact Nat.zero_le _
  | cons item items ih =>
      rw [nestingItems]
      exact max_le (hitems item (by simp))
        (ih fun item hitem => hitems item (List.mem_cons_of_mem _ hitem))

theorem nestingMembers_le
    {members : List (Text × Tree)} {n : Nat}
    (hmembers : ∀ member ∈ members, nesting member.2 ≤ n) :
    nestingMembers members ≤ n := by
  induction members with
  | nil =>
      exact Nat.zero_le _
  | cons member members ih =>
      obtain ⟨name, value⟩ := member
      rw [nestingMembers, nestingMember]
      exact max_le (hmembers (name, value) (by simp))
        (ih fun member hmember => hmembers member (List.mem_cons_of_mem _ hmember))

/-- A container has a spelling when the values that it holds have. -/
theorem exists_spells_ref
    {n id : Nat} (hfits : Fits floats h (n + 1) (.ref id))
    (ih : ∀ {value : PyValue F}, Fits floats h n value →
      ∃ s : Spelling F, s.value = value ∧ Spells floats h s ∧ nesting s.tree ≤ n) :
    ∃ s : Spelling F, s.value = .ref id ∧ Spells floats h s ∧ nesting s.tree ≤ n + 1 := by
  rw [Fits] at hfits
  cases hid : h id with
  | list items =>
      rw [hid] at hfits
      obtain ⟨rows, rfl, hrows⟩ := exists_rows fun item hitem => ih (hfits item hitem)
      refine ⟨_, rfl, .list id rows hid fun row hrow => (hrows row hrow).1, ?_⟩
      rw [nesting]
      refine Nat.succ_le_succ (nestingItems_le ?_)
      rintro item hitem
      obtain ⟨row, hrow, rfl⟩ := List.mem_map.mp hitem
      exact (hrows row hrow).2
  | dict entries hnodup =>
      rw [hid] at hfits
      have hentries : ∀ entry ∈ entries, ∃ row : Text × Spelling F,
          (DictKey.str row.1, row.2.value) = entry ∧ IsScalarText row.1 ∧
            Spells floats h row.2 ∧ nesting row.2.tree ≤ n := by
        rintro ⟨key, item⟩ hentry
        obtain ⟨⟨name, hkey, hscalar⟩, hitem⟩ := hfits _ hentry
        obtain ⟨s, hs, hspells, hnesting⟩ := ih hitem
        exact ⟨(name, s), Prod.ext hkey.symm hs, hscalar, hspells, hnesting⟩
      obtain ⟨rows, rfl, hrows⟩ := exists_rows hentries
      refine ⟨_, rfl, .dict id rows hnodup hid (fun row hrow => (hrows row hrow).1)
        (fun row hrow => (hrows row hrow).2.1), ?_⟩
      rw [nesting]
      refine Nat.succ_le_succ (nestingMembers_le ?_)
      rintro member hmember
      obtain ⟨row, hrow, rfl⟩ := List.mem_map.mp hmember
      exact (hrows row hrow).2.2

/-- A value that obeys the rules of the writer has a spelling. -/
theorem exists_spells
    (hfloats : floats.Standard) {n : Nat} {value : PyValue F}
    (hfits : Fits floats h n value) :
    ∃ s : Spelling F, s.value = value ∧ Spells floats h s ∧ nesting s.tree ≤ n := by
  induction n using Nat.strongRecOn generalizing value with
  | ind n ih =>
      cases value with
      | none =>
          exact ⟨_, rfl, .none, by simp [nesting]⟩
      | bool b =>
          exact ⟨_, rfl, .bool b, by simp [nesting]⟩
      | int i =>
          rw [Fits] at hfits
          exact ⟨_, rfl, .int i hfits, by simp [nesting]⟩
      | float x =>
          rw [Fits] at hfits
          obtain ⟨number, htext, hfloat⟩ := hfloats.repr_number x hfits
          exact ⟨_, rfl, .float x number hfits htext hfloat, by simp [nesting]⟩
      | str t =>
          rw [Fits] at hfits
          exact ⟨_, rfl, .str t hfits, by simp [nesting]⟩
      | other =>
          rw [Fits] at hfits
          cases hfits
      | ref id =>
          cases n with
          | zero =>
              cases hfits
          | succ n =>
              exact exists_spells_ref hfits fun hvalue => ih n (Nat.lt_succ_self n) hvalue

theorem nesting_row_le
    {rows : List (Spelling F)} {n : Nat}
    (hn : nesting (.array (rows.map Spelling.tree)) ≤ n + 1) :
    ∀ row ∈ rows, nesting row.tree ≤ n := by
  intro row hrow
  have := nesting_le_of_mem_items (List.mem_map_of_mem (f := Spelling.tree) hrow)
  rw [nesting] at hn
  omega

theorem nesting_entry_le
    {rows : List (Text × Spelling F)} {n : Nat}
    (hn : nesting (.object (rows.map fun row => (row.1, row.2.tree))) ≤ n + 1) :
    ∀ row ∈ rows, nesting row.2.tree ≤ n := by
  intro row hrow
  have := nesting_le_of_mem_members
    (List.mem_map_of_mem (f := fun row : Text × Spelling F => (row.1, row.2.tree)) hrow)
  rw [nesting] at hn
  simp only at this
  omega

/-- The value to be read is the value that was written. -/
theorem Spells.valueOf
    {s : Spelling F} (hs : Spells floats h s) {n : Nat} (hn : nesting s.tree ≤ n) :
    h.valueOf n s.value = some s.read := by
  induction hs generalizing n with
  | none =>
      cases n <;> rfl
  | bool b =>
      cases n <;> rfl
  | int i hi =>
      cases n <;> rfl
  | float x number hfinite htext hfloat =>
      cases n <;> rfl
  | str t ht =>
      cases n <;> rfl
  | list id rows hid hrows ih =>
      cases n with
      | zero =>
          simp [nesting] at hn
      | succ n =>
          have hitems : (rows.map Spelling.value).mapM (h.valueOf n) =
              some (rows.map Spelling.read) :=
            mapM_map_eq fun row hrow => ih row hrow (nesting_row_le hn row hrow)
          simp only [Heap.valueOf, hid, hitems]
          rfl
  | dict id rows hnodup hid hkeys hrows ih =>
      cases n with
      | zero =>
          simp [nesting] at hn
      | succ n =>
          have hentries : (rows.map fun row => (DictKey.str row.1, row.2.value)).mapM
              (fun entry => do return (← entry.1.str?, ← h.valueOf n entry.2)) =
                some (rows.map fun row => (row.1, row.2.read)) := by
            refine mapM_map_eq fun row hrow => ?_
            simp only [ih row hrow (nesting_entry_le hn row hrow)]
            rfl
          simp only [Heap.valueOf, hid, hentries]
          rfl

/-! ## The reader on the tree -/

theorem evalItems_eq_mapM
    {ε α : Type} (hooks : Hooks ε α) (items : List Tree) :
    evalItems hooks items = items.mapM (eval hooks) := by
  induction items with
  | nil =>
      rfl
  | cons item items ih =>
      rw [evalItems, ih, List.mapM_cons]

theorem evalMembers_eq_mapM
    {ε α : Type} (hooks : Hooks ε α) (members : List (Text × Tree)) :
    evalMembers hooks members = members.mapM (evalMember hooks) := by
  induction members with
  | nil =>
      rfl
  | cons member members ih =>
      rw [evalMembers, ih, List.mapM_cons]

/-- Keys that are all different are not refused. -/
theorem rejectDuplicateKeys_of_nodup
    {pairs : List (Text × JsonValue F)} (h : (pairs.map Prod.fst).Nodup) :
    rejectDuplicateKeys pairs = .ok (.dict pairs) := by
  simp only [rejectDuplicateKeys]
  rw [foldlM_of_nodup h]
  rfl

theorem nodup_keys
    {rows : List (Text × Spelling F)}
    (h : ((rows.map fun row => (DictKey.str row.1, row.2.value)).filterMap
      fun entry => entry.1.str?).Nodup) :
    (rows.map Prod.fst).Nodup := by
  rw [List.filterMap_map] at h
  have hkeys : (fun entry : DictKey × PyValue F => entry.1.str?) ∘
      (fun row : Text × Spelling F => (DictKey.str row.1, row.2.value)) = some ∘ Prod.fst :=
    rfl
  rwa [hkeys, List.filterMap_eq_map] at h

/-- The hooks give the value to be read. -/
theorem Spells.eval
    (hfloats : floats.Standard) {s : Spelling F} (hs : Spells floats h s) :
    Json.eval (jsonHooks floats) s.tree = .ok s.read := by
  induction hs with
  | none =>
      rfl
  | bool b =>
      rfl
  | int i hi =>
      have htext : NumberText.text ⟨intText i, [], []⟩ = intText i := by
        simp [NumberText.text]
      simp only [Json.eval, NumberText.isInteger, List.isEmpty_nil, Bool.and_self, if_true,
        htext]
      exact parseLimitedInt_intText hi
  | float x number hfinite htext hfloat =>
      simp only [Json.eval, hfloat, htext, Bool.false_eq_true, if_false, jsonHooks,
        parseFiniteFloat, hfloats.parse_repr x hfinite]
      rw [raiseIf, if_neg (by simp [hfinite])]
      rfl
  | str t ht =>
      rfl
  | list id rows hid hrows ih =>
      simp only [Json.eval, evalItems_eq_mapM, mapM_map_eq ih]
      rfl
  | dict id rows hnodup hid hkeys hrows ih =>
      have hmembers : (rows.map fun row => (row.1, row.2.tree)).mapM
          (evalMember (jsonHooks floats)) = .ok (rows.map fun row => (row.1, row.2.read)) := by
        refine mapM_map_eq fun row hrow => ?_
        simp only [evalMember, ih row hrow]
        rfl
      have hpairs : rejectDuplicateKeys (rows.map fun row => (row.1, row.2.read)) =
          .ok (.dict (rows.map fun row => (row.1, row.2.read))) := by
        refine rejectDuplicateKeys_of_nodup ?_
        rw [List.map_map]
        exact nodup_keys hnodup
      simp only [Json.eval, evalMembers_eq_mapM, hmembers]
      exact hpairs

theorem normalizeUnicodeScalarString_of_scalar
    {t : Text} (h : IsScalarText t) :
    normalizeUnicodeScalarString t = .ok t := by
  induction t with
  | nil =>
      rfl
  | cons p t ih =>
      have hp := h p List.mem_cons_self
      have ht := ih fun q hq => h q (List.mem_cons_of_mem _ hq)
      rw [normalizeUnicodeScalarString.eq_def]
      simp only [if_neg (by omega : ¬(0xD800 ≤ p.ord ∧ p.ord ≤ 0xDBFF)),
        if_neg (by omega : ¬(0xDC00 ≤ p.ord ∧ p.ord ≤ 0xDFFF)), ht]
      rfl

theorem normalizeEntries_of_scalar
    {normalize : JsonValue F → Except DecodeSignal (JsonValue F)} {keys : List Text}
    {entries : List (Text × JsonValue F)}
    (hentries : ∀ entry ∈ entries, IsScalarText entry.1 ∧ normalize entry.2 = .ok entry.2) :
    normalizeEntries normalize keys entries = .ok (entries, []) := by
  induction entries with
  | nil =>
      rfl
  | cons entry entries ih =>
      obtain ⟨hkey, hitem⟩ := hentries entry List.mem_cons_self
      have hrest := ih fun entry h => hentries entry (List.mem_cons_of_mem _ h)
      obtain ⟨key, item⟩ := entry
      simp only [normalizeEntries, hitem, normalizeUnicodeScalarString_of_scalar hkey, hrest]
      simp [raiseIf, bind, Except.bind, pure, Except.pure]

/-- The normalisation leaves the value to be read alone. -/
theorem Spells.normalize
    {s : Spelling F} (hs : Spells floats h s) {frames : Nat}
    (hframes : nesting s.tree ≤ frames) :
    normalizeDecodedStrings frames s.read = .ok s.read := by
  induction hs generalizing frames with
  | none =>
      cases frames <;> rfl
  | bool b =>
      cases frames <;> rfl
  | int i hi =>
      cases frames <;> rfl
  | float x number hfinite htext hfloat =>
      cases frames <;> rfl
  | str t ht =>
      have := normalizeUnicodeScalarString_of_scalar ht
      cases frames <;> simp only [normalizeDecodedStrings, this] <;> rfl
  | list id rows hid hrows ih =>
      cases frames with
      | zero =>
          simp [nesting] at hframes
      | succ frames =>
          have hitems : (rows.map Spelling.read).mapM (normalizeDecodedStrings frames) =
              .ok (rows.map Spelling.read) :=
            mapM_map_eq fun row hrow => ih row hrow (nesting_row_le hframes row hrow)
          simp only [normalizeDecodedStrings, hitems]
          rfl
  | dict id rows hnodup hid hkeys hrows ih =>
      cases frames with
      | zero =>
          simp [nesting] at hframes
      | succ frames =>
          have hentries : ∀ keys, normalizeEntries (normalizeDecodedStrings frames) keys
              (rows.map fun row => (row.1, row.2.read)) =
                .ok (rows.map fun row => (row.1, row.2.read), []) := by
            intro keys
            refine normalizeEntries_of_scalar ?_
            rintro entry hentry
            obtain ⟨row, hrow, rfl⟩ := List.mem_map.mp hentry
            exact ⟨hkeys row hrow, ih row hrow (nesting_entry_le hframes row hrow)⟩
          simp only [normalizeDecodedStrings, hentries]
          rfl

/-! ## The writer on the tree -/

/-- The text of the chunks. -/
def Emission.text (e : Emission) : Text :=
  e.chunks.flatten

theorem Emission.andThen_failure
    {a b : Emission} (h : (a.andThen b).failure = none) :
    a.failure = none ∧ b.failure = none := by
  unfold andThen at h
  split at h
  case h_1 ha =>
    exact ⟨ha, h⟩
  case h_2 =>
    cases h

theorem Emission.andThen_text
    {a : Emission} (ha : a.failure = none) (b : Emission) :
    (a.andThen b).text = a.text ++ b.text := by
  unfold andThen
  rw [ha]
  simp [text]

@[simp] theorem Emission.yield_text
    (chunk : Text) :
    (Emission.yield chunk).text = chunk := by
  simp [Emission.yield, text]

@[simp] theorem bufferChunk_text
    (buf : Text) :
    (bufferChunk buf).text = buf := by
  unfold bufferChunk
  split
  case isTrue hbuf =>
    rw [hbuf]
    rfl
  case isFalse =>
    simp [Emission.text]

/-- The encoder writes a text for a value after any buffer, if it does not fail. -/
def Encodes (encode : Text → PyValue F → Emission) (value : PyValue F) (t : Text) : Prop :=
  ∀ buf, (encode buf value).failure = none → (encode buf value).text = buf ++ t

/-- The items of rows are written in order, each after a separator. -/
theorem encodeItems_rows
    {ρ : Type} {encode : Text → PyValue F → Emission} {item : ρ → PyValue F} {spell : ρ → Text}
    {rows : List ρ}
    (hrows : ∀ row ∈ rows, Encodes encode (item row) (spell row))
    (hfailure : (encodeItems encode [valueSeparator] (rows.map item)).failure = none) :
    (encodeItems encode [valueSeparator] (rows.map item)).text =
      (rows.map spell).flatMap (valueSeparator :: ·) := by
  induction rows with
  | nil =>
      rfl
  | cons row rows ih =>
      rw [List.map_cons, encodeItems] at hfailure ⊢
      obtain ⟨hfirst, hrest⟩ := Emission.andThen_failure hfailure
      rw [Emission.andThen_text hfirst, hrows row List.mem_cons_self _ hfirst,
        ih (fun row h => hrows row (List.mem_cons_of_mem _ h)) hrest]
      simp

/-- So are the members of rows whose keys are strings; any other key fails. -/
theorem encodeEntries_rows
    {ρ : Type} {encode : Text → PyValue F → Emission} {entry : ρ → DictKey × PyValue F}
    {spell : ρ → Text} {rows : List ρ}
    (hrows : ∀ row ∈ rows, ∀ key, (entry row).1 = .str key →
      ∃ t, Encodes encode (entry row).2 t ∧ spell row = quote key ++ nameSeparator :: t)
    (hfailure : (encodeEntries encode false (rows.map entry)).failure = none) :
    (encodeEntries encode false (rows.map entry)).text =
      (rows.map spell).flatMap (valueSeparator :: ·) := by
  induction rows with
  | nil =>
      rfl
  | cons row rows ih =>
      have hrow := hrows row List.mem_cons_self
      rw [List.map_cons] at hfailure ⊢
      generalize entry row = member at hrow hfailure ⊢
      obtain ⟨key, item⟩ := member
      cases key with
      | other =>
          cases hfailure
      | str key =>
          obtain ⟨t, hencodes, hspell⟩ := hrow key rfl
          rw [encodeEntries] at hfailure ⊢
          obtain ⟨hkey, hentry⟩ := Emission.andThen_failure hfailure
          obtain ⟨hitem, hrest⟩ := Emission.andThen_failure hentry
          rw [Emission.andThen_text hkey, Emission.andThen_text hitem, hencodes _ hitem,
            ih (fun row h => hrows row (List.mem_cons_of_mem _ h)) hrest]
          simp [Emission.text, hspell]

theorem renderItems_eq
    (trees : List Tree) :
    renderItems trees = (trees.map render).flatMap (valueSeparator :: ·) := by
  induction trees with
  | nil =>
      rfl
  | cons item items ih =>
      simp [renderItems, ih]

theorem renderMembers_eq
    (members : List (Text × Tree)) :
    renderMembers members = (members.map renderMember).flatMap (valueSeparator :: ·) := by
  induction members with
  | nil =>
      rfl
  | cons member members ih =>
      simp [renderMembers, ih]

theorem encodeItems_text
    {encode : Text → PyValue F → Emission} {rows : List (Spelling F)}
    (hrows : ∀ row ∈ rows, Encodes encode row.value (render row.tree))
    (hfailure : (encodeItems encode [valueSeparator] (rows.map Spelling.value)).failure = none) :
    (encodeItems encode [valueSeparator] (rows.map Spelling.value)).text =
      renderItems (rows.map Spelling.tree) := by
  rw [renderItems_eq, List.map_map]
  exact encodeItems_rows hrows hfailure

theorem encodeEntries_text
    {encode : Text → PyValue F → Emission} {rows : List (Text × Spelling F)}
    (hrows : ∀ row ∈ rows, Encodes encode row.2.value (render row.2.tree))
    (hfailure : (encodeEntries encode false
      (rows.map fun row => (.str row.1, row.2.value))).failure = none) :
    (encodeEntries encode false (rows.map fun row => (.str row.1, row.2.value))).text =
      renderMembers (rows.map fun row => (row.1, row.2.tree)) := by
  rw [renderMembers_eq, List.map_map]
  refine encodeEntries_rows (fun row hrow key hkey => ⟨_, hrows row hrow, ?_⟩) hfailure
  obtain rfl := DictKey.str.inj hkey
  rfl

theorem encodeList_text
    {encode : Text → PyValue F → Emission} {row : Spelling F} {rows : List (Spelling F)}
    (hrows : ∀ row' ∈ row :: rows, Encodes encode row'.value (render row'.tree))
    (hfailure : (encodeContainer encode
      (.list ((row :: rows).map Spelling.value))).failure = none) :
    (encodeContainer encode (.list ((row :: rows).map Spelling.value))).text =
      render (.array ((row :: rows).map Spelling.tree)) := by
  rw [encodeContainer, List.map_cons, encodeItems] at hfailure ⊢
  obtain ⟨hitems, -⟩ := Emission.andThen_failure hfailure
  obtain ⟨hfirst, hrest⟩ := Emission.andThen_failure hitems
  rw [Emission.andThen_text hitems, Emission.andThen_text hfirst,
    hrows row List.mem_cons_self _ hfirst,
    encodeItems_text (fun row h => hrows row (List.mem_cons_of_mem _ h)) hrest]
  simp [render]

theorem encodeDict_text
    {encode : Text → PyValue F → Emission} {row : Text × Spelling F}
    {rows : List (Text × Spelling F)} {hnodup}
    (hrows : ∀ row' ∈ row :: rows, Encodes encode row'.2.value (render row'.2.tree))
    (hfailure : (encodeContainer encode
      (.dict ((row :: rows).map fun row => (.str row.1, row.2.value)) hnodup)).failure = none) :
    (encodeContainer encode
      (.dict ((row :: rows).map fun row => (.str row.1, row.2.value)) hnodup)).text =
      render (.object ((row :: rows).map fun row => (row.1, row.2.tree))) := by
  rw [encodeContainer] at hfailure ⊢
  obtain ⟨hopen, hmembers⟩ := Emission.andThen_failure hfailure
  obtain ⟨hentries, -⟩ := Emission.andThen_failure hmembers
  rw [Emission.andThen_text hopen, Emission.andThen_text hentries]
  rw [List.map_cons, encodeEntries] at hentries ⊢
  obtain ⟨hkey, hentry⟩ := Emission.andThen_failure hentries
  obtain ⟨hitem, hrest⟩ := Emission.andThen_failure hentry
  rw [Emission.andThen_text hkey, Emission.andThen_text hitem,
    hrows row List.mem_cons_self _ hitem,
    encodeEntries_text (fun row h => hrows row (List.mem_cons_of_mem _ h)) hrest]
  simp [Emission.text, Emission.yield, render, renderMember]

/-- The encoder writes a container as its empty text or as its elements, if it does not fail. -/
theorem encodes_ref
    {id : Nat} {t : Text}
    (hempty : ∀ empty, emptyText (h id) = some empty → empty = t)
    (hbody : emptyText (h id) = none → ∀ frames markers,
      (encodeContainer (iterencode floats h frames markers) (h id)).failure = none →
      (encodeContainer (iterencode floats h frames markers) (h id)).text = t)
    (frames : Nat) (markers : List Nat) :
    Encodes (iterencode floats h frames markers) (.ref id) t := by
  intro buf hfailure
  cases frames with
  | zero =>
      rw [iterencode] at hfailure
      cases (Emission.andThen_failure hfailure).2
  | succ frames =>
      rw [iterencode] at hfailure ⊢
      obtain ⟨hbuf, hchunks⟩ := Emission.andThen_failure hfailure
      rw [Emission.andThen_text hbuf, bufferChunk_text]
      congr 1
      split at hchunks
      case h_1 empty hsome =>
        rw [Emission.yield_text, hempty empty hsome]
      case h_2 hnone =>
        split at hchunks
        case isTrue =>
          cases hchunks
        case isFalse hmarker =>
          rw [if_neg hmarker]
          exact hbody hnone frames (id :: markers) hchunks

/-- **The encoder writes the compact text of the tree.** -/
theorem Spells.iterencode
    {s : Spelling F} (hs : Spells floats h s) (frames : Nat) (markers : List Nat) :
    Encodes (Serde.iterencode floats h frames markers) s.value (render s.tree) := by
  induction hs generalizing frames markers with
  | none =>
      intro buf _
      simp [Serde.iterencode, encodeScalar, render]
  | bool b =>
      intro buf _
      cases b <;> simp [Serde.iterencode, encodeScalar, render]
  | int i hi =>
      intro buf _
      simp [Serde.iterencode, encodeScalar, render, NumberText.text]
  | float x number hfinite htext hfloat =>
      intro buf _
      simp [Serde.iterencode, encodeScalar, render, hfinite, htext]
  | str t ht =>
      intro buf _
      simp [Serde.iterencode, encodeScalar, render]
  | list id rows hid hrows ih =>
      refine encodes_ref ?_ ?_ frames markers
      · intro empty hempty
        cases rows with
        | nil =>
            simp only [hid, List.map_nil, emptyText, Option.some.injEq] at hempty
            rw [← hempty]
            rfl
        | cons row rows =>
            simp [hid, emptyText] at hempty
      · intro hnonempty frames markers hfailure
        cases rows with
        | nil =>
            simp [hid, emptyText] at hnonempty
        | cons row rows =>
            rw [hid] at hfailure ⊢
            exact encodeList_text (fun row h => ih row h frames markers) hfailure
  | dict id rows hnodup hid hkeys hrows ih =>
      refine encodes_ref ?_ ?_ frames markers
      · intro empty hempty
        cases rows with
        | nil =>
            simp only [hid, List.map_nil, emptyText, Option.some.injEq] at hempty
            rw [← hempty]
            rfl
        | cons row rows =>
            simp [hid, emptyText] at hempty
      · intro hnonempty frames markers hfailure
        cases rows with
        | nil =>
            simp [hid, emptyText] at hnonempty
        | cons row rows =>
            rw [hid] at hfailure ⊢
            exact encodeDict_text (fun row h => ih row h frames markers) hfailure

end Spelling

/-! ## The round trip -/

theorem encodeUtf8_append
    {t u : Text} {bs cs : Bytes} (ht : encodeUtf8 t = some bs) (hu : encodeUtf8 u = some cs) :
    encodeUtf8 (t ++ u) = some (bs ++ cs) := by
  simp only [encodeUtf8, Option.map_eq_some_iff] at ht hu ⊢
  obtain ⟨ts, hts, rfl⟩ := ht
  obtain ⟨us, hus, rfl⟩ := hu
  rw [scalars_eq_some_iff] at hts hus
  refine ⟨ts ++ us, scalars_eq_some_iff.mpr ?_, List.flatMap_append⟩
  rw [hts, hus, List.map_append]

/-- The output is the encoding of the chunks. -/
theorem collectChunks_eq_ok
    {maxOutputSize : Nat} {chunks : List Text} {output data : Bytes} {t : Text}
    (houtput : encodeUtf8 t = some output)
    (hcollect : collectChunks maxOutputSize chunks output = .ok data) :
    encodeUtf8 (t ++ chunks.flatten) = some data := by
  induction chunks generalizing output t with
  | nil =>
      cases hcollect
      simpa using houtput
  | cons chunk chunks ih =>
      simp only [collectChunks, except_bind_eq_ok, orRaise_eq_ok] at hcollect
      obtain ⟨encoded, hencoded, -, -, hcollect⟩ := hcollect
      have := ih (encodeUtf8_append houtput hencoded) hcollect
      simpa using this

theorem validateLimits_eq_ok
    {sizeName : String} {maxSize maxNestingDepth : Int} {u : Unit} :
    validateLimits sizeName maxSize maxNestingDepth = .ok u ↔
      (0 ≤ maxSize ∧ maxSize < sysMaxsize) ∧
        (0 ≤ maxNestingDepth ∧ maxNestingDepth ≤ maxSupportedNestingDepth) := by
  simp only [validateLimits, except_bind_eq_ok, raiseIf_eq_ok, not_not]
  constructor
  · rintro ⟨-, hsize, hdepth⟩
    exact ⟨hsize, hdepth⟩
  · rintro ⟨hsize, hdepth⟩
    exact ⟨(), hsize, hdepth⟩

theorem validateActualMetadata_self
    (metadata : PayloadMetadata) :
    validateActualMetadata metadata metadata = .ok () := by
  simp [validateActualMetadata, raiseIf, bind, Except.bind]

/-- What an accepted value is written as. -/
theorem exists_spells_of_serialize
    {floats : Floats F} (hfloats : floats.Standard) {frames : Nat} {h : Heap F}
    {value : PyValue F} {metadata : PayloadMetadata} {maxOutputSize maxNestingDepth : Int}
    {payload : SerializedPayload}
    (hserialize : jsonSerialize floats frames h value metadata maxOutputSize maxNestingDepth =
      .ok payload) :
    payload.metadata = metadata ∧ validateJsonMetadata metadata = .ok () ∧
      (0 ≤ maxNestingDepth ∧ maxNestingDepth ≤ maxSupportedNestingDepth) ∧
      ∃ s : Spelling F, s.value = value ∧ Spells floats h s ∧
        nesting s.tree ≤ maxNestingDepth.toNat ∧
        encodeUtf8 (render s.tree) = some payload.data := by
  simp only [jsonSerialize, except_bind_eq_ok, mapError_eq_ok, validateLimits_eq_ok]
    at hserialize
  obtain ⟨-, ⟨-, hdepth⟩, data, ⟨⟨⟩, hmetadata, ⟨⟩, hpreflight, output, hcollect, hfinish⟩,
    hpayload⟩ := hserialize
  cases hpayload
  obtain ⟨s, rfl, hs, hnesting⟩ := exists_spells hfloats (preflight_fits hpreflight)
  refine ⟨rfl, hmetadata, hdepth, s, rfl, hs, hnesting, ?_⟩
  have hfailure : (iterencode floats h frames [] [] s.value).failure = none := by
    unfold Emission.finish at hfinish
    split at hfinish
    case h_1 hnone =>
      exact hnone
    case h_2 =>
      cases hfinish
  have hdata : output = data := by
    simp only [Emission.finish, hfailure] at hfinish
    exact Except.ok.inj hfinish
  have htext := hs.iterencode frames [] [] hfailure
  have hutf8 := collectChunks_eq_ok (t := []) rfl hcollect
  rw [List.nil_append] at htext hutf8
  rw [← htext, ← hdata]
  exact hutf8

/--
**Strict JSON round trip**: for a payload that `json_serialize` has written under any
limits, `json_deserialize` with the same metadata and depth limit and with an input limit
that the payload keeps returns the value that was written.  The parser of the language is
assumed to have room for as many nested containers as the depth limit allows, and floats to
be written as numbers and read back.
-/
theorem strict_json_round_trip
    {floats : Floats F} (hfloats : floats.Standard) {frames frames' : Nat} {h : Heap F}
    {value : PyValue F} {metadata : PayloadMetadata}
    {maxOutputSize maxInputSize maxNestingDepth : Int} {payload : SerializedPayload}
    (hserialize : jsonSerialize floats frames h value metadata maxOutputSize maxNestingDepth =
      .ok payload)
    (hframes : maxNestingDepth ≤ frames')
    (hlimit : maxInputSize < sysMaxsize)
    (hsize : payload.data.length ≤ maxInputSize) :
    ∃ result, h.valueOf maxNestingDepth.toNat value = some result ∧
      jsonDeserialize floats frames' payload metadata maxInputSize maxNestingDepth =
        .ok result := by
  obtain ⟨rfl, hmetadata, hdepth, s, rfl, hs, hnesting, hutf8⟩ :=
    exists_spells_of_serialize hfloats hserialize
  refine ⟨s.read, hs.valueOf hnesting, ?_⟩
  have hroom : nesting s.tree ≤ frames' := by
    omega
  have hlimits : validateLimits "max_input_size" maxInputSize maxNestingDepth = .ok () :=
    validateLimits_eq_ok.mpr ⟨⟨by omega, hlimit⟩, hdepth⟩
  have hscan : preflightJsonText maxNestingDepth.toNat false false 0 (render s.tree) =
      .ok () := by
    have hpasses : PassesOver maxNestingDepth.toNat (render s.tree) 0 :=
      passesOver_render s.tree (by omega)
    have hend := hpasses []
    rw [List.append_nil] at hend
    exact hend
  simp only [jsonDeserialize, except_bind_eq_ok, mapError_eq_ok, raiseIf_eq_ok, orRaise_eq_ok,
    not_lt]
  exact ⟨(), hlimits, (), hmetadata, (), validateActualMetadata_self _, (), hsize,
    render s.tree, encodeUtf8_eq_some_iff.mp hutf8, (), hscan, s.read,
    loads_render s.tree hroom (hs.eval hfloats), hs.normalize hroom⟩

/-- The floats 1.5 (true) and infinity. -/
def sampleFloats : Floats Bool where
  isFinite x := x
  repr x := if x then text "1.5" else text "inf"
  parse t := t = text "1.5"

theorem sampleFloats_standard :
    sampleFloats.Standard where
  repr_number := by
    rintro x rfl
    exact ⟨⟨⟨text "1", text ".5", []⟩, by decide⟩, by decide⟩
  parse_repr := by
    rintro x rfl
    decide

/-- A list that holds one dict twice; the dict has a bracket in a key. -/
def sampleHeap : Heap Bool
  | 0 => .list [.ref 1, .int (-10), .float true, .ref 1, .str (text "\"")]
  | 1 => .dict [(.str (text "[a"), .ref 2), (.str (text "b"), .none)] (by decide)
  | _ => .list []

theorem isFormat_json :
    isFormat (text "json") = true := by
  decide

def sampleMetadata : PayloadMetadata where
  format := text "json"
  version := 1
  contentType := some (text "application/json")
  trustProfile := .untrusted
  format_valid := isFormat_json
  version_pos := Int.one_pos

theorem strict_json_round_trip_sharedDict :
    ∃ payload result,
      jsonSerialize sampleFloats 3 sampleHeap (.ref 0) sampleMetadata 100 3 = .ok payload ∧
        sampleHeap.valueOf 3 (.ref 0) = some result ∧
        jsonDeserialize sampleFloats 3 payload sampleMetadata 100 3 = .ok result := by
  have hwritten :
      ((jsonSerialize sampleFloats 3 sampleHeap (.ref 0) sampleMetadata 100 3).toOption.any
        fun payload => payload.data.length ≤ 100) = true := by
    decide +kernel
  cases hserialize : jsonSerialize sampleFloats 3 sampleHeap (.ref 0) sampleMetadata 100 3 with
  | error e =>
      rw [hserialize] at hwritten
      cases hwritten
  | ok payload =>
      have hsize : payload.data.length ≤ 100 := by
        rw [hserialize] at hwritten
        exact of_decide_eq_true hwritten
      obtain ⟨result, hvalue, hread⟩ := strict_json_round_trip sampleFloats_standard hserialize
        (by decide : (3 : Int) ≤ (3 : Nat)) (by decide : 100 < sysMaxsize)
        (by exact_mod_cast hsize)
      exact ⟨payload, result, rfl, hvalue, hread⟩

end Serde
end Bluetape
