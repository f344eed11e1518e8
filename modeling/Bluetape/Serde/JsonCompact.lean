import Bluetape.Serde.JsonRoundTrip

/-!
# The compact text of a graph

A graph that contains itself has no compact text, but it has one for every number of
containers that is followed.  The encoder writes this text when it completes, and the
bounds of the preflight add up to no more than its size.

* `iterencode_spell`: what the encoder writes is the text of the graph;
* `TraversalIterator.weight`: the size of what an iterator has left to yield.
-/

namespace Bluetape
namespace Serde

open Base Base.Json

/-! ## Sizes -/

section Sizes

/-- The bytes of a code point in UTF-8. -/
def codePointSize (p : CodePoint) : Nat :=
  if p.ord ≤ 0x7F then 1
  else if p.ord ≤ 0x7FF then 2
  else if p.ord ≤ 0xFFFF then 3
  else 4

/-- The bytes of a text in UTF-8. -/
def textSize (t : Text) : Nat :=
  (t.map codePointSize).sum

theorem one_le_codePointSize
    (p : CodePoint) :
    1 ≤ codePointSize p := by
  unfold codePointSize
  split_ifs <;> omega

@[simp] theorem textSize_nil :
    textSize [] = 0 := by
  rfl

@[simp] theorem textSize_cons
    (p : CodePoint) (t : Text) :
    textSize (p :: t) = codePointSize p + textSize t := by
  simp [textSize]

@[simp] theorem textSize_append
    (t u : Text) :
    textSize (t ++ u) = textSize t + textSize u := by
  simp [textSize]

theorem one_le_textSize
    {t : Text}
    (h : t ≠ []) :
    1 ≤ textSize t := by
  cases t with
  | nil =>
      exact absurd rfl h
  | cons p t =>
      have hp := one_le_codePointSize p
      rw [textSize_cons]
      omega

/-- The size is the length of the encoding. -/
theorem length_of_encodeUtf8
    {t : Text} {bs : Bytes}
    (h : encodeUtf8 t = some bs) :
    bs.length = textSize t := by
  simp only [encodeUtf8, Option.map_eq_some_iff] at h
  obtain ⟨cs, hcs, rfl⟩ := h
  obtain rfl := scalars_eq_some_iff.mp hcs
  clear hcs
  induction cs with
  | nil =>
      rfl
  | cons c cs ih =>
      have hc : c.utf8Size = codePointSize (.scalar c) := by
        simp only [Char.utf8Size, codePointSize, CodePoint.ord, Char.toNat,
          UInt32.le_iff_toNat_le]
        rfl
      rw [List.flatMap_cons, List.length_append, ih, String.length_utf8EncodeChar, hc,
        List.map_cons, textSize_cons]

/-- An escape is no smaller than what it stands for. -/
theorem codePointSize_le_escape
    (p : CodePoint) :
    codePointSize p ≤ textSize (escape p) := by
  unfold escape
  cases hshort : shortEscape p with
  | some e =>
      have hp : codePointSize p ≤ 1 := by
        unfold shortEscape at hshort
        split_ifs at hshort with hmark hb hf hn hr ht
        · rcases hmark with rfl | rfl <;> decide
        all_goals subst p; decide
      have hmark := one_le_codePointSize escapeMark
      simp only [textSize_cons, textSize_nil]
      omega
  | none =>
      dsimp only
      split
      case isTrue hcontrol =>
        have hp : codePointSize p = 1 := by
          unfold codePointSize
          exact if_pos (by omega)
        have hmark := one_le_codePointSize escapeMark
        simp only [hexEscape, textSize_cons, hp]
        omega
      case isFalse =>
        simp

theorem textSize_le_quote
    (t : Text) :
    2 + textSize t ≤ textSize (quote t) := by
  have hinner : textSize t ≤ textSize (t.flatMap escape) := by
    induction t with
    | nil =>
        exact le_rfl
    | cons p t ih =>
        have hp := codePointSize_le_escape p
        rw [List.flatMap_cons, textSize_append, textSize_cons]
        omega
  have hmark := one_le_codePointSize quotationMark
  simp only [quote, List.cons_append, textSize_cons, textSize_append, textSize_nil]
  omega

/-- The bound of a string is its size without escapes. -/
theorem validateUnicodeScalarString_eq_ok
    {t : Text} {bound : Nat}
    (h : validateUnicodeScalarString t = .ok bound) :
    bound = 2 + textSize t := by
  have hfold : ∀ (t : Text) (start bound : Nat),
      t.foldlM (fun bound character => do return bound + (← encodedLowerBound character)) start =
        Except.ok (ε := SerdeError) bound → bound = start + textSize t := by
    intro t
    induction t with
    | nil =>
        intro start bound h
        cases h
        rfl
    | cons p t ih =>
        intro start bound h
        simp only [List.foldlM_cons, except_bind_eq_ok] at h
        obtain ⟨next, ⟨lower, hlower, hnext⟩, h⟩ := h
        have hlower : lower = codePointSize p := by
          unfold encodedLowerBound at hlower
          unfold codePointSize
          split_ifs at hlower ⊢ <;> cases hlower <;> rfl
        obtain rfl := Except.ok.inj hnext
        rw [ih _ _ h, hlower, textSize_cons, Nat.add_assoc]
  exact hfold t 2 bound h

end Sizes

/-! ## The text of a graph -/

section Spell

variable {F : Type}

/-- Texts with commas between them. -/
def joined : List Text → Text
  | [] => []
  | t :: ts => t ++ ts.flatMap (valueSeparator :: ·)

/-- A member of an object; a key that is no string has no text. -/
def spellEntry (spell : PyValue F → Text) : DictKey × PyValue F → Text
  | (.str key, item) => quote key ++ nameSeparator :: spell item
  | (.other, _) => []

/-- The texts of what an iterator has left to yield. -/
def TraversalIterator.texts (spell : PyValue F → Text) : TraversalIterator F → List Text
  | listValues items => items.map spell
  | dictValues entries => entries.map (spellEntry spell)

/-- The brackets of an object. -/
def Container.brackets : Container F → CodePoint × CodePoint
  | list _ => (beginArray, endArray)
  | dict _ _ => (beginObject, endObject)

/-- The text of an object. -/
def spellContainer (spell : PyValue F → Text) (c : Container F) : Text :=
  c.brackets.1 :: joined (c.iterator.texts spell) ++ [c.brackets.2]

/--
The compact text of a value, with so many containers followed.  What JSON has no text for
is left out.
-/
def spell (floats : Floats F) (h : Heap F) : Nat → PyValue F → Text
  | _, .none => text "null"
  | _, .bool true => text "true"
  | _, .bool false => text "false"
  | _, .int n => intText n
  | _, .float x => floats.repr x
  | _, .str t => quote t
  | _, .other => []
  | 0, .ref _ => []
  | n + 1, .ref id => spellContainer (spell floats h n) (h id)

/-- The size of what an iterator has left to yield, without the commas. -/
def TraversalIterator.weight (spell : PyValue F → Text) (it : TraversalIterator F) : Nat :=
  ((it.texts spell).map textSize).sum

theorem sum_textSize_le_joined
    (ts : List Text) :
    (ts.map textSize).sum ≤ textSize (joined ts) := by
  cases ts with
  | nil =>
      exact le_rfl
  | cons t ts =>
      have htail : (ts.map textSize).sum ≤ textSize (ts.flatMap (valueSeparator :: ·)) := by
        induction ts with
        | nil =>
            exact le_rfl
        | cons t ts ih =>
            simp only [List.map_cons, List.sum_cons, List.flatMap_cons, textSize_append,
              textSize_cons]
            omega
      simp only [joined, List.map_cons, List.sum_cons, textSize_append]
      omega

/-- A container is larger than its elements or members are together. -/
theorem weight_lt_spellContainer
    (spell : PyValue F → Text) (c : Container F) :
    1 + c.iterator.weight spell ≤ textSize (spellContainer spell c) := by
  have hjoined := sum_textSize_le_joined (c.iterator.texts spell)
  have hopen := one_le_codePointSize c.brackets.1
  simp only [TraversalIterator.weight, spellContainer, List.cons_append, textSize_cons,
    textSize_append]
  omega

/-- What an iterator yields is taken off what it has left. -/
theorem TraversalIterator.weight_of_next
    {it rest : TraversalIterator F} {item : PyValue F} {lower : Nat}
    (spell : PyValue F → Text)
    (h : it.next = .ok (some ((item, lower), rest))) :
    lower + textSize (spell item) + rest.weight spell ≤ it.weight spell := by
  unfold next at h
  split at h
  · cases h
  · cases h
    simp [weight, texts]
  · cases h
  · cases h
  · rename_i key item' entries
    simp only [except_bind_eq_ok] at h
    obtain ⟨keyLower, hkey, h⟩ := h
    cases h
    have hquote := textSize_le_quote key
    have hmark := one_le_codePointSize nameSeparator
    rw [validateUnicodeScalarString_eq_ok hkey]
    simp only [weight, texts, spellEntry, List.map_cons, List.sum_cons, textSize_append,
      textSize_cons]
    omega

/-! ## What the encoder writes -/

theorem encodeItems_spell
    {encode : Text → PyValue F → Emission} {spell : PyValue F → Text} {items : List (PyValue F)}
    (hitems : ∀ item ∈ items, Encodes encode item (spell item))
    (hfailure : (encodeItems encode [valueSeparator] items).failure = none) :
    (encodeItems encode [valueSeparator] items).text =
      (items.map spell).flatMap (valueSeparator :: ·) := by
  have hrows : ∀ item ∈ items, Encodes encode (id item) (spell item) := hitems
  have htext := encodeItems_rows hrows (by rwa [List.map_id])
  rwa [List.map_id] at htext

theorem encodeEntries_spell
    {encode : Text → PyValue F → Emission} {spell : PyValue F → Text}
    {entries : List (DictKey × PyValue F)}
    (hentries : ∀ entry ∈ entries, Encodes encode entry.2 (spell entry.2))
    (hfailure : (encodeEntries encode false entries).failure = none) :
    (encodeEntries encode false entries).text =
      (entries.map (spellEntry spell)).flatMap (valueSeparator :: ·) := by
  have hrows : ∀ entry ∈ entries, ∀ key, (id entry).1 = .str key →
      ∃ t, Encodes encode (id entry).2 t ∧
        spellEntry spell entry = quote key ++ nameSeparator :: t := by
    rintro ⟨key, item⟩ hentry _ rfl
    exact ⟨_, hentries _ hentry, rfl⟩
  have htext := encodeEntries_rows hrows (by rwa [List.map_id])
  rwa [List.map_id] at htext

theorem encodeContainer_spell
    {encode : Text → PyValue F → Emission} {spell : PyValue F → Text} {c : Container F}
    (hempty : emptyText c = none)
    (hencode : ∀ value, Encodes encode value (spell value))
    (hfailure : (encodeContainer encode c).failure = none) :
    (encodeContainer encode c).text = spellContainer spell c := by
  cases c with
  | list items =>
      cases items with
      | nil =>
          cases hempty
      | cons item items =>
          rw [encodeContainer, encodeItems] at hfailure ⊢
          obtain ⟨hitems, -⟩ := Emission.andThen_failure hfailure
          obtain ⟨hfirst, hrest⟩ := Emission.andThen_failure hitems
          rw [Emission.andThen_text hitems, Emission.andThen_text hfirst,
            hencode item _ hfirst, encodeItems_spell (fun item _ => hencode item) hrest]
          simp [spellContainer, Container.brackets, Container.iterator,
            TraversalIterator.texts, joined]
  | dict entries hnodup =>
      cases entries with
      | nil =>
          cases hempty
      | cons entry entries =>
          obtain ⟨key, item⟩ := entry
          rw [encodeContainer] at hfailure ⊢
          obtain ⟨hopen, hmembers⟩ := Emission.andThen_failure hfailure
          obtain ⟨hentries, -⟩ := Emission.andThen_failure hmembers
          rw [Emission.andThen_text hopen, Emission.andThen_text hentries]
          cases key with
          | other =>
              cases hentries
          | str key =>
              rw [encodeEntries] at hentries ⊢
              obtain ⟨hkey, hentry⟩ := Emission.andThen_failure hentries
              obtain ⟨hitem, hrest⟩ := Emission.andThen_failure hentry
              rw [Emission.andThen_text hkey, Emission.andThen_text hitem,
                hencode item _ hitem, encodeEntries_spell (fun entry _ => hencode entry.2) hrest]
              simp [Emission.text, Emission.yield, spellContainer, Container.brackets,
                Container.iterator, TraversalIterator.texts, joined, spellEntry]

theorem spellContainer_of_emptyText
    {spell : PyValue F → Text} {c : Container F} {empty : Text}
    (h : emptyText c = some empty) :
    empty = spellContainer spell c := by
  unfold emptyText at h
  split at h
  · obtain rfl := Option.some.inj h
    rfl
  · obtain rfl := Option.some.inj h
    rfl
  · cases h

theorem iterencode_scalar
    {floats : Floats F} {h : Heap F} {value : PyValue F}
    (hscalar : ∀ id, value ≠ .ref id) {frames : Nat} {markers : List Nat} {buf : Text} :
    iterencode floats h frames markers buf value = encodeScalar floats buf value := by
  cases value with
  | ref id =>
      exact absurd rfl (hscalar id)
  | _ => cases frames <;> rfl

/-- The values that are no containers are written as they are spelled. -/
theorem encodeScalar_spell
    {floats : Floats F} {h : Heap F} {value : PyValue F}
    (hscalar : ∀ id, value ≠ .ref id) (n : Nat) :
    Encodes (encodeScalar floats) value (spell floats h n value) := by
  intro buf hfailure
  cases value with
  | none =>
      simp [encodeScalar, spell]
  | bool b =>
      cases b <;> simp [encodeScalar, spell]
  | int i =>
      simp [encodeScalar, spell]
  | float x =>
      simp only [encodeScalar] at hfailure ⊢
      split at hfailure
      case isTrue hfinite =>
        simp [spell, hfinite]
      case isFalse =>
        cases hfailure
  | str t =>
      simp [encodeScalar, spell]
  | ref id =>
      exact absurd rfl (hscalar id)
  | other =>
      cases (Emission.andThen_failure hfailure).2

/-- **What the encoder writes is the text of the graph.** -/
theorem iterencode_spell
    {floats : Floats F} {h : Heap F} {frames n : Nat}
    (hle : frames ≤ n) (markers : List Nat) (value : PyValue F) :
    Encodes (iterencode floats h frames markers) value (spell floats h n value) := by
  induction frames generalizing n markers value with
  | zero =>
      intro buf hfailure
      by_cases hscalar : ∀ id, value ≠ .ref id
      · rw [iterencode_scalar hscalar] at hfailure ⊢
        exact encodeScalar_spell hscalar n buf hfailure
      · obtain ⟨id, rfl⟩ := not_forall_not.mp hscalar
        rw [iterencode] at hfailure
        cases (Emission.andThen_failure hfailure).2
  | succ frames ih =>
      intro buf hfailure
      by_cases hscalar : ∀ id, value ≠ .ref id
      · rw [iterencode_scalar hscalar] at hfailure ⊢
        exact encodeScalar_spell hscalar n buf hfailure
      · obtain ⟨id, rfl⟩ := not_forall_not.mp hscalar
        obtain ⟨n, rfl⟩ : ∃ m, n = m + 1 := ⟨n - 1, by omega⟩
        rw [iterencode] at hfailure ⊢
        obtain ⟨hbuf, hchunks⟩ := Emission.andThen_failure hfailure
        rw [Emission.andThen_text hbuf, bufferChunk_text, spell]
        congr 1
        split at hchunks
        case h_1 empty hempty =>
          rw [Emission.yield_text]
          exact spellContainer_of_emptyText hempty
        case h_2 hnonempty =>
          split at hchunks
          case isTrue =>
            cases hchunks
          case isFalse hmarker =>
            rw [if_neg hmarker]
            exact encodeContainer_spell hnonempty
              (fun value => ih (Nat.le_of_succ_le_succ hle) (id :: markers) value) hchunks

end Spell

end Serde
end Bluetape
