import Bluetape.Base.JsonReading

/-!
# JSON in ASCII

A writer may escape every character outside the printable ASCII range, and a
character outside the basic plane by its surrogate pair.  What it writes is
ASCII, and a reader gives the text back.
-/

namespace Bluetape
namespace Base

theorem utf8EncodeChar_ofNat :
    ∀ n < 128, String.utf8EncodeChar (Char.ofNat n) = [UInt8.ofNat n] := by
  decide

/-- The ASCII bytes of a text are its UTF-8 bytes. -/
theorem encodeUtf8_of_encodeAscii
    {t : Text} {bs : Bytes}
    (h : encodeAscii t = some bs) :
    encodeUtf8 t = some bs := by
  unfold encodeAscii at h
  induction t generalizing bs with
  | nil =>
      cases h
      rfl
  | cons p t ih =>
      rw [List.mapM_cons] at h
      obtain ⟨b, hb, h⟩ := Option.bind_eq_some_iff.mp h
      obtain ⟨bs', hbs', h⟩ := Option.bind_eq_some_iff.mp h
      cases h
      obtain ⟨rfl, hlt⟩ := asciiByte?_eq_some_iff.mp hb
      obtain ⟨cs, hcs, hbytes⟩ := Option.map_eq_some_iff.mp (ih hbs')
      have hchar : String.utf8EncodeChar (Char.ofNat b.toNat) = [b] := by
        rw [utf8EncodeChar_ofNat _ hlt, UInt8.ofNat_toNat]
      simp [encodeUtf8, List.mapM_cons, CodePoint.scalar?, hcs, hchar, hbytes]

theorem decodeUtf8_of_encodeAscii
    {t : Text} {bs : Bytes}
    (h : encodeAscii t = some bs) :
    decodeUtf8 bs = some t :=
  encodeUtf8_eq_some_iff.mp (encodeUtf8_of_encodeAscii h)

/-- A text with UTF-8 bytes has no surrogate. -/
theorem not_surrogate_of_encodeUtf8
    {t : Text} {bs : Bytes}
    (h : encodeUtf8 t = some bs) :
    ∀ p ∈ t, ¬(0xD800 ≤ p.ord ∧ p.ord ≤ 0xDFFF) := by
  obtain ⟨cs, hcs, -⟩ := Option.map_eq_some_iff.mp h
  obtain rfl := scalars_eq_some_iff.mp hcs
  intro p hp
  obtain ⟨c, -, rfl⟩ := List.mem_map.mp hp
  rw [CodePoint.ord]
  rcases c.valid with hlow | ⟨hhigh, -⟩
  · exact fun h => absurd hlow (not_lt.mpr h.1)
  · exact fun h => absurd hhigh (not_lt.mpr h.2)

theorem encodeAscii_append
    {t u : Text} {bs cs : Bytes}
    (ht : encodeAscii t = some bs)
    (hu : encodeAscii u = some cs) :
    encodeAscii (t ++ u) = some (bs ++ cs) := by
  unfold encodeAscii at ht hu ⊢
  rw [List.mapM_append, ht, hu]
  rfl

/-- The bytes of a text of ASCII characters. -/
theorem encodeAscii_of_ascii
    {t : Text}
    (h : ∀ p ∈ t, p.ord < 128) :
    encodeAscii t = some (t.map fun p => UInt8.ofNat p.ord) := by
  unfold encodeAscii
  induction t with
  | nil =>
      rfl
  | cons p t ih =>
      have hp := h p List.mem_cons_self
      rw [List.mapM_cons, ih fun q hq => h q (List.mem_cons_of_mem p hq), CodePoint.asciiByte?,
        if_pos hp]
      rfl

theorem encodeAscii_isSome
    {t : Text}
    (h : ∀ p ∈ t, p.ord < 128) :
    ∃ bs, encodeAscii t = some bs :=
  ⟨_, encodeAscii_of_ascii h⟩

namespace Json

/-- The pair of numbers that a surrogate pair writes a code point with. -/
def surrogatePair (n : Nat) : Nat × Nat :=
  (0xD800 + (n - 0x10000) / 1024, 0xDC00 + (n - 0x10000) % 1024)

/-- A code point inside a string of ASCII characters. -/
def escapeAscii (p : CodePoint) : Text :=
  match shortEscape p with
  | some e => [escapeMark, e]
  | none =>
      if 0x20 ≤ p.ord ∧ p.ord ≤ 0x7E then [p]
      else if p.ord < 0x10000 then hexEscape p.ord
      else hexEscape (surrogatePair p.ord).1 ++ hexEscape (surrogatePair p.ord).2

/-- The string token of a text, in ASCII characters. -/
def quoteAscii (t : Text) : Text :=
  quotationMark :: t.flatMap escapeAscii ++ [quotationMark]

/-- How a reader sees a code point of a text quoted in ASCII. -/
def unitsOf (p : CodePoint) : List StringUnit :=
  if (shortEscape p).isSome ∨ (0x20 ≤ p.ord ∧ p.ord ≤ 0x7E) then [.plain p]
  else if p.ord < 0x10000 then [.escaped p.ord]
  else [.escaped (surrogatePair p.ord).1, .escaped (surrogatePair p.ord).2]

theorem chr_ord
    (p : CodePoint) :
    chr p.ord = p := by
  cases p with
  | scalar c =>
      have hvalid : ¬(0xD800 ≤ c.toNat ∧ c.toNat < 0xE000) := by
        rcases c.valid with h | ⟨h, -⟩
        · exact fun hs => absurd h (Nat.not_lt.mpr hs.1)
        · exact fun hs => absurd hs.2 (Nat.not_lt.mpr h)
      rw [CodePoint.ord, chr, dif_neg hvalid, Char.ofNat_toNat]
  | surrogate n =>
      have hlt := n.isLt
      rw [CodePoint.ord, chr, dif_pos (by omega)]
      simp

theorem ord_lt
    (p : CodePoint) :
    p.ord < 0x110000 := by
  cases p with
  | scalar c =>
      rcases c.valid with h | ⟨-, h⟩
      · exact lt_trans h (by decide)
      · exact h
  | surrogate n =>
      have hlt := n.isLt
      rw [CodePoint.ord]
      omega

theorem scanUnits_escapeAscii
    (p : CodePoint) (rest : Text) :
    scanUnits (escapeAscii p ++ rest) =
      (scanUnits rest).map fun (units, rest) => (unitsOf p ++ units, rest) := by
  unfold escapeAscii
  cases hshort : shortEscape p with
  | some e =>
      obtain ⟨hsimple, hu⟩ := simpleEscape_of_shortEscape hshort
      have hunits : unitsOf p = [.plain p] := by simp [unitsOf, hshort]
      simp only [List.cons_append, List.nil_append, hunits]
      rw [scanUnits.eq_def]
      simp only [if_neg (by decide : escapeMark ≠ quotationMark), if_true, if_neg hu, hsimple]
      cases scanUnits rest <;> rfl
  | none =>
      obtain ⟨hquote, hmark⟩ := ne_marks_of_shortEscape hshort
      have hlt := ord_lt p
      by_cases hplain : 0x20 ≤ p.ord ∧ p.ord ≤ 0x7E
      · have hcontrol : ¬p.ord < 0x20 := by omega
        have hunits : unitsOf p = [.plain p] := if_pos (Or.inr hplain)
        simp only [if_pos hplain, List.cons_append, List.nil_append, hunits]
        rw [scanUnits.eq_def]
        simp only [if_neg hquote, if_neg hmark, if_neg hcontrol]
        cases scanUnits rest <;> rfl
      · by_cases hbasic : p.ord < 0x10000
        · have hunits : unitsOf p = [.escaped p.ord] := by
            simp [unitsOf, hshort, hplain, hbasic]
          simp only [if_neg hplain, if_pos hbasic, hunits]
          exact scanUnits_hexEscape hbasic rest
        · have hunits : unitsOf p =
              [.escaped (surrogatePair p.ord).1, .escaped (surrogatePair p.ord).2] := by
            simp [unitsOf, hshort, hplain, hbasic]
          simp only [if_neg hplain, if_neg hbasic, hunits]
          rw [List.append_assoc, scanUnits_hexEscape (by simp only [surrogatePair]; omega),
            scanUnits_hexEscape (by simp only [surrogatePair]; omega)]
          cases scanUnits rest <;> rfl

theorem scanUnits_quoteAscii
    (t rest : Text) :
    scanUnits (t.flatMap escapeAscii ++ quotationMark :: rest) =
      some (t.flatMap unitsOf, rest) := by
  induction t with
  | nil =>
      rw [List.flatMap_nil, List.nil_append, scanUnits.eq_def]
      rfl
  | cons p t ih =>
      rw [List.flatMap_cons, List.append_assoc, scanUnits_escapeAscii, ih]
      rfl

/-- Escapes are joined again to the code points that they were made of. -/
theorem joinFrom_flatMap_unitsOf
    {t : Text} {pending : Option Nat}
    (ht : ∀ p ∈ t, ¬(0xD800 ≤ p.ord ∧ p.ord ≤ 0xDFFF))
    (hpending : ∀ n ∈ pending, ¬(0xD800 ≤ n ∧ n ≤ 0xDBFF)) :
    joinFrom pending (t.flatMap unitsOf) = pending.toList.map chr ++ t := by
  induction t generalizing pending with
  | nil =>
      simp [joinFrom]
  | cons p t ih =>
      have hp := ht p List.mem_cons_self
      have ht' : ∀ q ∈ t, ¬(0xD800 ≤ q.ord ∧ q.ord ≤ 0xDFFF) :=
        fun q hq => ht q (List.mem_cons_of_mem p hq)
      have hlt := ord_lt p
      -- an escape that is no second half leaves the pending one alone
      have hflush : ∀ n units, joinFrom pending (.escaped n :: units) =
          pending.toList.map chr ++ joinFrom (some n) units := by
        intro n units
        cases pending with
        | none =>
            rfl
        | some high =>
            have hhigh := hpending high rfl
            rw [joinFrom, if_neg]
            · rfl
            · simp only [isSurrogatePair, decide_eq_true_eq]
              omega
      rw [List.flatMap_cons, unitsOf]
      split
      case isTrue =>
        rw [List.singleton_append, joinFrom, ih ht' (by simp)]
        simp
      case isFalse =>
        split
        case isTrue hbasic =>
          have hpending' : ∀ n ∈ some p.ord, ¬(0xD800 ≤ n ∧ n ≤ 0xDBFF) := by
            rintro n hn
            obtain rfl := Option.some.inj hn
            omega
          rw [List.singleton_append, hflush, ih ht' hpending']
          simp [chr_ord]
        case isFalse hastral =>
          have hpair : isSurrogatePair (surrogatePair p.ord).1 (surrogatePair p.ord).2 = true := by
            rw [isSurrogatePair, decide_eq_true_eq]
            simp only [surrogatePair]
            omega
          have hjoin : joinPair (surrogatePair p.ord).1 (surrogatePair p.ord).2 = p := by
            have hnumber : 0x10000 + ((surrogatePair p.ord).1 - 0xD800) * 1024 +
                ((surrogatePair p.ord).2 - 0xDC00) = p.ord := by
              simp only [surrogatePair]
              omega
            rw [joinPair, hnumber, chr_ord]
          rw [List.cons_append, List.cons_append, List.nil_append, hflush, joinFrom, if_pos hpair,
            hjoin, ih ht' (by simp)]
          rfl

/-- **A text quoted in ASCII scans as itself**, unless it has a surrogate. -/
theorem scanString_quoteAscii
    {t : Text}
    (ht : ∀ p ∈ t, ¬(0xD800 ≤ p.ord ∧ p.ord ≤ 0xDFFF)) (rest : Text) :
    scanString (t.flatMap escapeAscii ++ quotationMark :: rest) = some (t, rest) := by
  have hnone : ∀ n ∈ (none : Option Nat), ¬(0xD800 ≤ n ∧ n ≤ 0xDBFF) := by
    simp
  rw [scanString, scanUnits_quoteAscii, Option.map_some]
  simp [joinFrom_flatMap_unitsOf ht hnone]

/-- **A string in ASCII reads as its text**, unless it has a surrogate. -/
theorem scanOnce_quoteAscii
    {ε α : Type} {hooks : Hooks ε α} {frames : Nat} {t : Text}
    (ht : ∀ p ∈ t, ¬(0xD800 ≤ p.ord ∧ p.ord ≤ 0xDFFF)) :
    Reads (scanOnce hooks frames) (quoteAscii t) (hooks.string t) := by
  intro rest hrest
  have htext : quoteAscii t ++ rest =
      quotationMark :: (t.flatMap escapeAscii ++ quotationMark :: rest) := by
    simp [quoteAscii]
  have hstring : ∀ nested, scanValue hooks nested (quoteAscii t ++ rest) =
      .ok (hooks.string t, rest) := by
    intro nested
    rw [htext, scanValue, if_pos rfl, scanString_quoteAscii ht]
    rfl
  cases frames with
  | zero =>
      exact hstring none
  | succ frames =>
      exact hstring _

theorem startsValue_quoteAscii
    (t : Text) :
    StartsValue (quoteAscii t) :=
  ⟨_, _, rfl, by decide⟩

theorem hexEscape_ascii
    (n : Nat) :
    ∀ p ∈ hexEscape n, p.ord < 128 := by
  have hdigit : ∀ m < 16, (hexDigit m).ord < 128 := by
    decide
  have hmod : ∀ m, (hexDigit (m % 16)).ord < 128 := fun m =>
    hdigit _ (Nat.mod_lt m (by decide))
  intro p hp
  simp only [hexEscape, List.mem_cons, List.not_mem_nil, or_false] at hp
  rcases hp with rfl | rfl | rfl | rfl | rfl | rfl
  · decide
  · decide
  all_goals exact hmod _

theorem escapeAscii_ascii
    (q : CodePoint) :
    ∀ p ∈ escapeAscii q, p.ord < 128 := by
  unfold escapeAscii
  cases hshort : shortEscape q with
  | some e =>
      intro p hp
      rcases List.mem_pair.mp hp with rfl | rfl
      · decide
      · unfold shortEscape at hshort
        split_ifs at hshort with hself
        · obtain rfl := Option.some.inj hshort
          rcases hself with rfl | rfl <;> decide
        all_goals
          obtain rfl := Option.some.inj hshort
          decide
  | none =>
      dsimp only
      split
      case isTrue hplain =>
        intro p hp
        rw [List.mem_singleton.mp hp]
        omega
      case isFalse =>
        split
        case isTrue =>
          exact hexEscape_ascii _
        case isFalse =>
          intro p hp
          rcases List.mem_append.mp hp with hp | hp
          · exact hexEscape_ascii _ p hp
          · exact hexEscape_ascii _ p hp

/-- A text quoted in ASCII is ASCII. -/
theorem quoteAscii_ascii
    (t : Text) :
    ∀ p ∈ quoteAscii t, p.ord < 128 := by
  intro p hp
  simp only [quoteAscii, List.cons_append, List.mem_cons, List.mem_append, List.mem_flatMap,
    List.not_mem_nil, or_false] at hp
  rcases hp with rfl | ⟨q, -, hp⟩ | rfl
  · decide
  · exact escapeAscii_ascii q p hp
  · decide

end Json
end Base
end Bluetape
