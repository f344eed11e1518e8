import Bluetape.Base.JsonNesting
import Bluetape.Serde.JsonScan

/-!
# What the depth scanner guards

The scanner knows strings and brackets only; the reader that it guards knows the
grammar.  Where the reader reads a value, the scanner crosses the text of the value at
its depth and meets the limit exactly when the value nests too deep.  Where the reader
descends into a container, the scanner has counted the containers around it.

* `Crosses`: what the scanner does on the text of a value;
* `scanOnce_crosses`: it does so wherever the reader reads a value;
* `preflight_guards_reader`: the two agree on what they read, and the scanner stops
  before the reader descends too deep.
-/

namespace Bluetape
namespace Serde

open Base Base.Json

section Crossing

/--
The scanner gets over the text in front of the rest, whose brackets nest so many
containers, and is at the depth where it was before.
-/
def Crosses (n : Nat) (t rest : Text) : Prop :=
  ∀ ⦃limit depth : Nat⦄, depth ≤ limit →
    preflightJsonText limit false false depth t =
      if limit < depth + n then .error .nestingLimit
      else preflightJsonText limit false false depth rest

theorem Crosses.trans
    {n m : Nat} {t u rest : Text}
    (h : Crosses n t u)
    (h' : Crosses m u rest) :
    Crosses (max n m) t rest := by
  intro limit depth hdepth
  rw [h hdepth, h' hdepth]
  split
  · rw [if_pos (by omega)]
  · exact if_congr (by omega) rfl rfl

theorem Crosses.trans_plain
    {n : Nat} {t u rest : Text}
    (h : Crosses n t u)
    (h' : Crosses 0 u rest) :
    Crosses n t rest := by
  have hboth := h.trans h'
  rwa [Nat.max_zero] at hboth

theorem crosses_append
    {front : Text} (h : front.all isPlain = true) (rest : Text) :
    Crosses 0 (front ++ rest) rest := by
  intro limit depth hdepth
  rw [if_neg (by omega)]
  exact passesOver_plain h depth rest

theorem crosses_cons
    {p : CodePoint} (h : isPlain p = true) (rest : Text) :
    Crosses 0 (p :: rest) rest :=
  crosses_append (List.all_eq_true.mpr fun _ hq => List.mem_singleton.mp hq ▸ h) rest

theorem isPlain_of_isSpace
    {p : CodePoint} (h : isSpace p = true) :
    isPlain p = true := by
  simp only [isSpace, Bool.or_eq_true, decide_eq_true_eq] at h
  rcases h with ((rfl | rfl) | rfl) | rfl <;> decide

theorem crosses_skipSpace
    (t : Text) :
    Crosses 0 t (skipSpace t) := by
  have hspace : (t.takeWhile isSpace).all isPlain = true :=
    List.all_eq_true.mpr fun p hp => isPlain_of_isSpace (List.mem_takeWhile_imp hp)
  have hcross := crosses_append hspace (skipSpace t)
  rwa [skipSpace_split] at hcross

theorem isPlain_of_continuesNumber
    {p : CodePoint} (h : continuesNumber p = true) :
    isPlain p = true := by
  simp only [isPlain, decide_eq_true_eq]
  refine ⟨?_, ?_, ?_, ?_, ?_⟩
  all_goals
    rintro rfl
    exact absurd h (by decide)

theorem crosses_number
    {t rest : Text} {n : NumberText}
    (h : scanNumber t = some (n, rest)) :
    Crosses 0 t rest := by
  have hplain : n.text.all isPlain = true :=
    List.all_eq_true.mpr fun p hp =>
      isPlain_of_continuesNumber (continuesNumber_of_mem_number h p hp)
  have hcross := crosses_append hplain rest
  rwa [scanNumber_split h] at hcross

theorem crosses_prefix
    (front : Text) {t : Text}
    (hfront : front.all isPlain = true)
    (h : front.isPrefixOf t = true) :
    Crosses 0 t (t.drop front.length) := by
  obtain ⟨rest, rfl⟩ := List.isPrefixOf_iff_prefix.mp h
  rw [List.drop_left]
  exact crosses_append hfront rest

/-- A container is crossed when what is inside is, one level deeper. -/
theorem Crosses.container
    {begin close : CodePoint} {n : Nat} {t rest : Text}
    (hbegin : begin = beginArray ∨ begin = beginObject)
    (hclose : close = endArray ∨ close = endObject)
    (h : Crosses n t (close :: rest)) :
    Crosses (n + 1) (begin :: t) rest := by
  intro limit depth hdepth
  have hbeginQuote : begin ≠ quotationMark := by
    rcases hbegin with rfl | rfl <;> decide
  have hcloseQuote : close ≠ quotationMark := by
    rcases hclose with rfl | rfl <;> decide
  have hcloseBegin : ¬(close = beginArray ∨ close = beginObject) := by
    rcases hclose with rfl | rfl <;> decide
  rw [preflightJsonText, if_neg hbeginQuote, if_pos hbegin]
  by_cases hlimit : depth + 1 > limit
  · rw [if_pos hlimit, if_pos (by omega)]
  · have hinside : preflightJsonText limit false false (depth + 1) (close :: rest) =
        preflightJsonText limit false false depth rest := by
      rw [preflightJsonText, if_neg hcloseQuote, if_neg hcloseBegin,
        if_pos ⟨hclose, by omega⟩, Nat.add_sub_cancel]
    rw [if_neg hlimit, h (by omega), hinside]
    exact if_congr (by omega) rfl rfl

end Crossing

/-! ## Strings -/

section Strings

variable {limit depth : Nat}

theorem preflight_inString_cons
    {p : CodePoint}
    (hquote : p ≠ quotationMark)
    (hmark : p ≠ escapeMark)
    (rest : Text) :
    preflightJsonText limit true false depth (p :: rest) =
      preflightJsonText limit true false depth rest := by
  rw [preflightJsonText, if_neg (by decide), if_neg hmark, if_neg hquote]

theorem preflight_inString_escape
    (p : CodePoint) (rest : Text) :
    preflightJsonText limit true false depth (escapeMark :: p :: rest) =
      preflightJsonText limit true false depth rest := by
  rw [preflightJsonText, if_neg (by decide), if_pos rfl, preflightJsonText, if_pos rfl]

theorem ne_marks_of_hexValue
    {p : CodePoint} {n : Nat}
    (h : hexValue p = some n) :
    p ≠ quotationMark ∧ p ≠ escapeMark := by
  constructor
  · rintro rfl
    exact absurd h (by simp [hexValue, CodePoint.ord])
  · rintro rfl
    exact absurd h (by simp [hexValue, CodePoint.ord])

/-- The scanner leaves a string where the reader does. -/
theorem preflight_scanUnits
    {t rest : Text} {units : List StringUnit}
    (h : scanUnits t = some (units, rest)) :
    preflightJsonText limit true false depth t =
      preflightJsonText limit false false depth rest := by
  fun_induction scanUnits t generalizing units with
  | case1 =>
      cases h
  | case2 t =>
      obtain ⟨-, rfl⟩ := Prod.mk.inj (Option.some.inj h)
      rw [preflightJsonText, if_neg (by decide), if_neg (by decide), if_pos rfl]
  | case3 =>
      cases h
  | case4 hquote a b c d t ih =>
      simp only [Option.bind_eq_bind, Option.bind_eq_some_iff] at h
      obtain ⟨n, hn, ⟨later, after⟩, hlater, h⟩ := h
      obtain ⟨-, rfl⟩ := Prod.mk.inj (Option.some.inj h)
      simp only [hexNumber, Option.bind_eq_bind, Option.bind_eq_some_iff] at hn
      obtain ⟨w, ha, x, hb, y, hc, z, hd, -⟩ := hn
      rw [preflight_inString_escape,
        preflight_inString_cons (ne_marks_of_hexValue ha).1 (ne_marks_of_hexValue ha).2,
        preflight_inString_cons (ne_marks_of_hexValue hb).1 (ne_marks_of_hexValue hb).2,
        preflight_inString_cons (ne_marks_of_hexValue hc).1 (ne_marks_of_hexValue hc).2,
        preflight_inString_cons (ne_marks_of_hexValue hd).1 (ne_marks_of_hexValue hd).2]
      exact ih hlater
  | case5 =>
      cases h
  | case6 hquote e t hunicode ih =>
      simp only [Option.bind_eq_bind, Option.bind_eq_some_iff] at h
      obtain ⟨q, -, ⟨later, after⟩, hlater, h⟩ := h
      obtain ⟨-, rfl⟩ := Prod.mk.inj (Option.some.inj h)
      rw [preflight_inString_escape]
      exact ih hlater
  | case7 =>
      cases h
  | case8 p t hquote hmark hcontrol ih =>
      simp only [Option.bind_eq_bind, Option.bind_eq_some_iff] at h
      obtain ⟨⟨later, after⟩, hlater, h⟩ := h
      obtain ⟨-, rfl⟩ := Prod.mk.inj (Option.some.inj h)
      rw [preflight_inString_cons hquote hmark]
      exact ih hlater

theorem crosses_string
    {t value rest : Text}
    (h : scanString t = some (value, rest)) :
    Crosses 0 (quotationMark :: t) rest := by
  intro limit depth hdepth
  simp only [scanString, Option.map_eq_some_iff] at h
  obtain ⟨⟨units, after⟩, hunits, h⟩ := h
  obtain ⟨-, rfl⟩ := Prod.mk.inj h
  rw [if_neg (by omega), preflightJsonText, if_pos rfl]
  exact preflight_scanUnits hunits

theorem crosses_memberHead
    {t name v : Text}
    (h : memberHead t = some (name, v)) :
    Crosses 0 t v := by
  simp only [memberHead, Option.bind_eq_bind, Option.bind_eq_some_iff] at h
  obtain ⟨rest, hquote, ⟨name', rest'⟩, hname, rest'', hseparator, h⟩ := h
  obtain ⟨-, rfl⟩ := Prod.mk.inj (Option.some.inj h)
  have hspace := crosses_skipSpace rest'
  rw [expect_eq_some_iff.mp hseparator] at hspace
  rw [expect_eq_some_iff.mp hquote]
  exact (crosses_string hname).trans_plain (hspace.trans_plain
    ((crosses_cons (by decide) rest'').trans_plain (crosses_skipSpace rest'')))

end Strings

/-! ## Values -/

section Values

variable {ε α β : Type}

/-- Where a scanner reads an item, the depth scanner crosses it. -/
def ItemCrosses (item : Scanner ε β) (measures : β → Nat → Prop) (frames : Nat) : Prop :=
  ∀ ⦃t value rest⦄, item t = .ok (value, rest) →
    ∃ n ≤ frames, measures value n ∧ Crosses n t rest

theorem separated_crosses
    {close : CodePoint} {item : Scanner ε β} {measures : β → Nat → Prop} {frames : Nat}
    (hitem : ItemCrosses item measures frames)
    {fuel : Nat} {t rest : Text} {values : List β}
    (h : separated close item fuel t = .ok (values, rest)) :
    ∃ nestings, List.Forall₂ measures values nestings ∧ deepest nestings ≤ frames ∧
      Crosses (deepest nestings) t (close :: rest) := by
  induction fuel generalizing t values with
  | zero =>
      cases h
  | succ fuel ih =>
      simp only [separated, except_bind_eq_ok] at h
      obtain ⟨⟨value, after⟩, hvalue, h⟩ := h
      obtain ⟨n, hn, hmeasure, hcross⟩ := hitem hvalue
      have hspace := crosses_skipSpace after
      dsimp only at h
      split at h
      · rename_i last hlast
        obtain ⟨rfl, rfl⟩ := Prod.mk.inj (Except.ok.inj h)
        rw [expect_eq_some_iff.mp hlast] at hspace
        refine ⟨[n], .cons hmeasure .nil, by simpa using hn, ?_⟩
        simpa using hcross.trans_plain hspace
      · simp only [except_bind_eq_ok] at h
        obtain ⟨comma, hcomma, ⟨later, last⟩, hlater, h⟩ := h
        obtain ⟨rfl, rfl⟩ := Prod.mk.inj (Except.ok.inj h)
        obtain ⟨nestings, hmeasures, hdeepest, hcrosses⟩ := ih hlater
        rw [expect_eq_some_iff.mp (orRaise_eq_ok.mp hcomma)] at hspace
        have hseparator : Crosses 0 after (skipSpace comma) :=
          hspace.trans_plain
            ((crosses_cons (by decide) comma).trans_plain (crosses_skipSpace comma))
        refine ⟨n :: nestings, .cons hmeasure hmeasures, by simp [hn, hdeepest], ?_⟩
        exact (hcross.trans_plain hseparator).trans hcrosses

variable {hooks : Hooks ε α} {measures : α → Nat → Prop} {scan : Scanner ε α} {frames : Nat}

theorem parseArray_crosses
    (hm : Measured hooks measures)
    (hscan : ItemCrosses scan measures frames)
    {t rest : Text} {value : α}
    (h : parseArray hooks scan t = .ok (value, rest)) :
    ∃ n ≤ frames + 1, measures value n ∧ Crosses n (beginArray :: t) rest := by
  have hspace := crosses_skipSpace t
  unfold parseArray at h
  split at h
  · rename_i after hafter
    obtain ⟨rfl, rfl⟩ := Prod.mk.inj (Except.ok.inj h)
    rw [expect_eq_some_iff.mp hafter] at hspace
    exact ⟨1, by omega, hm.array .nil, hspace.container (Or.inl rfl) (Or.inl rfl)⟩
  · obtain ⟨⟨values, after⟩, hvalues, h⟩ := except_bind_eq_ok.mp h
    obtain ⟨rfl, rfl⟩ := Prod.mk.inj (Except.ok.inj h)
    rw [arrayElements_eq_separated] at hvalues
    obtain ⟨nestings, hmeasures, hdeepest, hcrosses⟩ := separated_crosses hscan hvalues
    have hinside := hspace.trans hcrosses
    rw [Nat.zero_max] at hinside
    exact ⟨deepest nestings + 1, by omega, hm.array hmeasures,
      hinside.container (Or.inl rfl) (Or.inl rfl)⟩

theorem objectMember_crosses
    (hscan : ItemCrosses scan measures frames) :
    ItemCrosses (objectMember scan) (fun pair n => measures pair.2 n) frames := by
  intro t pair rest h
  obtain ⟨v, hhead, hvalue⟩ := objectMember_eq_ok_iff.mp h
  obtain ⟨n, hn, hmeasure, hcross⟩ := hscan hvalue
  have hboth := (crosses_memberHead hhead).trans hcross
  rw [Nat.zero_max] at hboth
  exact ⟨n, hn, hmeasure, hboth⟩

theorem parseObject_crosses
    (hm : Measured hooks measures)
    (hscan : ItemCrosses scan measures frames)
    {t rest : Text} {value : α}
    (h : parseObject hooks scan t = .ok (value, rest)) :
    ∃ n ≤ frames + 1, measures value n ∧ Crosses n (beginObject :: t) rest := by
  have hspace := crosses_skipSpace t
  unfold parseObject at h
  dsimp only at h
  split at h
  · rename_i after hafter
    obtain ⟨pairs, hpairs, h⟩ := except_bind_eq_ok.mp h
    obtain rfl := Except.ok.inj hpairs
    obtain ⟨value', hvalue, h⟩ := except_bind_eq_ok.mp h
    obtain ⟨rfl, rfl⟩ := Prod.mk.inj (Except.ok.inj h)
    rw [expect_eq_some_iff.mp hafter] at hspace
    exact ⟨1, by omega, hm.objectPairs .nil (mapError_eq_ok.mp hvalue),
      hspace.container (Or.inr rfl) (Or.inr rfl)⟩
  · obtain ⟨⟨pairs, after⟩, hpairs, h⟩ := except_bind_eq_ok.mp h
    obtain ⟨value', hvalue, h⟩ := except_bind_eq_ok.mp h
    obtain ⟨rfl, rfl⟩ := Prod.mk.inj (Except.ok.inj h)
    rw [objectMembers_eq_separated] at hpairs
    obtain ⟨nestings, hmeasures, hdeepest, hcrosses⟩ :=
      separated_crosses (objectMember_crosses hscan) hpairs
    have hinside := hspace.trans hcrosses
    rw [Nat.zero_max] at hinside
    exact ⟨deepest nestings + 1, by omega,
      hm.objectPairs hmeasures (mapError_eq_ok.mp hvalue),
      hinside.container (Or.inr rfl) (Or.inr rfl)⟩

theorem scanScalar_crosses
    (hm : Measured hooks measures) :
    ItemCrosses (scanScalar hooks) measures 0 := by
  intro t value rest h
  unfold scanScalar at h
  split at h
  · rename_i n after hnumber
    obtain ⟨value', hvalue, h⟩ := except_bind_eq_ok.mp h
    obtain ⟨rfl, rfl⟩ := Prod.mk.inj (Except.ok.inj h)
    refine ⟨0, le_rfl, ?_, crosses_number hnumber⟩
    split at hvalue
    · exact hm.parseInt (mapError_eq_ok.mp hvalue)
    · exact hm.parseFloat (mapError_eq_ok.mp hvalue)
  · obtain ⟨constant, hconstant, h⟩ := except_bind_eq_ok.mp h
    obtain ⟨value', hvalue, h⟩ := except_bind_eq_ok.mp h
    obtain ⟨rfl, rfl⟩ := Prod.mk.inj (Except.ok.inj h)
    have hfind := orRaise_eq_ok.mp hconstant
    have hplain : ∀ c ∈ [text "NaN", text "Infinity", text "-Infinity"],
        c.all isPlain = true := by
      decide
    exact ⟨0, le_rfl, hm.parseConstant (mapError_eq_ok.mp hvalue),
      crosses_prefix constant (hplain constant (List.mem_of_find?_eq_some hfind))
        (List.find?_some (p := fun c : Text => c.isPrefixOf t) hfind)⟩

theorem scanValue_crosses
    (hm : Measured hooks measures)
    {nested : Option (Scanner ε α)}
    (hnested : ∀ scan ∈ nested, ∃ n < frames, ItemCrosses scan measures n) :
    ItemCrosses (scanValue hooks nested) measures frames := by
  intro t value rest h
  cases t with
  | nil =>
      cases h
  | cons p t =>
      simp only [scanValue] at h
      split_ifs at h with hquote hobject harray hnull htrue hfalse
      · subst hquote
        obtain ⟨⟨string, after⟩, hstring, h⟩ := except_bind_eq_ok.mp h
        obtain ⟨rfl, rfl⟩ := Prod.mk.inj (Except.ok.inj h)
        exact ⟨0, by omega, hm.string string, crosses_string (orRaise_eq_ok.mp hstring)⟩
      · subst hobject
        obtain ⟨scan, hscan, h⟩ := except_bind_eq_ok.mp h
        obtain ⟨m, hm', hcrosses⟩ := hnested scan (orRaise_eq_ok.mp hscan)
        obtain ⟨n, hn, hmeasure, hcross⟩ := parseObject_crosses hm hcrosses h
        exact ⟨n, by omega, hmeasure, hcross⟩
      · subst harray
        obtain ⟨scan, hscan, h⟩ := except_bind_eq_ok.mp h
        obtain ⟨m, hm', hcrosses⟩ := hnested scan (orRaise_eq_ok.mp hscan)
        obtain ⟨n, hn, hmeasure, hcross⟩ := parseArray_crosses hm hcrosses h
        exact ⟨n, by omega, hmeasure, hcross⟩
      · obtain ⟨rfl, rfl⟩ := Prod.mk.inj (Except.ok.inj h)
        exact ⟨0, by omega, hm.null, crosses_prefix (text "null") (by decide) hnull⟩
      · obtain ⟨rfl, rfl⟩ := Prod.mk.inj (Except.ok.inj h)
        exact ⟨0, by omega, hm.bool true,
          crosses_prefix (text "true") (by decide) htrue⟩
      · obtain ⟨rfl, rfl⟩ := Prod.mk.inj (Except.ok.inj h)
        exact ⟨0, by omega, hm.bool false,
          crosses_prefix (text "false") (by decide) hfalse⟩
      · obtain ⟨n, hn, hmeasure, hcross⟩ := scanScalar_crosses hm h
        exact ⟨n, by omega, hmeasure, hcross⟩

/-- **Where the reader reads a value, the depth scanner crosses it.** -/
theorem scanOnce_crosses
    (hm : Measured hooks measures) (frames : Nat) :
    ItemCrosses (scanOnce hooks frames) measures frames := by
  induction frames with
  | zero =>
      refine scanValue_crosses hm fun scan hscan => ?_
      cases hscan
  | succ frames ih =>
      refine scanValue_crosses hm fun scan hscan => ?_
      obtain rfl := Option.some.inj hscan
      exact ⟨frames, by omega, ih⟩

end Values

/-! ## Descending -/

section Descending

variable {ε α : Type} {hooks : Hooks ε α} {limit depth : Nat}

/-- From this text on, the scanner meets the limit. -/
def MeetsLimit (limit depth : Nat) (t : Text) : Prop :=
  preflightJsonText limit false false depth t = .error .nestingLimit

theorem MeetsLimit.of_crosses
    {n : Nat} {t rest : Text}
    (hdepth : depth ≤ limit)
    (h : Crosses n t rest)
    (hrest : MeetsLimit limit depth rest) :
    MeetsLimit limit depth t := by
  unfold MeetsLimit
  rw [h hdepth, hrest, ite_self]

theorem meetsLimit_container
    {begin : CodePoint} {t : Text}
    (hbegin : begin = beginArray ∨ begin = beginObject)
    (h : depth + 1 ≤ limit → MeetsLimit limit (depth + 1) t) :
    MeetsLimit limit depth (begin :: t) := by
  have hbeginQuote : begin ≠ quotationMark := by
    rcases hbegin with rfl | rfl <;> decide
  unfold MeetsLimit
  rw [preflightJsonText, if_neg hbeginQuote, if_pos hbegin]
  by_cases hlimit : depth + 1 > limit
  · rw [if_pos hlimit]
  · rw [if_neg hlimit]
    exact h (not_lt.mp hlimit)

theorem crosses_of_readsFront
    {t rest : Text}
    (h : ReadsFront hooks t rest) :
    ∃ n, Crosses n t rest := by
  obtain ⟨frames, value, hread⟩ := h
  obtain ⟨n, -, -, hcross⟩ := scanOnce_crosses (measured_any hooks) frames hread
  exact ⟨n, hcross⟩

theorem crosses_of_readsMember
    {t rest : Text}
    (h : ReadsMember hooks t rest) :
    ∃ n, Crosses n t rest := by
  obtain ⟨name, v, hhead, hread⟩ := h
  obtain ⟨n, hcross⟩ := crosses_of_readsFront hread
  exact ⟨_, (crosses_memberHead hhead).trans hcross⟩

/-- What the scanner meets at an item, it meets at the items before. -/
theorem MeetsLimit.of_nextItem
    {reads : Text → Text → Prop} {close : CodePoint} {t u : Text}
    (hreads : ∀ {t rest}, reads t rest → ∃ n, Crosses n t rest)
    (hdepth : depth ≤ limit)
    (hnext : NextItem reads close t u)
    (h : MeetsLimit limit depth u) :
    MeetsLimit limit depth t := by
  induction hnext with
  | here t =>
      exact h
  | @later t rest after u hread hopen hcomma hnext ih =>
      obtain ⟨n, hcross⟩ := hreads hread
      have hspace := crosses_skipSpace rest
      rw [expect_eq_some_iff.mp hcomma] at hspace
      refine .of_crosses hdepth hcross (.of_crosses hdepth hspace ?_)
      refine .of_crosses hdepth (crosses_cons (by decide) after) ?_
      exact .of_crosses hdepth (crosses_skipSpace after) (ih h)

/-- The scanner has met the limit before the reader descends too deep. -/
theorem meetsLimit_of_nestsBeyond
    {n : Nat} {t : Text}
    (h : NestsBeyond hooks n t)
    (hn : limit ≤ depth + n) :
    MeetsLimit limit depth t := by
  induction h generalizing depth with
  | array rest =>
      exact meetsLimit_container (Or.inl rfl) fun hdepth => by omega
  | object rest =>
      exact meetsLimit_container (Or.inr rfl) fun hdepth => by omega
  | @element n rest u hopen hnext hdeep ih =>
      refine meetsLimit_container (Or.inl rfl) fun hdepth => ?_
      refine .of_crosses hdepth (crosses_skipSpace rest) ?_
      exact .of_nextItem crosses_of_readsFront hdepth hnext (ih (by omega))
  | @member n rest u name v hopen hnext hhead hdeep ih =>
      refine meetsLimit_container (Or.inr rfl) fun hdepth => ?_
      refine .of_crosses hdepth (crosses_skipSpace rest) ?_
      refine .of_nextItem crosses_of_readsMember hdepth hnext ?_
      exact .of_crosses hdepth (crosses_memberHead hhead) (ih (by omega))

end Descending

/-! ## Whole texts -/

section Texts

variable {ε α : Type}

/-- The scanner's verdict on a text that is read: it compares the nesting with the limit. -/
theorem preflight_of_loads
    {frames n : Nat} {t : Text}
    (h : loads nestingHooks frames t = .ok n) (maxNestingDepth : Nat) :
    n ≤ frames ∧
      preflightJsonText maxNestingDepth false false 0 t =
        if maxNestingDepth < n then .error .nestingLimit else .ok () := by
  unfold loads at h
  obtain ⟨-, -, h⟩ := except_bind_eq_ok.mp h
  obtain ⟨⟨value, rest⟩, hvalue, h⟩ := except_bind_eq_ok.mp h
  obtain ⟨⟨⟩, hend, h⟩ := except_bind_eq_ok.mp h
  obtain rfl := Except.ok.inj h
  have hend : skipSpace rest = [] := by
    by_contra hne
    simp [raiseIf, hne] at hend
  obtain ⟨n, hn, rfl, hcross⟩ := scanOnce_crosses measured_nestingHooks frames hvalue
  have hall := ((crosses_skipSpace t).trans hcross).trans_plain (crosses_skipSpace rest)
  rw [hend, Nat.zero_max] at hall
  refine ⟨hn, ?_⟩
  rw [hall (Nat.zero_le _), Nat.zero_add]
  rfl

theorem loads_congr
    {hooks : Hooks ε α} {frames frames' : Nat} {t : Text}
    (h : scanOnce hooks frames (skipSpace t) = scanOnce hooks frames' (skipSpace t)) :
    loads hooks frames t = loads hooks frames' t := by
  unfold loads
  rw [h]

/--
**The depth scanner guards the reader.**  Whatever the hooks of the reader are, it opens no
more containers in a text that the scanner accepts than the limit allows, so that it reads the
text alike with any more room.  A text that is read from its first to its last code point is
accepted exactly when its containers nest no deeper than the limit.
-/
theorem preflight_guards_reader
    (maxNestingDepth : Nat) (t : Text) :
    (preflightJsonText maxNestingDepth false false 0 t = .ok () →
      ∀ {ε α : Type} (hooks : Hooks ε α),
        ¬ NestsBeyond hooks maxNestingDepth (skipSpace t) ∧
        ∀ frames, maxNestingDepth ≤ frames →
          loads hooks frames t = loads hooks maxNestingDepth t) ∧
    ∀ frames n, loads nestingHooks frames t = .ok n →
      preflightJsonText maxNestingDepth false false 0 t =
        (if maxNestingDepth < n then .error .nestingLimit else .ok ()) ∧
      (maxNestingDepth < n ↔ NestsBeyond nestingHooks maxNestingDepth (skipSpace t)) := by
  have hguard : preflightJsonText maxNestingDepth false false 0 t = .ok () →
      ∀ {ε α : Type} (hooks : Hooks ε α),
        ¬ NestsBeyond hooks maxNestingDepth (skipSpace t) := by
    intro haccept ε α hooks hdeep
    have hmeets : MeetsLimit maxNestingDepth 0 t :=
      .of_crosses (Nat.zero_le _) (crosses_skipSpace t)
        (meetsLimit_of_nestsBeyond hdeep (Nat.zero_add _).ge)
    rw [MeetsLimit, haccept] at hmeets
    cases hmeets
  constructor
  · intro haccept ε α hooks
    have hshallow := hguard haccept hooks
    refine ⟨hshallow, fun frames hframes => loads_congr ?_⟩
    rcases scanOnce_cut hooks hframes (skipSpace t) with hfail | heq
    · exact absurd ((scanOnce_recursion_iff hooks _ _).mp hfail) hshallow
    · exact heq.symm
  · intro frames n hread
    have hverdict := (preflight_of_loads hread maxNestingDepth).2
    refine ⟨hverdict, ?_⟩
    constructor
    · intro hdeep
      by_contra hshallow
      -- the reader then has room for all the containers that it meets
      have hroom : loads nestingHooks maxNestingDepth t = .ok n := by
        rw [← hread]
        rcases Nat.le_total maxNestingDepth frames with hle | hle
        · refine loads_congr ?_
          rcases scanOnce_cut nestingHooks hle (skipSpace t) with hfail | heq
          · exact absurd ((scanOnce_recursion_iff nestingHooks _ _).mp hfail) hshallow
          · exact heq
        · have := (preflight_of_loads hread maxNestingDepth).1
          omega
      have := (preflight_of_loads hroom maxNestingDepth).1
      omega
    · intro hdeep
      by_contra hle
      rw [if_neg hle] at hverdict
      exact hguard hverdict nestingHooks hdeep

end Texts

end Serde
end Bluetape
