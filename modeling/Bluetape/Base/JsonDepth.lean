import Bluetape.Base.Json

/-!
# How deep a reader of JSON descends

A reader without room for the containers of a text gives up, and it does so as soon as it
meets the bracket that is one too many.  With more room it reads what it has read before.

* `scanOnce_cut`: less room changes the outcome to the failure of the recursion only;
* `scanOnce_recursion_iff`: the texts on which a reader gives up are those that open more
  containers than there is room for, behind values that can be read.
-/

namespace Bluetape
namespace Base
namespace Json

section Outcomes

variable {ε β γ : Type}

/-- An outcome, or the failure of the recursion instead of it. -/
def Cut (r r' : Except (Failure ε) β) : Prop :=
  r = .error .recursion ∨ r = r'

theorem Cut.refl
    (r : Except (Failure ε) β) :
    Cut r r :=
  Or.inr rfl

theorem Cut.trans
    {r r' r'' : Except (Failure ε) β}
    (h : Cut r r')
    (h' : Cut r' r'') :
    Cut r r'' := by
  rcases h with h | rfl
  · exact Or.inl h
  · exact h'

theorem Cut.bind
    {r r' : Except (Failure ε) β} {f f' : β → Except (Failure ε) γ}
    (h : Cut r r')
    (hf : ∀ b, Cut (f b) (f' b)) :
    Cut (r >>= f) (r' >>= f') := by
  rcases h with rfl | rfl
  · exact Or.inl rfl
  · cases r with
    | error e =>
        exact Cut.refl _
    | ok b =>
        exact hf b

end Outcomes

/-! ## What is left is shorter -/

section Lengths

theorem expect_length
    {p : CodePoint} {t rest : Text}
    (h : expect p t = some rest) :
    rest.length < t.length := by
  cases t with
  | nil =>
      simp [expect] at h
  | cons q t =>
      simp only [expect] at h
      split at h
      · obtain rfl := Option.some.inj h
        simp
      · simp at h

theorem skipSpace_length
    (t : Text) :
    (skipSpace t).length ≤ t.length :=
  (List.dropWhile_suffix _).length_le

theorem scanDigits_length
    (t : Text) :
    (scanDigits t).2.length ≤ t.length := by
  rw [scanDigits, List.span_eq_takeWhile_dropWhile]
  exact (List.dropWhile_suffix _).length_le

theorem scanMinus_length
    (t : Text) :
    (scanMinus t).2.length ≤ t.length := by
  cases t with
  | nil =>
      simp [scanMinus]
  | cons p t =>
      simp only [scanMinus]
      split <;> simp

theorem scanSign_length
    (t : Text) :
    (scanSign t).2.length ≤ t.length := by
  cases t with
  | nil =>
      simp [scanSign]
  | cons p t =>
      simp only [scanSign]
      split <;> simp

theorem scanInteger_length
    {t integer rest : Text}
    (h : scanInteger t = some (integer, rest)) :
    rest.length ≤ t.length := by
  have hminus := scanMinus_length t
  simp only [scanInteger] at h
  split at h
  · simp at h
  · rename_i p after hafter
    have hdigits := scanDigits_length after
    simp only [hafter, List.length_cons] at hminus
    split at h
    · obtain ⟨-, rfl⟩ := Prod.mk.inj (Option.some.inj h)
      omega
    · split at h
      · obtain ⟨-, rfl⟩ := Prod.mk.inj (Option.some.inj h)
        omega
      · simp at h

theorem scanFraction_length
    (t : Text) :
    (scanFraction t).2.length ≤ t.length := by
  simp only [scanFraction]
  split
  · exact le_rfl
  · rename_i rest hrest
    have hlt := expect_length hrest
    have hdigits := scanDigits_length rest
    split
    · exact le_rfl
    · exact (hdigits.trans_lt hlt).le

theorem scanExponent_length
    (t : Text) :
    (scanExponent t).2.length ≤ t.length := by
  cases t with
  | nil =>
      simp [scanExponent]
  | cons p t =>
      have hsign := scanSign_length t
      have hdigits := scanDigits_length (scanSign t).2
      simp only [scanExponent]
      split
      · split
        · exact le_rfl
        · simp only [List.length_cons]
          omega
      · exact le_rfl

theorem scanNumber_length
    {t rest : Text} {n : NumberText}
    (h : scanNumber t = some (n, rest)) :
    rest.length ≤ t.length := by
  simp only [scanNumber, Option.bind_eq_bind, Option.bind_eq_some_iff] at h
  obtain ⟨⟨integer, afterInteger⟩, hinteger, h⟩ := h
  obtain ⟨-, rfl⟩ := Prod.mk.inj (Option.some.inj h)
  exact (scanExponent_length _).trans
    ((scanFraction_length _).trans (scanInteger_length hinteger))

theorem scanUnits_length
    {t rest : Text} {units : List StringUnit}
    (h : scanUnits t = some (units, rest)) :
    rest.length < t.length := by
  fun_induction scanUnits t generalizing units with
  | case1 =>
      simp at h
  | case2 t =>
      obtain ⟨-, rfl⟩ := Prod.mk.inj (Option.some.inj h)
      simp
  | case3 =>
      simp at h
  | case4 =>
      rename_i ih
      simp only [Option.bind_eq_bind, Option.bind_eq_some_iff] at h
      obtain ⟨n, -, ⟨later, after⟩, hlater, h⟩ := h
      obtain ⟨-, rfl⟩ := Prod.mk.inj (Option.some.inj h)
      have hlt : after.length < _ := ih hlater
      simp only [List.length_cons]
      omega
  | case5 =>
      simp at h
  | case6 =>
      rename_i ih
      simp only [Option.bind_eq_bind, Option.bind_eq_some_iff] at h
      obtain ⟨q, -, ⟨later, after⟩, hlater, h⟩ := h
      obtain ⟨-, rfl⟩ := Prod.mk.inj (Option.some.inj h)
      have hlt : after.length < _ := ih hlater
      simp only [List.length_cons]
      omega
  | case7 =>
      simp at h
  | case8 =>
      rename_i ih
      simp only [Option.bind_eq_bind, Option.bind_eq_some_iff] at h
      obtain ⟨⟨later, after⟩, hlater, h⟩ := h
      obtain ⟨-, rfl⟩ := Prod.mk.inj (Option.some.inj h)
      have hlt : after.length < _ := ih hlater
      simp only [List.length_cons]
      omega

theorem scanString_length
    {t value rest : Text}
    (h : scanString t = some (value, rest)) :
    rest.length < t.length := by
  simp only [scanString, Option.map_eq_some_iff] at h
  obtain ⟨⟨units, after⟩, hunits, h⟩ := h
  obtain ⟨-, rfl⟩ := Prod.mk.inj h
  exact scanUnits_length hunits

end Lengths

/-! ## Sequences of items -/

section Sequences

variable {ε α β : Type} {close : CodePoint} {item item' : Scanner ε β}

/-- What the loops over elements and over members share. -/
def separated (close : CodePoint) (item : Scanner ε β) : Nat → Scanner ε (List β)
  | 0, _ => .error .decode
  | fuel + 1, t => do
      let (value, rest) ← item t
      match expect close (skipSpace rest) with
      | some rest => return ([value], rest)
      | none =>
          let rest ← orRaise .decode (expect valueSeparator (skipSpace rest))
          let (values, rest) ← separated close item fuel (skipSpace rest)
          return (value :: values, rest)

theorem arrayElements_eq_separated
    (scan : Scanner ε α) (fuel : Nat) (t : Text) :
    arrayElements scan fuel t = separated endArray scan fuel t := by
  induction fuel generalizing t with
  | zero =>
      rfl
  | succ fuel ih =>
      simp only [separated, ← ih]
      rfl

theorem objectMembers_eq_separated
    (scan : Scanner ε α) (fuel : Nat) (t : Text) :
    objectMembers scan fuel t = separated endObject (objectMember scan) fuel t := by
  induction fuel generalizing t with
  | zero =>
      rfl
  | succ fuel ih =>
      simp only [separated, ← ih]
      rfl

/-- What a scanner leaves is no longer than what it was given. -/
def Shrinks (item : Scanner ε β) : Prop :=
  ∀ {t value rest}, item t = .ok (value, rest) → rest.length ≤ t.length

theorem shrinks_separated
    (hitem : Shrinks item) (fuel : Nat) :
    Shrinks (separated close item fuel) := by
  induction fuel with
  | zero =>
      intro t values rest h
      cases h
  | succ fuel ih =>
      intro t values rest h
      simp only [separated, except_bind_eq_ok] at h
      obtain ⟨⟨value, after⟩, hvalue, h⟩ := h
      have hspace := skipSpace_length after
      have hle : after.length ≤ t.length := hitem hvalue
      split at h
      · rename_i last hlast
        have hlt : last.length < (skipSpace after).length := expect_length hlast
        obtain ⟨-, rfl⟩ := Prod.mk.inj (Except.ok.inj h)
        omega
      · simp only [except_bind_eq_ok] at h
        obtain ⟨comma, hcomma, ⟨later, last⟩, hlater, h⟩ := h
        obtain ⟨-, rfl⟩ := Prod.mk.inj (Except.ok.inj h)
        have hlt : comma.length < (skipSpace after).length :=
          expect_length (orRaise_eq_ok.mp hcomma)
        have hskip := skipSpace_length comma
        have hlast : last.length ≤ (skipSpace comma).length := ih hlater
        show last.length ≤ t.length
        omega

/-- Items that are cut make the sequence cut. -/
theorem cut_separated
    (hitem : ∀ t, Cut (item t) (item' t)) (fuel : Nat) (t : Text) :
    Cut (separated close item fuel t) (separated close item' fuel t) := by
  induction fuel generalizing t with
  | zero =>
      exact Cut.refl _
  | succ fuel ih =>
      refine (hitem t).bind fun pair => ?_
      obtain ⟨value, rest⟩ := pair
      dsimp only
      split
      · exact Cut.refl _
      · exact (Cut.refl _).bind fun rest => (ih _).bind fun _ => Cut.refl _

/-- The positions of the items of a sequence, as far as the items before can be read. -/
inductive NextItem (reads : Text → Text → Prop) (close : CodePoint) : Text → Text → Prop
  | here (t : Text) : NextItem reads close t t
  | later {t rest after u : Text}
      (hread : reads t rest)
      (hopen : expect close (skipSpace rest) = none)
      (hcomma : expect valueSeparator (skipSpace rest) = some after)
      (hnext : NextItem reads close (skipSpace after) u) :
      NextItem reads close t u

/-- A sequence fails by recursion where an item does so. -/
theorem separated_recursion_iff
    (close : CodePoint)
    {reads : Text → Text → Prop}
    (hempty : item [] ≠ .error .recursion)
    (hshrinks : Shrinks item)
    (hreads : ∀ {t value rest}, item t = .ok (value, rest) → reads t rest)
    (hcut : ∀ {t rest}, reads t rest → item t = .error .recursion ∨
      ∃ value, item t = .ok (value, rest))
    (hnil : ∀ {rest}, ¬ reads [] rest)
    {fuel : Nat} {t : Text}
    (hfuel : t.length ≤ fuel) :
    separated close item fuel t = .error .recursion ↔
      ∃ u, NextItem reads close t u ∧ item u = .error .recursion := by
  constructor
  · intro h
    induction fuel generalizing t with
    | zero =>
        cases h
    | succ fuel ih =>
        rcases except_bind_eq_error.mp h with hitem | ⟨⟨value, rest⟩, hvalue, h⟩
        · exact ⟨t, .here t, hitem⟩
        · dsimp only at h
          split at h
          · cases h
          · rename_i hopen
            rcases except_bind_eq_error.mp h with hraise | ⟨after, hcomma, h⟩
            · cases (orRaise_eq_error.mp hraise).2
            · have hcomma := orRaise_eq_ok.mp hcomma
              have hlt := expect_length hcomma
              have hspace := skipSpace_length rest
              have hskip := skipSpace_length after
              have hle := hshrinks hvalue
              rcases except_bind_eq_error.mp h with hlater | ⟨_, _, hdone⟩
              · obtain ⟨u, hnext, hu⟩ := ih (by omega) hlater
                exact ⟨u, .later (hreads hvalue) hopen hcomma hnext, hu⟩
              · cases hdone
  · rintro ⟨u, hnext, hu⟩
    induction hnext generalizing fuel with
    | here t =>
        cases t with
        | nil =>
            exact absurd hu hempty
        | cons p t =>
            cases fuel with
            | zero =>
                simp at hfuel
            | succ fuel =>
                exact except_bind_eq_error.mpr (Or.inl hu)
    | @later t rest after u hread hopen hcomma hnext ih =>
        cases t with
        | nil =>
            exact absurd hread hnil
        | cons p t =>
            cases fuel with
            | zero =>
                simp at hfuel
            | succ fuel =>
                rcases hcut hread with hfail | ⟨value, hvalue⟩
                · exact except_bind_eq_error.mpr (Or.inl hfail)
                · refine except_bind_eq_error.mpr (Or.inr ⟨(value, rest), hvalue, ?_⟩)
                  have hlt := expect_length hcomma
                  have hspace := skipSpace_length rest
                  have hskip := skipSpace_length after
                  have hle := hshrinks hvalue
                  simp only [hopen]
                  refine except_bind_eq_error.mpr (Or.inr ⟨after, orRaise_eq_ok.mpr hcomma, ?_⟩)
                  exact except_bind_eq_error.mpr (Or.inl (ih (by omega) hu))

end Sequences

/-! ## Cutting a reader -/

section Reader

variable {ε α : Type} (hooks : Hooks ε α)

theorem cut_objectMember
    {scan scan' : Scanner ε α}
    (h : ∀ t, Cut (scan t) (scan' t)) (t : Text) :
    Cut (objectMember scan t) (objectMember scan' t) := by
  refine (Cut.refl _).bind fun rest => (Cut.refl _).bind fun pair => ?_
  exact (Cut.refl _).bind fun rest => (h _).bind fun _ => Cut.refl _

theorem cut_parseArray
    {scan scan' : Scanner ε α}
    (h : ∀ t, Cut (scan t) (scan' t)) (t : Text) :
    Cut (parseArray hooks scan t) (parseArray hooks scan' t) := by
  unfold parseArray
  split
  · exact Cut.refl _
  · rw [arrayElements_eq_separated, arrayElements_eq_separated]
    exact (cut_separated h _ _).bind fun _ => Cut.refl _

theorem cut_parseObject
    {scan scan' : Scanner ε α}
    (h : ∀ t, Cut (scan t) (scan' t)) (t : Text) :
    Cut (parseObject hooks scan t) (parseObject hooks scan' t) := by
  unfold parseObject
  dsimp only
  split
  · exact Cut.refl _
  · rw [objectMembers_eq_separated, objectMembers_eq_separated]
    exact (cut_separated (cut_objectMember h) _ _).bind fun _ => Cut.refl _

theorem cut_scanValue_none
    (nested : Option (Scanner ε α)) (t : Text) :
    Cut (scanValue hooks none t) (scanValue hooks nested t) := by
  cases t with
  | nil =>
      exact Cut.refl _
  | cons p rest =>
      simp only [scanValue]
      split_ifs
      · exact Cut.refl _
      · exact Or.inl rfl
      · exact Or.inl rfl
      all_goals exact Cut.refl _

theorem cut_scanValue
    {scan scan' : Scanner ε α}
    (h : ∀ t, Cut (scan t) (scan' t)) (t : Text) :
    Cut (scanValue hooks (some scan) t) (scanValue hooks (some scan') t) := by
  cases t with
  | nil =>
      exact Cut.refl _
  | cons p rest =>
      simp only [scanValue]
      split_ifs
      · exact Cut.refl _
      · exact cut_parseObject hooks h rest
      · exact cut_parseArray hooks h rest
      all_goals exact Cut.refl _

theorem cut_scanOnce_succ
    (frames : Nat) (t : Text) :
    Cut (scanOnce hooks frames t) (scanOnce hooks (frames + 1) t) := by
  induction frames generalizing t with
  | zero =>
      exact cut_scanValue_none hooks _ t
  | succ frames ih =>
      exact cut_scanValue hooks ih t

/-- **Less room changes the outcome to the failure of the recursion only.** -/
theorem scanOnce_cut
    {frames frames' : Nat}
    (h : frames ≤ frames') (t : Text) :
    Cut (scanOnce hooks frames t) (scanOnce hooks frames' t) := by
  induction h with
  | refl =>
      exact Cut.refl _
  | step _ ih =>
      exact ih.trans (cut_scanOnce_succ hooks _ t)

/-! ## Descending -/

/-- A reader with room enough reads a value, and leaves this text. -/
def ReadsFront (t rest : Text) : Prop :=
  ∃ frames value, scanOnce hooks frames t = .ok (value, rest)

/-- The name of a member, and what follows it and its separator. -/
def memberHead (t : Text) : Option (Text × Text) := do
  let rest ← expect quotationMark t
  let (name, rest) ← scanString rest
  let rest ← expect nameSeparator (skipSpace rest)
  return (name, skipSpace rest)

/-- A reader with room enough reads a member, and leaves this text. -/
def ReadsMember (t rest : Text) : Prop :=
  ∃ name v, memberHead t = some (name, v) ∧ ReadsFront hooks v rest

/--
The text opens more containers than a number of them, one in the other and each behind
elements or members that can be read.
-/
inductive NestsBeyond : Nat → Text → Prop
  | array (rest : Text) : NestsBeyond 0 (beginArray :: rest)
  | object (rest : Text) : NestsBeyond 0 (beginObject :: rest)
  | element {n : Nat} {rest u : Text}
      (hopen : expect endArray (skipSpace rest) = none)
      (hnext : NextItem (ReadsFront hooks) endArray (skipSpace rest) u)
      (hdeep : NestsBeyond n u) :
      NestsBeyond (n + 1) (beginArray :: rest)
  | member {n : Nat} {rest u name v : Text}
      (hopen : expect endObject (skipSpace rest) = none)
      (hnext : NextItem (ReadsMember hooks) endObject (skipSpace rest) u)
      (hhead : memberHead u = some (name, v))
      (hdeep : NestsBeyond n v) :
      NestsBeyond (n + 1) (beginObject :: rest)

theorem ReadsFront.scanOnce
    {t rest : Text}
    (h : ReadsFront hooks t rest) (frames : Nat) :
    scanOnce hooks frames t = .error .recursion ∨
      ∃ value, scanOnce hooks frames t = .ok (value, rest) := by
  obtain ⟨frames', value, hread⟩ := h
  rcases Nat.le_total frames frames' with hle | hle
  · rcases scanOnce_cut hooks hle t with hfail | heq
    · exact Or.inl hfail
    · exact Or.inr ⟨value, heq.trans hread⟩
  · rcases scanOnce_cut hooks hle t with hfail | heq
    · rw [hread] at hfail
      cases hfail
    · exact Or.inr ⟨value, heq.symm.trans hread⟩

theorem memberHead_length
    {t name v : Text}
    (h : memberHead t = some (name, v)) :
    v.length < t.length := by
  simp only [memberHead, Option.bind_eq_bind, Option.bind_eq_some_iff] at h
  obtain ⟨rest, hquote, ⟨name', rest'⟩, hname, rest'', hseparator, h⟩ := h
  obtain ⟨-, rfl⟩ := Prod.mk.inj (Option.some.inj h)
  have hlt := expect_length hquote
  have hlt' := scanString_length hname
  have hlt'' : rest''.length < (skipSpace rest').length := expect_length hseparator
  have hspace := skipSpace_length rest'
  have hspace' := skipSpace_length rest''
  omega

theorem objectMember_eq
    (scan : Scanner ε α) (t : Text) :
    objectMember scan t = do
      let (name, v) ← orRaise .decode (memberHead t)
      let (value, rest) ← scan v
      return ((name, value), rest) := by
  unfold objectMember memberHead
  cases hquote : expect quotationMark t with
  | none =>
      rfl
  | some rest =>
      cases hname : scanString rest with
      | none =>
          simp [orRaise, bind, Except.bind, hname]
      | some pair =>
          obtain ⟨name, rest'⟩ := pair
          cases hseparator : expect nameSeparator (skipSpace rest') with
          | none =>
              simp [orRaise, bind, Except.bind, hname, hseparator]
          | some rest'' =>
              simp [orRaise, bind, Except.bind, pure, Except.pure, hname, hseparator]

theorem objectMember_recursion_iff
    {scan : Scanner ε α} {t : Text} :
    objectMember scan t = .error .recursion ↔
      ∃ name v, memberHead t = some (name, v) ∧ scan v = .error .recursion := by
  rw [objectMember_eq]
  constructor
  · intro h
    rcases except_bind_eq_error.mp h with hraise | ⟨⟨name, v⟩, hhead, h⟩
    · cases (orRaise_eq_error.mp hraise).2
    · rcases except_bind_eq_error.mp h with hfail | ⟨pair, -, h⟩
      · exact ⟨name, v, orRaise_eq_ok.mp hhead, hfail⟩
      · cases h
  · rintro ⟨name, v, hhead, hfail⟩
    refine except_bind_eq_error.mpr (Or.inr ⟨(name, v), orRaise_eq_ok.mpr hhead, ?_⟩)
    exact except_bind_eq_error.mpr (Or.inl hfail)

theorem objectMember_eq_ok_iff
    {scan : Scanner ε α} {t rest : Text} {pair : Text × α} :
    objectMember scan t = .ok (pair, rest) ↔
      ∃ v, memberHead t = some (pair.1, v) ∧ scan v = .ok (pair.2, rest) := by
  rw [objectMember_eq]
  constructor
  · intro h
    obtain ⟨⟨name, v⟩, hhead, h⟩ := except_bind_eq_ok.mp h
    obtain ⟨⟨value, rest'⟩, hvalue, h⟩ := except_bind_eq_ok.mp h
    obtain ⟨rfl, rfl⟩ := Prod.mk.inj (Except.ok.inj h)
    exact ⟨v, orRaise_eq_ok.mp hhead, hvalue⟩
  · rintro ⟨v, hhead, hvalue⟩
    refine except_bind_eq_ok.mpr ⟨(pair.1, v), orRaise_eq_ok.mpr hhead, ?_⟩
    exact except_bind_eq_ok.mpr ⟨(pair.2, rest), hvalue, rfl⟩

theorem shrinks_objectMember
    {scan : Scanner ε α}
    (h : Shrinks scan) :
    Shrinks (objectMember scan) := by
  intro t pair rest hread
  obtain ⟨v, hhead, hvalue⟩ := objectMember_eq_ok_iff.mp hread
  exact (h hvalue).trans (memberHead_length hhead).le

theorem shrinks_parseArray
    {scan : Scanner ε α}
    (h : Shrinks scan) :
    Shrinks (parseArray hooks scan) := by
  intro t value rest hread
  have hspace := skipSpace_length t
  unfold parseArray at hread
  split at hread
  · rename_i after hafter
    obtain ⟨-, rfl⟩ := Prod.mk.inj (Except.ok.inj hread)
    exact (expect_length hafter).le.trans hspace
  · obtain ⟨⟨values, after⟩, hvalues, hread⟩ := except_bind_eq_ok.mp hread
    obtain ⟨-, rfl⟩ := Prod.mk.inj (Except.ok.inj hread)
    rw [arrayElements_eq_separated] at hvalues
    exact (shrinks_separated h _ hvalues).trans hspace

theorem shrinks_parseObject
    {scan : Scanner ε α}
    (h : Shrinks scan) :
    Shrinks (parseObject hooks scan) := by
  intro t value rest hread
  have hspace := skipSpace_length t
  unfold parseObject at hread
  dsimp only at hread
  split at hread
  · rename_i after hafter
    obtain ⟨pairs, hpairs, hread⟩ := except_bind_eq_ok.mp hread
    obtain rfl := Except.ok.inj hpairs
    obtain ⟨value', -, hread⟩ := except_bind_eq_ok.mp hread
    obtain ⟨-, rfl⟩ := Prod.mk.inj (Except.ok.inj hread)
    exact (expect_length hafter).le.trans hspace
  · obtain ⟨⟨pairs, after⟩, hpairs, hread⟩ := except_bind_eq_ok.mp hread
    obtain ⟨value', -, hread⟩ := except_bind_eq_ok.mp hread
    obtain ⟨-, rfl⟩ := Prod.mk.inj (Except.ok.inj hread)
    rw [objectMembers_eq_separated] at hpairs
    exact (shrinks_separated (shrinks_objectMember h) _ hpairs).trans hspace

theorem shrinks_scanScalar :
    Shrinks (scanScalar hooks) := by
  intro t value rest hread
  unfold scanScalar at hread
  split at hread
  · rename_i n after hnumber
    obtain ⟨value', -, hread⟩ := except_bind_eq_ok.mp hread
    obtain ⟨-, rfl⟩ := Prod.mk.inj (Except.ok.inj hread)
    exact scanNumber_length hnumber
  · obtain ⟨constant, -, hread⟩ := except_bind_eq_ok.mp hread
    obtain ⟨value', -, hread⟩ := except_bind_eq_ok.mp hread
    obtain ⟨-, rfl⟩ := Prod.mk.inj (Except.ok.inj hread)
    exact (List.drop_suffix _ _).length_le

theorem shrinks_scanValue
    {nested : Option (Scanner ε α)}
    (h : ∀ scan ∈ nested, Shrinks scan) :
    Shrinks (scanValue hooks nested) := by
  intro t value rest hread
  cases t with
  | nil =>
      cases hread
  | cons p t =>
      simp only [scanValue] at hread
      split_ifs at hread
      · obtain ⟨⟨string, after⟩, hstring, hread⟩ := except_bind_eq_ok.mp hread
        obtain ⟨-, rfl⟩ := Prod.mk.inj (Except.ok.inj hread)
        exact (scanString_length (orRaise_eq_ok.mp hstring)).le.trans (Nat.le_succ _)
      · obtain ⟨scan, hscan, hread⟩ := except_bind_eq_ok.mp hread
        exact (shrinks_parseObject hooks (h scan (orRaise_eq_ok.mp hscan)) hread).trans
          (Nat.le_succ _)
      · obtain ⟨scan, hscan, hread⟩ := except_bind_eq_ok.mp hread
        exact (shrinks_parseArray hooks (h scan (orRaise_eq_ok.mp hscan)) hread).trans
          (Nat.le_succ _)
      · obtain ⟨-, rfl⟩ := Prod.mk.inj (Except.ok.inj hread)
        exact (List.drop_suffix _ _).length_le
      · obtain ⟨-, rfl⟩ := Prod.mk.inj (Except.ok.inj hread)
        exact (List.drop_suffix _ _).length_le
      · obtain ⟨-, rfl⟩ := Prod.mk.inj (Except.ok.inj hread)
        exact (List.drop_suffix _ _).length_le
      · exact shrinks_scanScalar hooks hread

theorem shrinks_scanOnce
    (frames : Nat) :
    Shrinks (scanOnce hooks frames) := by
  induction frames with
  | zero =>
      exact shrinks_scanValue hooks (by simp)
  | succ frames ih =>
      refine shrinks_scanValue hooks fun scan hscan => ?_
      obtain rfl := Option.some.inj hscan
      exact ih

/-! ## Giving up -/

theorem scanOnce_nil
    (frames : Nat) :
    scanOnce hooks frames [] = .error .decode := by
  cases frames <;> rfl

theorem not_readsFront_nil
    {rest : Text} :
    ¬ ReadsFront hooks [] rest := by
  rintro ⟨frames, value, h⟩
  rw [scanOnce_nil] at h
  cases h

theorem mapError_hook_ne_recursion
    {β : Type} (r : Except ε β) :
    r.mapError Failure.hook ≠ .error .recursion := by
  cases r with
  | error e =>
      simp [Except.mapError]
  | ok b =>
      simp [Except.mapError]

theorem objectPairs_ne_recursion
    (pairs : List (Text × α) × Text) :
    (do
      let value ← (hooks.objectPairs pairs.1).mapError Failure.hook
      pure (value, pairs.2)) ≠ Except.error Failure.recursion := by
  intro h
  rcases except_bind_eq_error.mp h with hfail | ⟨value, -, h⟩
  · exact mapError_hook_ne_recursion _ hfail
  · cases h

/-- A reader gives up in an array where it gives up in an element. -/
theorem parseArray_recursion_iff
    {frames : Nat} {t : Text} :
    parseArray hooks (scanOnce hooks frames) t = .error .recursion ↔
      expect endArray (skipSpace t) = none ∧
        ∃ u, NextItem (ReadsFront hooks) endArray (skipSpace t) u ∧
          scanOnce hooks frames u = .error .recursion := by
  have hempty : scanOnce hooks frames [] ≠ .error .recursion := by
    rw [scanOnce_nil]
    nofun
  have hreads : ∀ {t value rest}, scanOnce hooks frames t = .ok (value, rest) →
      ReadsFront hooks t rest :=
    fun h => ⟨frames, _, h⟩
  have hcut : ∀ {t rest}, ReadsFront hooks t rest → scanOnce hooks frames t = .error .recursion ∨
      ∃ value, scanOnce hooks frames t = .ok (value, rest) :=
    fun h => h.scanOnce hooks frames
  have hloop := separated_recursion_iff endArray hempty (shrinks_scanOnce hooks frames) hreads
    hcut (not_readsFront_nil hooks) (le_refl (skipSpace t).length)
  rw [← hloop, ← arrayElements_eq_separated]
  unfold parseArray
  cases hclose : expect endArray (skipSpace t) with
  | some rest =>
      simp [pure, Except.pure]
  | none =>
      simp only [except_bind_eq_error, true_and]
      refine or_iff_left ?_
      rintro ⟨pair, -, h⟩
      cases h

/-- A reader gives up in an object where it gives up in the value of a member. -/
theorem parseObject_recursion_iff
    {frames : Nat} {t : Text} :
    parseObject hooks (scanOnce hooks frames) t = .error .recursion ↔
      expect endObject (skipSpace t) = none ∧
        ∃ u, NextItem (ReadsMember hooks) endObject (skipSpace t) u ∧
          ∃ name v, memberHead u = some (name, v) ∧
            scanOnce hooks frames v = .error .recursion := by
  have hempty : objectMember (scanOnce hooks frames) [] ≠ .error .recursion := by
    nofun
  have hreads : ∀ {t pair rest}, objectMember (scanOnce hooks frames) t = .ok (pair, rest) →
      ReadsMember hooks t rest := by
    intro t pair rest h
    obtain ⟨v, hhead, hvalue⟩ := objectMember_eq_ok_iff.mp h
    exact ⟨pair.1, v, hhead, frames, pair.2, hvalue⟩
  have hcut : ∀ {t rest}, ReadsMember hooks t rest →
      objectMember (scanOnce hooks frames) t = .error .recursion ∨
        ∃ pair, objectMember (scanOnce hooks frames) t = .ok (pair, rest) := by
    rintro t rest ⟨name, v, hhead, hread⟩
    rcases hread.scanOnce hooks frames with hfail | ⟨value, hvalue⟩
    · exact Or.inl (objectMember_recursion_iff.mpr ⟨name, v, hhead, hfail⟩)
    · exact Or.inr ⟨(name, value), objectMember_eq_ok_iff.mpr ⟨v, hhead, hvalue⟩⟩
  have hnil : ∀ {rest}, ¬ ReadsMember hooks [] rest := by
    rintro rest ⟨name, v, hhead, -⟩
    cases hhead
  have hloop := separated_recursion_iff endObject hempty
    (shrinks_objectMember (shrinks_scanOnce hooks frames)) hreads hcut hnil
    (le_refl (skipSpace t).length)
  simp only [objectMember_recursion_iff] at hloop
  rw [← hloop, ← objectMembers_eq_separated]
  unfold parseObject
  dsimp only
  cases hclose : expect endObject (skipSpace t) with
  | some rest =>
      simp only [reduceCtorEq, false_and, iff_false]
      intro h
      rcases except_bind_eq_error.mp h with hfail | ⟨pair, -, h⟩
      · cases hfail
      · exact objectPairs_ne_recursion hooks pair h
  | none =>
      simp only [true_and]
      rw [except_bind_eq_error]
      refine or_iff_left ?_
      rintro ⟨pair, -, h⟩
      exact objectPairs_ne_recursion hooks pair h

theorem scanScalar_ne_recursion
    (t : Text) :
    scanScalar hooks t ≠ .error .recursion := by
  intro h
  unfold scanScalar at h
  split at h
  · rename_i n rest hnumber
    rcases except_bind_eq_error.mp h with hfail | ⟨value, -, h⟩
    · exact mapError_hook_ne_recursion _ hfail
    · cases h
  · rcases except_bind_eq_error.mp h with hfail | ⟨constant, -, h⟩
    · cases (orRaise_eq_error.mp hfail).2
    · rcases except_bind_eq_error.mp h with hfail | ⟨value, -, h⟩
      · exact mapError_hook_ne_recursion _ hfail
      · cases h

/-- A value that no bracket opens does not make a reader give up. -/
theorem scanValue_recursion_iff
    {nested : Option (Scanner ε α)} {t : Text} :
    scanValue hooks nested t = .error .recursion ↔
      (∃ rest, t = beginObject :: rest ∧
        ∀ scan ∈ nested, parseObject hooks scan rest = .error .recursion) ∨
      (∃ rest, t = beginArray :: rest ∧
        ∀ scan ∈ nested, parseArray hooks scan rest = .error .recursion) := by
  cases t with
  | nil =>
      simp [scanValue]
  | cons p rest =>
      have hother : p ≠ beginObject → p ≠ beginArray → ¬
          ((∃ rest', p :: rest = beginObject :: rest' ∧
            ∀ scan ∈ nested, parseObject hooks scan rest' = .error .recursion) ∨
          (∃ rest', p :: rest = beginArray :: rest' ∧
            ∀ scan ∈ nested, parseArray hooks scan rest' = .error .recursion)) := by
        rintro hobject harray (⟨rest', heq, -⟩ | ⟨rest', heq, -⟩)
        · exact hobject (List.cons.inj heq).1
        · exact harray (List.cons.inj heq).1
      simp only [scanValue]
      split_ifs with hquote hobject harray
      · subst hquote
        refine iff_of_false ?_ (hother (by decide) (by decide))
        intro h
        rcases except_bind_eq_error.mp h with hfail | ⟨pair, -, h⟩
        · cases (orRaise_eq_error.mp hfail).2
        · cases h
      · subst hobject
        cases nested with
        | none =>
            simp [orRaise, bind, Except.bind]
        | some scan =>
            have hne : beginObject ≠ beginArray := by decide
            simp [orRaise, bind, Except.bind, hne]
      · subst harray
        cases nested with
        | none =>
            simp [orRaise, bind, Except.bind]
        | some scan =>
            have hne : beginArray ≠ beginObject := by decide
            simp [orRaise, bind, Except.bind, hne]
      · exact iff_of_false (by rintro ⟨⟩) (hother hobject harray)
      · exact iff_of_false (by rintro ⟨⟩) (hother hobject harray)
      · exact iff_of_false (by rintro ⟨⟩) (hother hobject harray)
      · exact iff_of_false (scanScalar_ne_recursion hooks _) (hother hobject harray)

/-- **A reader gives up on the texts that nest beyond its room.** -/
theorem scanOnce_recursion_iff
    (frames : Nat) (t : Text) :
    scanOnce hooks frames t = .error .recursion ↔ NestsBeyond hooks frames t := by
  induction frames generalizing t with
  | zero =>
      rw [show scanOnce hooks 0 t = scanValue hooks none t from rfl, scanValue_recursion_iff]
      constructor
      · rintro (⟨rest, rfl, -⟩ | ⟨rest, rfl, -⟩)
        · exact .object rest
        · exact .array rest
      · intro h
        cases h with
        | array rest =>
            exact Or.inr ⟨rest, rfl, nofun⟩
        | object rest =>
            exact Or.inl ⟨rest, rfl, nofun⟩
  | succ frames ih =>
      rw [show scanOnce hooks (frames + 1) t =
        scanValue hooks (some (scanOnce hooks frames)) t from rfl, scanValue_recursion_iff]
      constructor
      · rintro (⟨rest, rfl, h⟩ | ⟨rest, rfl, h⟩)
        · obtain ⟨hopen, u, hnext, name, v, hhead, hfail⟩ :=
            (parseObject_recursion_iff hooks).mp (h _ rfl)
          exact .member hopen hnext hhead ((ih v).mp hfail)
        · obtain ⟨hopen, u, hnext, hfail⟩ := (parseArray_recursion_iff hooks).mp (h _ rfl)
          exact .element hopen hnext ((ih u).mp hfail)
      · intro h
        cases h with
        | @element _ rest u hopen hnext hdeep =>
            refine Or.inr ⟨rest, rfl, fun scan hscan => ?_⟩
            obtain rfl := Option.some.inj hscan
            exact (parseArray_recursion_iff hooks).mpr ⟨hopen, u, hnext, (ih u).mpr hdeep⟩
        | @member _ rest u name v hopen hnext hhead hdeep =>
            refine Or.inl ⟨rest, rfl, fun scan hscan => ?_⟩
            obtain rfl := Option.some.inj hscan
            exact (parseObject_recursion_iff hooks).mpr
              ⟨hopen, u, hnext, name, v, hhead, (ih v).mpr hdeep⟩

end Reader

end Json
end Base
end Bluetape
