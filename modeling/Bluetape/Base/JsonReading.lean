import Bluetape.Base.Json

/-!
# A reader reads what a writer renders

The compact text of a tree reads as what its hooks give, whatever follows it,
as long as nothing that follows can continue a number and the reader has room
for the containers that the tree nests.
-/

namespace Bluetape
namespace Base
namespace Json

/-- The tree of a container is about the trees that it holds. -/
@[elab_as_elim, induction_eliminator]
theorem Tree.induction {motive : Tree → Prop}
    (null : motive .null)
    (bool : ∀ b, motive (.bool b))
    (number : ∀ n, motive (.number n))
    (string : ∀ t, motive (.string t))
    (array : ∀ items, (∀ item ∈ items, motive item) → motive (.array items))
    (object : ∀ members, (∀ member ∈ members, motive member.2) → motive (.object members))
    (tree : Tree) :
    motive tree := by
  refine @Tree.rec motive (fun items => ∀ item ∈ items, motive item)
    (fun members => ∀ member ∈ members, motive member.2) (fun member => motive member.2)
    null bool number string array object ?_ ?_ ?_ ?_ ?_ tree
  · simp
  · intro item items hitem hitems
    simpa using And.intro hitem hitems
  · simp
  · intro member members hmember hmembers
    simpa using And.intro hmember hmembers
  · intro name value hvalue
    exact hvalue

theorem nesting_le_of_mem_items
    {item : Tree} {items : List Tree} (h : item ∈ items) :
    nesting item ≤ nestingItems items := by
  induction items with
  | nil =>
      cases h
  | cons first items ih =>
      rw [nestingItems]
      rcases List.mem_cons.mp h with rfl | h
      · exact le_max_left _ _
      · exact (ih h).trans (le_max_right _ _)

theorem nesting_le_of_mem_members
    {member : Text × Tree} {members : List (Text × Tree)} (h : member ∈ members) :
    nesting member.2 ≤ nestingMembers members := by
  induction members with
  | nil =>
      cases h
  | cons first members ih =>
      obtain ⟨name, value⟩ := first
      rw [nestingMembers, nestingMember]
      rcases List.mem_cons.mp h with rfl | h
      · exact le_max_left _ _
      · exact (ih h).trans (le_max_right _ _)

/-- A value starts with none of the marks that a reader looks for between values. -/
theorem render_head
    (tree : Tree) :
    ∃ p t, render tree = p :: t ∧ isSpace p = false ∧ p ≠ endArray ∧ p ≠ byteOrderMark := by
  cases tree with
  | null =>
      exact ⟨_, _, rfl, by decide⟩
  | bool b =>
      cases b with
      | false =>
          exact ⟨_, _, rfl, by decide⟩
      | true =>
          exact ⟨_, _, rfl, by decide⟩
  | number n =>
      obtain ⟨p, t, ht, hp⟩ := head_of_scanNumber n.scans
      refine ⟨p, t, ht, ?_⟩
      rcases hp with rfl | hp
      · decide
      · simp only [isDecimal, decide_eq_true_eq] at hp
        constructor
        · simp only [isSpace, Bool.or_eq_false_iff, decide_eq_false_iff_not]
          refine ⟨⟨⟨?_, ?_⟩, ?_⟩, ?_⟩
          all_goals
            rintro rfl
            exact absurd hp (by decide)
        · constructor
          all_goals
            rintro rfl
            exact absurd hp (by decide)
  | string t =>
      exact ⟨_, _, rfl, by decide⟩
  | array items =>
      cases items with
      | nil =>
          exact ⟨_, _, rfl, by decide⟩
      | cons item items =>
          exact ⟨_, _, rfl, by decide⟩
  | object members =>
      cases members with
      | nil =>
          exact ⟨_, _, rfl, by decide⟩
      | cons member members =>
          exact ⟨_, _, rfl, by decide⟩

theorem skipSpace_render
    (tree : Tree) (rest : Text) :
    skipSpace (render tree ++ rest) = render tree ++ rest := by
  obtain ⟨p, t, ht, hp, -, -⟩ := render_head tree
  rw [ht]
  exact skipSpace_cons hp _

theorem head_ne_byteOrderMark
    (tree : Tree) :
    (render tree).head? ≠ some byteOrderMark := by
  obtain ⟨p, t, ht, -, -, hp⟩ := render_head tree
  rw [ht]
  simpa using hp

theorem expect_endArray_render
    (tree : Tree) (rest : Text) :
    expect endArray (render tree ++ rest) = none := by
  obtain ⟨p, t, ht, -, hp, -⟩ := render_head tree
  rw [ht]
  exact expect_cons_of_ne hp _

section Reading

variable {ε α : Type} {hooks : Hooks ε α} {scan : Scanner ε α}

/-- Reading a text gives a value, whatever follows it. -/
def Reads (scan : Scanner ε α) (t : Text) (value : α) : Prop :=
  ∀ rest, EndsNumber rest → scan (t ++ rest) = .ok (value, rest)

theorem endsNumber_endArray
    (rest : Text) :
    EndsNumber (endArray :: rest) :=
  endsNumber_cons.mpr (by decide)

theorem endsNumber_endObject
    (rest : Text) :
    EndsNumber (endObject :: rest) :=
  endsNumber_cons.mpr (by decide)

theorem endsNumber_valueSeparator
    (rest : Text) :
    EndsNumber (valueSeparator :: rest) :=
  endsNumber_cons.mpr (by decide)

/-! ## Arrays -/

theorem arrayElements_render
    {item : Tree} {items : List Tree} {value : α} {values : List α} {fuel : Nat}
    (hitem : Reads scan (render item) value)
    (hscan : ∀ item ∈ items, ∀ value, eval hooks item = .ok value →
      Reads scan (render item) value)
    (hvalues : evalItems hooks items = .ok values)
    (hfuel : items.length < fuel) (rest : Text) :
    arrayElements scan fuel (render item ++ (renderItems items ++ endArray :: rest)) =
      .ok (value :: values, rest) := by
  induction items generalizing item value values fuel with
  | nil =>
      obtain ⟨fuel, rfl⟩ := Nat.exists_eq_add_of_lt hfuel
      cases hvalues
      rw [arrayElements, renderItems, List.nil_append, hitem _ (endsNumber_endArray rest)]
      simp only [bind, Except.bind, skipSpace_cons (by decide : isSpace endArray = false),
        expect_cons_self]
      rfl
  | cons next items ih =>
      obtain ⟨fuel, rfl⟩ := Nat.exists_eq_add_of_lt hfuel
      simp only [evalItems, except_bind_eq_ok] at hvalues
      obtain ⟨nextValue, hnext, tail, htail, hvalues⟩ := hvalues
      cases hvalues
      have hrest := ih (hscan next (by simp) nextValue hnext)
        (fun item hitem => hscan item (List.mem_cons_of_mem _ hitem)) htail
        (by simp only [List.length_cons]; omega : items.length < (next :: items).length + fuel)
      have hend : expect endArray (valueSeparator ::
          (render next ++ (renderItems items ++ endArray :: rest))) = none :=
        expect_cons_of_ne (by decide) _
      rw [arrayElements, renderItems, List.cons_append, List.cons_append, List.append_assoc,
        hitem _ (endsNumber_valueSeparator _)]
      simp only [bind, Except.bind, skipSpace_cons (by decide : isSpace valueSeparator = false),
        hend, expect_cons_self, orRaise, skipSpace_render, hrest]
      rfl

theorem length_lt_of_renderItems
    (items : List Tree) (t rest : Text) :
    items.length < (t ++ (renderItems items ++ endArray :: rest)).length := by
  induction items generalizing t with
  | nil =>
      simp only [List.length_nil, List.length_append, List.length_cons]
      omega
  | cons item items ih =>
      have := ih (render item)
      simp only [renderItems, List.length_append, List.length_cons] at this ⊢
      omega

theorem parseArray_render
    {items : List Tree} {values : List α}
    (hscan : ∀ item ∈ items, ∀ value, eval hooks item = .ok value →
      Reads scan (render item) value)
    (hvalues : evalItems hooks items = .ok values) (rest : Text) :
    ∃ t, render (.array items) ++ rest = beginArray :: t ∧
      parseArray hooks scan t = .ok (hooks.array values, rest) := by
  cases items with
  | nil =>
      cases hvalues
      refine ⟨endArray :: rest, rfl, ?_⟩
      simp [parseArray, skipSpace_cons (by decide : isSpace endArray = false), pure, Except.pure]
  | cons item items =>
      simp only [evalItems, except_bind_eq_ok] at hvalues
      obtain ⟨value, hvalue, tail, htail, hvalues⟩ := hvalues
      cases hvalues
      refine ⟨render item ++ (renderItems items ++ endArray :: rest), by simp [render], ?_⟩
      have helements := arrayElements_render (hscan item (by simp) value hvalue)
        (fun item hitem => hscan item (List.mem_cons_of_mem _ hitem)) htail
        (length_lt_of_renderItems items (render item) rest) rest
      simp only [parseArray, skipSpace_render, expect_endArray_render, helements]
      rfl

/-! ## Objects -/

/-- A value starts with no white space. -/
def StartsValue (t : Text) : Prop :=
  ∃ p rest, t = p :: rest ∧ isSpace p = false

theorem StartsValue.skipSpace
    {t : Text} (h : StartsValue t) (rest : Text) :
    skipSpace (t ++ rest) = t ++ rest := by
  obtain ⟨p, tail, rfl, hp⟩ := h
  exact skipSpace_cons hp _

theorem startsValue_render
    (tree : Tree) :
    StartsValue (render tree) := by
  obtain ⟨p, t, ht, hp, -, -⟩ := render_head tree
  exact ⟨p, t, ht, hp⟩

/-- A member of an object, by the text of its value. -/
def spellMember : Text × Text → Text
  | (name, value) => quote name ++ nameSeparator :: value

/-- The members of an object after its first one. -/
def spellMembers : List (Text × Text) → Text
  | [] => []
  | member :: members => valueSeparator :: spellMember member ++ spellMembers members

/-- The compact text of an object, by the texts of its values. -/
def spellObject : List (Text × Text) → Text
  | [] => [beginObject, endObject]
  | member :: members =>
      beginObject :: spellMember member ++ spellMembers members ++ [endObject]

theorem renderMembers_eq_spellMembers
    (members : List (Text × Tree)) :
    renderMembers members = spellMembers (members.map fun m => (m.1, render m.2)) := by
  induction members with
  | nil =>
      rfl
  | cons member members ih =>
      obtain ⟨name, value⟩ := member
      rw [renderMembers, renderMember, ih]
      rfl

theorem render_object
    (members : List (Text × Tree)) :
    render (.object members) = spellObject (members.map fun m => (m.1, render m.2)) := by
  cases members with
  | nil =>
      rfl
  | cons member members =>
      obtain ⟨name, value⟩ := member
      rw [render, renderMember, renderMembers_eq_spellMembers]
      rfl

/-- A member reads as a name with a value. -/
structure Spells (scan : Scanner ε α) (member : Text × Text) (pair : Text × α) : Prop where
  name : pair.1 = member.1
  starts : StartsValue member.2
  reads : Reads scan member.2 pair.2

theorem Spells.objectMember
    {member : Text × Text} {pair : Text × α}
    (h : Spells scan member pair) :
    Reads (objectMember scan) (spellMember member) pair := by
  intro rest hrest
  obtain ⟨name, value⟩ := member
  obtain ⟨name', result⟩ := pair
  obtain rfl : name' = name := h.name
  have hread : scan (value ++ rest) = .ok (result, rest) := h.reads rest hrest
  have htext : spellMember (name', value) ++ rest = quotationMark ::
      (name'.flatMap escape ++ quotationMark :: nameSeparator :: (value ++ rest)) := by
    simp [spellMember, quote]
  rw [htext, Json.objectMember]
  simp only [expect_cons_self, orRaise, bind, Except.bind, scanString_quote,
    skipSpace_cons (by decide : isSpace nameSeparator = false), h.starts.skipSpace, hread]
  rfl

theorem spellMember_head
    (member : Text × Text) :
    ∃ t, spellMember member = quotationMark :: t := by
  obtain ⟨name, value⟩ := member
  exact ⟨_, rfl⟩

theorem skipSpace_spellMember
    (member : Text × Text) (rest : Text) :
    skipSpace (spellMember member ++ rest) = spellMember member ++ rest := by
  obtain ⟨t, ht⟩ := spellMember_head member
  rw [ht]
  exact skipSpace_cons (by decide) _

theorem objectMembers_spelled
    {member : Text × Text} {members : List (Text × Text)} {pair : Text × α}
    {pairs : List (Text × α)} {fuel : Nat}
    (hmember : Spells scan member pair)
    (hmembers : List.Forall₂ (Spells scan) members pairs)
    (hfuel : members.length < fuel) (rest : Text) :
    objectMembers scan fuel (spellMember member ++ (spellMembers members ++ endObject :: rest)) =
      .ok (pair :: pairs, rest) := by
  induction hmembers generalizing member pair fuel with
  | nil =>
      obtain ⟨fuel, rfl⟩ := Nat.exists_eq_add_of_lt hfuel
      rw [objectMembers, spellMembers, List.nil_append,
        hmember.objectMember _ (endsNumber_endObject rest)]
      simp only [bind, Except.bind, skipSpace_cons (by decide : isSpace endObject = false),
        expect_cons_self]
      rfl
  | @cons next nextPair members pairs hnext _ ih =>
      obtain ⟨fuel, rfl⟩ := Nat.exists_eq_add_of_lt hfuel
      have hrest := ih hnext
        (by simp only [List.length_cons]; omega :
          members.length < (next :: members).length + fuel)
      have hend : expect endObject (valueSeparator ::
          (spellMember next ++ (spellMembers members ++ endObject :: rest))) = none :=
        expect_cons_of_ne (by decide) _
      rw [objectMembers, spellMembers, List.cons_append, List.cons_append, List.append_assoc,
        hmember.objectMember _ (endsNumber_valueSeparator _)]
      simp only [bind, Except.bind, skipSpace_cons (by decide : isSpace valueSeparator = false),
        hend, expect_cons_self, orRaise, skipSpace_spellMember, hrest]
      rfl

theorem length_lt_of_spellMembers
    (members : List (Text × Text)) (t rest : Text) :
    members.length < (t ++ (spellMembers members ++ endObject :: rest)).length := by
  induction members generalizing t with
  | nil =>
      simp only [List.length_nil, List.length_append, List.length_cons]
      omega
  | cons member members ih =>
      have := ih (spellMember member)
      simp only [spellMembers, List.length_append, List.length_cons] at this ⊢
      omega

/-- **An object reads as its members do**, however their values are spelled. -/
theorem parseObject_spelled
    {members : List (Text × Text)} {pairs : List (Text × α)} {value : α}
    (hmembers : List.Forall₂ (Spells scan) members pairs)
    (hvalue : hooks.objectPairs pairs = .ok value) (rest : Text) :
    ∃ t, spellObject members ++ rest = beginObject :: t ∧
      parseObject hooks scan t = .ok (value, rest) := by
  cases hmembers with
  | nil =>
      refine ⟨endObject :: rest, rfl, ?_⟩
      simp only [parseObject, skipSpace_cons (by decide : isSpace endObject = false),
        expect_cons_self, bind, Except.bind, hvalue]
      rfl
  | @cons member pair members pairs hmember hmembers =>
      refine ⟨spellMember member ++ (spellMembers members ++ endObject :: rest),
        by simp [spellObject], ?_⟩
      have hread := objectMembers_spelled hmember hmembers
        (length_lt_of_spellMembers members (spellMember member) rest) rest
      have hend : expect endObject (spellMember member ++
          (spellMembers members ++ endObject :: rest)) = none := by
        obtain ⟨t, ht⟩ := spellMember_head member
        rw [ht]
        exact expect_cons_of_ne (by decide) _
      simp only [parseObject, skipSpace_spellMember, hend, hread, bind, Except.bind, hvalue]
      rfl

/-- A hook that refuses a name that it has met takes names that are all different. -/
theorem foldlM_of_nodup
    {pairs : List (Text × α)} {e : ε}
    (h : (pairs.map Prod.fst).Nodup) :
    pairs.foldlM (fun value (entry : Text × α) => do
      raiseIf (entry.1 ∈ value.map Prod.fst) e
      return value ++ [(entry.1, entry.2)]) [] = .ok pairs := by
  have hfold : ∀ pairs value : List (Text × α), ((value ++ pairs).map Prod.fst).Nodup →
      pairs.foldlM (fun value (entry : Text × α) => do
        raiseIf (entry.1 ∈ value.map Prod.fst) e
        return value ++ [(entry.1, entry.2)]) value = .ok (value ++ pairs) := by
    intro pairs
    induction pairs with
    | nil =>
        intro value _
        rw [List.append_nil]
        rfl
    | cons pair pairs ih =>
        intro value hnodup
        have hfresh : pair.1 ∉ value.map Prod.fst := by
          rw [List.map_append, List.map_cons] at hnodup
          intro hmem
          exact List.disjoint_of_nodup_append hnodup hmem List.mem_cons_self
        have hrest := ih (value ++ [pair]) (by simpa using hnodup)
        rw [List.append_assoc] at hrest
        rw [List.foldlM_cons, raiseIf, if_neg hfresh]
        exact hrest
  exact hfold pairs [] h

/-- The members of a tree are spelled by the texts of its values. -/
theorem spells_of_evalMembers
    {members : List (Text × Tree)} {pairs : List (Text × α)}
    (hscan : ∀ member ∈ members, ∀ value, eval hooks member.2 = .ok value →
      Reads scan (render member.2) value)
    (hpairs : evalMembers hooks members = .ok pairs) :
    List.Forall₂ (Spells scan) (members.map fun m => (m.1, render m.2)) pairs := by
  induction members generalizing pairs with
  | nil =>
      cases hpairs
      exact .nil
  | cons member members ih =>
      obtain ⟨name, tree⟩ := member
      simp only [evalMembers, evalMember, except_bind_eq_ok] at hpairs
      obtain ⟨pair, ⟨value, hvalue, hpair⟩, tail, htail, hpairs⟩ := hpairs
      cases hpair
      cases hpairs
      refine .cons ⟨rfl, startsValue_render tree, hscan (name, tree) (by simp) value hvalue⟩ ?_
      exact ih (fun m hm => hscan m (List.mem_cons_of_mem _ hm)) htail

/-- An object is read with room for one more container than its values need. -/
theorem scanOnce_spelled
    {members : List (Text × Text)} {pairs : List (Text × α)} {value : α} {frames : Nat}
    (hmembers : List.Forall₂ (Spells (scanOnce hooks frames)) members pairs)
    (hvalue : hooks.objectPairs pairs = .ok value) :
    Reads (scanOnce hooks (frames + 1)) (spellObject members) value := by
  intro rest hrest
  obtain ⟨t, ht, hparse⟩ := parseObject_spelled hmembers hvalue rest
  rw [ht, scanOnce, scanValue, if_neg (by decide), if_pos rfl]
  exact hparse

/-! ## Values -/

theorem scanScalar_number
    {n : Number} {value : α}
    (hvalue : eval hooks (.number n) = .ok value) :
    Reads (scanScalar hooks) n.parts.text value := by
  intro rest hrest
  have hscan := scanNumber_append hrest n.scans
  simp only [eval] at hvalue
  simp only [scanScalar, hscan, hvalue]
  rfl

theorem scanValue_number
    (n : Number) (nested : Option (Scanner ε α)) (rest : Text) :
    scanValue hooks nested (n.parts.text ++ rest) = scanScalar hooks (n.parts.text ++ rest) := by
  obtain ⟨p, t, ht, hp⟩ := head_of_scanNumber n.scans
  have hne : ∀ q : CodePoint, (decide (q = mark '-') || isDecimal q) = false → p ≠ q := by
    rintro q hq rfl
    rcases hp with rfl | hp
    · exact absurd hq (by decide)
    · simp [hp] at hq
  have hname : ∀ (q : CodePoint) (name : Text), p ≠ q →
      (q :: name).isPrefixOf (p :: (t ++ rest)) = false := by
    intro q name hq
    simp [List.isPrefixOf, Ne.symm hq]
  rw [ht, List.cons_append, scanValue, if_neg (hne _ (by decide)), if_neg (hne _ (by decide)),
    if_neg (hne _ (by decide)), if_neg, if_neg, if_neg]
  · rw [show text "false" = mark 'f' :: text "alse" by decide, hname _ _ (hne _ (by decide))]
    exact Bool.false_ne_true
  · rw [show text "true" = mark 't' :: text "rue" by decide, hname _ _ (hne _ (by decide))]
    exact Bool.false_ne_true
  · rw [show text "null" = mark 'n' :: text "ull" by decide, hname _ _ (hne _ (by decide))]
    exact Bool.false_ne_true

/-- **Reading the compact text of a tree gives what its hooks give.** -/
theorem scanOnce_render
    (tree : Tree) {frames : Nat} {value : α}
    (hnesting : nesting tree ≤ frames)
    (hvalue : eval hooks tree = .ok value) :
    Reads (scanOnce hooks frames) (render tree) value := by
  induction tree generalizing frames value with
  | null =>
      intro rest hrest
      cases hvalue
      cases frames <;> rfl
  | bool b =>
      intro rest hrest
      cases hvalue
      cases b <;> cases frames <;> rfl
  | number n =>
      intro rest hrest
      have hscalar := scanScalar_number hvalue rest hrest
      cases frames with
      | zero =>
          exact (scanValue_number n none rest).trans hscalar
      | succ frames =>
          exact (scanValue_number n _ rest).trans hscalar
  | string t =>
      intro rest hrest
      cases hvalue
      have hstring : ∀ nested, scanValue hooks nested (quote t ++ rest) =
          .ok (hooks.string t, rest) := by
        intro nested
        have htext : quote t ++ rest =
            quotationMark :: (t.flatMap escape ++ quotationMark :: rest) := by
          simp [quote]
        rw [htext, scanValue, if_pos rfl, scanString_quote]
        rfl
      cases frames with
      | zero =>
          exact hstring none
      | succ frames =>
          exact hstring _
  | array items ih =>
      intro rest hrest
      rw [nesting] at hnesting
      obtain ⟨frames, rfl⟩ := Nat.exists_eq_add_of_le' (Nat.one_le_of_lt hnesting)
      simp only [eval, except_bind_eq_ok] at hvalue
      obtain ⟨values, hvalues, hvalue⟩ := hvalue
      cases hvalue
      have hitems : ∀ item ∈ items, ∀ value, eval hooks item = .ok value →
          Reads (scanOnce hooks frames) (render item) value := by
        intro item hitem value hvalue
        have := nesting_le_of_mem_items hitem
        exact ih item hitem (by omega) hvalue
      obtain ⟨t, ht, hparse⟩ := parseArray_render hitems hvalues rest
      rw [ht, scanOnce, scanValue, if_neg (by decide), if_neg (by decide), if_pos rfl]
      exact hparse
  | object members ih =>
      intro rest hrest
      rw [nesting] at hnesting
      obtain ⟨frames, rfl⟩ := Nat.exists_eq_add_of_le' (Nat.one_le_of_lt hnesting)
      simp only [eval, except_bind_eq_ok] at hvalue
      obtain ⟨pairs, hpairs, hvalue⟩ := hvalue
      have hmembers : ∀ member ∈ members, ∀ value, eval hooks member.2 = .ok value →
          Reads (scanOnce hooks frames) (render member.2) value := by
        intro member hmember value hvalue
        have := nesting_le_of_mem_members hmember
        exact ih member hmember (by omega) hvalue
      rw [render_object]
      exact scanOnce_spelled (spells_of_evalMembers hmembers hpairs) hvalue rest hrest

/-- **A whole text is read alike.** -/
theorem loads_render
    (tree : Tree) {frames : Nat} {value : α}
    (hnesting : nesting tree ≤ frames)
    (hvalue : eval hooks tree = .ok value) :
    loads hooks frames (render tree) = .ok value := by
  have hread := scanOnce_render tree hnesting hvalue [] endsNumber_nil
  have hskip := skipSpace_render tree []
  rw [List.append_nil] at hread hskip
  simp only [loads, raiseIf, if_neg (head_ne_byteOrderMark tree), hskip, hread, bind,
    Except.bind]
  rfl

end Reading

end Json
end Base
end Bluetape
