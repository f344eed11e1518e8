import Bluetape.Base.Proc

/-!
# Programs in lockstep

Two programs over different states that ask the same questions.  `Lockstep` relates
them when equal answers lead to related ends, or to different questions after an answer that
parts the programs; `play` runs a program without loops alone, with its answers from an
oracle.

* `Lockstep.bind`, `Lockstep.bind_left`, `Lockstep.bind_right`: sequencing;
* `Lockstep.play`: with one oracle, and no answer that parts them, both programs end, after
  the same questions;
* `Lockstep.play_parted`: after such an answer their questions differ.
-/

namespace Bluetape
namespace Base
namespace Proc

variable {σ τ Λ Λ' Q : Type} {A : Q → Type} {α β ρ ρ' : Type}

/-- The answers to the questions of a program, by their number. -/
abbrev Oracle (A : Q → Type) :=
  Nat → (q : Q) → A q

/--
The result, the state and the questions of a program that runs alone; the next question
has the number `n`.  A loop is not run.
-/
def play (oracle : Oracle A) : {ρ : Type} → Proc σ Λ Q A ρ → Nat → σ → Option (ρ × σ × List Q)
  | _, ret r, _, s => some (r, s, [])
  | _, atomic _ f k, n, s => play oracle (k s) n (f s)
  | _, ask q k, n, s =>
      (play oracle (k (oracle n q)) (n + 1) s).map fun end_ => (end_.1, end_.2.1, q :: end_.2.2)
  | _, iter .., _, _ => none

/-- The questions of a program that runs alone, with their answers, up to its first loop. -/
def exchanges (oracle : Oracle A) :
    {ρ : Type} → Proc σ Λ Q A ρ → Nat → σ → List ((q : Q) × A q)
  | _, ret _, _, _ => []
  | _, atomic _ f k, n, s => exchanges oracle (k s) n (f s)
  | _, ask q k, n, s => ⟨q, oracle n q⟩ :: exchanges oracle (k (oracle n q)) (n + 1) s
  | _, iter .., _, _ => []

/-- Every answer is one of the oracle's. -/
theorem exists_of_mem_exchanges
    {oracle : Oracle A} {p : Proc σ Λ Q A ρ} {n : Nat} {s : σ} {q : Q} {a : A q}
    (h : ⟨q, a⟩ ∈ p.exchanges oracle n s) :
    ∃ m, oracle m q = a := by
  induction p generalizing n s with
  | ret _ =>
      cases h
  | atomic _ _ _ ih =>
      exact ih _ h
  | ask _ _ ih =>
      cases h with
      | head =>
          exact ⟨n, rfl⟩
      | tail _ hlater =>
          exact ih _ hlater
  | iter =>
      cases h

/--
How programs are compared: the answers that they may get, those among them that part the
programs, and how the next questions differ then.
-/
structure Comparison (A : Q → Type) where
  allowed : (q : Q) → A q → Prop
  parts : (q : Q) → A q → Prop
  differ : Q → Q → Prop

/-- The next questions of the programs differ. -/
inductive Parted (differ : Q → Q → Prop) : Proc σ Λ Q A ρ → Proc τ Λ' Q A ρ' → Prop
  | ask {q q' : Q} {k : A q → Proc σ Λ Q A ρ} {k' : A q' → Proc τ Λ' Q A ρ'} :
      differ q q' →
      Parted differ (.ask q k) (.ask q' k')

namespace Parted

variable {differ : Q → Q → Prop}

theorem bind
    {p : Proc σ Λ Q A α} {q : Proc τ Λ' Q A β}
    (h : Parted differ p q) (f : α → Proc σ Λ Q A ρ) (g : β → Proc τ Λ' Q A ρ') :
    Parted differ (p.bind f) (q.bind g) := by
  obtain ⟨hdiffer⟩ := h
  exact .ask hdiffer

theorem bind_left
    {p : Proc σ Λ Q A α} {q : Proc τ Λ' Q A ρ'}
    (h : Parted differ p q) (f : α → Proc σ Λ Q A ρ) :
    Parted differ (p.bind f) q := by
  obtain ⟨hdiffer⟩ := h
  exact .ask hdiffer

theorem bind_right
    {p : Proc σ Λ Q A ρ} {q : Proc τ Λ' Q A β}
    (h : Parted differ p q) (g : β → Proc τ Λ' Q A ρ') :
    Parted differ p (q.bind g) := by
  obtain ⟨hdiffer⟩ := h
  exact .ask hdiffer

end Parted

/--
The programs ask the same questions; after equal answers that are allowed, their results
and states are related, or their next questions differ if the answer parts them.
-/
inductive Lockstep (C : Comparison A) (Post : ρ → ρ' → σ → τ → Prop) :
    Proc σ Λ Q A ρ → Proc τ Λ' Q A ρ' → σ → τ → Prop
  | ret {r : ρ} {r' : ρ'} {s : σ} {t : τ} :
      Post r r' s t →
      Lockstep C Post (.ret r) (.ret r') s t
  | left {l : Λ} {f : σ → σ} {k : σ → Proc σ Λ Q A ρ} {q : Proc τ Λ' Q A ρ'} {s : σ} {t : τ} :
      Lockstep C Post (k s) q (f s) t →
      Lockstep C Post (.atomic l f k) q s t
  | right {l : Λ'} {f : τ → τ} {k : τ → Proc τ Λ' Q A ρ'} {p : Proc σ Λ Q A ρ} {s : σ} {t : τ} :
      Lockstep C Post p (k t) s (f t) →
      Lockstep C Post p (.atomic l f k) s t
  | ask {q : Q} {k : A q → Proc σ Λ Q A ρ} {k' : A q → Proc τ Λ' Q A ρ'} {s : σ} {t : τ} :
      (∀ a, C.allowed q a → ¬ C.parts q a → Lockstep C Post (k a) (k' a) s t) →
      (∀ a, C.allowed q a → C.parts q a → Parted C.differ (k a) (k' a)) →
      Lockstep C Post (.ask q k) (.ask q k') s t

namespace Lockstep

variable {C : Comparison A}

theorem bind
    {Post : α → β → σ → τ → Prop} {Post' : ρ → ρ' → σ → τ → Prop}
    {p : Proc σ Λ Q A α} {q : Proc τ Λ' Q A β}
    {f : α → Proc σ Λ Q A ρ} {g : β → Proc τ Λ' Q A ρ'} {s : σ} {t : τ}
    (h : Lockstep C Post p q s t)
    (hnext : ∀ a b s t, Post a b s t → Lockstep C Post' (f a) (g b) s t) :
    Lockstep C Post' (p.bind f) (q.bind g) s t := by
  induction h with
  | ret hpost =>
      exact hnext _ _ _ _ hpost
  | left _ ih =>
      exact .left ih
  | right _ ih =>
      exact .right ih
  | ask _ hparts ih =>
      exact .ask ih fun a ha hpart => (hparts a ha hpart).bind f g

/-- What the second program goes on with. -/
theorem bind_right
    {Post : ρ → β → σ → τ → Prop} {Post' : ρ → ρ' → σ → τ → Prop}
    {p : Proc σ Λ Q A ρ} {q : Proc τ Λ' Q A β} {g : β → Proc τ Λ' Q A ρ'} {s : σ} {t : τ}
    (h : Lockstep C Post p q s t)
    (hnext : ∀ r b s t, Post r b s t →
      Lockstep C Post' (.ret r : Proc σ Λ Q A ρ) (g b) s t) :
    Lockstep C Post' p (q.bind g) s t := by
  induction h with
  | ret hpost =>
      exact hnext _ _ _ _ hpost
  | left _ ih =>
      exact .left ih
  | right _ ih =>
      exact .right ih
  | ask _ hparts ih =>
      exact .ask ih fun a ha hpart => (hparts a ha hpart).bind_right g

/-- What the first program goes on with. -/
theorem bind_left
    {Post : α → ρ' → σ → τ → Prop} {Post' : ρ → ρ' → σ → τ → Prop}
    {p : Proc σ Λ Q A α} {q : Proc τ Λ' Q A ρ'} {f : α → Proc σ Λ Q A ρ} {s : σ} {t : τ}
    (h : Lockstep C Post p q s t)
    (hnext : ∀ a r' s t, Post a r' s t →
      Lockstep C Post' (f a) (.ret r' : Proc τ Λ' Q A ρ') s t) :
    Lockstep C Post' (p.bind f) q s t := by
  induction h with
  | ret hpost =>
      exact hnext _ _ _ _ hpost
  | left _ ih =>
      exact .left ih
  | right _ ih =>
      exact .right ih
  | ask _ hparts ih =>
      exact .ask ih fun a ha hpart => (hparts a ha hpart).bind_left f

theorem mono
    {Post Post' : ρ → ρ' → σ → τ → Prop} {p : Proc σ Λ Q A ρ} {q : Proc τ Λ' Q A ρ'}
    {s : σ} {t : τ}
    (h : Lockstep C Post p q s t)
    (himp : ∀ r r' s t, Post r r' s t → Post' r r' s t) :
    Lockstep C Post' p q s t := by
  induction h with
  | ret hpost =>
      exact .ret (himp _ _ _ _ hpost)
  | left _ ih =>
      exact .left ih
  | right _ ih =>
      exact .right ih
  | ask _ hparts ih =>
      exact .ask ih hparts

/-- One section on both sides. -/
theorem atomically
    {Post : ρ → ρ' → σ → τ → Prop} {l : Λ} {l' : Λ'} {f : σ → ρ × σ} {g : τ → ρ' × τ}
    {s : σ} {t : τ}
    (h : Post (f s).1 (g t).1 (f s).2 (g t).2) :
    Lockstep C Post (Proc.atomically l f : Proc σ Λ Q A ρ)
      (Proc.atomically l' g : Proc τ Λ' Q A ρ') s t :=
  .left (.right (.ret h))

/-- One section of the first program alone. -/
theorem atomically_left
    {Post : ρ → ρ' → σ → τ → Prop} {l : Λ} {f : σ → α × σ} {k : α → Proc σ Λ Q A ρ}
    {q : Proc τ Λ' Q A ρ'} {s : σ} {t : τ}
    (h : Lockstep C Post (k (f s).1) q (f s).2 t) :
    Lockstep C Post ((Proc.atomically l f).bind k) q s t :=
  .left h

/-- One section of the second program alone. -/
theorem atomically_right
    {Post : ρ → ρ' → σ → τ → Prop} {l : Λ'} {g : τ → β × τ} {p : Proc σ Λ Q A ρ}
    {k : β → Proc τ Λ' Q A ρ'} {s : σ} {t : τ}
    (h : Lockstep C Post p (k (g t).1) s (g t).2) :
    Lockstep C Post p ((Proc.atomically l g).bind k) s t :=
  .right h

/--
**With the same answers both programs end**, after the same questions, when no answer parts
them.
-/
theorem play
    {Post : ρ → ρ' → σ → τ → Prop} {p : Proc σ Λ Q A ρ} {q : Proc τ Λ' Q A ρ'} {s : σ} {t : τ}
    (h : Lockstep C Post p q s t) {oracle : Oracle A}
    (horacle : ∀ n q, C.allowed q (oracle n q)) (n : Nat)
    (htogether : ∀ x ∈ q.exchanges oracle n t, ¬ C.parts x.1 x.2) :
    ∃ r s' r' t' questions, p.play oracle n s = some (r, s', questions) ∧
      q.play oracle n t = some (r', t', questions) ∧ Post r r' s' t' := by
  induction h generalizing n with
  | ret hpost =>
      exact ⟨_, _, _, _, [], rfl, rfl, hpost⟩
  | left _ ih =>
      exact ih n htogether
  | right _ ih =>
      exact ih n htogether
  | @ask q k k' s t _ _ ih =>
      obtain ⟨hfirst, hrest⟩ := List.forall_mem_cons.mp htogether
      obtain ⟨r, s', r', t', questions, hp, hq, hpost⟩ :=
        ih _ (horacle n q) hfirst (n + 1) hrest
      refine ⟨r, s', r', t', q :: questions, ?_, ?_, hpost⟩
      · simp only [Proc.play, hp, Option.map_some]
      · simp only [Proc.play, hq, Option.map_some]

/-- **Programs that an answer parts** ask different questions after it. -/
theorem play_parted
    {Post : ρ → ρ' → σ → τ → Prop} {p : Proc σ Λ Q A ρ} {q : Proc τ Λ' Q A ρ'} {s : σ} {t : τ}
    (h : Lockstep C Post p q s t) {oracle : Oracle A}
    (horacle : ∀ n q, C.allowed q (oracle n q)) {n : Nat} {x : (q : Q) × A q}
    (hx : x ∈ q.exchanges oracle n t) (hparts : C.parts x.1 x.2)
    {r : ρ} {s' : σ} {questions : List Q} (hp : p.play oracle n s = some (r, s', questions))
    {r' : ρ'} {t' : τ} {questions' : List Q}
    (hq : q.play oracle n t = some (r', t', questions')) :
    ∃ common y y' rest rest', C.differ y y' ∧ questions = common ++ y :: rest ∧
      questions' = common ++ y' :: rest' := by
  induction h generalizing n questions questions' with
  | ret _ =>
      cases hx
  | left _ ih =>
      exact ih hx hp hq
  | right _ ih =>
      exact ih hx hp hq
  | @ask q k k' s t _ hparted ih =>
      obtain ⟨⟨r₁, s₁, asked⟩, hp₁, hends⟩ := Option.map_eq_some_iff.mp hp
      obtain ⟨⟨r₁', t₁, asked'⟩, hq₁, hends'⟩ := Option.map_eq_some_iff.mp hq
      cases hends
      cases hends'
      by_cases hfirst : C.parts q (oracle n q)
      · -- the next question of each program is where they differ
        have hnext := hparted _ (horacle n q) hfirst
        generalize k (oracle n q) = p₁ at hp₁ hnext
        generalize k' (oracle n q) = q₁ at hq₁ hnext
        obtain ⟨hdiffer⟩ := hnext
        obtain ⟨_, -, hends⟩ := Option.map_eq_some_iff.mp hp₁
        obtain ⟨_, -, hends'⟩ := Option.map_eq_some_iff.mp hq₁
        cases hends
        cases hends'
        exact ⟨[q], _, _, _, _, hdiffer, rfl, rfl⟩
      · have hlater : x ∈ (k' (oracle n q)).exchanges oracle (n + 1) t := by
          rcases List.mem_cons.mp hx with rfl | hlater
          · exact absurd hparts hfirst
          · exact hlater
        obtain ⟨common, y, y', rest, rest', hdiffer, rfl, rfl⟩ :=
          ih _ (horacle n q) hfirst hlater hp₁ hq₁
        exact ⟨q :: common, y, y', rest, rest', hdiffer, rfl, rfl⟩

end Lockstep
end Proc
end Base
end Bluetape
