import Bluetape.Base.Proc

/-!
# Triples for programs that may raise

`S.Triple guar t P p R J` says: from the precondition `P` the thread keeps its
guarantee throughout `p`, which returns in `R` or raises in `J`, whatever the other
threads do within their guarantees.

* `Triple.bind`, `Triple.resume`: sequencing and handlers;
* `Triple.question`, `Triple.atomically`: the two kinds of steps;
* `Triple.tryFinally`: what is done however a program ends;
* `Triple.frame`: a condition that no step breaks can stand beside every triple.
-/

namespace Bluetape
namespace Base

/-- `try: p finally: cleanup`; what the cleanup raises replaces the end of `p`. -/
def tryFinally {σ Λ Q ε α : Type} {A : Q → Type} (p : ExceptT ε (Proc σ Λ Q A) α)
    (cleanup : ExceptT ε (Proc σ Λ Q A) Unit) : ExceptT ε (Proc σ Λ Q A) α :=
  ExceptT.mk (p.run.bind fun ended => cleanup.run.bind fun cleaned =>
    match cleaned with
    | .error e => .ret (.error e)
    | .ok () => .ret ended)

namespace System

variable {T G σ Λ Q E : Type} {A : Q → Type}
variable {S : System T G σ Λ Q E A} {guar : T → Act Λ Q A → G → G → Prop} {t : T}

/-! ## Conditions that last -/

/-- No event and no step within a guarantee breaks the condition. -/
def Lasts (S : System T G σ Λ Q E A) (guar : T → Act Λ Q A → G → G → Prop)
    (F : G → Prop) : Prop :=
  (∀ e g g', F g → S.env e g = some g' → F g') ∧
    ∀ u act g g', F g → guar u act g g' → F g'

theorem Lasts.stable
    {F : G → Prop}
    (hF : S.Lasts guar F) :
    S.Stable guar t F :=
  .of_steps hF.1 fun u act g g' _ => hF.2 u act g g'

/-- What lasts holds at the end of a program if it holds at its start. -/
theorem wp_frame
    {ρ : Type} {F : G → Prop}
    (hF : S.Lasts guar F)
    (p : Proc σ Λ Q A ρ) {Φ : ρ → G → Prop} {g : G}
    (h : S.wp guar t p Φ g)
    (hg : F g) :
    S.wp guar t p (fun r g => Φ r g ∧ F g) g := by
  have hstable : S.Stable guar t F := hF.stable
  induction p generalizing g with
  | ret r =>
      exact fun g' hothers => ⟨h g' hothers, hstable g g' hg hothers⟩
  | atomic l f k ih =>
      intro g₁ hothers hen
      obtain ⟨hguar, hrest⟩ := h g₁ hothers hen
      exact ⟨hguar, ih _ hrest (hF.2 _ _ _ _ (hstable g g₁ hg hothers) hguar)⟩
  | ask q k ih =>
      intro g₁ hothers g₂ hissue
      obtain ⟨hguar, hwait⟩ := h g₁ hothers g₂ hissue
      have hg₂ : F g₂ := hF.2 _ _ _ _ (hstable g g₁ hg hothers) hguar
      refine ⟨hguar, fun g₃ hothers' a g₄ hanswer => ?_⟩
      obtain ⟨hguar', hrest⟩ := hwait g₃ hothers' a g₄ hanswer
      exact ⟨hguar', ih a hrest (hF.2 _ _ _ _ (hstable g₂ g₃ hg₂ hothers') hguar')⟩
  | iter body a k ihbody ihk =>
      -- the loop's invariant, with what lasts beside it
      obtain ⟨I, hstart, hbody⟩ := h
      refine ⟨fun a g => I a g ∧ F g, ⟨hstart, hg⟩, ?_⟩
      rintro a' g₁ ⟨hI, hF₁⟩
      refine wp_mono (body a') ?_ (ihbody a' (hbody a' g₁ hI) hF₁)
      rintro (a'' | b) g₂ ⟨hr, hF₂⟩
      · exact ⟨hr, hF₂⟩
      · exact ihk b hr hF₂

/-! ## Triples -/

section Triples

variable {ε α β : Type}

/-- A postcondition for each end of a program that may raise. -/
def Ends (R : α → G → Prop) (J : ε → G → Prop) : Except ε α → G → Prop
  | .ok a => R a
  | .error e => J e

/-- The thread keeps its guarantee, returns in `R` and raises in `J`. -/
def Triple (S : System T G σ Λ Q E A) (guar : T → Act Λ Q A → G → G → Prop) (t : T)
    (P : G → Prop) (p : ExceptT ε (Proc σ Λ Q A) α) (R : α → G → Prop)
    (J : ε → G → Prop) : Prop :=
  ∀ g, P g → S.wp guar t p.run (Ends R J) g

theorem Stable.ends
    {R : α → G → Prop} {J : ε → G → Prop}
    (hR : ∀ a, S.Stable guar t (R a))
    (hJ : ∀ e, S.Stable guar t (J e))
    (r : Except ε α) :
    S.Stable guar t (Ends R J r) := by
  cases r with
  | ok a => exact hR a
  | error e => exact hJ e

namespace Triple

variable {P P' F : G → Prop} {p : ExceptT ε (Proc σ Λ Q A) α}
  {R R' : α → G → Prop} {J J' : ε → G → Prop}

theorem weaken
    (h : S.Triple guar t P p R J)
    (hpre : ∀ g, P' g → P g)
    (hpost : ∀ a g, R a g → R' a g)
    (hexc : ∀ e g, J e g → J' e g) :
    S.Triple guar t P' p R' J' := by
  intro g hg
  refine wp_mono p.run ?_ (h g (hpre g hg))
  rintro (e | a) g' hg'
  · exact hexc e g' hg'
  · exact hpost a g' hg'

/-- A precondition that does not depend on the world. -/
theorem of_pure
    {φ : Prop}
    (h : φ → S.Triple guar t P p R J) :
    S.Triple guar t (fun g => φ ∧ P g) p R J :=
  fun g hg => h hg.1 g hg.2

theorem pure
    (hP : S.Stable guar t P)
    {a : α}
    (hpost : ∀ g, P g → R a g) :
    S.Triple guar t P (Pure.pure a) R J :=
  fun _ hg => wp_except_pure a ((hP.stably hg).mono hpost)

theorem throw
    (hP : S.Stable guar t P)
    {e : ε}
    (hexc : ∀ g, P g → J e g) :
    S.Triple guar t P (MonadExcept.throw e) R J :=
  fun _ hg => wp_except_throw e ((hP.stably hg).mono hexc)

theorem bind
    {M : α → G → Prop} {next : α → ExceptT ε (Proc σ Λ Q A) β} {R : β → G → Prop}
    (hJ : ∀ e, S.Stable guar t (J e))
    (hp : S.Triple guar t P p M J)
    (hnext : ∀ a, S.Triple guar t (M a) (next a) R J) :
    S.Triple guar t P (p >>= next) R J := by
  intro g hg
  refine wp_except_bind p next (wp_mono p.run ?_ (hp g hg))
  rintro (e | a) g' hg'
  · exact (hJ e).stably hg'
  · exact hnext a g' hg'

/-- What follows a program is told how it has ended. -/
theorem resume
    {M : α → G → Prop} {K : ε → G → Prop}
    {next : Except ε α → Proc σ Λ Q A (Except ε β)} {R : β → G → Prop}
    (hp : S.Triple guar t P p M K)
    (hok : ∀ a, S.Triple guar t (M a) (ExceptT.mk (next (.ok a))) R J)
    (herror : ∀ e, S.Triple guar t (K e) (ExceptT.mk (next (.error e))) R J) :
    S.Triple guar t P (ExceptT.mk (p.run.bind next)) R J := by
  intro g hg
  refine wp_bind p.run _ (wp_mono p.run ?_ (hp g hg))
  rintro (e | a) g' hg'
  · exact herror e g' hg'
  · exact hok a g' hg'

/-- The cleanup runs after either end; the program's own end comes after it. -/
theorem tryFinally
    {M : α → G → Prop} {K : ε → G → Prop} {cleanup : ExceptT ε (Proc σ Λ Q A) Unit}
    (hR : ∀ a, S.Stable guar t (R a))
    (hJ : ∀ e, S.Stable guar t (J e))
    (hp : S.Triple guar t P p M K)
    (hok : ∀ a, S.Triple guar t (M a) cleanup (fun _ => R a) J)
    (herror : ∀ e, S.Triple guar t (K e) cleanup (fun _ => J e) J) :
    S.Triple guar t P (Base.tryFinally p cleanup) R J := by
  have hends : ∀ (ended : Except ε α) (N : G → Prop),
      S.Triple guar t N cleanup (fun _ => Ends R J ended) J →
      S.Triple guar t N (ExceptT.mk (cleanup.run.bind fun cleaned =>
        match cleaned with
        | .error e => .ret (.error e)
        | .ok () => .ret ended)) R J := by
    intro ended N hcleanup
    refine .resume hcleanup (fun _ g hg => ?_) fun e g hg => ?_
    · exact (Stable.ends hR hJ ended).stably hg
    · exact (hJ e).stably hg
  exact .resume hp (fun a => hends (.ok a) _ (hok a)) fun e => hends (.error e) _ (herror e)

/-- A question, with what holds while the thread waits for the answer. -/
theorem question
    {W : G → Prop} {q : Q} {R : A q → G → Prop}
    (hP : S.Stable guar t P)
    (hW : S.Stable guar t W)
    (hR : ∀ a, S.Stable guar t (R a))
    (hissue : ∀ g g', P g → S.issue t q g = some g' → guar t (.asked q) g g' ∧ W g')
    (hanswer : ∀ a g g', W g → S.answer t q a g = some g' →
      guar t (.answered q a) g g' ∧ R a g') :
    S.Triple guar t P (liftM (Proc.request q : Proc σ Λ Q A (A q))) R J := by
  intro g hg
  refine wp_except_lift _ (wp_ask hP hW hissue (fun a g g' hg hstep => ?_) hg)
  obtain ⟨hguar, hpost⟩ := hanswer a g g' hg hstep
  exact ⟨hguar, wp_ret (hR a) (fun g hg => (hR a).stably hg) hpost⟩

/-- A section that returns or raises. -/
theorem atomically
    {l : Λ} {f : σ → Except ε α × σ}
    (hP : S.Stable guar t P)
    (hR : ∀ a, S.Stable guar t (R a))
    (hJ : ∀ e, S.Stable guar t (J e))
    (hstep : ∀ g, P g → S.enabled t l g = true →
      guar t (.atomic l) g (S.put t (f (S.view t g)).2 g) ∧
        Ends R J (f (S.view t g)).1 (S.put t (f (S.view t g)).2 g)) :
    S.Triple guar t P (ExceptT.mk (Proc.atomically l f)) R J := by
  intro g hg
  refine wp_atomically hP (fun g hg hen => ?_) hg
  obtain ⟨hguar, hends⟩ := hstep g hg hen
  exact ⟨hguar, (Stable.ends hR hJ _).stably hends⟩

/-- What lasts can stand beside a triple. -/
theorem frame
    (hF : S.Lasts guar F)
    (h : S.Triple guar t P p R J) :
    S.Triple guar t (fun g => P g ∧ F g) p (fun a g => R a g ∧ F g)
      (fun e g => J e g ∧ F g) := by
  rintro g ⟨hg, hFg⟩
  refine wp_mono p.run ?_ (wp_frame hF p.run (h g hg) hFg)
  rintro (e | a) g' hg'
  · exact hg'
  · exact hg'

end Triple

end Triples

end System
end Base
end Bluetape
